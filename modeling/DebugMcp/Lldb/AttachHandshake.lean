/-
The attach handshake, for every order of the adapter's messages.

An attach registers its stop waiter behind the deferred response, so
behind `configurationDone`'s: what it returns is the first execution
event since then. An event that was dispatched earlier found no waiter
and is gone, which the last run of this file shows.
-/
import DebugMcp.Lldb.Handshake
import DebugMcp.Lldb.Refusal

namespace DebugMcp

open Conc

-- ============================================================ the order

/-- What an attach writes, in order. -/
def attachRequests (spec : AttachSpec) : List DapRequest :=
  [Requests.initializeRequest,
    Requests.attach (LldbAttachArgs.new spec).toValue,
    Requests.setExceptionBreakpoints, Requests.configurationDone]

/-- An attach can succeed. -/
theorem attach_handshakes {calls : Nat → LldbCall} {stderr : String}
    {spec : AttachSpec} (h0 : calls 0 = .attach stderr spec)
    (hone : OnlyHandshake calls) : Handshakes calls where
  opening := by
    rw [h0]
    exact ⟨_, _, _, _, rfl, by simp⟩
  accepting := by
    unfold Accepting
    rw [h0]
    exact attach_accepts stderr spec
  only := hone

-- ===================================================== the registration

/-- Call 0 registered its stop waiter once it had written all of `qs` and
every one was settled. -/
def RegisteredLate (qs : List DapRequest) : ClientHistory → Prop
  | [] => True
  | .act i op _ _ _ :: h => (i = 0 → op.registersStop = true →
      (writes 0 h).map (·.setSeq 0) = qs ∧ allSettled 0 h = true) ∧
      RegisteredLate qs h
  | .env _ _ _ :: h => RegisteredLate qs h

/-- A caller that registers is at that step of its plan. -/
theorem PlanNext.registering {p p' : CallPhase} {β : Type}
    {op : ClientOp β} {b : β} (hq : PlanNext p op b p')
    (hop : op.registersStop = true) : ∃ rest sv ar,
      p = .active (.register :: rest) .idle sv ar ∧
        p' = .active rest .idle sv true := by
  cases hq with
  | registerStop rest sv ar => exact ⟨rest, sv, ar, rfl, rfl⟩
  | _ => cases hop

/-- Any other step leaves the waiter as it is. -/
theorem PlanNext.armed_stays {p p' : List PlanStep} {st st' : Stage}
    {sv sv' : Option (Int × ChanId)} {ar ar' : Bool} {β : Type}
    {op : ClientOp β} {b : β}
    (hq : PlanNext (.active p st sv ar) op b (.active p' st' sv' ar'))
    (hop : op.registersStop = false) : ar = ar' := by
  cases hq with
  | registerStop => cases hop
  | _ => rfl

/-- An attach registers at the end of its plan. -/
theorem attach_registers {stderr : String} {spec : AttachSpec}
    {rest : List PlanStep}
    (hs : .register :: rest <:+ attachPlan stderr spec) :
    rest = [.stop] := by
  simpa [attachPlan, List.suffix_cons_iff] using hs

/-- A caller that goes on holds the channel of what it has just
written. -/
theorem PlanNext.wrote_written {p : CallPhase} {p' : List PlanStep}
    {st : Stage} {sv : Option (Int × ChanId)} {ar : Bool} {β : Type}
    {op : ClientOp β} {b : β} {q : DapRequest}
    (hq : PlanNext p op b (.active p' st sv ar))
    (hw : op.wrote b = some q) :
    ∃ c, (q.seq, c) ∈ (CallPhase.active p' st sv ar).written := by
  cases hq with
  | write q check rest sv ar n c =>
      cases hw
      exact ⟨c, List.mem_cons_self ..⟩
  | writeDeferred q rest ar n c =>
      cases hw
      exact ⟨c, List.mem_singleton_self _⟩
  | _ => cases hw

/-- It lets go of such a channel when it has received the answer. -/
theorem PlanNext.written_stays {p : CallPhase} {p' : List PlanStep}
    {st : Stage} {sv : Option (Int × ChanId)} {ar : Bool} {β : Type}
    {op : ClientOp β} {b : β} {n : Int} {c : ChanId}
    (hq : PlanNext p op b (.active p' st sv ar))
    (hm : (n, c) ∈ p.written) :
    (n, c) ∈ (CallPhase.active p' st sv ar).written ∨
      ∃ r, op.received b = some (c, r) := by
  cases hq with
  | answer q check rest sv ar m d r hr =>
      rcases List.mem_cons.mp hm with he | hm
      · cases he
        exact .inr ⟨r, rfl⟩
      · exact .inl hm
  | response check rest ar m d r hr =>
      cases List.mem_singleton.mp hm
      exact .inr ⟨r, rfl⟩
  | write q check rest sv ar m d => exact .inl (List.mem_cons_of_mem _ hm)
  | writeDeferred => cases hm
  | _ => exact .inl hm

/-- What an attach has written is settled, or it holds the channel. -/
def AnsweredInv (φ : Nat → CallPhase) (h : ClientHistory) : Prop :=
  ∀ {p st sv ar}, φ 0 = .active p st sv ar → ∀ q ∈ writes 0 h,
    (outcome q.seq h).isSome ∨ ∃ c, (q.seq, c) ∈ (φ 0).written

theorem answeredInv (calls : Nat → LldbCall) :
    InductiveOver clientMachine PlanNext (fun _ _ => True)
      (WireInv calls) (fun _ φ h => AnsweredInv φ h) where
  act := by
    intro w w' φ h i β op a b q' hW hI hr hq _ p st sv ar hp q hm
    have hr : w.run i op a = some (b, w') := hr
    have hkept : ∀ {q}, q ∈ writes 0 h →
        outcome q.seq (.act i op b w w' :: h) = outcome q.seq h :=
      fun hm => outcome_kept hW.caller.entry hW.seq hq hm
    rw [writes_act] at hm
    by_cases hi : i = 0
    · subst hi
      rw [Function.update_self] at hp ⊢
      subst hp
      rw [if_pos rfl] at hm
      obtain ⟨p₀, st₀, sv₀, ar₀, hp₀⟩ := hq.from_active
      rcases List.mem_append.mp hm with hm | hm
      · rw [hkept hm]
        rcases hI hp₀ q hm with hs | ⟨c, hc⟩
        · exact .inl hs
        · rcases hq.written_stays hc with hc | ⟨r, hx⟩
          · exact .inr ⟨c, hc⟩
          · obtain ⟨x, -, hout⟩ := recv_outcome hW.caller.entry hW.reply
              (CallPhase.written_opens hc) (DapClient.run_received hr hx)
            exact .inl (by rw [hout]; rfl)
      · obtain ⟨c, hc⟩ :=
          hq.wrote_written (Option.mem_toList.mp hm)
        exact .inr ⟨c, hc⟩
    · rw [Function.update_of_ne fun e => hi e.symm] at hp ⊢
      rw [if_neg hi, List.append_nil] at hm
      rw [hkept hm]
      exact hI hp q hm
  env := by
    intro w w' φ h e _ hI _ _ p st sv ar hp q hm
    rcases hI hp q hm with hs | hc
    · obtain ⟨x, hx⟩ := Option.isSome_iff_exists.mp hs
      exact .inl (by rw [outcome_env hx]; rfl)
    · exact .inr hc

/-- A deferred request's channel is held until its response is
collected. -/
theorem HandPlan.keeps_saved {cmd : String} {p p' : List PlanStep}
    {sv sv' : Option (Int × ChanId)} {x : Option DapRequest}
    {y : Option (ChanId × Except Unit PendingResult)}
    (hp : HandPlan cmd p) (hm : PlanMove p sv x y p' sv')
    (hsv : sv'.isSome)
    (hI : sv.isSome → ∃ s ∈ p, s.isResponse = true) :
    ∃ s ∈ p', s.isResponse = true := by
  cases hm with
  | within => exact hI hsv
  | past t p sv y ht =>
      obtain ⟨s, hs, hr⟩ := hI hsv
      rcases List.mem_cons.mp hs with rfl | hs
      · cases s with
        | response check => exact absurd rfl (ht check)
        | _ => cases hr
      · exact ⟨s, hs, hr⟩
  | write q check p sv n => exact hI hsv
  | defer q p n c => exact hp.after (List.suffix_refl _)
  | collect => cases hsv

/-- What an attach's stop waiter adds. -/
structure AttachStop (spec : AttachSpec) (calls : Nat → LldbCall)
    (φ : Nat → CallPhase) (h : ClientHistory) : Prop where
  answered : AnsweredInv φ h
  saved : ∀ {p st sv ar}, φ 0 = .active p st sv ar → sv.isSome →
    ∃ s ∈ p, s.isResponse = true
  late : RegisteredLate (attachRequests spec) h
  armed : ∀ {p st sv}, φ 0 = .active p st sv true →
    hasRegistered 0 h = true
  got : ∀ {r}, φ 0 = .got r → hasRegistered 0 h = true
  woken : OnlyRegistered calls →
    ∀ r, DebugMcp.woken 0 h = some r → ∃ o, r = .ok o

theorem attachStop {calls : Nat → LldbCall} {stderr : String}
    {spec : AttachSpec} (h0 : calls 0 = .attach stderr spec) :
    InductiveOver clientMachine PlanNext Honest (HandshakeInv calls)
      (fun _ φ h => AttachStop spec calls φ h) where
  act := by
    intro w w' φ h i β op a b q' hI hJ hr hq _
    have hother : i ≠ 0 → Function.update φ i q' 0 = φ 0 :=
      fun hi => Function.update_of_ne (fun e => hi e.symm) _ _
    have hkeeps : hasRegistered 0 h = true →
        hasRegistered 0 (.act i op b w w' :: h) = true := by
      intro hreg
      show ((i = 0 && op.registersStop) || hasRegistered 0 h) = true
      rw [hreg, Bool.or_true]
    refine ⟨(answeredInv calls).act hI.wire hJ.answered hr hq trivial,
      fun {p st sv ar} hp hsv => ?_, ⟨fun hi hop => ?_, hJ.late⟩,
      fun {p st sv} hp => ?_, fun {r} hp => ?_,
      fun hone => (wokenOk calls hone).act hI.wire.caller
        (hJ.woken hone) hr hq trivial⟩
    · by_cases hi : i = 0
      · subst hi
        rw [Function.update_self] at hp
        subst hp
        obtain ⟨p₀, st₀, sv₀, ar₀, hp₀⟩ := hq.from_active
        have hsuf := hI.wire.caller.plan 0
        rw [hp₀, h0] at hsuf
        rw [hp₀] at hq
        exact ((attach_handPlan stderr spec).suffix hsuf).keeps_saved
          hq.move hsv (hJ.saved hp₀)
      · rw [hother hi] at hp
        exact hJ.saved hp hsv
    · subst hi
      obtain ⟨rest, sv, ar, hp, -⟩ := hq.registering hop
      have hsuf := hI.wire.caller.plan 0
      rw [hp, h0] at hsuf
      cases attach_registers hsuf
      have hrest := hI.wire.sent.rest 0 hI.live
      rw [hp, h0, show (CallPhase.active [.register, .stop] .idle sv
        ar).unsent = [] from rfl, List.append_nil] at hrest
      refine ⟨hrest, List.all_eq_true.mpr fun q hm => ?_⟩
      rcases hJ.answered hp q hm with hs | ⟨c, hc⟩
      · exact hs
      · -- No channel is held any more.
        rw [hp] at hc
        obtain ⟨s, hs, hres⟩ := hJ.saved hp
          (Option.isSome_of_mem (Option.mem_toList.mp hc))
        simp only [List.mem_cons, List.not_mem_nil, or_false] at hs
        rcases hs with rfl | rfl <;> cases hres
    · by_cases hi : i = 0
      · subst hi
        rw [Function.update_self] at hp
        subst hp
        obtain ⟨p₀, st₀, sv₀, ar₀, hp₀⟩ := hq.from_active
        cases hop : op.registersStop with
        | true =>
            show ((decide (0 = 0) && op.registersStop)
              || hasRegistered 0 h) = true
            rw [hop]
            rfl
        | false =>
            rw [hp₀] at hq
            cases hq.armed_stays hop
            exact hkeeps (hJ.armed hp₀)
      · rw [hother hi] at hp
        exact hkeeps (hJ.armed hp)
    · by_cases hi : i = 0
      · subst hi
        rw [Function.update_self] at hp
        subst hp
        obtain ⟨⟨sv, hp₀⟩, -⟩ := hq.from_stop
        exact hkeeps (hJ.armed hp₀)
      · rw [hother hi] at hp
        exact hkeeps (hJ.got hp)
  env := by
    intro w w' φ h e hI hJ he _
    exact ⟨(answeredInv calls).env hI.wire hJ.answered he trivial,
      hJ.saved, hJ.late, hJ.armed, hJ.got,
      fun hone => (wokenOk calls hone).env hI.wire.caller
        (hJ.woken hone) he trivial⟩

theorem AttachStop.start {calls : Nat → LldbCall} (spec : AttachSpec) :
    AttachStop spec calls (fun i => (calls i).phase₀) [] where
  answered _ _ hm := by cases hm
  saved hp hsv := by
    cases (CallPhase.active.inj hp).2.2.1
    cases hsv
  late := trivial
  armed hp := by cases (CallPhase.active.inj hp).2.2.2
  got := nofun
  woken _ := nofun

-- ============================================================== the run

/-- What the attach handshake of call 0 does, in a run with history `h`
that ends in `s`. -/
structure AttachRun (spec : AttachSpec) (calls : Nat → LldbCall)
    (h : ClientHistory) (s : Pool ClientOp LldbResult DapClient) :
    Prop where
  order : (writes 0 h).map (·.setSeq 0) <+: attachRequests spec
  gate : Gated h
  /-- It goes on for a bounded number of steps. -/
  bounded : stepsOf 0 h ≤ ((calls 0).phase₀).fuel
  /-- It registers its stop waiter behind both its last responses. -/
  late : RegisteredLate (attachRequests spec) h
  /-- At rest it does not wait once `initialized` was dispatched, what it
  wrote is settled, and an execution event came since it registered. -/
  progress : s.world.reader = [] → fired h = true →
    allSettled 0 h = true →
    (hasRegistered 0 h = true → (woken 0 h).isSome) → GoesOn h s
  /-- It returns the outcome of the first execution event since then. -/
  returned : OnlyRegistered calls → ∀ x, s.returned 0 = some x →
    hasRegistered 0 h = true ∧ ∃ o, woken 0 h = some (.ok o) ∧
      x = .attach (some (.ok (attachOutcome o)))

/-- **An attach returns the first execution event since it registered**,
for every order of the adapter's messages. -/
theorem attach_returns_next {calls : Nat → LldbCall} {stderr : String}
    {spec : AttachSpec} (h0 : calls 0 = .attach stderr spec)
    (hone : OnlyHandshake calls) {h : ClientHistory}
    {s : Pool ClientOp LldbResult DapClient}
    (hr : RunIf clientMachine Honest (lldbPool calls) h s) :
    AttachRun spec calls h s := by
  obtain ⟨φ, ⟨hI, hJ⟩, hobey⟩ := handshake_run (attach_handshakes h0 hone)
    (attachStop h0) (.start spec) hr
  have hreq : requests (calls 0).plan = attachRequests spec := by
    rw [h0]
    rfl
  refine ⟨hreq ▸ hI.wire.sent.front 0, hI.gate,
    Nat.le_of_add_right_le (hI.steps 0), hJ.late,
    fun hrest hf hset hev => ?_, fun hreg x hx => ?_⟩
  · refine goesOn_of_not_waiting hr ((Bool.not_eq_true _).mp fun hw => ?_)
    obtain ⟨⟨sv, hp⟩, hnone⟩ :=
      hI.wire.waits_stop (hobey 0) hrest hset (fun _ => hf) hw
    have hsome := hev (hJ.armed hp)
    rw [hnone] at hsome
    cases hsome
  · have hends := hobey 0 _ (Pool.prog_of_returned hx)
    rw [h0] at hends
    obtain ⟨y, rfl, hy⟩ := hends
    generalize hp : φ 0 = p at hy
    cases hy with
    | failed y hne =>
        have hl := hI.live
        rw [hp] at hl
        cases hl
    | got r =>
        have hw := hI.wire.got hp
        obtain ⟨o, rfl⟩ := hJ.woken hreg r hw
        exact ⟨hJ.got hp, o, hw, rfl⟩
    | plain a ha => cases ha

/-- One attach alone. -/
def oneAttach : Nat → LldbCall
  | 0 => .attach "" { pid := some 7, waitFor := none }
  | _ => .absent

/-- A stop of the attached process. -/
def attachStopped : StoppedEvent where
  seq := 0
  ty := "event"
  event := "stopped"
  body :=
    { reason := "signal", description := "", threadId := 1, text := "",
      allThreadsStopped := true, hitBreakpointIds := [] }

/-- Up to the write of `configurationDone`. -/
def attaching : List (Action Reply ClientMove) :=
  launching ++ [.env (.frame (.event .initialized)), .env (.reader 0)]
    ++ steps 0 4 ++ answering 3 true "setExceptionBreakpoints"
    ++ steps 0 4

/-- An attach that is stopped once it has registered returns that. -/
theorem attach_returns_stop : ∃ h s,
    RunIf clientMachine Honest (lldbPool oneAttach) h s ∧
      s.returned 0 = some (.attach (some (.ok
        (.stopped (stopInfoFromEvent attachStopped))))) := by
  have hother : ∀ {t : PlanStep} (i : Nat), i ≠ 0 →
      t ∉ (oneAttach i).plan := by
    intro t i hi
    cases i with
    | zero => exact absurd rfl hi
    | succ i => exact List.not_mem_nil
  obtain ⟨h, s, hr, hm, hret, hwoken⟩ := exec_witness clientMachine
    (lldbPool oneAttach)
    (attaching ++ answering 2 true "attach"
      ++ answering 4 true "configurationDone" ++ steps 0 3
      ++ [.env (.frame (.event (.stopped attachStopped))),
        .env (.reader 0), .env (.reader 0)]
      ++ steps 0 1)
    (fun h s => Meets Honest h ∧ (s.returned 0).isSome ∧
      woken 0 h = some (.ok (.stopped (stopInfoFromEvent attachStopped))))
    (by decide +kernel)
  obtain ⟨x, hx⟩ := Option.isSome_iff_exists.mp hret
  have hrun := RunIf.ofMeets hr hm
  obtain ⟨-, o, ho, rfl⟩ :=
    (attach_returns_next rfl hother hrun).returned hother x hx
  cases ho.symm.trans hwoken
  exact ⟨h, s, hrun, hx⟩

/-- An attach whose process stops between the receipt of
`configurationDone` and its response: everything is dispatched and
settled, the stop is gone, and it waits. -/
theorem attach_loses_stop : ∃ h s,
    RunIf clientMachine Honest (lldbPool oneAttach) h s ∧
      s.world.reader = [] ∧ fired h = true ∧ allSettled 0 h = true ∧
      (stopAfter 0 "configurationDone" h).isSome = true ∧
      waiting s 0 = true := by
  obtain ⟨h, s, hr, hm, hrest, hx⟩ := exec_witness clientMachine
    (lldbPool oneAttach)
    (attaching
      ++ [.env (.frame (.event (.stopped attachStopped))),
        .env (.reader 0)]
      ++ answering 2 true "attach" ++ answering 4 true "configurationDone"
      ++ steps 0 3)
    (fun h s => Meets Honest h ∧ s.world.reader.isEmpty = true ∧
      fired h = true ∧ allSettled 0 h = true ∧
      (stopAfter 0 "configurationDone" h).isSome = true ∧
      waiting s 0 = true) (by decide +kernel)
  exact ⟨h, s, .ofMeets hr hm, List.isEmpty_iff.mp hrest, hx⟩

end DebugMcp
