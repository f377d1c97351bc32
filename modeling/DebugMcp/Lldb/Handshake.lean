/-
The launch and attach handshakes, over every order of the adapter's
messages.

`Honest` is what the claims assume of a run: call 0 is not dropped and
its writes go through, the stream does not end, and a response under one
of call 0's numbers is a successful answer to a request it has written.
Then call 0 never fails (`LiveInv`), so it is always at a step of its
plan; what it has written is the front of that plan, and what it is
woken with is the first execution event since its registration. Launch
and attach differ in where the plan registers.
-/
import DebugMcp.Lldb.Replies

namespace DebugMcp

open Conc

-- ============================================================ honest runs

/-- Does an operation go through? -/
def ClientOp.undisturbed {β : Type} (op : ClientOp β) (b : β) : Bool :=
  match op, b with
  | .writeRequest _, .ok => true
  | .writeRequest _, _ => false
  | .recv _, b => b.isSome
  | .recvInitialized, b => b.isSome
  | .selectBoth _ _, b => b.isSome
  | .recvStop, b => b.isSome
  | _, _ => true

/-- A step of an undisturbed call 0 and an honest adapter: a response is
under a number that was given out, and one under call 0's number answers
a request it has written, successfully. -/
def Honest (h : ClientHistory) : ClientEvent → Prop
  | .act i op b _ _ => i = 0 → op.undisturbed b = true
  | .env (.frame (.response r)) w _ => r.requestSeq ≤ w.seq ∧
      ((0, r.requestSeq) ∈ given h → ∃ q ∈ writes 0 h,
        q.seq = r.requestSeq ∧ r.success = true ∧ r.command = q.command)
  | .env .eof _ _ => False
  | _ => True

/-- A result under number `n` that is a successful answer, if `n` is one
of call 0's. -/
def Good (w : DapClient) (h : ClientHistory) (n : Int)
    (x : PendingResult) : Prop :=
  n ≤ w.seq ∧ ((0, n) ∈ given h → ∃ q ∈ writes 0 h, q.seq = n ∧
    ∃ r, x = .ok (.response r) ∧ r.success = true ∧
      r.command = q.command)

/-- Every answer is good, dispatched or on its way. -/
structure GoodInv (w : DapClient) (h : ClientHistory) : Prop where
  queue : ∀ {n m}, .takePending n m ∈ w.reader → Good w h n (.ok m)
  out : ∀ {n x}, outcome n h = some x → Good w h n x
  undrained : ∀ e, .drainPending e ∉ w.reader
  running : w.ended = false

/-- A response is dispatched as it is, and no other message is. -/
theorem take_dispatch {m msg : DapMessage} {n : Int}
    (hm : .takePending n msg ∈ dispatch m) :
    ∃ r, m = .response r ∧ n = r.requestSeq ∧ msg = .response r := by
  cases mem_dispatch hm with
  | take r => exact ⟨r, rfl, rfl, rfl⟩

/-- A good answer stays good. -/
theorem Good.next {w w' : DapClient} {h : ClientHistory} {n : Int}
    {x : PendingResult} {ev : ClientEvent} (hg : Good w h n x)
    (hseq : w.seq ≤ w'.seq)
    (hgiven : (0, n) ∈ given (ev :: h) → (0, n) ∈ given h ∨ w.seq < n)
    (hw : ∀ q ∈ writes 0 h, q ∈ writes 0 (ev :: h)) :
    Good w' (ev :: h) n x := by
  refine ⟨Int.le_trans hg.1 hseq, fun hn => ?_⟩
  rcases hgiven hn with hn | hlt
  · obtain ⟨q, hq, hx⟩ := hg.2 hn
    exact ⟨q, hw q hq, hx⟩
  · exact absurd hg.1 (Int.not_le.mpr hlt)

/-- A caller's step settles nothing. -/
theorem outcome_act_some {i : Nat} {n : Int} {h : ClientHistory}
    {w w' : DapClient} {β : Type} {op : ClientOp β} {b : β}
    {x : PendingResult}
    (hx : outcome n (.act i op b w w' :: h) = some x) :
    outcome n h = some x := by
  cases op with
  | registerPending m =>
      have hx : (if m = n then none else outcome n h) = some x := hx
      split at hx
      · cases hx
      · exact hx
  | _ => exact hx

/-- The numbers a step gives out are new. -/
theorem given_act {i j : Nat} {n : Int} {h : ClientHistory}
    {w w' : DapClient} {β : Type} {op : ClientOp β} {b : β}
    (hg : (j, n) ∈ given (.act i op b w w' :: h))
    (hnew : ∀ n, op.gives b = some n → w.seq < n) :
    (j, n) ∈ given h ∨ w.seq < n := by
  rw [given] at hg
  cases hb : op.gives b with
  | none =>
      rw [hb] at hg
      exact .inl hg
  | some m =>
      rw [hb] at hg
      rcases List.mem_cons.mp hg with he | hg
      · cases he
        exact .inr (hnew n hb)
      · exact .inl hg

/-- In an honest run every answer is good. -/
theorem goodInv : Inductive clientMachine PlanNext Honest
    (fun w _ h => GoodInv w h) where
  act := by
    intro w w' φ h i β op a b q' hI hr _ _
    have hr : w.run i op a = some (b, w') := hr
    obtain ⟨hseq, hnew⟩ := DapClient.run_seq hr
    have hs := DapClient.run_reader hr
    have hgood : ∀ {n x}, Good w h n x →
        Good w' (.act i op b w w' :: h) n x := fun hg =>
      hg.next hseq (fun hn => given_act hn hnew) fun q hq => by
        rw [writes_act]
        exact List.mem_append_left _ hq
    refine ⟨fun hm => ?_, fun hx => hgood (hI.out (outcome_act_some hx)),
      fun e hm => ?_, hs.ended.trans hI.running⟩
    · rw [hs.reader] at hm
      exact hgood (hI.queue hm)
    · rw [hs.reader] at hm
      exact hI.undrained e hm
  env := by
    intro w w' φ h e hI he hok
    have he : w.envMove e = some w' := he
    have hgood : ∀ {n x}, w'.seq = w.seq → Good w h n x →
        Good w' (.env e w w' :: h) n x := fun hseq hg =>
      hg.next (Int.le_of_eq hseq.symm) (fun hn => .inl hn) fun q hq => hq
    cases e with
    | reader k =>
        obtain ⟨op, rest, hw, hst⟩ := DapClient.envMove_reader he
        have hf := DapClient.readerStep_frame hw hst
        have hseq := (DapClient.reader_table he).seq
        refine ⟨fun hm => ?_, fun {n x} hx => ?_, fun e hm => ?_,
          hf.ended.trans hI.running⟩
        · rcases hf.mem hm with hx | hm
          · cases hx
          · exact hgood hseq (hI.queue hm)
        · have hx : (outcome n h).or (w.settles n) = some x := hx
          cases ho : outcome n h with
          | some y =>
              rw [ho] at hx
              cases hx
              exact hgood hseq (hI.out ho)
          | none =>
              rw [ho, Option.none_or] at hx
              unfold DapClient.settles DapClient.head at hx
              rw [hw] at hx
              cases op with
              | takePending m msg =>
                  have hx : (if m = n then some (.ok msg) else none)
                    = some x := hx
                  by_cases hmn : m = n
                  · rw [if_pos hmn] at hx
                    cases hx
                    subst hmn
                    exact hgood hseq
                      (hI.queue (hw ▸ List.mem_cons_self ..))
                  · rw [if_neg hmn] at hx
                    cases hx
              | drainPending e =>
                  exact absurd (hw ▸ List.mem_cons_self ..)
                    (hI.undrained e)
              | _ => cases hx
        · rcases hf.mem hm with hx | hm
          · cases hx
          · exact hI.undrained e hm
    | frame m =>
        obtain ⟨-, hen, rfl⟩ := DapClient.envMove_frame he
        refine ⟨fun {n msg} hm => ?_, fun hx => hgood rfl (hI.out hx),
          fun e hm => ?_, hen⟩
        · obtain ⟨r, rfl, rfl, rfl⟩ := take_dispatch hm
          obtain ⟨hle, hans⟩ := hok
          refine ⟨hle, fun hn => ?_⟩
          obtain ⟨q, hq, hs, hsuc, hcmd⟩ := hans hn
          exact ⟨q, hq, hs, r, rfl, hsuc, hcmd⟩
        · exact dispatch_no_drain m e hm
    | eof => exact hok.elim

-- ============================================================ acceptance

/-- A step that accepts every successful answer to its request. -/
def PlanStep.Accepts : PlanStep → Prop
  | request q check => ∀ r, r.success = true → r.command = q.command →
      (check (.response r)).isOk = true
  | response check => ∀ r, r.success = true →
      (check (.response r)).isOk = true
  | _ => True

theorem unchecked_accepts (q : DapRequest) :
    (PlanStep.request q unchecked).Accepts := fun _ _ _ => rfl

theorem checked_accepts (stderr op : String) {r : Response}
    (hr : r.success = true) :
    (checked stderr op (.response r)).isOk = true := by
  unfold checked checkResponse
  dsimp only
  rw [if_pos hr]
  rfl

theorem checkFlushed_accepts (stderr file : String) {r : Response}
    (hr : r.success = true) (hc : r.command = "setBreakpoints") :
    (checkFlushed stderr file (.response r)).isOk = true := by
  unfold checkFlushed
  dsimp only
  rw [if_pos hc, if_pos hr]
  rfl

/-- Every step of a launch accepts. -/
theorem launch_accepts (stderr : String) (spec : LaunchSpec) :
    ∀ s ∈ launchPlan stderr spec, s.Accepts := by
  have htail : ∀ stop, ∀ s ∈ launchTailPlan stderr stop, s.Accepts := by
    intro stop s hs
    unfold launchTailPlan at hs
    cases stop with
    | true =>
        simp only [if_true, List.mem_cons, List.not_mem_nil,
          or_false] at hs
        rcases hs with rfl | rfl | rfl | rfl
        · trivial
        · exact unchecked_accepts _
        · exact fun _ => checked_accepts stderr "launch"
        · trivial
    | false =>
        rcases List.mem_cons.mp hs with rfl | hs
        · exact unchecked_accepts _
        · rw [List.mem_singleton.mp hs]
          exact fun _ => checked_accepts stderr "launch"
  intro s hs
  rcases List.mem_cons.mp hs with rfl | hs
  · exact fun _ hr _ => checked_accepts stderr "initialize" hr
  rcases List.mem_cons.mp hs with rfl | hs
  · trivial
  rcases List.mem_cons.mp hs with rfl | hs
  · trivial
  rcases List.mem_append.mp hs with hs | hs
  · obtain ⟨f, -, rfl⟩ := List.mem_map.mp hs
    exact fun _ => checkFlushed_accepts stderr f.1
  rcases List.mem_append.mp hs with hs | hs
  · unfold functionPlan at hs
    split at hs
    · cases hs
    · rw [List.mem_singleton.mp hs]
      exact fun _ hr _ => checked_accepts stderr _ hr
  rcases List.mem_cons.mp hs with rfl | hs
  · exact unchecked_accepts _
  · exact htail _ s hs

/-- Every step of an attach accepts. -/
theorem attach_accepts (stderr : String) (spec : AttachSpec) :
    ∀ s ∈ attachPlan stderr spec, s.Accepts := by
  intro s hs
  unfold attachPlan at hs
  simp only [List.mem_cons, List.not_mem_nil, or_false] at hs
  rcases hs with rfl | rfl | rfl | rfl | rfl | rfl | rfl | rfl
  · exact fun _ hr _ => checked_accepts stderr "initialize" hr
  · trivial
  · trivial
  · exact unchecked_accepts _
  · exact unchecked_accepts _
  · exact fun _ => checked_accepts stderr "attach"
  · trivial
  · trivial

/-- A caller that awaits an answer has written the request. -/
def AwaitInv (φ : Nat → CallPhase) (h : ClientHistory) : Prop :=
  ∀ {i q check rest n c sv ar},
    φ i = .active (.request q check :: rest) (.awaiting n c) sv ar →
    q.setSeq n ∈ writes i h

/-- The step that leads to an await of an answer wrote the request. -/
theorem PlanNext.awaiting {p : CallPhase} {β : Type} {op : ClientOp β}
    {b : β} {q : DapRequest}
    {check : DapMessage → Except BackendError Unit}
    {rest : List PlanStep} {n : Int} {c : ChanId}
    {sv : Option (Int × ChanId)} {ar : Bool}
    (hq : PlanNext p op b
      (.active (.request q check :: rest) (.awaiting n c) sv ar)) :
    op.wrote b = some (q.setSeq n) := by
  cases hq with
  | write => rfl

theorem awaitInv : Inductive clientMachine PlanNext (fun _ _ => True)
    (fun _ φ h => AwaitInv φ h) where
  act := by
    intro w w' φ h i β op a b q' hI _ hq _ j q check rest n c sv ar hj
    rw [writes_act]
    by_cases hij : i = j
    · subst hij
      rw [Function.update_self] at hj
      rw [hj] at hq
      rw [if_pos rfl, hq.awaiting]
      exact List.mem_append_right _ (List.mem_singleton_self _)
    · rw [Function.update_of_ne fun e => hij e.symm] at hj
      exact List.mem_append_left _ (hI hj)
  env := fun hI _ _ => hI

/-- A caller whose operations go through and whose answers pass does not
fail. -/
theorem PlanNext.stays_live {p p' : CallPhase} {β : Type}
    {op : ClientOp β} {b : β} (hq : PlanNext p op b p')
    (hl : p.live = true) (hu : op.undisturbed b = true)
    (hreq : ∀ {q check rest n c sv ar r},
      p = .active (.request q check :: rest) (.awaiting n c) sv ar →
      op.received b = some (c, r) → passes check r = true)
    (hresp : ∀ {check rest n c ar r},
      p = .active (.response check :: rest) .idle (some (n, c)) ar →
      op.received b = some (c, r) → passes check r = true) :
    p'.live = true := by
  cases hq with
  | writeFail s q hs rest sv ar n c x hx =>
      cases x with
      | ok => exact absurd rfl hx
      | _ => cases hu
  | writeDropped | drop | unpark | stopDrop => cases hu
  | refuse q check rest sv ar n c r hr =>
      cases hr.symm.trans (hreq rfl rfl)
  | responseFail check rest ar n c r hr =>
      cases r with
      | none => cases hu
      | some x => cases (hr x rfl).symm.trans (hresp rfl rfl)
  | remove | release => cases hl
  | _ => rfl

-- ============================================================ the signal

/-- No caller but call 0 waits for the signal: it is the only
handshake. -/
def OnlyHandshake (calls : Nat → LldbCall) : Prop :=
  ∀ i, i ≠ 0 → .initialized ∉ (calls i).plan

/-- A caller that parks has the signal on its plan. -/
theorem PlanNext.parks_mem {p p' : CallPhase} {β : Type}
    {op : ClientOp β} {b : β} (hq : PlanNext p op b p')
    (hb : op.parks b = true) : .initialized ∈ p.plan := by
  cases hq with
  | park => exact List.mem_cons_self ..
  | _ => cases hb

/-- What was dispatched stays dispatched. -/
theorem fired_cons {ev : ClientEvent} {h : ClientHistory}
    (hf : fired h = true) : fired (ev :: h) = true := by
  cases ev with
  | act i op b w w' => exact hf
  | env e w w' =>
      cases e with
      | reader k =>
          rw [fired, hf]
          split <;> rfl
      | _ => exact hf

/-- Call 0 is past its wait only once `initialized` was dispatched. -/
structure PastInv (φ : Nat → CallPhase) (h : ClientHistory) : Prop where
  woken : signalled 0 h = true → fired h = true
  past : ∀ {p st sv ar}, φ 0 = .active p st sv ar → .initialized ∉ p →
    fired h = true

/-- A caller passes the signal when it has fired, or it was woken. -/
theorem PlanNext.passes_signal {p p' : List PlanStep} {st st' : Stage}
    {sv sv' : Option (Int × ChanId)} {ar ar' : Bool} {β : Type}
    {op : ClientOp β} {b : β}
    (hq : PlanNext (.active p st sv ar) op b (.active p' st' sv' ar'))
    (hp : .initialized ∈ p) (hp' : .initialized ∉ p') :
    (∀ {w w' : DapClient} {i : Nat} {a : Reply},
      w.run i op a = some (b, w') → w.initFired = true) ∨
    (CallPhase.active p st sv ar).parked = true ∧
      ∀ {w w' : DapClient} {i : Nat} {a : Reply},
        w.run i op a = some (b, w') → (w.initRx i).recv.isSome := by
  cases hq with
  | ready =>
      refine .inl fun hr => ?_
      rcases DapClient.run_pollInitialized_world hr with ⟨-, hf, -⟩ |
        ⟨hb, -⟩
      · exact hf
      · cases hb
  | fired =>
      refine .inr ⟨rfl, fun {w w' i a} hr => ?_⟩
      cases a with
      | sync =>
          obtain ⟨r, hc, -⟩ := Option.map_eq_some_iff.mp hr
          rw [hc]
          rfl
      | _ => cases hr
  | number | register | write | park => exact absurd hp hp'
  | writeDeferred | answer | registerStop | response =>
      rcases List.mem_cons.mp hp with he | hp
      · cases he
      · exact absurd hp hp'

/-- The signal's place on the plan is kept by every step. -/
theorem pastInv (calls : Nat → LldbCall) (hone : OnlyHandshake calls) :
    InductiveOver clientMachine PlanNext (fun _ _ => True)
      (CallerInv calls) (fun _ φ h => PastInv φ h) where
  act := by
    intro w w' φ h i β op a b q' hC hI hr hq _
    have hr : w.run i op a = some (b, w') := hr
    refine ⟨fun hs => ?_, fun {p st sv ar} hφ hp => ?_⟩
    · have hs : (if op.parks b then if i = 0 then false else true
        else signalled 0 h) = true := hs
      cases hb : op.parks b with
      | true =>
          rw [hb, if_pos rfl] at hs
          by_cases hi : i = 0
          · rw [if_pos hi] at hs
            cases hs
          · exact absurd ((hC.plan i).mem (hq.parks_mem hb)) (hone i hi)
      | false =>
          rw [hb] at hs
          exact hI.woken hs
    · by_cases hi : i = 0
      · subst hi
        rw [Function.update_self] at hφ
        subst hφ
        obtain ⟨p₀, st₀, sv₀, ar₀, hp₀⟩ := hq.from_active
        rw [hp₀] at hq
        by_cases hmem : .initialized ∈ p₀
        · rcases hq.passes_signal hmem hp with hf | ⟨hpk, hrx⟩
          · exact hC.signal.fired.symm.trans (hf hr)
          · have hx := hC.signal.parked 0 (by rw [hp₀]; exact hpk)
            cases hsig : signalled 0 h with
            | true => exact hI.woken hsig
            | false =>
                rw [hsig] at hx
                cases hx with
                | waiting hw he =>
                    have hsome := hrx hr
                    rw [he] at hsome
                    cases hsome
        · exact hI.past hp₀ hmem
      · rw [Function.update_of_ne fun e => hi e.symm] at hφ
        exact hI.past hφ hp
  env := by
    intro w w' φ h e _ hI _ _
    refine ⟨fun hs => ?_, fun hφ hp => fired_cons (hI.past hφ hp)⟩
    cases e with
    | reader k =>
        rw [signalled] at hs
        rw [fired]
        split at hs
        · rfl
        · exact hI.woken hs
    | _ => exact hI.woken hs

/-- Call 0 wrote each of its requests, but the first two, once
`initialized` had been dispatched. -/
def Gated : ClientHistory → Prop
  | [] => True
  | .act i op b _ _ :: h => (i = 0 → (op.wrote b).isSome →
      2 ≤ (writes 0 h).length → fired h = true) ∧ Gated h
  | .env _ _ _ :: h => Gated h

/-- A plan that opens with two requests and the signal. -/
structure Opening (p : List PlanStep) : Prop where
  shape : ∃ q check d rest,
    p = .request q check :: .deferred d :: .initialized :: rest ∧
      .initialized ∉ rest

/-- What is left of such a plan, at a request that is not one of the
first two, is past the signal. -/
theorem Opening.past {plan p : List PlanStep} (ho : Opening plan)
    (hs : p <:+ plan) {t : PlanStep} {more : List PlanStep}
    (hp : p = t :: more) (ht : t.request?.isSome)
    (hn : (requests p).length + 2 ≤ (requests plan).length) :
    .initialized ∉ p := by
  obtain ⟨q, check, d, rest, rfl, hrest⟩ := ho.shape
  rcases List.suffix_cons_iff.mp hs with rfl | hs
  · omega
  rcases List.suffix_cons_iff.mp hs with rfl | hs
  · have hlen : (requests (.request q check :: .deferred d
        :: .initialized :: rest)).length
        = (requests (.deferred d :: .initialized :: rest)).length + 1 := rfl
    omega
  rcases List.suffix_cons_iff.mp hs with rfl | hs
  · cases hp
    cases ht
  · exact fun hm => hrest (hs.mem hm)

/-- A caller that writes is at the head of its plan. -/
theorem PlanNext.wrote_head {p p' : CallPhase} {β : Type}
    {op : ClientOp β} {b : β} (hq : PlanNext p op b p')
    (hw : (op.wrote b).isSome) : ∃ t more st sv ar,
      p = .active (t :: more) st sv ar ∧ t.request?.isSome ∧
        p.unsent = requests (t :: more) := by
  cases hq with
  | write q check rest sv ar n c =>
      exact ⟨_, _, _, _, _, rfl, rfl, rfl⟩
  | writeDeferred q rest ar n c =>
      exact ⟨_, _, _, _, _, rfl, rfl, rfl⟩
  | writeFail s q hs rest sv ar n c x hx =>
      cases x with
      | ok => exact absurd rfl hx
      | _ => cases hw
  | _ => cases hw

/-- The gate is kept by every step. -/
theorem gated (calls : Nat → LldbCall) (ho : Opening (calls 0).plan) :
    InductiveOver clientMachine PlanNext (fun _ _ => True)
      (fun w φ h => WireInv calls w φ h ∧ PastInv φ h)
      (fun _ _ h => Gated h) where
  act := by
    intro w w' φ h i β op a b q' ⟨hW, hP⟩ hI hr hq _
    refine ⟨fun hi hw hn => ?_, hI⟩
    subst hi
    obtain ⟨t, more, st, sv, ar, hp, ht, hun⟩ := hq.wrote_head hw
    have hsuf := hW.caller.plan 0
    have hrest := hW.sent.rest 0 (by rw [hp]; rfl)
    rw [hun] at hrest
    rw [hp] at hsuf
    refine hP.past hp (ho.past hsuf rfl ht ?_)
    have hlen := congrArg List.length hrest
    rw [List.length_append, List.length_map] at hlen
    omega
  env := fun _ hI _ _ => hI

-- ========================================================== call 0 is live

/-- Call 0's plan accepts the adapter's answers. -/
def Accepting (calls : Nat → LldbCall) : Prop :=
  ∀ s ∈ (calls 0).plan, s.Accepts

/-- In an honest run call 0 has not failed. -/
theorem liveInv (calls : Nat → LldbCall) (hacc : Accepting calls) :
    InductiveOver clientMachine PlanNext Honest
      (fun w φ h => WireInv calls w φ h ∧ AwaitInv φ h ∧ GoodInv w h)
      (fun _ φ _ => (φ 0).live = true) where
  act := by
    intro w w' φ h i β op a b q' ⟨hW, hA, hG⟩ hI hr hq hok
    have hr : w.run i op a = some (b, w') := hr
    by_cases hi : i = 0
    · subst hi
      rw [Function.update_self]
      -- What call 0 receives is a good answer under its number.
      have hgood : ∀ {n c r}, (n, c) ∈ (φ 0).opens →
          op.received b = some (c, r) → ∃ q ∈ writes 0 h, q.seq = n ∧
            ∃ m, r = .ok (.ok (.response m)) ∧ m.success = true ∧
              m.command = q.command := by
        intro n c r hm hx
        obtain ⟨x, rfl, hout⟩ := recv_outcome hW.caller.entry hW.reply hm
          (DapClient.run_received hr hx)
        obtain ⟨q, hq, hn, m, rfl, hs, hc⟩ := (hG.out hout).2
          (hW.caller.entry.owns (CallPhase.mem_numbers hm))
        exact ⟨q, hq, hn, m, rfl, hs, hc⟩
      have hsteps : ∀ {p st sv ar}, φ 0 = .active p st sv ar →
          ∀ s ∈ p, s.Accepts := by
        intro p st sv ar hp s hs
        have hsuf := hW.caller.plan 0
        rw [hp] at hsuf
        exact hacc s (hsuf.mem hs)
      refine hq.stays_live hI (hok rfl) (fun {q check rest n c sv ar r} hp
        hx => ?_) fun {check rest n c ar r} hp hx => ?_
      · obtain ⟨q', hq', hn, m, rfl, hs, hc⟩ := hgood
          (by rw [hp]; exact List.mem_cons_self ..) hx
        have he : q' = q.setSeq n := List.inj_on_of_nodup_map
          (hW.seq.nodup 0) hq' (hA hp) hn
        subst he
        exact hsteps hp _ (List.mem_cons_self ..) m hs hc
      · obtain ⟨q', hq', hn, m, rfl, hs, hc⟩ := hgood
          (by rw [hp]; exact List.mem_singleton_self _) hx
        exact hsteps hp _ (List.mem_cons_self ..) m hs
    · rw [Function.update_of_ne fun e => hi e.symm]
      exact hI
  env := fun _ hI _ _ => hI

-- ============================================================= the stop

/-- The first execution event dispatched since call `i` last wrote a
request `cmd`. -/
def stopAfter (i : Nat) (cmd : String) :
    ClientHistory → Option StopOutcome
  | [] => none
  | .act j op b _ _ :: h =>
      if j = i ∧ (op.wrote b).any (·.command == cmd) = true then none
      else stopAfter i cmd h
  | .env (.reader _) w _ :: h =>
      match w.head with
      | some (.takeStop o) => (stopAfter i cmd h).or (some o)
      | _ => stopAfter i cmd h
  | .env _ _ _ :: h => stopAfter i cmd h

/-- No caller but call 0 registers a stop waiter: no other resume
runs. -/
def OnlyRegistered (calls : Nat → LldbCall) : Prop :=
  ∀ i, i ≠ 0 → .register ∉ (calls i).plan

/-- A caller that registers has that on its plan. -/
theorem PlanNext.registers_mem {p p' : CallPhase} {β : Type}
    {op : ClientOp β} {b : β} (hq : PlanNext p op b p')
    (hop : op.onStop = true) :
    .register ∈ p.plan ∨ ∀ {i j h w w'},
      woken j (.act i op b w w' :: h) = woken j h := by
  cases hq with
  | registerStop => exact .inl (List.mem_cons_self ..)
  | release => exact .inr rfl
  | _ => cases hop

/-- Another caller's step resolves no stop waiter. -/
theorem woken_other {calls : Nat → LldbCall} (hone : OnlyRegistered calls)
    {w w' : DapClient} {φ : Nat → CallPhase} {h : ClientHistory}
    {i j : Nat} {β : Type} {op : ClientOp β} {b : β} {p' : CallPhase}
    (hplan : (φ i).plan <:+ (calls i).plan)
    (hq : PlanNext (φ i) op b p') (hi : i ≠ 0) :
    woken j (.act i op b w w' :: h) = woken j h := by
  cases hop : op.onStop with
  | false => exact woken_off hop
  | true =>
      rcases hq.registers_mem hop with hm | hw
      · exact absurd (hplan.mem hm) (hone i hi)
      · exact hw

/-- What call 0 is woken with is an execution event. -/
theorem wokenOk (calls : Nat → LldbCall) (hone : OnlyRegistered calls) :
    InductiveOver clientMachine PlanNext (fun _ _ => True)
      (CallerInv calls)
      (fun _ _ h => ∀ r, woken 0 h = some r → ∃ o, r = .ok o) where
  act := by
    intro w w' φ h i β op a b q' hC hI _ hq _ r hw
    by_cases hi : i = 0
    · subst hi
      cases hop : op.onStop with
      | false =>
          rw [woken_off hop] at hw
          exact hI r hw
      | true =>
          cases op with
          | registerStop =>
              rw [show woken 0 (.act 0 .registerStop b w w' :: h) = none
                from if_pos rfl] at hw
              cases hw
          | dropStop => exact hI r hw
          | _ => cases hop
    · rw [woken_other hone (hC.plan i) hq hi] at hw
      exact hI r hw
  env := by
    intro w w' φ h e _ hI _ _ r hw
    cases e with
    | reader k =>
        have hw : (match w.head with
          | some (.takeStop o) => (woken 0 h).or (some (.ok o))
          | _ => woken 0 h) = some r := hw
        split at hw
        · next o ho =>
            cases hx : woken 0 h with
            | none =>
                rw [hx] at hw
                cases hw
                exact ⟨o, rfl⟩
            | some x =>
                rw [hx] at hw
                cases hw
                exact hI _ hx
        · exact hI r hw
    | _ => exact hI r hw

/-- A caller gets its outcome at the end of its plan. -/
theorem PlanNext.from_stop {p : CallPhase} {r : Except Unit StopOutcome}
    {β : Type} {op : ClientOp β} {b : β} (hq : PlanNext p op b (.got r)) :
    (∃ sv, p = .active [.stop] .idle sv true) ∧ op.onStop = false ∧
      op.wrote b = none := by
  cases hq with
  | stopped sv r => exact ⟨⟨sv, rfl⟩, rfl, rfl⟩

-- ============================================================ progress

/-- What a caller has at most still to do. -/
def CallPhase.fuel : CallPhase → Nat
  | active p .idle _ _ => 4 * p.length + 3
  | active p (.numbered _) _ _ => 4 * p.length + 2
  | active p (.registered _ _) _ _ => 4 * p.length + 1
  | active p (.awaiting _ _) _ _ | active p .parked _ _ => 4 * p.length
  | removing _ _ => 2
  | failing ar => ar.toNat
  | got _ => 0

/-- Every step of a caller takes it on. -/
theorem PlanNext.fuel_lt {p p' : CallPhase} {β : Type} {op : ClientOp β}
    {b : β} (hq : PlanNext p op b p') : p'.fuel < p.fuel := by
  have hbool : ∀ ar : Bool, ar.toNat ≤ 1 := fun ar => by cases ar <;> decide
  cases hq with
  | remove n ar => exact Nat.lt_succ_of_le (hbool ar)
  | release => exact Nat.one_pos
  | writeDropped q rest sv ar n c reached
  | refuse q check rest sv ar n c r hr
  | unpark rest sv ar | responseFail check rest ar n c r hr =>
      have := hbool ar
      simp only [CallPhase.fuel, List.length_cons]
      omega
  | _ =>
      simp only [CallPhase.fuel, List.length_cons, Bool.toNat_true]
      omega

/-- So it takes so many steps at most. -/
theorem fuelInv (calls : Nat → LldbCall) :
    Inductive clientMachine PlanNext Honest (fun _ φ h =>
      ∀ i, stepsOf i h + (φ i).fuel ≤ ((calls i).phase₀).fuel) :=
  .measure fun hq => hq.fuel_lt

/-- An operation that does not wait can be carried out undisturbed. -/
theorem DapClient.goes_on {w : DapClient} {i : Nat} {β : Type}
    {op : ClientOp β} (hs : w.suspends i op = false) :
    ∃ a b w', w.run i op a = some (b, w') ∧ op.undisturbed b = true := by
  have hsome : ∀ {α : Type} {o : Oneshot α}, o.pending = false →
      ∃ r, o.recv = some r := fun {α o} h => by
    cases hr : o.recv with
    | none =>
        unfold Oneshot.pending at h
        rw [hr] at h
        cases h
    | some r => exact ⟨r, rfl⟩
  cases op with
  | recv c | recvStop =>
      obtain ⟨r, hr⟩ := hsome hs
      exact ⟨.sync, some r, w, by
        simp only [DapClient.run, hr, Option.map_some], rfl⟩
  | recvInitialized =>
      obtain ⟨r, hr⟩ := hsome hs
      exact ⟨.sync, some (), w, by
        simp only [DapClient.run, hr, Option.map_some], rfl⟩
  | selectBoth c parked =>
      cases hc : (w.chans c).recv with
      | some r =>
          exact ⟨.sync, some (.response r), w, by
            simp only [DapClient.run, hc, Option.map_some], rfl⟩
      | none =>
          cases parked with
          | false =>
              rcases hp : w.pollInitialized i with ⟨_ | _, w'⟩
              · exact ⟨.other, some .parked, w', by
                  simp only [DapClient.run, hp], rfl⟩
              · exact ⟨.other, some .initialized, w', by
                  simp only [DapClient.run, hp], rfl⟩
          | true =>
              have hi : (w.initRx i).pending = false := by
                simpa [DapClient.suspends, Oneshot.pending, hc] using hs
              obtain ⟨r, hr⟩ := hsome hi
              exact ⟨.other, some .initialized, w, by
                simp only [DapClient.run, hr, Option.map_some], rfl⟩
  | _ => exact ⟨.sync, _, _, rfl, rfl⟩

-- ======================================================= both handshakes

/-- What is known of the state of an honest run. -/
structure HandshakeInv (calls : Nat → LldbCall) (w : DapClient)
    (φ : Nat → CallPhase) (h : ClientHistory) : Prop where
  wire : WireInv calls w φ h
  asked : AwaitInv φ h
  good : GoodInv w h
  past : PastInv φ h
  live : (φ 0).live = true
  gate : Gated h
  steps : ∀ i, stepsOf i h + (φ i).fuel ≤ ((calls i).phase₀).fuel

/-- A call whose handshake can succeed: its plan opens with two requests
and the signal, it accepts the adapter's answers, and no other call waits
for the signal. -/
structure Handshakes (calls : Nat → LldbCall) : Prop where
  opening : Opening (calls 0).plan
  accepting : Accepting calls
  only : OnlyHandshake calls

theorem handshakeInv {calls : Nat → LldbCall} (hc : Handshakes calls) :
    Inductive clientMachine PlanNext Honest (HandshakeInv calls) where
  act := by
    intro w w' φ h i β op a b q' hI hr hq hok
    exact ⟨(wireInv calls).act hI.wire hr hq trivial,
      awaitInv.act (w := w) hI.asked hr hq trivial,
      goodInv.act hI.good hr hq hok,
      (pastInv calls hc.only).act hI.wire.caller hI.past hr hq trivial,
      (liveInv calls hc.accepting).act ⟨hI.wire, hI.asked, hI.good⟩
        hI.live hr hq hok,
      (gated calls hc.opening).act ⟨hI.wire, hI.past⟩ hI.gate hr hq
        trivial,
      (fuelInv calls).act (w := w) hI.steps hr hq hok⟩
  env := by
    intro w w' φ h e hI he hok
    exact ⟨(wireInv calls).env hI.wire he trivial, hI.asked,
      goodInv.env (φ := φ) hI.good he hok,
      (pastInv calls hc.only).env hI.wire.caller hI.past he trivial,
      hI.live, hI.gate, hI.steps⟩

theorem HandshakeInv.start {calls : Nat → LldbCall}
    (hc : Handshakes calls) :
    HandshakeInv calls .new (fun i => (calls i).phase₀) [] where
  wire := .start calls
  asked hp := Stage.noConfusion (CallPhase.active.inj hp).2.1
  good := ⟨nofun, nofun, nofun, rfl⟩
  past := by
    refine ⟨nofun, fun hp hm => ?_⟩
    obtain ⟨q, check, d, rest, hs, -⟩ := hc.opening.shape
    cases hp
    rw [hs] at hm
    simp at hm
  live := rfl
  gate := trivial
  steps i := Nat.le_of_eq (Nat.zero_add _)

/-- What is known of an honest run, and what each call has still to
do. -/
theorem handshake_run {calls : Nat → LldbCall} (hc : Handshakes calls)
    {J : (Nat → CallPhase) → ClientHistory → Prop}
    (hJ : InductiveOver clientMachine PlanNext Honest (HandshakeInv calls)
      (fun _ φ h => J φ h))
    (hJ₀ : J (fun i => (calls i).phase₀) []) {h : ClientHistory}
    {s : Pool ClientOp LldbResult DapClient}
    (hr : RunIf clientMachine Honest (lldbPool calls) h s) :
    ∃ φ, (HandshakeInv calls s.world φ h ∧ J φ h) ∧
      ∀ i p, s.prog i = some p →
        Obeys PlanNext (calls i).Returns p (φ i) :=
  hr.invariant ((handshakeInv hc).over hJ) (R := fun i => (calls i).Returns)
    (fun i p hp => by cases hp; exact (calls i).obeys)
    ⟨.start hc, hJ₀⟩

/-- Can call 0 go on, undisturbed, or has it returned? -/
def GoesOn (h : ClientHistory) (s : Pool ClientOp LldbResult DapClient) :
    Prop :=
  (s.returned 0).isSome ∨ ∃ ev s', Step clientMachine s ev s' ∧
    ev.who = some 0 ∧ Honest h ev

/-- It can when it does not wait. -/
theorem goesOn_of_not_waiting {calls : Nat → LldbCall}
    {h : ClientHistory} {s : Pool ClientOp LldbResult DapClient}
    (hr : RunIf clientMachine Honest (lldbPool calls) h s)
    (hw : waiting s 0 = false) : GoesOn h s := by
  have hp := hr.prog_isSome (i := 0) rfl
  obtain ⟨p, hp⟩ := Option.isSome_iff_exists.mp hp
  cases p with
  | ret x =>
      left
      unfold Pool.returned
      rw [hp]
      rfl
  | act op k =>
      right
      unfold waiting at hw
      rw [hp] at hw
      obtain ⟨a, b, w', hrun, hb⟩ := DapClient.goes_on hw
      exact ⟨_, _, .act hp hrun, rfl, fun _ => hb⟩

instance (h : ClientHistory) : ∀ ev, Decidable (Honest h ev)
  | .act i op b _ _ =>
      inferInstanceAs (Decidable (i = 0 → op.undisturbed b = true))
  | .env (.frame (.response r)) w _ =>
      inferInstanceAs (Decidable (r.requestSeq ≤ w.seq ∧
        ((0, r.requestSeq) ∈ given h → ∃ q ∈ writes 0 h,
          q.seq = r.requestSeq ∧ r.success = true ∧
            r.command = q.command)))
  | .env .eof _ _ => inferInstanceAs (Decidable False)
  | .env (.frame (.event _)) _ _ | .env (.frame (.other _)) _ _
  | .env (.reader _) _ _ => inferInstanceAs (Decidable True)

end DebugMcp
