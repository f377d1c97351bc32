/-
The launch handshake, for every order of the adapter's messages.

A launch that stops on entry registers its stop waiter, then writes
`configurationDone`. So what wakes it is the first execution event since
that write (`StopMatches`), unless one was dispatched in between, and
`EntryStop` carries this through the two responses it awaits first.
-/
import DebugMcp.Lldb.Handshake

namespace DebugMcp

open Conc

-- ============================================================= the stop

/-- Has call `i` registered its stop waiter and written nothing
since? -/
def registeredLast (i : Nat) : ClientHistory → Bool
  | [] => false
  | .act j op b _ _ :: h =>
      if j = i then op.onStop || ((op.wrote b).isNone && registeredLast i h)
      else registeredLast i h
  | .env _ _ _ :: h => registeredLast i h

/-- Was an execution event dispatched between call `i`'s registration
and its next write? -/
def earlyStop (i : Nat) : ClientHistory → Bool
  | [] => false
  | .env (.reader _) w _ :: h =>
      match w.head with
      | some (.takeStop _) => registeredLast i h || earlyStop i h
      | _ => earlyStop i h
  | _ :: h => earlyStop i h

/-- What call 0 is woken with, against the first event since it wrote
`configurationDone`. -/
structure StopMatches (h : ClientHistory) : Prop where
  same : earlyStop 0 h = false →
    woken 0 h = (stopAfter 0 "configurationDone" h).map .ok
  later : (stopAfter 0 "configurationDone" h).isSome →
    (woken 0 h).isSome

/-- They match still when the environment moves. -/
theorem StopMatches.env {h : ClientHistory} {e : ClientMove}
    {w w' : DapClient} (hm : StopMatches h) :
    StopMatches (.env e w w' :: h) := by
  cases e with
  | reader k =>
      cases hh : w.head with
      | none =>
          refine ⟨fun he => ?_, fun hs => ?_⟩ <;>
            simp only [woken, stopAfter, earlyStop, hh] at *
          · exact hm.same he
          · exact hm.later hs
      | some op =>
          cases op with
          | takeStop o =>
              refine ⟨fun he => ?_, fun hs => ?_⟩ <;>
                simp only [woken, stopAfter, earlyStop, hh] at *
              · rw [hm.same (Bool.or_eq_false_iff.mp he).2]
                cases stopAfter 0 "configurationDone" h <;> rfl
              · cases woken 0 h <;> rfl
          | _ =>
              refine ⟨fun he => ?_, fun hs => ?_⟩ <;>
                simp only [woken, stopAfter, earlyStop, hh] at *
              · exact hm.same he
              · exact hm.later hs
  | _ => exact ⟨hm.same, hm.later⟩

/-- The end of a launch's plan, behind the registration. -/
def registeredPlan (stderr : String) : List PlanStep :=
  [.request Requests.configurationDone unchecked,
    .response (checked stderr "launch"), .stop]

/-- In it there is one request. -/
theorem registeredPlan_unsent {stderr : String} {p : List PlanStep}
    {st : Stage} {sv : Option (Int × ChanId)} {ar : Bool}
    (hp : p <:+ registeredPlan stderr) :
    (CallPhase.active p st sv ar).unsent = [Requests.configurationDone] ∨
      (CallPhase.active p st sv ar).unsent = [] := by
  rcases List.suffix_cons_iff.mp hp with rfl | hp
  · cases st with
    | awaiting n c => exact .inr rfl
    | _ => exact .inl rfl
  rcases List.suffix_cons_iff.mp hp with rfl | hp
  · exact .inr (by cases st <;> rfl)
  rcases List.suffix_cons_iff.mp hp with rfl | hp
  · exact .inr (by cases st <;> rfl)
  · rw [List.suffix_nil.mp hp]
    exact .inr (by cases st <;> rfl)

/-- A launch registers there. -/
theorem launch_registers {stderr : String} {spec : LaunchSpec}
    {rest : List PlanStep}
    (hs : .register :: rest <:+ launchPlan stderr spec) :
    rest = registeredPlan stderr := by
  have happ : ∀ {p q : List PlanStep}, (∀ s ∈ p, s ≠ .register) →
      .register :: rest <:+ p ++ q → .register :: rest <:+ q := by
    intro p q hp hs
    induction p with
    | nil => exact hs
    | cons t p ih =>
        rcases List.suffix_cons_iff.mp hs with he | hs
        · cases he
          exact absurd rfl (hp _ (List.mem_cons_self ..))
        · exact ih (fun s hm => hp s (List.mem_cons_of_mem _ hm)) hs
  have hs := happ (p := [_, _, _]) (q := _ ++ _) (fun s hm => by
    simp only [List.mem_cons, List.not_mem_nil, or_false] at hm
    rcases hm with rfl | rfl | rfl <;> exact nofun) hs
  have hs := happ (fun s hm => by
    obtain ⟨f, -, rfl⟩ := List.mem_map.mp hm
    exact nofun) hs
  have hs := happ (fun s hm => by
    unfold functionPlan at hm
    split at hm
    · cases hm
    · rw [List.mem_singleton.mp hm]
      exact nofun) hs
  have hs := happ (p := [_]) (fun s hm => by
    rw [List.mem_singleton.mp hm]
    exact nofun) hs
  split at hs
  · rcases List.suffix_cons_iff.mp hs with he | hs
    · cases he
      rfl
    · have := hs.mem (List.mem_cons_self ..)
      simp at this
  · have := hs.mem (List.mem_cons_self ..)
    simp at this

/-- A launch's stop waiter: before `configurationDone` is written
nothing has woken it, unless an event came early; after, it matches. -/
structure EntryStop (stderr : String) (φ : Nat → CallPhase)
    (h : ClientHistory) : Prop where
  armed : ∀ {p st sv}, φ 0 = .active p st sv true →
    p <:+ registeredPlan stderr
  before : ∀ {p st sv}, φ 0 = .active p st sv true →
    (φ 0).unsent ≠ [] → registeredLast 0 h = true ∧
      (earlyStop 0 h = false → woken 0 h = none)
  after : ∀ {p st sv}, φ 0 = .active p st sv true →
    (φ 0).unsent = [] → StopMatches h
  got : ∀ {r}, φ 0 = .got r → StopMatches h

/-- A step that is no registration and writes nothing. -/
theorem stop_quiet {i : Nat} {w w' : DapClient} {h : ClientHistory}
    {β : Type} {op : ClientOp β} {b : β} (hop : op.onStop = false)
    (hw : op.wrote b = none) :
    woken 0 (.act i op b w w' :: h) = woken 0 h ∧
      registeredLast 0 (.act i op b w w' :: h) = registeredLast 0 h ∧
      earlyStop 0 (.act i op b w w' :: h) = earlyStop 0 h ∧
      stopAfter 0 "configurationDone" (.act i op b w w' :: h)
        = stopAfter 0 "configurationDone" h := by
  refine ⟨woken_off hop, ?_, rfl, ?_⟩
  · simp only [registeredLast, hop, hw, Option.isNone_none,
      Bool.true_and, Bool.false_or, ite_self]
  · simp only [stopAfter, hw, Option.any_none, Bool.false_eq_true,
      and_false, if_false]

/-- A caller that holds its receiver is at no registration. -/
theorem PlanNext.armed_off {p p' : List PlanStep} {st st' : Stage}
    {sv sv' : Option (Int × ChanId)} {ar ar' : Bool} {β : Type}
    {op : ClientOp β} {b : β}
    (hq : PlanNext (.active p st sv ar) op b (.active p' st' sv' ar')) :
    (op.onStop = false ∧ ar' = ar) ∨
      (p = .register :: p' ∧ st' = .idle ∧ ar' = true ∧
        op.onStop = true ∧ ∀ {h : ClientHistory} {w w' : DapClient},
          woken 0 (.act 0 op b w w' :: h) = none) := by
  cases hq with
  | registerStop => exact .inr ⟨rfl, rfl, rfl, rfl, if_pos rfl⟩
  | _ => exact .inl ⟨rfl, rfl⟩

/-- What matches still does after a step that is no registration and
writes nothing. -/
theorem StopMatches.quiet {w w' : DapClient} {h : ClientHistory} {i : Nat}
    {β : Type} {op : ClientOp β} {b : β} (hm : StopMatches h)
    (hop : op.onStop = false) (hw : op.wrote b = none) :
    StopMatches (.act i op b w w' :: h) := by
  obtain ⟨hwk, -, he, hst⟩ :=
    stop_quiet (i := i) (w := w) (h := h) hop hw
  refine ⟨fun hn => ?_, fun hs => ?_⟩
  · rw [hwk, hst]
    exact hm.same hn
  · rw [hwk]
    rw [hst] at hs
    exact hm.later hs

/-- The write of the last request starts the match. -/
theorem StopMatches.start {w w' : DapClient} {h : ClientHistory}
    {β : Type} {op : ClientOp β} {b : β} {q : DapRequest}
    (hop : op.onStop = false) (hw : op.wrote b = some q)
    (hc : q.command = "configurationDone")
    (hn : earlyStop 0 h = false → woken 0 h = none) :
    StopMatches (.act 0 op b w w' :: h) := by
  have hst : stopAfter 0 "configurationDone" (.act 0 op b w w' :: h)
      = none := by
    refine if_pos ⟨rfl, ?_⟩
    rw [hw]
    exact beq_iff_eq.mpr hc
  refine ⟨fun he => ?_, fun hs => ?_⟩
  · rw [hst, woken_off hop]
    exact hn he
  · rw [hst] at hs
    cases hs

/-- A launch's stop waiter is kept by every step. -/
theorem entryStopInv {calls : Nat → LldbCall} {stderr : String}
    {spec : LaunchSpec} (h0 : calls 0 = .launch stderr spec)
    (hone : OnlyRegistered calls) :
    InductiveOver clientMachine PlanNext (fun _ _ => True)
      (CallerInv calls) (fun _ φ h => EntryStop stderr φ h) where
  act := by
    intro w w' φ h i β op a b q' hC hI _ hq _
    by_cases hi : i = 0
    · subst hi
      have hself : Function.update φ 0 q' 0 = q' := Function.update_self ..
      -- Where call 0 holds its receiver, it held it, or registers now.
      have hfrom : ∀ {p st sv}, q' = .active p st sv true →
          (∃ p₀ st₀ sv₀, φ 0 = .active p₀ st₀ sv₀ true ∧
            p <:+ p₀ ∧ op.onStop = false ∧
            (φ 0).unsent = (op.wrote b).toList.map (·.setSeq 0)
              ++ q'.unsent) ∨
          (p = registeredPlan stderr ∧ st = .idle ∧ op.onStop = true ∧
            ∀ {h : ClientHistory} {w w' : DapClient},
              woken 0 (.act 0 op b w w' :: h) = none) := by
        rintro p st sv rfl
        obtain ⟨p₀, st₀, sv₀, ar₀, hp₀⟩ := hq.from_active
        have hsuf := hq.suffix
        have hsend := (hq.sends rfl).2
        rw [hp₀] at hq hsuf hsend
        rcases hq.armed_off with ⟨hop, rfl⟩ | ⟨rfl, rfl, -, hop, hw⟩
        · exact .inl ⟨p₀, st₀, sv₀, hp₀, hsuf, hop, hp₀ ▸ hsend⟩
        · have hplan := hC.plan 0
          rw [hp₀, h0] at hplan
          exact .inr ⟨launch_registers hplan, rfl, hop, hw⟩
      have hlast : ∀ {p st sv}, φ 0 = .active p st sv true →
          (φ 0).unsent = [Requests.configurationDone] ∨
            (φ 0).unsent = [] := by
        intro p st sv hp
        rw [hp]
        exact registeredPlan_unsent (hI.armed hp)
      refine ⟨fun {p st sv} hp => ?_, fun {p st sv} hp hu => ?_,
        fun {p st sv} hp hu => ?_, fun {r} hp => ?_⟩ <;>
        rw [hself] at hp
      · rcases hfrom hp with ⟨p₀, st₀, sv₀, hp₀, hsuf, -⟩ | ⟨rfl, -⟩
        · exact hsuf.trans (hI.armed hp₀)
        · exact List.suffix_refl _
      · rw [hself] at hu
        rcases hfrom hp with ⟨p₀, st₀, sv₀, hp₀, hsuf, hop, hun⟩ |
          ⟨-, -, hop, hw⟩
        · cases hwr : op.wrote b with
          | none =>
              rw [hwr] at hun
              obtain ⟨hr, hb⟩ := hI.before hp₀ (hun ▸ hu)
              obtain ⟨hwk, hreg, he, -⟩ :=
                stop_quiet (i := 0) (w := w) (h := h) hop hwr
              exact ⟨hreg.trans hr, fun hn => hwk.trans (hb hn)⟩
          | some q =>
              rw [hwr] at hun
              rcases hlast hp₀ with hx | hx <;> rw [hun] at hx
              · exact absurd (List.cons.inj hx).2 hu
              · cases hx
        · refine ⟨?_, fun _ => hw⟩
          simp only [registeredLast, hop, Bool.true_or, if_true]
      · rw [hself] at hu
        rcases hfrom hp with ⟨p₀, st₀, sv₀, hp₀, hsuf, hop, hun⟩ |
          ⟨rfl, rfl, -⟩
        · cases hwr : op.wrote b with
          | none =>
              rw [hwr] at hun
              exact (hI.after hp₀ (hun.trans hu)).quiet hop hwr
          | some q =>
              rw [hwr] at hun
              rcases hlast hp₀ with hx | hx <;> rw [hun] at hx
              · have hc := congrArg DapRequest.command
                  (List.cons.inj hx).1
                refine .start hop hwr hc (hI.before hp₀ ?_).2
                rw [hun]
                exact List.cons_ne_nil _ _
              · cases hx
        · subst hp
          cases hu
      · subst hp
        obtain ⟨⟨sv, hp₀⟩, hop, hwr⟩ := hq.from_stop
        refine (hI.after hp₀ ?_).quiet hop hwr
        rw [hp₀]
        rfl
    · -- Another caller's step changes none of it.
      have hφ : Function.update φ i q' 0 = φ 0 :=
        Function.update_of_ne (fun e => hi e.symm) _ _
      have hw : woken 0 (.act i op b w w' :: h) = woken 0 h :=
        woken_other hone (hC.plan i) hq hi
      have hreg : registeredLast 0 (.act i op b w w' :: h)
          = registeredLast 0 h := if_neg hi
      have hst : stopAfter 0 "configurationDone" (.act i op b w w' :: h)
          = stopAfter 0 "configurationDone" h := if_neg fun e => hi e.1
      have hm : StopMatches h → StopMatches (.act i op b w w' :: h) := by
        intro hm
        refine ⟨fun he => ?_, fun hs => ?_⟩
        · rw [hw, hst]
          exact hm.same he
        · rw [hw]
          rw [hst] at hs
          exact hm.later hs
      refine ⟨fun hp => hI.armed (hφ ▸ hp), fun hp hu => ?_,
        fun hp hu => ?_, fun hp => hm (hI.got (hφ ▸ hp))⟩
      · rw [hφ] at hp hu
        obtain ⟨hr, hb⟩ := hI.before hp hu
        refine ⟨hreg.trans hr, fun he => hw.trans (hb he)⟩
      · rw [hφ] at hp hu
        exact hm (hI.after hp hu)
  env := by
    intro w w' φ h e hC hI _ _
    refine ⟨hI.armed, fun hp hu => ?_, fun hp hu => (hI.after hp hu).env,
      fun hp => (hI.got hp).env⟩
    obtain ⟨hr, hb⟩ := hI.before hp hu
    refine ⟨hr, fun he => ?_⟩
    cases e with
    | reader k =>
        cases hh : w.head with
        | none =>
            simp only [earlyStop, woken, hh] at he ⊢
            exact hb he
        | some op =>
            cases op with
            | takeStop o =>
                simp only [earlyStop, hh, hr, Bool.true_or,
                  Bool.true_eq_false] at he
            | _ =>
                simp only [earlyStop, woken, hh] at he ⊢
                exact hb he
    | _ => exact hb he

-- ============================================================ the order

/-- What a launch writes, in order. -/
def launchRequests (spec : LaunchSpec) : List DapRequest :=
  Requests.initializeRequest
    :: Requests.launch (LldbLaunchArgs.new spec).toValue
    :: (spec.sourceBreakpoints.map (fun f =>
          Requests.setBreakpoints f.1 f.2)
      ++ ((if spec.functionBreakpoints.isEmpty then []
          else [Requests.setFunctionBreakpoints spec.functionBreakpoints])
        ++ [Requests.setExceptionBreakpoints,
          Requests.configurationDone]))

theorem requests_cons (t : PlanStep) (p : List PlanStep) :
    requests (t :: p)
      = (t.request?.map (·.setSeq 0)).toList ++ requests p := by
  unfold requests
  cases ht : t.request? with
  | none => rw [List.filterMap_cons_none ht]; rfl
  | some q => rw [List.filterMap_cons_some ht]; rfl

theorem requests_append (p q : List PlanStep) :
    requests (p ++ q) = requests p ++ requests q := by
  unfold requests
  rw [List.filterMap_append, List.map_append]

theorem flushPlan_requests (stderr : String)
    (files : List (String × List SourceBp)) :
    requests (flushPlan stderr files)
      = files.map fun f => Requests.setBreakpoints f.1 f.2 := by
  induction files with
  | nil => rfl
  | cons f files ih =>
      show requests (_ :: flushPlan stderr files) = _
      rw [requests_cons, ih]
      rfl

theorem functionPlan_requests (stderr : String) (bps : List FunctionBp) :
    requests (functionPlan stderr bps)
      = if bps.isEmpty then [] else [Requests.setFunctionBreakpoints bps] := by
  unfold functionPlan
  split <;> rfl

/-- The plan of a launch sends these. -/
theorem launchPlan_requests (stderr : String) (spec : LaunchSpec) :
    requests (launchPlan stderr spec) = launchRequests spec := by
  have htail : requests (launchTailPlan stderr spec.stopOnEntry)
      = [Requests.configurationDone] := by
    unfold launchTailPlan
    split <;> rfl
  unfold launchPlan launchRequests
  rw [requests_cons, requests_cons, requests_cons, requests_append,
    requests_append, requests_cons, flushPlan_requests,
    functionPlan_requests, htail]
  rfl

/-- A launch can succeed. -/
theorem launch_handshakes {calls : Nat → LldbCall} {stderr : String}
    {spec : LaunchSpec} (h0 : calls 0 = .launch stderr spec)
    (hone : OnlyHandshake calls) : Handshakes calls where
  opening := by
    rw [h0]
    refine ⟨_, _, _, _, rfl, fun hm => ?_⟩
    rcases List.mem_append.mp hm with hm | hm
    · obtain ⟨f, -, hf⟩ := List.mem_map.mp hm
      cases hf
    rcases List.mem_append.mp hm with hm | hm
    · unfold functionPlan at hm
      split at hm
      · cases hm
      · cases List.mem_singleton.mp hm
    · unfold launchTailPlan at hm
      split at hm <;> simp at hm
  accepting := by
    unfold Accepting
    rw [h0]
    exact launch_accepts stderr spec
  only := hone

-- ============================================================== the run

/-- What a launch's stop waiter adds: it has an outcome only if its plan
awaits one; and that outcome, when no other call registers a waiter. -/
structure LaunchStop (stderr : String) (calls : Nat → LldbCall)
    (φ : Nat → CallPhase) (h : ClientHistory) : Prop where
  planned : ∀ r, φ 0 = .got r → .stop ∈ (calls 0).plan
  entry : OnlyRegistered calls →
    (∀ r, woken 0 h = some r → ∃ o, r = .ok o) ∧ EntryStop stderr φ h

theorem launchStop {calls : Nat → LldbCall} {stderr : String}
    {spec : LaunchSpec} (h0 : calls 0 = .launch stderr spec) :
    InductiveOver clientMachine PlanNext Honest (HandshakeInv calls)
      (fun _ φ h => LaunchStop stderr calls φ h) where
  act := by
    intro w w' φ h i β op a b q' hI hJ hr hq _
    refine ⟨fun r hp => ?_, fun hone => ?_⟩
    · by_cases hi : i = 0
      · subst hi
        rw [Function.update_self] at hp
        subst hp
        obtain ⟨⟨sv, hp₀⟩, -⟩ := hq.from_stop
        have hsuf := hI.wire.caller.plan 0
        rw [hp₀] at hsuf
        exact hsuf.mem (List.mem_singleton_self _)
      · rw [Function.update_of_ne fun e => hi e.symm] at hp
        exact hJ.planned r hp
    · obtain ⟨hok, hS⟩ := hJ.entry hone
      exact ⟨(wokenOk calls hone).act hI.wire.caller hok hr hq trivial,
        (entryStopInv h0 hone).act hI.wire.caller hS hr hq trivial⟩
  env := by
    intro w w' φ h e hI hJ he _
    refine ⟨hJ.planned, fun hone => ?_⟩
    obtain ⟨hok, hS⟩ := hJ.entry hone
    exact ⟨(wokenOk calls hone).env hI.wire.caller hok he trivial,
      (entryStopInv h0 hone).env hI.wire.caller hS he trivial⟩

theorem LaunchStop.start (stderr : String) (calls : Nat → LldbCall) :
    LaunchStop stderr calls (fun i => (calls i).phase₀) [] where
  planned r hp := by cases hp
  entry _ := by
    refine ⟨nofun, fun hp => ?_, fun hp => ?_, fun hp => ?_, nofun⟩
    all_goals cases (CallPhase.active.inj hp).2.2.2

/-- A launch awaits a stop only on entry. -/
theorem launch_stop_mem {stderr : String} {spec : LaunchSpec}
    (hm : .stop ∈ launchPlan stderr spec) : spec.stopOnEntry = true := by
  cases hs : spec.stopOnEntry with
  | true => rfl
  | false =>
      unfold launchPlan launchTailPlan flushPlan functionPlan at hm
      rw [hs] at hm
      split at hm <;> simp at hm

/-- What the launch handshake of call 0 does, in a run with history `h`
that ends in `s`. -/
structure LaunchRun (spec : LaunchSpec) (calls : Nat → LldbCall)
    (h : ClientHistory) (s : Pool ClientOp LldbResult DapClient) :
    Prop where
  order : (writes 0 h).map (·.setSeq 0) <+: launchRequests spec
  gate : Gated h
  /-- It goes on for a bounded number of steps. -/
  bounded : stepsOf 0 h ≤ ((calls 0).phase₀).fuel
  /-- At rest it does not wait once `initialized` was dispatched, what it
  wrote is settled, and the stop it asked for has come. -/
  progress : s.world.reader = [] → fired h = true →
    allSettled 0 h = true →
    (spec.stopOnEntry = true → OnlyRegistered calls ∧
      ((writes 0 h).any (·.command == "configurationDone") = true →
        (stopAfter 0 "configurationDone" h).isSome)) →
    GoesOn h s
  /-- When it has returned, it has written everything, and gives the
  outcome. -/
  returned : ∀ x, s.returned 0 = some x →
    (writes 0 h).map (·.setSeq 0) = launchRequests spec ∧
    (spec.stopOnEntry = false → x = .launch (some (.ok .running))) ∧
    (spec.stopOnEntry = true → OnlyRegistered calls →
      earlyStop 0 h = false →
      ∃ o, stopAfter 0 "configurationDone" h = some o ∧
        x = .launch (some (.ok (launchOutcome o))))

/-- **The launch handshake is independent of the order of the adapter's
messages and keeps its stop.** -/
theorem launch_keeps_stop {calls : Nat → LldbCall} {stderr : String}
    {spec : LaunchSpec} (h0 : calls 0 = .launch stderr spec)
    (hone : OnlyHandshake calls) {h : ClientHistory}
    {s : Pool ClientOp LldbResult DapClient}
    (hr : RunIf clientMachine Honest (lldbPool calls) h s) :
    LaunchRun spec calls h s := by
  obtain ⟨φ, ⟨hI, hJ⟩, hobey⟩ := handshake_run (launch_handshakes h0 hone)
    (launchStop h0) (.start stderr calls) hr
  have hreq : requests (calls 0).plan = launchRequests spec := by
    rw [h0]
    exact launchPlan_requests stderr spec
  have hall : (φ 0).unsent = [] →
      (writes 0 h).map (·.setSeq 0) = launchRequests spec := by
    intro hun
    rw [← hreq, ← hI.wire.sent.rest 0 hI.live, hun, List.append_nil]
  refine ⟨hreq ▸ hI.wire.sent.front 0, hI.gate,
    Nat.le_of_add_right_le (hI.steps 0), fun hrest hf hset hstop => ?_,
    fun x hx => ?_⟩
  · refine goesOn_of_not_waiting hr ((Bool.not_eq_true _).mp fun hw => ?_)
    obtain ⟨⟨sv, hp⟩, hnone⟩ :=
      hI.wire.waits_stop (hobey 0) hrest hset (fun _ => hf) hw
    have hsuf := hI.wire.caller.plan 0
    rw [hp, h0] at hsuf
    have hentry := launch_stop_mem (hsuf.mem (List.mem_singleton_self _))
    obtain ⟨hreg, hev⟩ := hstop hentry
    have hun : (φ 0).unsent = [] := by
      rw [hp]
      rfl
    -- `configurationDone` is written, so its stop has come.
    have hdone : (writes 0 h).any (·.command == "configurationDone")
        = true := by
      have hmem : Requests.configurationDone ∈
          (writes 0 h).map (·.setSeq 0) := by
        rw [hall hun]
        simp [launchRequests]
      obtain ⟨q, hq, he⟩ := List.mem_map.mp hmem
      refine List.any_eq_true.mpr ⟨q, hq, beq_iff_eq.mpr ?_⟩
      exact congrArg DapRequest.command he
    have hsome := (((hJ.entry hreg).2.after hp hun).later) (hev hdone)
    rw [hnone] at hsome
    cases hsome
  · have hends := hobey 0 _ (Pool.prog_of_returned hx)
    rw [h0] at hends
    obtain ⟨y, rfl, hy⟩ := hends
    generalize hp : φ 0 = p at hy
    cases hy with
    | failed y hne =>
        have hl := hI.live
        rw [hp] at hl
        cases hl
    | got r =>
        have hstop := hJ.planned r hp
        rw [h0] at hstop
        have hentry := launch_stop_mem hstop
        refine ⟨hall (by rw [hp]; rfl), fun hno => ?_, fun _ hreg he => ?_⟩
        · cases hno.symm.trans hentry
        · obtain ⟨hok, hS⟩ := hJ.entry hreg
          have hw := hI.wire.got hp
          obtain ⟨o, rfl⟩ := hok r hw
          have hsame := (hS.got hp).same he
          rw [hw] at hsame
          obtain ⟨o', ho', hx⟩ :=
            Option.map_eq_some_iff.mp hsame.symm
          cases hx
          exact ⟨o, ho', rfl⟩
    | plain a ha ar =>
        refine ⟨hall (by rw [hp]; rfl), fun hno => ?_, fun hentry => ?_⟩
        · unfold launchPlain at ha
          rw [hno] at ha
          cases ha
          rfl
        · unfold launchPlain at ha
          rw [hentry] at ha
          cases ha

/-- One launch alone, with pending breakpoints. -/
def pendingLaunch : Nat → LldbCall
  | 0 => .launch ""
      { program := "a", args := [], cwd := none, env := [],
        stopOnEntry := true,
        sourceBreakpoints := [("a.c", [{ line := 3, condition := "" }])],
        functionBreakpoints := [{ name := "f", condition := "" }] }
  | _ => .absent

/-- A stop at a program's entry. -/
def entryStopped : StoppedEvent where
  seq := 0
  ty := "event"
  event := "stopped"
  body :=
    { reason := "entry", description := "", threadId := 1, text := "",
      allThreadsStopped := true, hitBreakpointIds := [] }

/-- The adapter stops the target and answers the launch before it
answers `configurationDone`. -/
def stopBeforeAnswers : List (Action Reply ClientMove) :=
  launching ++ [.env (.frame (.event .initialized)), .env (.reader 0)]
    ++ steps 0 4 ++ answering 3 true "setBreakpoints"
    ++ steps 0 4 ++ answering 4 true "setFunctionBreakpoints"
    ++ steps 0 4 ++ answering 5 true "setExceptionBreakpoints"
    ++ steps 0 5
    ++ [.env (.frame (.event (.stopped entryStopped))),
      .env (.reader 0), .env (.reader 0)]
    ++ answering 2 true "launch" ++ answering 6 true "configurationDone"
    ++ steps 0 3

/-- That launch returns its stop. -/
theorem launch_keeps_entry_stop : ∃ h s,
    RunIf clientMachine Honest (lldbPool pendingLaunch) h s ∧
      s.returned 0 = some (.launch (some (.ok
        (.stopped (stopInfoFromEvent entryStopped))))) := by
  have hother : ∀ {t : PlanStep} (i : Nat), i ≠ 0 →
      t ∉ (pendingLaunch i).plan := by
    intro t i hi
    cases i with
    | zero => exact absurd rfl hi
    | succ i => exact List.not_mem_nil
  obtain ⟨h, s, hr, hm, hret, he, hstop⟩ := exec_witness clientMachine
    (lldbPool pendingLaunch) stopBeforeAnswers
    (fun h s => Meets Honest h ∧ (s.returned 0).isSome ∧
      earlyStop 0 h = false ∧ stopAfter 0 "configurationDone" h
        = some (.stopped (stopInfoFromEvent entryStopped)))
    (by decide +kernel)
  obtain ⟨x, hx⟩ := Option.isSome_iff_exists.mp hret
  have hrun := RunIf.ofMeets hr hm
  obtain ⟨-, -, hentry⟩ :=
    (launch_keeps_stop rfl hother hrun).returned x hx
  obtain ⟨o, ho, rfl⟩ := hentry rfl hother he
  cases ho.symm.trans hstop
  exact ⟨h, s, hrun, hx⟩

end DebugMcp
