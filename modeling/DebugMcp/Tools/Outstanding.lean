/-
What is outstanding at the adapter.

A resume is outstanding from the write of its request until the adapter
ends a resume, by a stop, an exit or the end of its stream. In the runs
in which every Running write finds the session stopped and every request
is written in turn, at most one is.

# Method

Three invariants carry it: the handlers take turns (`TurnsOver`), the
client's table answers each call (`TableOver`), and each call in flight
has its own stop waiter (`WaitersOver`). With them `OutInv` says, by
where a call is, whether its request can be outstanding: a call that
gives up, or has its stop, leaves nothing behind.
-/
import DebugMcp.Lldb.Resolution
import DebugMcp.Tools.Flight
import DebugMcp.Tools.ResumeTurns

namespace DebugMcp

open Conc

-- =========================================================== histories

/-- The calls whose requests have reached the adapter since it last
ended a resume, while its stream is open. -/
def outstanding : LldbHistory → List Nat
  | [] => []
  | .act i (.backend (.writeRequest _)) x w _ :: h =>
      if x.reached && !w.backend.ended then i :: outstanding h
      else outstanding h
  | .env (.backend (.frame m)) _ _ :: h =>
      if m.endsResume then [] else outstanding h
  | .env (.backend .eof) _ _ :: _ => []
  | _ :: h => outstanding h

-- =========================================================== condition

/-- Is call `i`'s write in turn? One that goes through finds its waiter
unresolved and no execution event on its way to it; one that fails has
not reached the adapter. -/
def writesInTurn (h : LldbHistory) (i : Nat) (w : DapClient) :
    Written → Bool
  | .ok => (woken i (backendPart h)).isNone
      && w.reader.all fun op => !op.takesStop
  | .failed reached _ => !reached
  | .cancelled _ => true

/-- Does the event, if it is a Running write, find the session
stopped? -/
def LldbEvent.findsStopped : LldbEvent → Bool
  | .act _ (.tool op) _ w _ =>
      !op.setsRunning || w.server.session.inner.state = .stopped
  | _ => true

/-- The Running write finds the session stopped, and a request is
written in turn while the stream is open. -/
def resumesInTurn (h : LldbHistory) : LldbEvent → Bool
  | .act i (.backend (.writeRequest _)) x w _ =>
      w.backend.ended || writesInTurn h i w.backend x
  | ev => ev.findsStopped

/-- The runs whose steps are all in turn. -/
abbrev LldbResumeRun (calls : Nat → ResumeTool) (w₀ : LldbServer) :
    LldbHistory → Pool LldbOp ToolOutcome LldbServer → Prop :=
  RunIf lldbMachine (fun h ev => resumesInTurn h ev = true)
    (lldbResumePool calls w₀)

-- ================================================================ turns

section

variable {w w' : LldbServer} {φ : Nat → Flight × SendPhase}
  {h : LldbHistory} {i : Nat} {β : Type} {op : LldbOp β} {a : LldbAnswer}
  {b : β} {q' : Flight × SendPhase}

/-- At most one call is in flight, and none while the session is
stopped. -/
abbrev TurnsOver (w : LldbServer) (φ : Nat → Flight × SendPhase) : Prop :=
  InTurn (w.state = .stopped) (fun q => q.1.inFlight) φ

theorem turnsOver_inductive : Inductive lldbMachine ResumeNext
    (fun h ev => resumesInTurn h ev = true) (fun w φ _ => TurnsOver w φ)
    where
  act := by
    intro w w' φ h i β op a b q' hI hr hq hok
    have hf := hq.1
    generalize hφ : (φ i).1 = f at hf
    generalize hq' : q'.1 = f' at hf
    have hstay : f'.inFlight = f.inFlight → w'.state = w.state →
        TurnsOver w' (Function.update φ i q') := by
      intro hff hst
      refine hI.stay ?_ fun h => hst ▸ h
      rw [hφ, hq', hff]
    have hleave : f.inFlight = true → f'.inFlight = false →
        TurnsOver w' (Function.update φ i q') := fun h₁ h₂ =>
      hI.leave (by rw [hφ, h₁]) (by rw [hq', h₂])
    cases hf with
    | look op hl x => exact hstay rfl (hl.state hr)
    | run =>
        refine hI.enter (of_decide_eq_true hok) ?_
        rw [Backed.state_session hr]
        nofun
    | polled =>
        refine hstay rfl ?_
        rw [Backed.run_race hr]
    | lost | releaseDropped | revert | settle => exact hleave rfl rfl
    | cache | drain => exact hstay rfl (Backed.state_session hr)
    | _ => exact hstay rfl (Backed.state_backend hr)
  env := by
    intro w w' φ h e hI he _
    refine hI.still fun hst => ?_
    cases e with
    | backend e =>
        obtain ⟨-, hs⟩ := Backed.env_backend he
        unfold Backed.state at hst
        rw [hs] at hst
        exact hst
    | tool e =>
        obtain ⟨-, hs, -⟩ := Backed.env_tool he
        exact stopped_env hs hst

/-- After a step of call `i` it is in its new phase, and the others are
where they were. -/
theorem phase_update {P : Flight → Prop} {j : Nat}
    (hj : P (Function.update φ i q' j).1) :
    j = i ∧ P q'.1 ∨ j ≠ i ∧ P (φ j).1 :=
  update_cases (P := fun q : Flight × SendPhase => P q.1) hj

-- ================================================== the client's table

/-- The table under the handlers is the client's callers'. -/
abbrev TableOver (w : LldbServer) (φ : Nat → Flight × SendPhase)
    (h : LldbHistory) : Prop :=
  ClientInv w.backend (fun j => (φ j).2) (backendPart h) ∧
    ClosedInv w.backend

/-- The phases of the table after a handler's step. -/
theorem snd_update : (fun j => (Function.update φ i q' j).2)
    = Function.update (fun j => (φ j).2) i q'.2 := by
  funext j
  by_cases hij : j = i
  · rw [hij, Function.update_self, Function.update_self]
  · rw [Function.update_of_ne hij, Function.update_of_ne hij]

theorem tableOver_inductive
    {ok : LldbHistory → LldbEvent → Prop} :
    Inductive lldbMachine ResumeNext ok TableOver where
  act := by
    intro w w' φ h i β op a b q' hI hr hq _
    have hs := hq.2
    obtain ⟨hI, hC⟩ := hI
    unfold TableOver
    rw [snd_update]
    generalize hψ : (fun j => (φ j).2) = ψ at hI
    have hi : (φ i).2 = ψ i := congrFun hψ i
    rw [hi] at hs
    generalize q'.2 = s' at hs
    generalize hs₀ : ψ i = s at hs
    -- a step that leaves the phase and the table
    have hquiet : ∀ {op : ClientOp β} {a' : Reply},
        w.backend.run i op a' = some (b, w'.backend) → op.onTable = false →
        given (.act i op b w.backend w'.backend :: backendPart h)
          = given (backendPart h) →
        ClientInv w'.backend (Function.update ψ i s)
          (.act i op b w.backend w'.backend :: backendPart h) := by
      intro op a' hr hop hg
      refine hI.quiet (DapClient.run_off_table hr hop) hg rfl rfl
        (hI.moved (by rw [hs₀]) (hs₀ ▸ hI.holds i))
    cases hs with
    | tool q op x =>
        obtain ⟨_, _, hc⟩ := Backed.run_tool hr
        rw [hc, ← hs₀, Function.update_eq_self]
        exact ⟨hI, hC⟩
    | race q op x =>
        rw [Backed.run_race hr, ← hs₀, Function.update_eq_self]
        exact ⟨hI, hC⟩
    | send hn =>
        obtain ⟨_, hr, _⟩ := Backed.run_backend hr
        refine ⟨clientInv_inductive.act hI hr (hs₀ ▸ hn) trivial,
          hC.act hr⟩
    | _ =>
        obtain ⟨_, hr, _⟩ := Backed.run_backend hr
        exact ⟨hquiet hr rfl rfl, hC.act hr⟩
  env := by
    intro w w' φ h e hI he _
    cases e with
    | tool e =>
        obtain ⟨-, -, hc⟩ := Backed.env_tool he
        unfold TableOver
        rw [hc]
        exact hI
    | backend e =>
        obtain ⟨hc, -⟩ := Backed.env_backend he
        exact ⟨clientInv_inductive.env hI.1 hc trivial, hI.2.env hc⟩

-- ======================================================== stop waiters

/-- The stop waiters of the handlers: each registers once, and holds its
receiver until it has its outcome or gives up. -/
structure WaitersOver (w : LldbServer) (φ : Nat → Flight × SendPhase)
    (h : LldbHistory) : Prop where
  waiters : WaiterInv w.backend (backendPart h)
  unarmed : ∀ j, (φ j).1.unarmed = true →
    hasRegistered j (backendPart h) = false
  holds : ∀ j, (φ j).1.holds = true → holdsStop j (backendPart h) = true

theorem waitersOver_inductive {ok : LldbHistory → LldbEvent → Prop} :
    Inductive lldbMachine ResumeNext ok WaitersOver where
  act := by
    intro w w' φ h i β op a b q' hI hr hq _
    have hf := hq.1
    generalize hφ : (φ i).1 = f at hf
    generalize hq' : q'.1 = f' at hf
    have hphase : ∀ {P : Flight → Prop} {j : Nat},
        P (Function.update φ i q' j).1 → j = i ∧ P f' ∨
          j ≠ i ∧ P (φ j).1 := fun hj => hq' ▸ phase_update hj
    have hoff : w'.backend = w.backend →
        backendPart (.act i op b w w' :: h) = backendPart h →
        (f'.unarmed = true → f.unarmed = true) → f'.holds = false →
        WaitersOver w' (Function.update φ i q')
          (.act i op b w w' :: h) := by
      intro hw hpart hun hho
      refine ⟨by rw [hw, hpart]; exact hI.waiters, fun j hj => ?_,
        fun j hj => ?_⟩ <;> rw [hpart]
      · rcases hphase (P := (·.unarmed = true)) hj with ⟨rfl, hu⟩ | ⟨-, hj⟩
        · exact hI.unarmed j (hφ ▸ hun hu)
        · exact hI.unarmed j hj
      · rcases hphase (P := (·.holds = true)) hj with ⟨rfl, hh⟩ | ⟨-, hj⟩
        · rw [hho] at hh
          cases hh
        · exact hI.holds j hj
    have hclient : ∀ {op : ClientOp β} {a' : Reply},
        w.backend.run i op a' = some (b, w'.backend) →
        (op.registersStop = true → f.unarmed = true) →
        f'.unarmed = false →
        (f'.holds = true → holdsStop i
          (.act i op b w.backend w'.backend :: backendPart h) = true) →
        WaitersOver w' (Function.update φ i q')
          (.act i (.backend op) b w w' :: h) := by
      intro op a' hr hreg hun hho
      refine ⟨hI.waiters.act hr fun ho => hI.unarmed i (hφ ▸ hreg ho),
        fun j hj => ?_, fun j hj => ?_⟩ <;> rw [backendPart_backend]
      · rcases hphase (P := (·.unarmed = true)) hj with ⟨rfl, hu⟩ |
          ⟨hij, hj⟩
        · rw [hun] at hu
          cases hu
        · rw [hasRegistered_act fun he => absurd he.symm hij]
          exact hI.unarmed j hj
      · rcases hphase (P := (·.holds = true)) hj with ⟨rfl, hh⟩ |
          ⟨hij, hj⟩
        · exact hho hh
        · rw [holdsStop_other (Ne.symm hij)]
          exact hI.holds j hj
    have hheld : f.holds = true → holdsStop i (backendPart h) = true :=
      fun hh => hI.holds i (hφ ▸ hh)
    cases hf with
    | look | run | revert | settle | cache | drain =>
        obtain ⟨_, _, hc⟩ := Backed.run_tool hr
        exact hoff hc rfl (fun h => h) rfl
    | lost | polled =>
        exact hoff (by rw [Backed.run_race hr]) rfl (fun _ => rfl) rfl
    | arm =>
        obtain ⟨_, hr, _⟩ := Backed.run_backend hr
        refine hclient hr (fun _ => rfl) rfl fun _ => ?_
        show (decide (i = i) || _) = true
        rw [decide_eq_true rfl]
        rfl
    | releaseFailed | releaseDropped | stop =>
        obtain ⟨_, hr, _⟩ := Backed.run_backend hr
        exact hclient hr nofun rfl nofun
    | _ =>
        obtain ⟨_, hr, _⟩ := Backed.run_backend hr
        exact hclient hr nofun rfl fun _ => hheld rfl
  env := by
    intro w w' φ h e hI he _
    cases e with
    | tool e =>
        obtain ⟨-, -, hc⟩ := Backed.env_tool he
        exact ⟨hc ▸ hI.waiters, hI.unarmed, hI.holds⟩
    | backend e =>
        obtain ⟨hc, -⟩ := Backed.env_backend he
        exact ⟨hI.waiters.env hc, hI.unarmed, hI.holds⟩

/-- What an operation receives of a response channel. -/
def ClientOp.receives : {β : Type} → ClientOp β → β →
    Option (ChanId × Except Unit PendingResult)
  | _, .recv c, some r => some (c, r)
  | _, _, _ => none

/-- A caller receives from the channel it waits on. -/
theorem SendOver.receives {op : ClientOp β} {s s' : SendPhase}
    {c : ChanId} {r : Except Unit PendingResult}
    (hq : SendOver s (.backend op) b s')
    (hop : op.receives b = some (c, r)) :
    ∃ g n, s = .waiting g n c := by
  cases hq with
  | send hn =>
      cases hn with
      | recv g n c r =>
          cases hop
          exact ⟨g, n, rfl⟩
      | _ => cases hop
  | _ => cases hop

/-- A request's error comes from the end of the stream. -/
theorem TableOver.refused {op : ClientOp β} {c : ChanId}
    {r : Except Unit PendingResult} {e : BackendError} {s' : SendPhase}
    (hI : TableOver w φ h) (hq : SendOver (φ i).2 (.backend op) b s')
    (hop : op.receives b = some (c, r))
    (hr : (w.backend.chans c).recv = some r)
    (he : pendingResult r = .error e) : w.backend.ended = true := by
  obtain ⟨hI, hC⟩ := hI
  obtain ⟨g, n, hs⟩ := hq.receives hop
  have hh := hI.holds i
  rw [hs] at hh
  cases hh.2 with
  | pending hl =>
      rw [(hI.table.fresh hl).2] at hr
      cases hr
  | queued hn x hq hx =>
      rw [(hI.table.queue_fresh hq).2.1] at hr
      cases hr
  | sent hn x hx hans =>
      rw [hx] at hr
      cases hr
      have hxe : x = .error e := he
      subst hxe
      exact hC.inChan hx

-- ======================================================== outstanding

/-- What is outstanding at the adapter, by where the calls are. -/
structure OutInv (w : LldbServer) (φ : Nat → Flight × SendPhase)
    (h : LldbHistory) : Prop where
  few : (outstanding h).length ≤ 1
  stopped : w.state = .stopped → outstanding h = []
  ended : w.backend.ended = true → outstanding h = []
  clear : ∀ j, (φ j).1.clear = true → outstanding h = []
  /-- A written request's stop has resolved its waiter, or is on its way
  there. -/
  waits : ∀ j, (φ j).1.waits = true →
    (woken j (backendPart h)).isSome = true ∨
      (∃ op ∈ w.backend.reader, op.takesStop = true) →
    outstanding h = []

/-- The turns, the table and the waiters. -/
abbrev BaseInv (w : LldbServer) (φ : Nat → Flight × SendPhase)
    (h : LldbHistory) : Prop :=
  (TurnsOver w φ ∧ TableOver w φ h) ∧ WaitersOver w φ h

theorem baseInv_inductive : Inductive lldbMachine ResumeNext
    (fun h ev => resumesInTurn h ev = true) BaseInv :=
  (turnsOver_inductive.and tableOver_inductive).and waitersOver_inductive

/-- With nothing outstanding there is nothing to say. -/
theorem OutInv.of_nil (hn : outstanding h = []) : OutInv w φ h where
  few := by
    rw [hn]
    exact Nat.zero_le _
  stopped _ := hn
  ended _ := hn
  clear _ _ := hn
  waits _ _ _ := hn

/-- A step that leaves the waiters and the read loop, and what is
outstanding. -/
theorem OutInv.quiet {ev : LldbEvent} (hI : OutInv w φ h)
    (ho : outstanding (ev :: h) = outstanding h)
    (hc : SameReader w.backend w'.backend)
    (hw : ∀ j, woken j (backendPart (ev :: h)) = woken j (backendPart h))
    (hst : w'.state = .stopped → outstanding h = [])
    (hclear : q'.1.clear = true → outstanding h = [])
    (hwaits : q'.1.waits = true → (φ i).1.waits = true) :
    OutInv w' (Function.update φ i q') (ev :: h) := by
  refine ⟨?_, ?_, ?_, fun j hj => ?_, fun j hj => ?_⟩ <;> rw [ho]
  · exact hI.few
  · exact hst
  · rw [hc.ended]
    exact hI.ended
  · rcases phase_update (P := (·.clear = true)) hj with ⟨-, hj⟩ | ⟨-, hj⟩
    · exact hclear hj
    · exact hI.clear j hj
  · rw [hw, hc.reader]
    rcases phase_update (P := (·.waits = true)) hj with ⟨rfl, hp⟩ | ⟨-, hj⟩
    · exact hI.waits j (hwaits hp)
    · exact hI.waits j hj

/-- A request that reaches an open adapter is outstanding. -/
theorem outstanding_reached {q : DapRequest} {x : Written}
    (hx : x.reached = true) (he : w.backend.ended = false) :
    outstanding (.act i (.backend (.writeRequest q)) x w w' :: h)
      = i :: outstanding h := by
  show (if x.reached && !w.backend.ended then _ else _) = _
  rw [hx, he]
  rfl

/-- One that does not is not. -/
theorem outstanding_past {q : DapRequest} {x : Written}
    (hx : x.reached = false ∨ w.backend.ended = true) :
    outstanding (.act i (.backend (.writeRequest q)) x w w' :: h)
      = outstanding h := by
  show (if x.reached && !w.backend.ended then _ else _) = _
  rcases hx with hx | hx <;> rw [hx]
  · rfl
  · rw [Bool.not_true, Bool.and_false]
    rfl

/-- The request of the call in flight reaches the adapter. -/
theorem OutInv.add {ev : LldbEvent} (hB : TurnsOver w φ)
    (hi : (φ i).1.inFlight = true) (ho : outstanding (ev :: h) = [i])
    (hst : w'.state = w.state) (hended : w'.backend.ended = false)
    (hclear : q'.1.clear = false)
    (hwaits : q'.1.waits = true →
      ¬ ((woken i (backendPart (ev :: h))).isSome = true ∨
        ∃ op ∈ w'.backend.reader, op.takesStop = true)) :
    OutInv w' (Function.update φ i q') (ev :: h) where
  few := by
    rw [ho]
    exact Nat.le_refl _
  stopped h := by
    rw [hst] at h
    rw [hB.outside h i] at hi
    cases hi
  ended h := by
    rw [hended] at h
    cases h
  clear j hj := by
    rcases phase_update (P := (·.clear = true)) hj with ⟨-, hj⟩ | ⟨hij, hj⟩
    · rw [hclear] at hj
      cases hj
    · exact absurd (hB.alone (Flight.inFlight_of_clear hj) hi) hij
  waits j hj hw := by
    rcases phase_update (P := (·.waits = true)) hj with ⟨rfl, hp⟩ |
      ⟨hij, hj⟩
    · exact absurd hw (hwaits hp)
    · exact absurd (hB.alone (Flight.inFlight_of_waits hj) hi) hij

theorem outInv_over : InductiveOver lldbMachine ResumeNext
    (fun h ev => resumesInTurn h ev = true) BaseInv OutInv where
  act := by
    intro w w' φ h i β op a b q' hB hI hr hq hok
    obtain ⟨hf, hs⟩ := hq
    generalize hφ : (φ i).1 = f at hf
    generalize hq' : q'.1 = f' at hf
    have hclr : f.clear = true → outstanding h = [] := fun hc =>
      hI.clear i (hφ ▸ hc)
    have hkeep : outstanding (.act i op b w w' :: h) = outstanding h →
        SameReader w.backend w'.backend →
        (∀ j, woken j (backendPart (.act i op b w w' :: h))
          = woken j (backendPart h)) →
        (w'.state = .stopped → w.state = .stopped) →
        f'.clear = false → (f'.waits = true → f.waits = true) →
        OutInv w' (Function.update φ i q') (.act i op b w w' :: h) := by
      intro ho hc hw hst hcl hwt
      refine hI.quiet ho hc hw (fun h => hI.stopped (hst h)) ?_ ?_
      · rw [hq', hcl]
        nofun
      · rw [hq', hφ]
        exact hwt
    have hadd : f.inFlight = true →
        outstanding (.act i op b w w' :: h) = [i] → w'.state = w.state →
        w'.backend.ended = false → f'.clear = false →
        (f'.waits = true →
          ¬ ((woken i (backendPart (.act i op b w w' :: h))).isSome
              = true ∨ ∃ op ∈ w'.backend.reader, op.takesStop = true)) →
        OutInv w' (Function.update φ i q') (.act i op b w w' :: h) := by
      intro hfl ho hst hended hcl hwt
      exact .add hB.1.1 (hφ ▸ hfl) ho hst hended (hq' ▸ hcl) (hq' ▸ hwt)
    cases hf with
    | look op hl x =>
        obtain ⟨_, _, hc⟩ := Backed.run_tool hr
        exact hkeep rfl ⟨by rw [hc], by rw [hc]⟩ (fun _ => rfl)
          (fun h => hl.state hr ▸ h) rfl nofun
    | run => exact .of_nil (hI.stopped (of_decide_eq_true hok))
    | lost | polled | arm | number | register | releaseFailed | revert =>
        exact .of_nil (hclr rfl)
    | write n c q =>
        obtain ⟨_, hc, _⟩ := Backed.run_backend hr
        have hw := DapClient.run_writeRequest hc
        have hnil := hclr rfl
        cases hend : w.backend.ended with
        | true => exact .of_nil ((outstanding_past (.inr hend)).trans hnil)
        | false =>
            have hok : (w.backend.ended
                || writesInTurn h i w.backend .ok) = true := hok
            rw [hend, Bool.false_or] at hok
            obtain ⟨hnone, hall⟩ := Bool.and_eq_true_iff.mp hok
            refine hadd rfl ?_ (Backed.state_backend hr) (hw ▸ hend) rfl
              fun _ => ?_
            · rw [outstanding_reached rfl hend, hnil]
            · rw [hw, backendPart_backend, woken_quiet rfl]
              rintro (hs | ⟨op, hop, ht⟩)
              · rw [Option.isNone_iff_eq_none.mp hnone] at hs
                cases hs
              · have := List.all_eq_true.mp hall op hop
                rw [ht] at this
                cases this
    | writeFail n c q reached err =>
        refine .of_nil ((outstanding_past ?_).trans (hclr rfl))
        rcases Bool.or_eq_true_iff.mp hok with hend | hok
        · exact .inr hend
        · exact .inl ((Bool.not_eq_true' _).mp hok)
    | writeDrop n c q reached =>
        obtain ⟨_, hc, _⟩ := Backed.run_backend hr
        have hw := DapClient.run_writeRequest hc
        have hnil := hclr rfl
        by_cases hadds : reached = false ∨ w.backend.ended = true
        · exact .of_nil ((outstanding_past (x := .cancelled reached)
            hadds).trans hnil)
        · obtain ⟨hre, hend⟩ := not_or.mp hadds
          have hend := (Bool.not_eq_true _).mp hend
          refine hadd rfl ?_ (Backed.state_backend hr) (hw ▸ hend) rfl
            nofun
          rw [outstanding_reached (x := .cancelled reached)
            ((Bool.not_eq_false _).mp hre) hend, hnil]
    | answer n c m =>
        obtain ⟨_, hc, _⟩ := Backed.run_backend hr
        exact hkeep rfl (DapClient.run_reader hc)
          (fun j => woken_quiet rfl)
          (fun h => Backed.state_backend hr ▸ h) rfl fun _ => rfl
    | refuse n c r e he =>
        obtain ⟨_, hc, _⟩ := Backed.run_backend hr
        obtain ⟨-, hrecv⟩ := DapClient.run_recv hc
        exact .of_nil (hI.ended
          (hB.1.2.refused hs rfl (hrecv r rfl) he))
    | remove n failed =>
        cases failed with
        | true => exact .of_nil (hclr rfl)
        | false =>
            obtain ⟨_, hc, _⟩ := Backed.run_backend hr
            exact hkeep rfl (DapClient.run_reader hc)
              (fun j => woken_quiet rfl)
              (fun h => Backed.state_backend hr ▸ h) rfl nofun
    | drop | releaseDropped | stopDrop =>
        obtain ⟨_, hc, _⟩ := Backed.run_backend hr
        exact hkeep rfl (DapClient.run_reader hc)
          (fun j => woken_quiet rfl)
          (fun h => Backed.state_backend hr ▸ h) rfl nofun
    | stop r =>
        obtain ⟨_, hc, _⟩ := Backed.run_backend hr
        obtain ⟨-, hrecv⟩ := DapClient.run_recvStop hc
        have hw := (hB.2.waiters.held i
          (hB.2.holds i (by rw [hφ]; rfl))).recv (hrecv r rfl)
        refine .of_nil (hI.waits i (by rw [hφ]; rfl) (.inl ?_))
        rw [hw]
        rfl
    | settle o op hw x =>
        obtain ⟨_, _, hc⟩ := Backed.run_tool hr
        have hend : op.isReset = false → op.target = some .terminated →
            w'.state = .stopped → w.state = .stopped := by
          intro hres htarget hst
          rw [Backed.state_session hr] at hst
          rcases op.run_state w.server.session hres with hs | hs
          · exact hs.symm.trans hst
          · rw [hst, htarget] at hs
            cases hs
        cases hw with
        | stopped info g => exact .of_nil (hclr rfl)
        | exited | terminated =>
            exact hkeep rfl ⟨by rw [hc], by rw [hc]⟩ (fun _ => rfl)
              (hend rfl rfl) rfl nofun
    | cache | drain =>
        obtain ⟨_, _, hc⟩ := Backed.run_tool hr
        exact hkeep rfl ⟨by rw [hc], by rw [hc]⟩ (fun _ => rfl)
          (fun h => (Backed.state_session hr).symm.trans h) rfl nofun
  env := by
    intro w w' φ h e hB hI he _
    cases e with
    | tool e =>
        obtain ⟨-, hs, hc⟩ := Backed.env_tool he
        refine ⟨hI.few, fun hst => hI.stopped (stopped_env hs hst), ?_,
          hI.clear, ?_⟩ <;> rw [hc]
        · exact hI.ended
        · exact hI.waits
    | backend e =>
        obtain ⟨hc, hs⟩ := Backed.env_backend he
        have hst : w'.state = .stopped → w.state = .stopped := fun h => by
          unfold Backed.state at h
          rw [hs] at h
          exact h
        cases e with
        | eof => exact .of_nil rfl
        | frame m =>
            obtain ⟨hidle, hopen, hw⟩ := DapClient.envMove_frame hc
            have ho : outstanding (.env (.backend (.frame m)) w w' :: h)
                = if m.endsResume then [] else outstanding h := rfl
            cases hm : m.endsResume with
            | true =>
                rw [hm] at ho
                exact .of_nil ho
            | false =>
                rw [hm] at ho
                refine ⟨?_, ?_, ?_, ?_, ?_⟩ <;> rw [ho]
                · exact hI.few
                · exact fun h => hI.stopped (hst h)
                · rw [hw]
                  exact hI.ended
                · exact hI.clear
                · intro j hj hres
                  refine hI.waits j hj (hres.imp_right ?_)
                  rintro ⟨op, hop, ht⟩
                  rw [hw] at hop
                  obtain ⟨o, rfl⟩ := ReaderOp.eq_takeStop ht
                  rw [(takeStop_dispatch hop).1] at hm
                  cases hm
        | reader k =>
            obtain ⟨op, rest, hw, hk⟩ := DapClient.envMove_reader hc
            have hf := DapClient.readerStep_frame hw hk
            refine ⟨hI.few, fun h => hI.stopped (hst h), ?_, hI.clear,
              fun j hj hres => hI.waits j hj ?_⟩
            · rw [hf.ended]
              exact hI.ended
            · rcases hres with hres | ⟨op', hop, ht⟩
              · rw [backendPart_move] at hres
                by_cases hop : op.takesStop = true
                · refine .inr ⟨op, ?_, hop⟩
                  rw [hw]
                  exact List.mem_cons_self ..
                · have hne : ∀ o, op ≠ .takeStop o := by
                    rintro o rfl
                    exact hop rfl
                  rw [woken_pass hw hne] at hres
                  exact .inl hres
              · rcases hf.mem hop with hsend | hop
                · obtain ⟨o, rfl⟩ := ReaderOp.eq_takeStop ht
                  cases hsend
                · exact .inr ⟨op', hop, ht⟩

end

end DebugMcp
