/-
Resumes of a backend take turns.

The `Stopped` check and the Running write of a resume are two lock
sections. In the runs in which every Running write still finds the
session stopped, at most one resume is with the backend, whatever the
backend is: a call is in flight from its Running write to its next write
to the session, and only a call in flight stops the session.
-/
import DebugMcp.Lib.Turns
import DebugMcp.Tools.History
import DebugMcp.Tools.Backed

namespace DebugMcp

open Conc

-- =========================================================== condition

/-- Does the section set the session running? -/
def SessionOp.setsRunning {β : Type} : SessionOp β → Bool
  | .setState .running => true
  | _ => false

/-- Does the operation? -/
def ToolOp.setsRunning {β : Type} : ToolOp β → Bool
  | .inl op => op.setsRunning
  | .inr _ => false

/-- The Running write finds the session stopped, as the check did. -/
def FindsStopped : ToolEvent → Prop
  | .act _ op _ w _ =>
      op.setsRunning = true → w.session.inner.state = .stopped
  | .env _ _ _ => True

instance FindsStopped.decidable : DecidablePred FindsStopped
  | .act _ op _ w _ =>
      inferInstanceAs (Decidable (op.setsRunning = true →
        w.session.inner.state = .stopped))
  | .env _ _ _ => .isTrue trivial

-- ========================================================== unanswered

/-- Does the backend answer a resume? A cancelled call's is not
answered. -/
def ServerOp.answersResume : {β : Type} → ServerOp β → β → Bool
  | _, .cont _ _, some _ => true
  | _, .step _ _ _ _, some _ => true
  | _, _, _ => false

/-- Does the operation answer one? -/
def ToolOp.answersResume {β : Type} : ToolOp β → β → Bool
  | .inl _, _ => false
  | .inr op, x => op.answersResume x

/-- The calls that have set the session running and whose backend call
has not answered. -/
def unanswered : History → List Nat
  | [] => []
  | .act i op b _ _ :: h =>
      if op.setsRunning then i :: unanswered h
      else if op.answersResume b then (unanswered h).erase i
      else unanswered h
  | .env _ _ _ :: h => unanswered h

section

variable {i : Nat} {β : Type} {op : ToolOp β} {b : β}
  {w w' : ToolServer} {h : History}

theorem unanswered_run :
    unanswered (.act i (.inl (.setState .running)) () w w' :: h)
      = i :: unanswered h := rfl

theorem unanswered_answer (hop : op.answersResume b = true) :
    unanswered (.act i op b w w' :: h) = (unanswered h).erase i := by
  cases op with
  | inl op => cases hop
  | inr op => exact if_pos hop

theorem unanswered_quiet (hrun : op.setsRunning = false)
    (hop : op.answersResume b = false) :
    unanswered (.act i op b w w' :: h) = unanswered h := by
  show (if op.setsRunning then _ else _) = _
  rw [hrun, hop]
  rfl

end

-- =========================================================== invariant

/-- Is the handler between its Running write and its next write? -/
def ResPhase.inFlight : ResPhase → Bool
  | .running _ | .stopped _ _ | .exited _ | .terminated _ | .failed => true
  | _ => false

/-- Has its backend call answered, with the write still to come? -/
def ResPhase.answered : ResPhase → Bool
  | .stopped _ _ | .exited _ | .terminated _ | .failed => true
  | _ => false

/-- The resumes of a pool take turns, and one that is in flight is the
only one that is with the backend. -/
structure TurnInv (w : ToolServer) (φ : Nat → ResPhase) (h : History) :
    Prop where
  turn : InTurn (w.session.inner.state = .stopped) ResPhase.inFlight φ
  few : (unanswered h).length ≤ 1
  stopped : w.session.inner.state = .stopped → unanswered h = []
  running : ∀ i g, φ i = .running g → unanswered h = [i]
  answered : ∀ i, (φ i).answered = true → unanswered h = []

namespace TurnInv

variable {w w' : ToolServer} {φ : Nat → ResPhase} {h : History} {i : Nat}
  {ev : ToolEvent} {q' : ResPhase}

/-- A call that is not in flight moves on, and what is with the backend
stays as it is. -/
theorem quiet (hI : TurnInv w φ h)
    (hs : w'.session.inner.state = .stopped →
      w.session.inner.state = .stopped)
    (hu : unanswered (ev :: h) = unanswered h)
    (hq : q'.inFlight = (φ i).inFlight) (hrun : ∀ g, q' ≠ .running g)
    (hans : q'.answered = true → unanswered h = []) :
    TurnInv w' (Function.update φ i q') (ev :: h) where
  turn := hI.turn.stay hq hs
  few := by
    rw [hu]
    exact hI.few
  stopped hst := by
    rw [hu]
    exact hI.stopped (hs hst)
  running j g hj := by
    rw [hu]
    by_cases hij : j = i
    · rw [hij, Function.update_self] at hj
      exact absurd hj (hrun g)
    · rw [Function.update_of_ne hij] at hj
      exact hI.running j g hj
  answered j hj := by
    rw [hu]
    by_cases hij : j = i
    · rw [hij, Function.update_self] at hj
      exact hans hj
    · rw [Function.update_of_ne hij] at hj
      exact hI.answered j hj

/-- The call in flight is answered, or writes what it was answered: no
resume is with the backend. -/
theorem settle (hI : TurnInv w φ h) (hi : (φ i).inFlight = true)
    (hu : unanswered (ev :: h) = []) (hrun : ∀ g, q' ≠ .running g)
    (hturn : InTurn (w'.session.inner.state = .stopped) ResPhase.inFlight
      (Function.update φ i q')) :
    TurnInv w' (Function.update φ i q') (ev :: h) where
  turn := hturn
  few := by
    rw [hu]
    exact Nat.zero_le _
  stopped _ := hu
  running j g hj := by
    by_cases hij : j = i
    · rw [hij, Function.update_self] at hj
      exact absurd hj (hrun g)
    · rw [Function.update_of_ne hij] at hj
      exact absurd (hI.turn.alone (by rw [hj]; rfl) hi) hij
  answered _ _ := hu

/-- The call in flight is cancelled; its resume stays with the
backend. -/
theorem drop (hI : TurnInv w φ h) (hi : (φ i).inFlight = true)
    (hs : w'.session = w.session)
    (hu : unanswered (ev :: h) = unanswered h) :
    TurnInv w' (Function.update φ i .done) (ev :: h) where
  turn := hI.turn.leave hi rfl
  few := by
    rw [hu]
    exact hI.few
  stopped hst := by
    rw [hs] at hst
    rw [hI.turn.outside hst i] at hi
    cases hi
  running j g hj := by
    by_cases hij : j = i
    · rw [hij, Function.update_self] at hj
      cases hj
    · rw [Function.update_of_ne hij] at hj
      exact absurd (hI.turn.alone (by rw [hj]; rfl) hi) hij
  answered j hj := by
    rw [hu]
    by_cases hij : j = i
    · rw [hij, Function.update_self] at hj
      cases hj
    · rw [Function.update_of_ne hij] at hj
      exact hI.answered j hj

/-- A stopped session is set running. -/
theorem run {g : UInt64} {ev : ToolEvent} (hI : TurnInv w φ h)
    (hst : w.session.inner.state = .stopped)
    (hst' : w'.session.inner.state = .running)
    (hu : unanswered (ev :: h) = i :: unanswered h) :
    TurnInv w' (Function.update φ i (.running g)) (ev :: h) where
  turn := hI.turn.enter hst (by rw [hst']; nofun)
  few := by
    rw [hu, hI.stopped hst]
    exact Nat.le_refl _
  stopped hs := by
    rw [hst'] at hs
    cases hs
  running j g' hj := by
    by_cases hij : j = i
    · rw [hu, hI.stopped hst, hij]
    · rw [Function.update_of_ne hij] at hj
      have := hI.turn.outside hst j
      rw [hj] at this
      cases this
  answered j hj := by
    by_cases hij : j = i
    · rw [hij, Function.update_self] at hj
      cases hj
    · rw [Function.update_of_ne hij] at hj
      have := hI.turn.outside hst j
      generalize φ j = q at hj this
      cases q <;> cases hj <;> cases this

end TurnInv

/-- A resume's answer is its call's. -/
private theorem resumeCall_answers
    {op : ServerOp (Option (Except BackendError StopOutcome))}
    (hop : ResumeCall op) (r : Except BackendError StopOutcome) :
    ToolOp.answersResume (.inr op) (some r) = true := by
  cases hop <;> rfl

theorem turnInv_inductive :
    Inductive toolMachine ResNext (fun _ => FindsStopped) TurnInv where
  act := by
    intro w w' φ h i β op a b q' hI hr hq hok
    have hr : w.run op a = some (b, w') := hr
    generalize hφ : φ i = q at hq
    -- a step on the side leaves the state
    have hlook : ∀ {q₁ q₂ : ResPhase}, φ i = q₁ →
        w'.session.inner.state = w.session.inner.state →
        unanswered (.act i op b w w' :: h) = unanswered h →
        q₁.inFlight = false → q₂.inFlight = false →
        TurnInv w' (Function.update φ i q₂) (.act i op b w w' :: h) := by
      intro q₁ q₂ hq₁ hw hu h₁ h₂
      refine hI.quiet (by rw [hw]; exact id) hu (by rw [hq₁, h₁, h₂]) ?_ ?_
      · rintro g rfl
        cases h₂
      · intro ha
        cases q₂ <;> cases ha <;> cases h₂
    -- the call in flight writes what it was answered
    have hwrite : ∀ {q₁ q₂ : ResPhase}, φ i = q₁ →
        unanswered (.act i op b w w' :: h) = unanswered h →
        q₁.answered = true → q₂.inFlight = false →
        TurnInv w' (Function.update φ i q₂) (.act i op b w w' :: h) := by
      intro q₁ q₂ hq₁ hu h₁ h₂
      have hfly : (φ i).inFlight = true := by
        rw [hq₁]
        cases q₁ <;> cases h₁ <;> rfl
      refine hI.settle hfly (hu.trans (hI.answered i (hq₁ ▸ h₁))) ?_
        (hI.turn.leave hfly h₂)
      rintro g rfl
      cases h₂
    -- its backend call answers
    have hanswer : ∀ {g : UInt64} {q₂ : ResPhase}
        {op' : ServerOp (Option (Except BackendError StopOutcome))}
        {r : Except BackendError StopOutcome}
        {w₁ : ToolServer}, φ i = .running g → ResumeCall op' →
        w.run (.inr op') a = some (some r, w₁) → q₂.inFlight = true →
        (∀ g, q₂ ≠ .running g) →
        TurnInv w₁ (Function.update φ i q₂)
          (.act i (.inr op') (some r) w w₁ :: h) := by
      intro g q₂ op' r w₁ hq₁ hop hr h₂ hrun
      have hfly : (φ i).inFlight = true := by rw [hq₁]; rfl
      refine hI.settle hfly ?_ hrun (hI.turn.stay (h₂.trans hfly.symm) ?_)
      · rw [unanswered_answer (resumeCall_answers hop r),
          hI.running i g hq₁, List.erase_cons_head]
      · rw [ToolServer.run_inr hr]
        exact id
    cases hq with
    | run g =>
        have hst : w.session.inner.state = .stopped := hok rfl
        refine hI.run hst ?_ unanswered_run
        rw [(ToolServer.run_inl hr).2]
        rfl
    | cancelled g op hop =>
        refine hI.drop (by rw [hφ]; rfl) (ToolServer.run_inr hr)
          (unanswered_quiet rfl ?_)
        cases hop <;> rfl
    | err g op hop e => exact hanswer hφ hop hr rfl nofun
    | stop g op hop info => exact hanswer hφ hop hr rfl nofun
    | exit g op hop code => exact hanswer hφ hop hr rfl nofun
    | terminate g op hop => exact hanswer hφ hop hr rfl nofun
    | revert => exact hwrite hφ (unanswered_quiet rfl rfl) rfl rfl
    | applied | skipped | exitWrite | terminateWrite =>
        exact hwrite hφ (unanswered_quiet rfl rfl) rfl rfl
    | current b =>
        exact hlook hφ (by rw [ToolServer.run_inr hr])
          (unanswered_quiet rfl rfl) rfl rfl
    | _ =>
        exact hlook hφ (by rw [(ToolServer.run_inl hr).2]; rfl)
          (unanswered_quiet rfl rfl) rfl rfl
  env := by
    intro w w' φ h e hI he hok
    have hs := stopped_env he
    exact ⟨hI.turn.still hs, hI.few, fun hst => hI.stopped (hs hst),
      hI.running, hI.answered⟩

/-- A resume tool obeys the protocol of the resume handlers. -/
theorem ResumeTool.obeys_res (c : ResumeTool) :
    Obeys ResNext Any c.prog .start := by
  cases c <;> exact resume_obeys _ _ _ _

/-- Nobody has started. -/
theorem turnInv_start (w : ToolServer) :
    TurnInv w (fun _ => .start) [] where
  turn := .idle fun _ => rfl
  few := Nat.zero_le _
  stopped _ := rfl
  running _ _ h := by cases h
  answered _ _ := rfl

/-- Whatever the backend, at most one resume is with it. -/
theorem unanswered_le_one {calls : Nat → ResumeTool} {w₀ : ToolServer}
    {h : History} {s : Pool ToolOp ToolOutcome ToolServer}
    (hr : RunIf toolMachine (fun _ => FindsStopped) (resumePool calls w₀)
      h s) : (unanswered h).length ≤ 1 := by
  obtain ⟨φ, hI, -⟩ := hr.invariant turnInv_inductive
    (fun i _ hp => Option.some.inj hp ▸ (calls i).obeys_res)
    (turnInv_start w₀)
  exact hI.few

end DebugMcp
