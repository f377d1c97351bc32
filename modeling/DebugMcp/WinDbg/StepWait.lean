/-
A step, and the breakpoints it runs into.

`wait_for_event` resumes the target itself when a breakpoint is hit whose
condition is false. It always resumes with `GO`: that is right for `go`,
but a step is over with it. `step_kept_iff` says that the step is kept
exactly when no such hit is delivered while it waits.
-/
import DebugMcp.WinDbg.Wait

namespace DebugMcp

namespace Engine

variable {e : Engine}

/-- Is the event a hit of a breakpoint whose condition is false? The
status is that of a target that has stopped. -/
def falseHit (e : Engine) (ev : DebugEvent) (info : EventInfo) : Bool :=
  match ev, info.status with
  | .breakpoint id _, .ok status =>
      !status.resumed && !e.breakpointConditionMet info.evaluate id
  | _, _ => false

/-- How many such hits are delivered while a wait goes on. -/
def falseHits (e : Engine) : List Slice → Nat
  | [] => 0
  | slice :: rest =>
      match slice.finish with
      | .event ev info =>
          match info.status with
          | .ok status =>
              if status.resumed then falseHits e rest
              else if e.falseHit ev info then falseHits e rest + 1
              else 0
          | .error _ => 0
      | _ => 0

/-- How many are delivered in a call of `wait_for_event`. -/
def falseHitsIn (e : Engine) (w : Wait) : Nat :=
  match w.query with
  | some _ => 0
  | none => e.falseHits w.slices

/-- A slice whose event is no stop of the step: the target runs on, or
the breakpoint's condition is false. -/
def PassedOver (e : Engine) (slice : Slice) : Prop :=
  ∃ ev info, slice.finish = .event ev info ∧
    ((∃ status, info.status = .ok status ∧ status.resumed = true) ∨
      e.falseHit ev info = true)

/-- A slice whose event is one; the outcome is built from it. -/
def StopsAt (e : Engine) (slice : Slice) (e' : Engine)
    (o : StopOutcome) : Prop :=
  ∃ ev info status, slice.finish = .event ev info ∧
    info.status = .ok status ∧ status.resumed = false ∧
    e.falseHit ev info = false ∧
    o = e'.buildStopOutcome status info.threadId

/-- The outcome is that of the first event that is a stop. -/
def Reports (e : Engine) (slices : List Slice) (e' : Engine)
    (o : StopOutcome) : Prop :=
  ∃ pre slice post, slices = pre ++ slice :: post ∧
    (∀ s ∈ pre, e.PassedOver s) ∧ e.StopsAt slice e' o

/-- A step that is kept: it reports the first event that is a stop, and
nothing but the step itself has set the target going, once and once more
after each false hit. -/
structure StepKept (kind : StepKind) (w : Wait) (e : Engine)
    (out : Except EngineError StopOutcome × Engine) : Prop where
  reports : ∀ o, out.1 = .ok o ↔
    w.query = none ∧ e.Reports w.slices out.2 o
  resumes : out.2.trace.resumptions
    = List.replicate (e.falseHitsIn w + 1) kind.resumption
      ++ e.trace.resumptions

-- =============================================================== frames

@[simp] theorem tell_conditions (ev : DebugEvent) :
    (e.tell ev).breakpointConditions = e.breakpointConditions := rfl

@[simp] theorem tell_resumptions (ev : DebugEvent) :
    (e.tell ev).trace.resumptions = e.trace.resumptions := rfl

@[simp] theorem foldl_tell_conditions (evs : List DebugEvent) :
    (evs.foldl tell e).breakpointConditions = e.breakpointConditions := by
  induction evs generalizing e with
  | nil => rfl
  | cons ev evs ih => exact ih

@[simp] theorem foldl_tell_resumptions (evs : List DebugEvent) :
    (evs.foldl tell e).trace.resumptions = e.trace.resumptions := by
  induction evs generalizing e with
  | nil => rfl
  | cons ev evs ih => exact ih

/-- A condition is met or not, whatever else the engine has. -/
theorem breakpointConditionMet_congr {e e' : Engine}
    (h : e'.breakpointConditions = e.breakpointConditions) :
    e'.breakpointConditionMet = e.breakpointConditionMet := by
  funext evaluate id
  unfold breakpointConditionMet
  rw [h]

/-- So a hit is false or not. -/
theorem falseHit_congr {e e' : Engine}
    (h : e'.breakpointConditions = e.breakpointConditions) :
    e'.falseHit = e.falseHit := by
  funext ev info
  unfold falseHit
  rw [breakpointConditionMet_congr h]

/-- A hit that is skipped is a false one. -/
theorem falseHit_of_skips {ev : DebugEvent} {info : EventInfo}
    {status : ExecStatus} (hs : info.status = .ok status)
    (hr : status.resumed = false) (h : e.skips ev info = true) :
    e.falseHit ev info = true := by
  cases ev with
  | breakpoint id offset =>
      simp only [skips, Bool.and_eq_true] at h
      simp only [falseHit, hs, hr, h.2]
      rfl
  | exception _ _ _ => cases h
  | exitProcess _ => cases h
  | other => cases h

/-- So what is a stop is one. -/
theorem reports_congr {e e' : Engine}
    (h : e'.breakpointConditions = e.breakpointConditions) :
    e'.Reports = e.Reports := by
  funext slices out o
  unfold Reports PassedOver StopsAt
  rw [falseHit_congr h]

/-- The first stop of a list: its first slice, or the first stop of the
rest if that is passed over. -/
theorem reports_cons {slice : Slice} {rest : List Slice} {e' : Engine}
    {o : StopOutcome} :
    e.Reports (slice :: rest) e' o ↔
      e.StopsAt slice e' o ∨
        e.PassedOver slice ∧ e.Reports rest e' o := by
  constructor
  · rintro ⟨pre, s, post, heq, hpre, hs⟩
    cases pre with
    | nil =>
        obtain ⟨rfl, rfl⟩ := List.cons.inj heq
        exact .inl hs
    | cons p pre =>
        obtain ⟨rfl, rfl⟩ := List.cons.inj heq
        refine .inr ⟨hpre _ List.mem_cons_self, pre, s, post, rfl, ?_, hs⟩
        intro s' hs'
        exact hpre s' (List.mem_cons_of_mem _ hs')
  · rintro (hs | ⟨hp, pre, s, post, rfl, hpre, hs⟩)
    · exact ⟨[], slice, rest, rfl,
        fun _ hs' => absurd hs' List.not_mem_nil, hs⟩
    · refine ⟨slice :: pre, s, post, rfl, ?_, hs⟩
      intro s' hs'
      rcases List.mem_cons.mp hs' with rfl | h
      · exact hp
      · exact hpre s' h

/-- Nothing is reported of no slices. -/
theorem not_reports_nil {e' : Engine} {o : StopOutcome} :
    ¬ e.Reports [] e' o := by
  rintro ⟨pre, s, post, heq, -, -⟩
  cases pre <;> cases heq

-- ================================================================ waits

/-- What a wait does with its next slice. -/
inductive Meets (e : Engine) (slice : Slice) (rest : List Slice) :
    Except EngineError WaitResult × Engine → Prop
  | none {r : Except EngineError WaitResult} {e₁ : Engine}
      (noEvent : ∀ ev info status, slice.finish = .event ev info →
        info.status ≠ .ok status)
      (noStop : ∀ o, r ≠ .ok (.event o))
      (same : e₁.trace.resumptions = e.trace.resumptions) :
      Meets e slice rest (r, e₁)
  | runsOn {ev : DebugEvent} {info : EventInfo} {status : ExecStatus}
      {e₁ : Engine} (finish : slice.finish = .event ev info)
      (read : info.status = .ok status) (runs : status.resumed = true)
      (same : e₁.trace.resumptions = e.trace.resumptions)
      (kept : e₁.breakpointConditions = e.breakpointConditions) :
      Meets e slice rest (waitSlices rest e₁)
  | skipped {ev : DebugEvent} {info : EventInfo} {e₁ : Engine}
      (finish : slice.finish = .event ev info)
      (false : e.falseHit ev info = true)
      (more : e₁.trace.resumptions
        = .status .go :: e.trace.resumptions)
      (kept : e₁.breakpointConditions = e.breakpointConditions) :
      Meets e slice rest (waitSlices rest e₁)
  | stuck {ev : DebugEvent} {info : EventInfo} {err : EngineError}
      {e₁ : Engine} (finish : slice.finish = .event ev info)
      (false : e.falseHit ev info = true)
      (same : e₁.trace.resumptions = e.trace.resumptions) :
      Meets e slice rest (.error err, e₁)
  | reported {ev : DebugEvent} {info : EventInfo} {status : ExecStatus}
      {e₁ : Engine} (finish : slice.finish = .event ev info)
      (read : info.status = .ok status) (stops : status.resumed = false)
      (same : e₁.trace.resumptions = e.trace.resumptions) :
      Meets e slice rest
        (.ok (.event (e₁.buildStopOutcome status info.threadId)), e₁)

/-- A wait does nothing else. -/
theorem waitSlices_meets (e : Engine) (slice : Slice) (rest : List Slice) :
    Meets e slice rest (waitSlices (slice :: rest) e) := by
  have hcond := foldl_tell_conditions (e := e) slice.passed
  have hres := foldl_tell_resumptions (e := e) slice.passed
  unfold waitSlices
  generalize slice.passed.foldl tell e = e₁ at hcond hres ⊢
  cases hf : slice.finish with
  | timedOut =>
      exact .none (fun ev info _ h => by rw [hf] at h; cases h) nofun hres
  | failed detail =>
      exact .none (fun ev info _ h => by rw [hf] at h; cases h) nofun hres
  | event ev info =>
      dsimp only
      cases hs : info.status with
      | error detail =>
          refine .none (fun ev' info' status h => ?_) nofun hres
          rw [hf] at h
          cases h
          rw [hs]
          exact nofun
      | ok status =>
          have hcond' : (e₁.tell ev).breakpointConditions
              = e.breakpointConditions := hcond
          dsimp only
          by_cases hr : status.resumed = true
          · rw [if_pos hr]
            exact .runsOn hf hs hr hres hcond
          · rw [if_neg hr]
            have hr' : status.resumed = false := by simpa using hr
            split_ifs with hk
            · rw [Bool.and_eq_true] at hk
              have hfalse := falseHit_of_skips hs hr' hk.2
              rw [falseHit_congr hcond'] at hfalse
              cases info.resume with
              | error detail => exact .stuck hf hfalse hres
              | ok _ =>
                  exact .skipped hf hfalse
                    (congrArg (_ :: ·) hres) hcond
            · exact @Meets.reported e slice rest ev info status
                ((e₁.tell ev).endWait (some ev)) hf hs hr' hres

/-- A wait sets the target going with `GO`, if it does at all. -/
theorem waitSlices_resumptions (slices : List Slice) :
    ∀ e : Engine, ∃ k, (waitSlices slices e).2.trace.resumptions
      = List.replicate k (.status .go) ++ e.trace.resumptions := by
  induction slices with
  | nil => exact fun e => ⟨0, rfl⟩
  | cons slice rest ih =>
      intro e
      have hm := waitSlices_meets e slice rest
      generalize waitSlices (slice :: rest) e = out at hm ⊢
      cases hm with
      | none _ _ same => exact ⟨0, same⟩
      | stuck _ _ same => exact ⟨0, same⟩
      | reported _ _ _ same => exact ⟨0, same⟩
      | @runsOn _ _ _ e₁ _ _ _ same _ =>
          obtain ⟨k, hk⟩ := ih e₁
          exact ⟨k, by rw [hk, same]⟩
      | @skipped _ _ e₁ _ _ more _ =>
          obtain ⟨k, hk⟩ := ih e₁
          refine ⟨k + 1, ?_⟩
          rw [hk, more, List.replicate_succ', List.append_assoc]
          rfl

/-- What follows a slice that is passed over is counted on. -/
theorem falseHits_le {slice : Slice} {rest : List Slice} {ev : DebugEvent}
    {info : EventInfo} {status : ExecStatus}
    (finish : slice.finish = .event ev info)
    (read : info.status = .ok status) (runs : status.resumed = true) :
    e.falseHits (slice :: rest) = e.falseHits rest := by
  rw [falseHits]
  simp only [finish, read, runs, if_true]

/-- A false hit counts. -/
theorem falseHits_pos {slice : Slice} {rest : List Slice}
    {ev : DebugEvent} {info : EventInfo}
    (finish : slice.finish = .event ev info)
    (false : e.falseHit ev info = true) :
    e.falseHits (slice :: rest) = e.falseHits rest + 1 := by
  unfold falseHit at false
  cases ev with
  | breakpoint id offset =>
      cases hs : info.status with
      | error _ => simp only [hs] at false; cases false
      | ok status =>
          simp only [hs, Bool.and_eq_true, Bool.not_eq_true'] at false
          rw [falseHits]
          simp only [finish, hs, false.1, falseHit, false.2]
          rfl
  | exception _ _ _ => cases false
  | exitProcess _ => cases false
  | other => cases false

/-- How many are counted depends on the conditions only. -/
theorem falseHits_congr {e e' : Engine}
    (h : e'.breakpointConditions = e.breakpointConditions)
    (slices : List Slice) : e'.falseHits slices = e.falseHits slices := by
  induction slices with
  | nil => rfl
  | cons slice rest ih =>
      unfold falseHits
      rw [ih, falseHit_congr h]

/-- A wait that is delivered no false hit resumes nothing, and reports
the first event that is a stop. -/
theorem waitSlices_kept (slices : List Slice) :
    ∀ {e : Engine}, e.falseHits slices = 0 →
      (waitSlices slices e).2.trace.resumptions = e.trace.resumptions ∧
      ∀ o, (waitSlices slices e).1 = .ok (.event o) ↔
        e.Reports slices (waitSlices slices e).2 o := by
  induction slices with
  | nil => exact fun _ => ⟨rfl, fun o => iff_of_false nofun not_reports_nil⟩
  | cons slice rest ih =>
      intro e hn
      have hm := waitSlices_meets e slice rest
      generalize waitSlices (slice :: rest) e = out at hm ⊢
      cases hm with
      | none noEvent noStop same =>
          refine ⟨same, fun o => iff_of_false (noStop o) ?_⟩
          rw [reports_cons]
          rintro (⟨ev, info, status, hf, hs, -⟩ | ⟨⟨ev, info, hf, h⟩, -⟩)
          · exact noEvent ev info status hf hs
          · rcases h with ⟨status, hs, -⟩ | hfalse
            · exact noEvent ev info status hf hs
            · rw [falseHits_pos hf hfalse] at hn
              cases hn
      | @runsOn ev info status e₁ finish read runs same kept =>
          rw [falseHits_le finish read runs, ← falseHits_congr kept] at hn
          obtain ⟨hres, hout⟩ := ih hn
          refine ⟨hres.trans same, fun o => (hout o).trans ?_⟩
          rw [reports_cons, reports_congr kept]
          constructor
          · exact fun h =>
              .inr ⟨⟨ev, info, finish, .inl ⟨status, read, runs⟩⟩, h⟩
          · rintro (⟨ev', info', status', hf, hs, hr, -⟩ | ⟨-, h⟩)
            · rw [finish] at hf
              cases hf
              rw [read] at hs
              cases hs
              rw [runs] at hr
              cases hr
            · exact h
      | skipped finish hfalse _ _ =>
          rw [falseHits_pos finish hfalse] at hn
          cases hn
      | stuck finish hfalse _ =>
          rw [falseHits_pos finish hfalse] at hn
          cases hn
      | @reported ev info status e₁ finish read stops same =>
          have hno : e.falseHit ev info = false := by
            by_contra hh
            rw [Bool.not_eq_false] at hh
            rw [falseHits_pos finish hh] at hn
            cases hn
          refine ⟨same, fun o => ?_⟩
          rw [reports_cons]
          constructor
          · intro h
            cases h
            exact .inl ⟨ev, info, status, finish, read, stops, hno, rfl⟩
          · rintro (⟨ev', info', status', hf, hs, hr, -, rfl⟩ |
              ⟨⟨ev', info', hf, h⟩, -⟩)
            · rw [finish] at hf
              cases hf
              rw [read] at hs
              cases hs
              rfl
            · rw [finish] at hf
              cases hf
              rcases h with ⟨status', hs, hr⟩ | hh
              · rw [read] at hs
                cases hs
                rw [stops] at hr
                cases hr
              · rw [hno] at hh
                cases hh

/-- So does a call of `wait_for_event`. -/
theorem waitForEvent_kept {w : Wait} (hn : e.falseHitsIn w = 0) :
    (waitForEvent w e).2.trace.resumptions = e.trace.resumptions ∧
      ∀ o, (waitForEvent w e).1 = .ok (.event o) ↔
        w.query = none ∧ e.Reports w.slices (waitForEvent w e).2 o := by
  unfold waitForEvent
  unfold falseHitsIn at hn
  cases hq : w.query with
  | some detail =>
      exact ⟨rfl, fun o => iff_of_false nofun fun h => nomatch h.1⟩
  | none =>
      rw [hq] at hn
      obtain ⟨hres, hout⟩ := waitSlices_kept w.slices hn
      exact ⟨hres, fun o => (hout o).trans (by simp)⟩

/-- A call of `wait_for_event` sets the target going with `GO`, if it does
at all. -/
theorem waitForEvent_resumptions (w : Wait) (e : Engine) :
    ∃ k, (waitForEvent w e).2.trace.resumptions
      = List.replicate k (.status .go) ++ e.trace.resumptions := by
  unfold waitForEvent
  cases w.query with
  | some _ => exact ⟨0, rfl⟩
  | none => exact waitSlices_resumptions _ _

-- ============================================================= the step

/-- A step is waited for with the engine it has set going. -/
theorem step_wait (h : e.isDump = false) (kind : StepKind) (w : Wait) :
    (e.step kind (.ok ()) w).2
        = (waitForEvent w (e.resumeWith kind.resumption)).2 ∧
      ∀ o, (e.step kind (.ok ()) w).1 = .ok o ↔
        (waitForEvent w (e.resumeWith kind.resumption)).1
          = .ok (.event o) := by
  unfold step
  rw [if_neg (by simp [h])]
  dsimp only
  generalize waitForEvent w (e.resumeWith kind.resumption) = out
  obtain ⟨_ | (o' | _), e'⟩ := out
  · exact ⟨rfl, fun o => iff_of_false nofun nofun⟩
  · refine ⟨rfl, fun o => ⟨fun h => ?_, fun h => ?_⟩⟩ <;> cases h <;> rfl
  · exact ⟨rfl, fun o => iff_of_false nofun nofun⟩

/-- A step is set going by `GO` only after a false hit. -/
theorem resumption_ne_go (kind : StepKind) :
    kind.resumption ≠ .status .go := by
  cases kind <;> exact nofun

/-- A step is kept exactly when no hit of a breakpoint whose condition is
false is delivered while it waits. -/
theorem step_kept_iff (kind : StepKind) (w : Wait)
    (h : e.isDump = false) :
    StepKept kind w e (e.step kind (.ok ()) w) ↔ e.falseHitsIn w = 0 := by
  obtain ⟨hstate, hout⟩ := step_wait h kind w
  constructor
  · rintro ⟨-, hres⟩
    by_contra hn
    obtain ⟨k, hk⟩ := waitForEvent_resumptions w
      (e.resumeWith kind.resumption)
    -- as many `GO`s as the step was to be resumed
    have hrep : List.replicate k (.status .go)
        = List.replicate (e.falseHitsIn w) kind.resumption := by
      rw [hstate, hk, List.replicate_succ', List.append_assoc] at hres
      exact List.append_cancel_right hres
    obtain rfl : k = e.falseHitsIn w := by
      simpa using congrArg List.length hrep
    have hmem : Resumption.status .go
        ∈ List.replicate (e.falseHitsIn w) kind.resumption := by
      rw [← hrep]
      exact List.mem_replicate.mpr ⟨hn, rfl⟩
    exact resumption_ne_go kind (List.mem_replicate.mp hmem).2.symm
  · intro hn
    have hn' : (e.resumeWith kind.resumption).falseHitsIn w = 0 := by
      rw [← hn]
      unfold falseHitsIn
      rw [@falseHits_congr e (e.resumeWith kind.resumption) rfl]
    obtain ⟨hres, hrep⟩ := waitForEvent_kept hn'
    refine ⟨fun o => ?_, ?_⟩
    · rw [hout o, hstate]
      exact hrep o
    · rw [hn, hstate]
      exact hres

-- ============================================================= examples

/-- An engine with a conditional breakpoint. -/
def withCondition : Engine := { Engine.new with
  breakpointConditions := AList.insert 1 "x == 3" ∅ }

/-- The breakpoint is hit inside the function that is stepped over. -/
def hitAndExit (v : UInt64) : Wait where
  query := none
  slices :=
    [⟨[], .event (.breakpoint 1 0x1000) (.healthy .broke v)⟩,
      ⟨[], .event (.exitProcess 0) (.healthy .noDebuggee 0)⟩]

/-- Its condition is true, and the step reports the hit. -/
theorem step_reports_hit :
    StepKept .over (hitAndExit 1) withCondition
      (withCondition.step .over (.ok ()) (hitAndExit 1)) :=
  (step_kept_iff .over (hitAndExit 1) rfl).mpr (by decide)

/-- Its condition is false, and the program runs on to its end. -/
theorem step_runs_away :
    (withCondition.step .over (.ok ()) (hitAndExit 0)).1
        = .ok (.exited (some 0)) ∧
      (withCondition.step .over (.ok ()) (hitAndExit 0)).2.trace.resumptions
        = [.status .go, .status .stepOver] ∧
      ¬ StepKept .over (hitAndExit 0) withCondition
        (withCondition.step .over (.ok ()) (hitAndExit 0)) := by
  refine ⟨by decide +kernel, by decide +kernel, fun h => ?_⟩
  have hres := h.resumes
  revert hres
  decide +kernel

end Engine

end DebugMcp
