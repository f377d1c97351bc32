/-
Sequential runs: one call after another.

Each call runs alone, in a pool of its own, from the world the one
before it left; the environment still moves at any time. A property that
every single call preserves holds after any number of them, so the
invariants of a sequential client are those of a pool with one call.
-/
import DebugMcp.Lib.Pool

namespace Conc

variable {Op : Type → Type} {Ans Env ω α C : Type}

/-- The pool of one call. -/
def solo (p : Prog Op α) (w : ω) : Pool Op α ω where
  world := w
  prog i := if i = 0 then some p else none

/-- The sequential runs from `w₀`: the calls, newest first, and the
world after the last of them returned. -/
inductive SeqRun (m : Machine Op Ans Env ω)
    (ok : List (Event Op Env ω) → Event Op Env ω → Prop)
    (prog : C → Prog Op α) (w₀ : ω) : List C → ω → Prop
  | nil : SeqRun m ok prog w₀ [] w₀
  | call {cs : List C} {w : ω} {h : List (Event Op Env ω)}
      {s : Pool Op α ω} {a : α} (hw : SeqRun m ok prog w₀ cs w) (c : C)
      (hr : RunIf m ok (solo (prog c) w) h s)
      (ha : s.returned 0 = some a) :
      SeqRun m ok prog w₀ (c :: cs) s.world

variable {m : Machine Op Ans Env ω}
  {ok : List (Event Op Env ω) → Event Op Env ω → Prop}
  {prog : C → Prog Op α}

/-- What every call preserves holds after every sequential run. -/
theorem SeqRun.invariant {J : ω → Prop} {w₀ w : ω} {cs : List C}
    (hJ : ∀ {w : ω} {c : C} {h : List (Event Op Env ω)}
      {s : Pool Op α ω} {a : α}, J w →
      RunIf m ok (solo (prog c) w) h s → s.returned 0 = some a →
      J s.world)
    (h₀ : J w₀) (hr : SeqRun m ok prog w₀ cs w) : J w := by
  induction hr with
  | nil => exact h₀
  | call _ c hr ha ih => exact hJ ih hr ha

variable [∀ h ev, Decidable (ok h ev)]

/-- Replay a script: each call with its scheduling decisions. -/
def replay (m : Machine Op Ans Env ω)
    (ok : List (Event Op Env ω) → Event Op Env ω → Prop)
    [∀ h ev, Decidable (ok h ev)] (prog : C → Prog Op α) :
    List (C × List (Action Ans Env)) → ω → Option ω
  | [], w => some w
  | (c, as) :: rest, w =>
      match exec m as [] (solo (prog c) w) with
      | some (h, s) =>
          if Meets ok h ∧ (s.returned 0).isSome then
            replay m ok prog rest s.world
          else none
      | none => none

/-- A script that can be replayed extends a sequential run. -/
theorem SeqRun.replay {w₀ w w' : ω} {cs : List C}
    {script : List (C × List (Action Ans Env))}
    (hw : SeqRun m ok prog w₀ cs w)
    (he : Conc.replay m ok prog script w = some w') :
    ∃ cs', SeqRun m ok prog w₀ cs' w' := by
  induction script generalizing cs w with
  | nil =>
      cases he
      exact ⟨cs, hw⟩
  | cons x rest ih =>
      obtain ⟨c, as⟩ := x
      simp only [Conc.replay] at he
      split at he
      · next h s hex =>
          split at he
          · next hm =>
              obtain ⟨a, ha⟩ := Option.isSome_iff_exists.mp hm.2
              have hrun := RunIf.ofMeets (exec_run .nil hex) hm.1
              exact ih (.call hw c hrun ha) he
          · cases he
      · cases he

/-- What a replay can be checked to end in, some sequential run ends
in. -/
theorem seq_witness (m : Machine Op Ans Env ω)
    (ok : List (Event Op Env ω) → Event Op Env ω → Prop)
    [∀ h ev, Decidable (ok h ev)] (prog : C → Prog Op α) (w₀ : ω)
    (script : List (C × List (Action Ans Env))) (P : ω → Prop)
    [∀ w, Decidable (P w)]
    (hP : (replay m ok prog script w₀).any (fun w => decide (P w))
      = true) :
    ∃ cs w, SeqRun m ok prog w₀ cs w ∧ P w := by
  cases he : replay m ok prog script w₀ with
  | none =>
      rw [he] at hP
      cases hP
  | some w =>
      rw [he] at hP
      obtain ⟨cs, hr⟩ := SeqRun.replay .nil he
      exact ⟨cs, w, hr, of_decide_eq_true hP⟩

-- ============================================================== traces

/-- A call of a sequential run: the world it started in, its history,
what it returned and the world it left. -/
structure Finished (Op : Type → Type) (Env ω α C : Type) : Type 1 where
  call : C
  pre : ω
  hist : List (Event Op Env ω)
  result : α
  post : ω

/-- The sequential runs from `w₀`, with what each call did, newest
first. -/
inductive SeqTrace (m : Machine Op Ans Env ω)
    (ok : List (Event Op Env ω) → Event Op Env ω → Prop)
    (prog : C → Prog Op α) (w₀ : ω) :
    List (Finished Op Env ω α C) → ω → Prop
  | nil : SeqTrace m ok prog w₀ [] w₀
  | call {fs : List (Finished Op Env ω α C)} {w : ω}
      {h : List (Event Op Env ω)} {s : Pool Op α ω} {a : α}
      (hw : SeqTrace m ok prog w₀ fs w) (c : C)
      (hr : RunIf m ok (solo (prog c) w) h s)
      (ha : s.returned 0 = some a) :
      SeqTrace m ok prog w₀ (⟨c, w, h, a, s.world⟩ :: fs) s.world

/-- Replay a script on top of a trace. -/
def replayTrace (m : Machine Op Ans Env ω)
    (ok : List (Event Op Env ω) → Event Op Env ω → Prop)
    [∀ h ev, Decidable (ok h ev)] (prog : C → Prog Op α) :
    List (C × List (Action Ans Env)) →
      List (Finished Op Env ω α C) → ω →
        Option (List (Finished Op Env ω α C) × ω)
  | [], fs, w => some (fs, w)
  | (c, as) :: rest, fs, w =>
      match exec m as [] (solo (prog c) w) with
      | some (h, s) =>
          if Meets ok h then
            match s.returned 0 with
            | some a =>
                replayTrace m ok prog rest (⟨c, w, h, a, s.world⟩ :: fs)
                  s.world
            | none => none
          else none
      | none => none

/-- A script that can be replayed extends a trace. -/
theorem SeqTrace.replayTrace {w₀ w w' : ω}
    {fs fs' : List (Finished Op Env ω α C)}
    {script : List (C × List (Action Ans Env))}
    (hw : SeqTrace m ok prog w₀ fs w)
    (he : Conc.replayTrace m ok prog script fs w = some (fs', w')) :
    SeqTrace m ok prog w₀ fs' w' := by
  induction script generalizing fs w with
  | nil =>
      cases he
      exact hw
  | cons x rest ih =>
      obtain ⟨c, as⟩ := x
      simp only [Conc.replayTrace] at he
      split at he
      · next h s hex =>
          split at he
          · next hm =>
              split at he
              · next a ha =>
                  exact ih (.call hw c
                    (RunIf.ofMeets (exec_run .nil hex) hm) ha) he
              · cases he
          · cases he
      · cases he

/-- What the last call of a replay can be checked to have done, the last
call of some trace did. -/
theorem trace_witness (m : Machine Op Ans Env ω)
    (ok : List (Event Op Env ω) → Event Op Env ω → Prop)
    [∀ h ev, Decidable (ok h ev)] (prog : C → Prog Op α) (w₀ : ω)
    (script : List (C × List (Action Ans Env)))
    (P : Finished Op Env ω α C → List (Finished Op Env ω α C) → Prop)
    [∀ f fs, Decidable (P f fs)]
    (hP : (replayTrace m ok prog script [] w₀).any (fun r =>
      match r.1 with
      | f :: fs => decide (P f fs)
      | [] => false) = true) :
    ∃ f fs w, SeqTrace m ok prog w₀ (f :: fs) w ∧ P f fs := by
  obtain ⟨⟨fs, w⟩, he, hd⟩ := (Option.any_eq_true _ _).mp hP
  cases fs with
  | nil => cases hd
  | cons f fs =>
      exact ⟨f, fs, w, SeqTrace.replayTrace .nil he, of_decide_eq_true hd⟩

end Conc
