/-
Taking turns.

Parties move through phases and share a sign that says whether the way
is free. `InTurn` says that at most one of them is inside, in a phase
that `p` marks, and that none is while the way is free. A party that
enters finds the way free and leaves it taken; one that leaves may leave
it as it likes; any other step must not free it. Each of these keeps the
turns, whatever the parties do in their phases.
-/
import Mathlib.Logic.Function.Basic

namespace Conc

/-- At most one party is inside, and none while the way is free. -/
structure InTurn {Q ι : Type} (free : Prop) (p : Q → Bool) (φ : ι → Q) :
    Prop where
  alone : ∀ {i j}, p (φ i) = true → p (φ j) = true → i = j
  outside : free → ∀ i, p (φ i) = false

section

variable {Q ι : Type} {free free' : Prop} {p : Q → Bool}
  {φ : ι → Q} {i : ι} {q' : Q}

/-- After a step of party `i` it is in its new phase, and the others are
where they were. -/
theorem update_cases [DecidableEq ι] {P : Q → Prop} {j : ι}
    (hj : P (Function.update φ i q' j)) :
    j = i ∧ P q' ∨ j ≠ i ∧ P (φ j) := by
  by_cases hij : j = i
  · rw [hij, Function.update_self] at hj
    exact .inl ⟨hij, hj⟩
  · rw [Function.update_of_ne hij] at hj
    exact .inr ⟨hij, hj⟩

namespace InTurn

/-- Nobody is inside. -/
theorem idle (h : ∀ i, p (φ i) = false) : InTurn free p φ where
  alone hi := by rw [h] at hi; cases hi
  outside _ := h

/-- Nobody moves. -/
theorem still (h : InTurn free p φ) (hfree : free' → free) :
    InTurn free' p φ :=
  ⟨h.alone, fun hf => h.outside (hfree hf)⟩

/-- While a party is inside, the others are outside. -/
theorem others (h : InTurn free p φ) (hi : p (φ i) = true) :
    ∀ j, j ≠ i → p (φ j) = false := fun _ hij =>
  (Bool.not_eq_true _).mp fun hj => hij (h.alone hj hi)

variable [DecidableEq ι]

/-- A party moves while the others are outside; it takes the way if it is
inside then. -/
theorem solo (h : ∀ j, j ≠ i → p (φ j) = false)
    (htaken : p q' = true → ¬ free') :
    InTurn free' p (Function.update φ i q') where
  alone := by
    have hi : ∀ {j}, p (Function.update φ i q' j) = true → j = i := by
      intro j hj
      by_contra hij
      rw [Function.update_of_ne hij, h j hij] at hj
      cases hj
    intro j k hj hk
    rw [hi hj, hi hk]
  outside hf j := by
    by_cases hij : j = i
    · rw [hij, Function.update_self]
      exact (Bool.not_eq_true _).mp fun hq => htaken hq hf
    · rw [Function.update_of_ne hij]
      exact h j hij

/-- A party that finds the way free enters and takes it. -/
theorem enter (h : InTurn free p φ) (hfree : free) (htaken : ¬ free') :
    InTurn free' p (Function.update φ i q') :=
  solo (fun j _ => h.outside hfree j) fun _ => htaken

/-- The party inside leaves. -/
theorem leave (h : InTurn free p φ) (hi : p (φ i) = true)
    (hq : p q' = false) : InTurn free' p (Function.update φ i q') :=
  solo (h.others hi) fun hq' => by
    rw [hq] at hq'
    cases hq'

/-- A party moves on its side. -/
theorem stay (h : InTurn free p φ) (hq : p q' = p (φ i))
    (hfree : free' → free) : InTurn free' p (Function.update φ i q') := by
  have hsame : ∀ j, p (Function.update φ i q' j) = p (φ j) := by
    intro j
    by_cases hij : j = i
    · rw [hij, Function.update_self, hq]
    · rw [Function.update_of_ne hij]
  refine ⟨fun hj hk => ?_, fun hf j => ?_⟩
  · rw [hsame] at hj hk
    exact h.alone hj hk
  · rw [hsame]
    exact h.outside (hfree hf) j

end InTurn

end

end Conc
