/-
Fallible computations over a state.

A failure ends the computation and keeps the state as it is by then: what
was done before it stays done. `FailsTo m s t` says that a failure of `m`
from `s` leaves `t`, and `Atomic` that it leaves `s` itself. A sequence
is taken apart by `failsTo_bind`; where a part has already been done that
none of the rest undoes, `failsTo_iff_succeeds` leaves only the question
whether the rest can fail at all.
-/

namespace Fallible

/-- A computation that may fail. -/
def Comp (ε σ α : Type) : Type := σ → Except ε α × σ

section

variable {ε σ α β : Type}

/-- The rest of a sequence, if the first part succeeds. -/
def Comp.next (f : α → Comp ε σ β) : Except ε α × σ → Except ε β × σ
  | (.ok a, s) => f a s
  | (.error err, s) => (.error err, s)

instance : Monad (Comp ε σ) where
  pure a := fun s => (.ok a, s)
  bind m f := fun s => Comp.next f (m s)

/-- What has no effect on the state. -/
def lift (x : Except ε α) : Comp ε σ α := fun s => (x, s)

/-- A change of the state, when it is allowed. -/
def attempt (x : Except ε α) (change : α → σ → σ) : Comp ε σ α := fun s =>
  match x with
  | .ok a => (.ok a, change a s)
  | .error err => (.error err, s)

/-- A change of the state that cannot fail. -/
def update (change : σ → σ) : Comp ε σ Unit := fun s => (.ok (), change s)

/-- What a computation gives, whether it succeeds or fails. -/
def result (m : Comp ε σ α) : Comp ε σ (Except ε α) := fun s =>
  (.ok (m s).1, (m s).2)

variable {m : Comp ε σ α} {f : α → Comp ε σ β} {s t : σ}

@[simp] theorem pure_apply (a : α) : (pure a : Comp ε σ α) s = (.ok a, s) :=
  rfl

@[simp] theorem bind_apply : (m >>= f) s = Comp.next f (m s) := rfl

@[simp] theorem next_ok (a : α) : Comp.next f (.ok a, s) = f a s := rfl

@[simp] theorem next_error (err : ε) :
    Comp.next f (.error err, s) = (.error err, s) := rfl

@[simp] theorem lift_apply (x : Except ε α) :
    (lift x : Comp ε σ α) s = (x, s) := rfl

@[simp] theorem attempt_ok (a : α) (change : α → σ → σ) :
    (attempt (.ok a) change : Comp ε σ α) s = (.ok a, change a s) := rfl

@[simp] theorem attempt_error (err : ε) (change : α → σ → σ) :
    (attempt (.error err) change : Comp ε σ α) s = (.error err, s) := rfl

@[simp] theorem result_apply :
    (result m : Comp ε σ (Except ε α)) s = (.ok (m s).1, (m s).2) := rfl

/-- Wrapping the result does nothing to the state. -/
@[simp] theorem next_pure_state {g : α → β} (r : Except ε α × σ) :
    (Comp.next (fun a => (pure (g a) : Comp ε σ β)) r).2 = r.2 := by
  obtain ⟨_ | _, s⟩ := r <;> rfl

/-- Nor does judging it. -/
@[simp] theorem next_lift_state {g : α → Except ε β} (r : Except ε α × σ) :
    (Comp.next (fun a => (lift (g a) : Comp ε σ β)) r).2 = r.2 := by
  obtain ⟨_ | _, s⟩ := r <;> rfl

@[simp] theorem update_apply (change : σ → σ) :
    (update change : Comp ε σ Unit) s = (.ok (), change s) := rfl

-- ============================================================= failures

/-- A failure from `s` leaves `t`. -/
def FailsTo (m : Comp ε σ α) (s t : σ) : Prop :=
  ∀ err s', m s = (.error err, s') → s' = t

/-- A failure leaves the state as it was. -/
def Atomic (m : Comp ε σ α) (s : σ) : Prop := FailsTo m s s

/-- Does the computation succeed? -/
def Succeeds (m : Comp ε σ α) (s : σ) : Prop := ∃ a s', m s = (.ok a, s')

/-- Every way through keeps an invariant. -/
def Keeps (I : σ → Prop) (m : Comp ε σ α) : Prop := ∀ s, I s → I (m s).2

theorem attempt_eq_ok {x : Except ε α} {change : α → σ → σ} {a : α} {s' : σ} :
    attempt x change s = (.ok a, s') ↔ x = .ok a ∧ s' = change a s := by
  cases x with
  | ok b =>
      constructor
      · intro h
        cases h
        exact ⟨rfl, rfl⟩
      · rintro ⟨h, rfl⟩
        cases h
        rfl
  | error err => exact ⟨fun h => (by cases h), fun h => (by cases h.1)⟩

theorem lift_eq_ok {x : Except ε α} {a : α} {s' : σ} :
    lift x s = (.ok a, s') ↔ x = .ok a ∧ s' = s := by
  rw [lift, Prod.mk.injEq, eq_comm (a := s)]

theorem atomic_lift (x : Except ε α) : Atomic (lift x) s := by
  intro err s' h
  exact ((Prod.mk.injEq ..).mp h).2.symm

theorem failsTo_attempt {x : Except ε α} {change : α → σ → σ} :
    FailsTo (attempt x change) s t ↔ ∀ err, x = .error err → s = t := by
  cases x with
  | ok a => exact ⟨fun _ _ h => (by cases h), fun _ _ _ h => (by cases h)⟩
  | error err =>
      constructor
      · intro h _ _
        exact h err s rfl
      · intro h err' s' he
        cases he
        exact h err rfl

theorem atomic_attempt (x : Except ε α) (change : α → σ → σ) :
    Atomic (attempt x change) s :=
  failsTo_attempt.mpr fun _ _ => rfl

theorem failsTo_update_bind {change : σ → σ} {g : Unit → Comp ε σ β} :
    FailsTo (update change >>= g) s t ↔ FailsTo (g ()) (change s) t :=
  Iff.rfl

/-- A sequence fails in its first part, or after it. -/
theorem failsTo_bind : FailsTo (m >>= f) s t ↔
    FailsTo m s t ∧ ∀ a s', m s = (.ok a, s') → FailsTo (f a) s' t := by
  constructor
  · intro h
    constructor
    · intro err s' he
      apply h err s'
      rw [bind_apply, he, next_error]
    · intro a s' ha err s'' he
      apply h err s''
      rw [bind_apply, ha, next_ok, he]
  · rintro ⟨hm, hf⟩ err s'' h
    rw [bind_apply] at h
    cases hr : m s with
    | mk r s' =>
        rw [hr] at h
        cases r with
        | ok a => exact hf a s' hr err s'' h
        | error err' =>
            cases h
            exact hm _ _ hr

/-- What comes after a question fails as the rest does. -/
theorem atomic_lift_bind {x : Except ε α} : Atomic (lift x >>= f) s ↔
    ∀ a, x = .ok a → Atomic (f a) s := by
  constructor
  · intro h a ha
    exact (failsTo_bind.mp h).2 a s (lift_eq_ok.mpr ⟨ha, rfl⟩)
  · intro h
    apply failsTo_bind.mpr
    refine ⟨atomic_lift x, ?_⟩
    intro a s' ha
    obtain ⟨hx, rfl⟩ := lift_eq_ok.mp ha
    exact h a hx

/-- What comes after a change has to restore what was changed. -/
theorem atomic_attempt_bind {x : Except ε α} {change : α → σ → σ} :
    Atomic (attempt x change >>= f) s ↔
      ∀ a, x = .ok a → FailsTo (f a) (change a s) s := by
  constructor
  · intro h a ha
    exact (failsTo_bind.mp h).2 a _ (attempt_eq_ok.mpr ⟨ha, rfl⟩)
  · intro h
    apply failsTo_bind.mpr
    refine ⟨atomic_attempt x change, ?_⟩
    intro a s' ha
    obtain ⟨hx, rfl⟩ := attempt_eq_ok.mp ha
    exact h a hx

/-- Wrapping the result fails as the computation does. -/
theorem atomic_bind_pure {g : α → β} :
    Atomic (m >>= fun a => pure (g a)) s ↔ Atomic m s := by
  constructor
  · intro h
    exact (failsTo_bind.mp h).1
  · intro h
    apply failsTo_bind.mpr
    refine ⟨h, ?_⟩
    intro a s' _ err s'' he
    cases he

theorem succeeds_bind : Succeeds (m >>= f) s ↔
    ∃ a s', m s = (.ok a, s') ∧ Succeeds (f a) s' := by
  constructor
  · rintro ⟨b, s'', h⟩
    rw [bind_apply] at h
    cases hr : m s with
    | mk r s' =>
        rw [hr] at h
        cases r with
        | ok a => exact ⟨a, s', rfl, b, s'', h⟩
        | error err => cases h
  · rintro ⟨a, s', hm, b, s'', hf⟩
    exact ⟨b, s'', by rw [bind_apply, hm, next_ok, hf]⟩

theorem succeeds_lift_bind {x : Except ε α} :
    Succeeds (lift x >>= f) s ↔ ∃ a, x = .ok a ∧ Succeeds (f a) s := by
  rw [succeeds_bind]
  constructor
  · rintro ⟨a, s', ha, hf⟩
    obtain ⟨hx, rfl⟩ := lift_eq_ok.mp ha
    exact ⟨a, hx, hf⟩
  · rintro ⟨a, hx, hf⟩
    exact ⟨a, s, lift_eq_ok.mpr ⟨hx, rfl⟩, hf⟩

theorem succeeds_attempt_bind {x : Except ε α} {change : α → σ → σ} :
    Succeeds (attempt x change >>= f) s ↔
      ∃ a, x = .ok a ∧ Succeeds (f a) (change a s) := by
  rw [succeeds_bind]
  constructor
  · rintro ⟨a, s', ha, hf⟩
    obtain ⟨hx, rfl⟩ := attempt_eq_ok.mp ha
    exact ⟨a, hx, hf⟩
  · rintro ⟨a, hx, hf⟩
    exact ⟨a, _, attempt_eq_ok.mpr ⟨hx, rfl⟩, hf⟩

theorem keeps_lift {I : σ → Prop} (x : Except ε α) : Keeps I (lift x) :=
  fun _ hs => hs

theorem keeps_bind {I : σ → Prop} (hm : Keeps I m)
    (hf : ∀ a, Keeps I (f a)) : Keeps I (m >>= f) := by
  intro s hs
  have hs' := hm s hs
  rw [bind_apply]
  cases hr : m s with
  | mk r s' =>
      rw [hr] at hs'
      cases r with
      | ok a => exact hf a s' hs'
      | error err => exact hs'

theorem keeps_attempt {I : σ → Prop} (x : Except ε α)
    {change : α → σ → σ} (h : ∀ a s, I s → I (change a s)) :
    Keeps I (attempt x change) := by
  intro s hs
  cases x with
  | ok a => exact h a s hs
  | error err => exact hs

/-- Where no way back to `t` is left, only success will do. -/
theorem failsTo_iff_succeeds {I : σ → Prop} (hm : Keeps I m) (hs : I s)
    (ht : ¬ I t) : FailsTo m s t ↔ Succeeds m s := by
  have hk := hm s hs
  constructor
  · intro h
    cases hr : m s with
    | mk r s' =>
        rw [hr] at hk
        cases r with
        | ok a => exact ⟨a, s', hr⟩
        | error err => exact absurd (h err s' hr ▸ hk) ht
  · rintro ⟨a, s', ha⟩ err s'' he
    rw [ha] at he
    cases he

end

end Fallible
