/-
Walks that may fail, and their capped prefixes.

A walk yields entries until it is done or a failure stops it. `capped`
is what a traversal with a budget makes of one: it goes on from the
entries it has, and stops when there are `max` of them, whatever the rest
of the walk would be. A traversal that threads its entries from part to
part computes the capped walk of the whole (`capped_andThen`).
-/
import Mathlib.Data.List.Basic

universe u v w

/-- The entries a walk yields, and the failure that stops it, if one
does. -/
structure Walk (ε : Type u) (α : Type v) where
  entries : List α
  failure : Option ε
  deriving DecidableEq

namespace Walk

variable {ε : Type u} {α : Type v} {β : Type w}

/-- A walk of nothing. -/
def nil : Walk ε α := ⟨[], none⟩

/-- A walk of one entry. -/
def one (a : α) : Walk ε α := ⟨[a], none⟩

/-- A walk that fails at once. -/
def fail (e : ε) : Walk ε α := ⟨[], some e⟩

/-- One walk after the other, unless the first fails. -/
def andThen (x y : Walk ε α) : Walk ε α :=
  match x.failure with
  | some _ => x
  | none => ⟨x.entries ++ y.entries, y.failure⟩

/-- Walks one after the other. -/
def all (xs : List (Walk ε α)) : Walk ε α := xs.foldr andThen nil

/-- A walk of what a lookup gives, in order. -/
def level (found : Except ε (List β)) (visit : β → Walk ε α) : Walk ε α :=
  match found with
  | .error e => fail e
  | .ok bs => all (bs.map visit)

/-- What a traversal makes of a walk, from the entries it has: at `max`
entries it is cut, and else it ends as the walk does. -/
def capped (max : Nat) (done : List α) (x : Walk ε α) :
    Except ε (List α × Bool) :=
  if max ≤ done.length + x.entries.length then
    .ok ((done ++ x.entries).take max, true)
  else match x.failure with
    | some e => .error e
    | none => .ok (done ++ x.entries, false)

/-- A traversal goes on after a part that neither failed nor was cut. -/
def goOn (out : Except ε (List α × Bool))
    (next : List α → Except ε (List α × Bool)) :
    Except ε (List α × Bool) :=
  match out with
  | .error e => .error e
  | .ok (r, true) => .ok (r, true)
  | .ok (r, false) => next r

/-- Going on twice. -/
theorem goOn_goOn (out : Except ε (List α × Bool))
    (next after : List α → Except ε (List α × Bool)) :
    goOn (goOn out next) after = goOn out fun r => goOn (next r) after := by
  rcases out with e | ⟨r, _ | _⟩ <;> rfl

/-- What comes next matters only where there is a next. -/
theorem goOn_congr {out : Except ε (List α × Bool)}
    {next next' : List α → Except ε (List α × Bool)}
    (h : ∀ r, out = .ok (r, false) → next r = next' r) :
    goOn out next = goOn out next' := by
  rcases out with e | ⟨r, _ | _⟩
  · rfl
  · exact h r rfl
  · rfl

variable {max : Nat} {done : List α}

/-- A walk of nothing is over. -/
@[simp] theorem capped_nil (h : done.length < max) :
    capped max done (nil : Walk ε α) = .ok (done, false) := by
  unfold capped nil
  rw [if_neg (by simpa using h), List.append_nil]

/-- A walk that fails at once fails. -/
@[simp] theorem capped_fail (h : done.length < max) (e : ε) :
    capped max done (fail e : Walk ε α) = .error e := by
  unfold capped fail
  rw [if_neg (by simpa using h)]

/-- One entry more, and perhaps the cap. -/
theorem capped_one (h : done.length < max) (a : α) :
    capped max done (one a : Walk ε α)
      = .ok (done ++ [a], decide (max ≤ (done ++ [a]).length)) := by
  have hlen : (done ++ [a]).length = done.length + 1 := by simp
  by_cases hm : max ≤ done.length + 1
  · have hx : capped max done (one a : Walk ε α)
        = .ok ((done ++ [a]).take max, true) := if_pos hm
    rw [hx, List.take_of_length_le (by omega), hlen, decide_eq_true hm]
  · have hx : capped max done (one a : Walk ε α)
        = .ok (done ++ [a], false) := if_neg hm
    rw [hx, hlen, decide_eq_false hm]

/-- A traversal that is not cut has not reached the cap. -/
theorem length_of_capped {x : Walk ε α} {r : List α}
    (h : capped max done x = .ok (r, false)) : r.length < max := by
  unfold capped at h
  split_ifs at h with hm
  · cases h
  · cases hf : x.failure with
    | some e => rw [hf] at h; cases h
    | none =>
        rw [hf] at h
        cases h
        rw [List.length_append]
        omega

/-- One part after the other: a part that is cut or fails is the last. -/
theorem capped_andThen (x y : Walk ε α) :
    capped max done (x.andThen y)
      = goOn (capped max done x) fun r => capped max r y := by
  unfold andThen
  cases hf : x.failure with
  | some e =>
      unfold capped
      rw [hf]
      split_ifs <;> rfl
  | none =>
      by_cases hm : max ≤ done.length + x.entries.length
      · have hx : capped max done x
            = .ok ((done ++ x.entries).take max, true) := if_pos hm
        have hle : max ≤ (done ++ x.entries).length := by
          rw [List.length_append]
          exact hm
        rw [hx]
        unfold capped goOn
        rw [List.length_append, if_pos (by omega), ← List.append_assoc,
          List.take_append_of_le_length hle]
      · have hx : capped max done x
            = .ok (done ++ x.entries, false) := by
          unfold capped
          rw [if_neg hm, hf]
        rw [hx]
        unfold capped goOn
        simp only [List.length_append, Nat.add_assoc, List.append_assoc]

/-- The first of several walks, then the rest. -/
theorem capped_all_cons (x : Walk ε α) (xs : List (Walk ε α)) :
    capped max done (all (x :: xs))
      = goOn (capped max done x) fun r => capped max r (all xs) :=
  capped_andThen x (all xs)

/-- What the capped walk is, from the start. -/
theorem capped_ok_iff {x : Walk ε α} {r : List α} {cut : Bool} :
    capped max [] x = .ok (r, cut) ↔
      r = x.entries.take max ∧ (cut = true ↔ max ≤ x.entries.length) ∧
        (x.failure = none ∨ max ≤ x.entries.length) := by
  unfold capped
  simp only [List.length_nil, Nat.zero_add, List.nil_append]
  by_cases hm : max ≤ x.entries.length
  · rw [if_pos hm]
    constructor
    · intro h
      cases h
      exact ⟨rfl, iff_of_true rfl hm, .inr hm⟩
    · rintro ⟨rfl, hcut, -⟩
      rw [hcut.mpr hm]
  · rw [if_neg hm, List.take_of_length_le (by omega)]
    cases hf : x.failure with
    | some e =>
        refine iff_of_false nofun ?_
        rintro ⟨-, -, h | h⟩
        · cases h
        · exact hm h
    | none =>
        constructor
        · intro h
          cases h
          exact ⟨rfl, iff_of_false Bool.false_ne_true hm, .inl rfl⟩
        · rintro ⟨rfl, hcut, -⟩
          cases cut with
          | true => exact absurd (hcut.mp rfl) hm
          | false => rfl

/-- When it fails. -/
theorem capped_error_iff {x : Walk ε α} {e : ε} :
    capped max [] x = .error e ↔
      x.failure = some e ∧ x.entries.length < max := by
  unfold capped
  simp only [List.length_nil, Nat.zero_add]
  by_cases hm : max ≤ x.entries.length
  · rw [if_pos hm]
    exact iff_of_false nofun fun h => by omega
  · rw [if_neg hm]
    cases hf : x.failure with
    | some e' =>
        constructor
        · intro h
          cases h
          exact ⟨rfl, by omega⟩
        · rintro ⟨h, -⟩
          cases h
          rfl
    | none => exact iff_of_false nofun nofun

end Walk
