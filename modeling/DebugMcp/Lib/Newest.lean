/-
The longest suffix of a list that has a property.

A bounded history keeps the newest of what it is given: each step appends
an entry and drops the oldest ones until what is left has the property
again. When the property passes from a list to every list it starts with
(`PrefixClosed`), it does not matter that the dropped entries are gone:
what is kept after the step is the longest such suffix of the whole
history (`LongestSuffix.snoc`).

For a bound on the length it is `List.rtake`, and a step may append any
number of entries at once (`rtake_rtake_append`).
-/
import Mathlib.Data.List.DropRight
import Mathlib.Data.List.Infix

universe u

namespace Newest

variable {α : Type u}

/-- `s` is the longest suffix of `l` that has the property. -/
structure LongestSuffix (P : List α → Prop) (s l : List α) : Prop where
  suffix : s <:+ l
  holds : P s
  longest : ∀ t, t <:+ l → P t → t <:+ s

/-- A property that passes to every list without its last entry. -/
def PrefixClosed (P : List α → Prop) : Prop :=
  ∀ l a, P (l ++ [a]) → P l

/-- Drop the oldest entries until the rest has the property. -/
def keepNewest (P : List α → Prop) [DecidablePred P] : List α → List α
  | [] => []
  | a :: l => if P (a :: l) then a :: l else keepNewest P l

section

variable {P : List α → Prop}

/-- A suffix of a list with one more entry is empty or ends with it. -/
theorem suffix_snoc {t l : List α} {a : α} (h : t <:+ l ++ [a]) :
    t = [] ∨ ∃ u, u <:+ l ∧ t = u ++ [a] := by
  rcases List.eq_nil_or_concat t with rfl | ⟨u, b, rfl⟩
  · exact .inl rfl
  · rw [List.concat_eq_append] at h ⊢
    obtain ⟨r, hr⟩ := h
    rw [← List.append_assoc] at hr
    obtain ⟨hu, hb⟩ := List.append_inj' hr rfl
    cases hb
    exact .inr ⟨u, ⟨r, hu⟩, rfl⟩

/-- A suffix is not all of the list if something precedes it. -/
theorem suffix_ne_iff {s l : List α} (h : s <:+ l) :
    s ≠ l ↔ ∃ dropped, dropped ≠ [] ∧ l = dropped ++ s := by
  constructor
  · intro hne
    obtain ⟨dropped, hd⟩ := h
    refine ⟨dropped, ?_, hd.symm⟩
    rintro rfl
    exact hne hd
  · rintro ⟨dropped, hne, hd⟩ heq
    exact hne (List.append_left_eq_self.mp (heq.trans hd).symm)

/-- The longest suffix of the empty list. -/
theorem LongestSuffix.nil (h : P []) : LongestSuffix P [] [] :=
  ⟨List.suffix_refl _, h, fun _ ht _ => ht⟩

/-- One more entry: the longest suffix of what was kept with the entry is
that of the whole list with it. -/
theorem LongestSuffix.snoc (hP : PrefixClosed P) {s s' l : List α} {a : α}
    (h : LongestSuffix P s l) (h' : LongestSuffix P s' (s ++ [a])) :
    LongestSuffix P s' (l ++ [a]) := by
  have hsl : s ++ [a] <:+ l ++ [a] := by
    obtain ⟨r, hr⟩ := h.suffix
    exact ⟨r, by rw [← List.append_assoc, hr]⟩
  refine ⟨h'.suffix.trans hsl, h'.holds, fun t ht hPt => ?_⟩
  rcases suffix_snoc ht with rfl | ⟨u, hu, rfl⟩
  · exact List.nil_suffix
  · -- what precedes the entry was kept, so all of `t` was there to keep
    have hus : u <:+ s := h.longest u hu (hP u a hPt)
    apply h'.longest _ _ hPt
    obtain ⟨r, hr⟩ := hus
    exact ⟨r, by rw [← List.append_assoc, hr]⟩

variable [DecidablePred P]

/-- Dropping the oldest until the rest has the property leaves the longest
suffix that has it. -/
theorem longestSuffix_keepNewest (h : P []) (l : List α) :
    LongestSuffix P (keepNewest P l) l := by
  induction l with
  | nil => exact .nil h
  | cons a l ih =>
    rw [keepNewest]
    split_ifs with ha
    · exact ⟨List.suffix_refl _, ha, fun _ ht _ => ht⟩
    · refine ⟨ih.suffix.trans (List.suffix_cons a l), ih.holds, ?_⟩
      intro t ht hPt
      rcases List.suffix_cons_iff.mp ht with rfl | ht
      · exact absurd hPt ha
      · exact ih.longest t ht hPt

/-- Something was dropped if the list did not have the property. -/
theorem keepNewest_ne {l : List α} (h : ¬ P l) (h₀ : P []) : keepNewest P l ≠ l := by
  intro he
  exact h (he ▸ (longestSuffix_keepNewest h₀ l).holds)

end

-- ============================================================== length

section

variable (l d : List α) {n : Nat}

/-- A list within the bound is kept. -/
theorem rtake_of_length_le (h : l.length ≤ n) : l.rtake n = l := by
  rw [List.rtake, Nat.sub_eq_zero_of_le h, List.drop_zero]

/-- The bound counts up to the list's length only. -/
theorem rtake_min : l.rtake (min n l.length) = l.rtake n := by
  rcases Nat.le_total n l.length with h | h
  · rw [Nat.min_eq_left h]
  · rw [Nat.min_eq_right h, rtake_of_length_le l (Nat.le_refl _),
      rtake_of_length_le l h]

/-- The newest are as many as the bound, or all there are. -/
theorem length_rtake : (l.rtake n).length = min n l.length := by
  rw [List.rtake, List.length_drop]
  omega

/-- As many new entries as the bound leave nothing of the old. -/
theorem rtake_append_of_le (h : n ≤ d.length) :
    (l ++ d).rtake n = d.rtake n := by
  have hk : (l ++ d).length - n = l.length + (d.length - n) := by
    rw [List.length_append]
    omega
  rw [List.rtake, hk, List.drop_length_add_append, List.rtake]

/-- Dropping the oldest before appending makes no difference. -/
theorem rtake_rtake_append :
    (l.rtake n ++ d).rtake n = (l ++ d).rtake n := by
  have hdrop : l.rtake n ++ d = (l ++ d).drop (l.length - n) :=
    (List.drop_append_of_le_length (Nat.sub_le _ _)).symm
  rw [hdrop, List.rtake, List.drop_drop, List.rtake, List.length_drop,
    List.length_append]
  congr 1
  omega

end

end Newest
