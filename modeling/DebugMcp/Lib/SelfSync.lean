/-
Self-synchronizing codes.

Every symbol is coded by a start element with continuations behind it, so
that the elements themselves tell where a symbol begins (`IsCode`). An
index of coded data is a boundary, a start or the end, exactly when what
is before it codes a prefix of the symbols (`isBoundary_iff`). The last
boundary up to an index is therefore where the longest prefix ends whose
code fits below it (`longestPrefix_of_boundary`).
-/
import Mathlib.Data.List.Infix
import Mathlib.Data.Nat.Find

universe u v

namespace SelfSync

/-- `s` is the longest prefix of `l` that has the property. -/
structure LongestPrefix {α : Type u} (P : List α → Prop)
    (s l : List α) : Prop where
  isPrefix : s <+: l
  holds : P s
  longest : ∀ t, t <+: l → P t → t <+: s

section

variable {σ : Type u} {β : Type v}

/-- The code of every symbol is a start followed by continuations. -/
def IsCode (code : σ → List β) (isStart : β → Bool) : Prop :=
  ∀ c, ∃ b rest, code c = b :: rest ∧ isStart b = true ∧
    ∀ b' ∈ rest, isStart b' = false

/-- Does a symbol begin at the index, or the data end? -/
def isBoundary (isStart : β → Bool) (data : List β) (index : Nat) :
    Bool :=
  match data[index]? with
  | some b => isStart b
  | none => index = data.length

variable {code : σ → List β} {isStart : β → Bool}

/-- No symbol has an empty code. -/
theorem IsCode.length_pos (h : IsCode code isStart) (c : σ) :
    0 < (code c).length := by
  obtain ⟨b, rest, hc, -, -⟩ := h c
  rw [hc]
  exact Nat.succ_pos _

/-- Coded data begins with a boundary. -/
theorem IsCode.isBoundary_zero (h : IsCode code isStart) (cs : List σ) :
    isBoundary isStart (cs.flatMap code) 0 = true := by
  cases cs with
  | nil => rfl
  | cons c cs =>
      obtain ⟨b, rest, hc, hb, -⟩ := h c
      rw [List.flatMap_cons, hc]
      exact hb

/-- Behind a symbol, the boundaries are those of the rest. -/
theorem isBoundary_append (pre data : List β) (index : Nat) :
    isBoundary isStart (pre ++ data) (pre.length + index)
      = isBoundary isStart data index := by
  unfold isBoundary
  rw [List.getElem?_append_right (Nat.le_add_right _ _),
    Nat.add_sub_cancel_left, List.length_append]
  split
  · rfl
  · simp only [Nat.add_left_cancel_iff]

/-- Within a symbol there is no boundary. -/
theorem IsCode.isBoundary_within (h : IsCode code isStart) (c : σ)
    (data : List β) {index : Nat} (h0 : 0 < index)
    (hlt : index < (code c).length) :
    isBoundary isStart (code c ++ data) index = false := by
  obtain ⟨b, rest, hc, -, hrest⟩ := h c
  obtain ⟨i, rfl⟩ := Nat.exists_eq_succ_of_ne_zero (Nat.ne_of_gt h0)
  rw [hc, List.length_cons] at hlt
  have hi : i < rest.length := Nat.lt_of_succ_lt_succ hlt
  have hget : (code c ++ data)[i + 1]? = some rest[i] := by
    rw [hc, List.cons_append, List.getElem?_cons_succ,
      List.getElem?_append_left hi, List.getElem?_eq_getElem hi]
  unfold isBoundary
  rw [hget]
  exact hrest _ (List.getElem_mem hi)

/-- The boundaries are where the prefixes of the symbols end. -/
theorem IsCode.isBoundary_iff (h : IsCode code isStart) (cs : List σ)
    (index : Nat) :
    isBoundary isStart (cs.flatMap code) index = true ↔
      ∃ pre, pre <+: cs ∧ (pre.flatMap code).length = index := by
  induction cs generalizing index with
  | nil =>
      constructor
      · intro hb
        have hi : index = 0 := of_decide_eq_true hb
        exact ⟨[], List.nil_prefix, hi.symm⟩
      · rintro ⟨pre, hpre, rfl⟩
        rw [List.prefix_nil.mp hpre]
        rfl
  | cons c cs ih =>
      rcases Nat.eq_zero_or_pos index with rfl | h0
      · exact iff_of_true (h.isBoundary_zero _)
          ⟨[], List.nil_prefix, rfl⟩
      rcases Nat.lt_or_ge index (code c).length with hlt | hge
      · rw [List.flatMap_cons, h.isBoundary_within c _ h0 hlt]
        refine iff_of_false nofun ?_
        rintro ⟨pre, hpre, rfl⟩
        cases pre with
        | nil => cases h0
        | cons c' pre =>
            obtain ⟨rfl, -⟩ := List.cons_prefix_cons.mp hpre
            rw [List.flatMap_cons, List.length_append] at hlt
            omega
      · obtain ⟨k, rfl⟩ := Nat.exists_eq_add_of_le hge
        rw [List.flatMap_cons, isBoundary_append, ih]
        constructor
        · rintro ⟨pre, hpre, rfl⟩
          refine ⟨c :: pre, List.cons_prefix_cons.mpr ⟨rfl, hpre⟩, ?_⟩
          rw [List.flatMap_cons, List.length_append]
        · rintro ⟨pre, hpre, hlen⟩
          cases pre with
          | nil =>
              rw [← hlen] at h0
              cases h0
          | cons c' pre =>
              obtain ⟨rfl, hcs⟩ := List.cons_prefix_cons.mp hpre
              rw [List.flatMap_cons, List.length_append] at hlen
              exact ⟨pre, hcs, Nat.add_left_cancel hlen⟩

/-- A prefix whose code is no shorter is no shorter. -/
theorem IsCode.prefix_of_length_le (h : IsCode code isStart)
    {s t l : List σ} (hs : s <+: l) (ht : t <+: l)
    (hle : (t.flatMap code).length ≤ (s.flatMap code).length) :
    t <+: s := by
  rcases List.prefix_or_prefix_of_prefix ht hs with hts | ⟨more, rfl⟩
  · exact hts
  · cases more with
    | nil => exact (List.append_nil s).symm ▸ List.prefix_refl s
    | cons c more =>
        have hpos := h.length_pos c
        rw [List.flatMap_append, List.flatMap_cons, List.length_append,
          List.length_append] at hle
        omega

/-- The last boundary up to `n` is where the longest prefix ends whose
code has at most `n` elements. -/
theorem IsCode.longestPrefix_of_boundary (h : IsCode code isStart)
    (cs : List σ) (n : Nat) :
    ∃ pre, LongestPrefix (fun t => (t.flatMap code).length ≤ n) pre cs ∧
      (pre.flatMap code).length = Nat.findGreatest
        (fun i => isBoundary isStart (cs.flatMap code) i = true) n := by
  have hgreatest := Nat.findGreatest_spec
    (P := fun i => isBoundary isStart (cs.flatMap code) i = true)
    (Nat.zero_le n) (h.isBoundary_zero cs)
  obtain ⟨pre, hpre, hlen⟩ := (h.isBoundary_iff cs _).mp hgreatest
  refine ⟨pre, ⟨hpre, ?_, fun t ht hle => ?_⟩, hlen⟩
  · show (pre.flatMap code).length ≤ n
    rw [hlen]
    exact Nat.findGreatest_le n
  · apply h.prefix_of_length_le hpre ht
    rw [hlen]
    have hbound := (h.isBoundary_iff cs _).mpr ⟨t, ht, rfl⟩
    exact Nat.le_findGreatest hle hbound

end

end SelfSync
