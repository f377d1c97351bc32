/-
Hexadecimal numerals, written and read back.

`padded` writes a number with at least so many digits, `value` reads any
numeral in either case. Reading what was written gives the number, however
it was padded (`value_padded`).
-/
import Mathlib.Data.Nat.Digits.Defs

namespace Hex

/-- The value of a hexadecimal digit, in either case. -/
def digitValue (c : Char) : Option Nat :=
  if 48 ≤ c.toNat ∧ c.toNat ≤ 57 then some (c.toNat - 48)
  else if 97 ≤ c.toNat ∧ c.toNat ≤ 102 then some (c.toNat - 87)
  else if 65 ≤ c.toNat ∧ c.toNat ≤ 70 then some (c.toNat - 55)
  else none

/-- The value of digits after those that were read already. -/
def valueFrom (n : Nat) : List Char → Option Nat
  | [] => some n
  | c :: cs => (digitValue c).bind fun d => valueFrom (16 * n + d) cs

/-- The value of a numeral. -/
def value (cs : List Char) : Option Nat :=
  if cs = [] then none else valueFrom 0 cs

/-- A number with at least `w` digits. -/
def padded (w n : Nat) : List Char := (Nat.toDigits 16 n).leftpad w '0'

/-- Each digit that is written reads as its value. -/
theorem digitValue_digitChar {d : Nat} (h : d < 16) :
    digitValue d.digitChar = some d := by
  have hall : ∀ d : Fin 16, digitValue d.val.digitChar = some d.val := by
    decide
  exact hall ⟨d, h⟩

theorem valueFrom_append (n : Nat) (cs ds : List Char) :
    valueFrom n (cs ++ ds) = (valueFrom n cs).bind fun m => valueFrom m ds := by
  induction cs generalizing n with
  | nil => rfl
  | cons c cs ih =>
    rw [List.cons_append, valueFrom, valueFrom]
    cases digitValue c with
    | none => rfl
    | some d => exact ih (16 * n + d)

/-- Leading zeros say nothing. -/
theorem valueFrom_zeros (k : Nat) (cs : List Char) :
    valueFrom 0 (List.replicate k '0' ++ cs) = valueFrom 0 cs := by
  induction k with
  | zero => rfl
  | succ k ih =>
    rw [List.replicate_succ, List.cons_append]
    exact ih

/-- The digits of a number read as the number. -/
theorem valueFrom_toDigits (n : Nat) :
    valueFrom 0 (Nat.toDigits 16 n) = some n := by
  induction n using Nat.strong_induction_on with
  | _ n ih =>
    rw [Nat.toDigits_eq_if (by decide)]
    split_ifs with hn
    · rw [valueFrom, digitValue_digitChar hn]
      simp [valueFrom]
    · have hrec : valueFrom 0 (Nat.toDigits 16 (n / 16)) = some (n / 16) :=
        ih (n / 16) (by omega)
      have hlast := digitValue_digitChar (Nat.mod_lt n (Nat.succ_pos 15))
      rw [valueFrom_append, hrec, Option.bind_some, valueFrom, hlast,
        Option.bind_some, valueFrom, Nat.div_add_mod]

/-- So do the digits written in another alphabet that reads the same. -/
theorem valueFrom_map {f : Char → Char}
    (hf : ∀ d < 16, digitValue (f d.digitChar) = some d) (n : Nat) :
    valueFrom 0 ((Nat.toDigits 16 n).map f) = some n := by
  induction n using Nat.strong_induction_on with
  | _ n ih =>
    rw [Nat.toDigits_eq_if (by decide)]
    split_ifs with hn
    · rw [List.map_singleton, valueFrom, hf n hn]
      simp [valueFrom]
    · have hrec := ih (n / 16) (by omega)
      have hlast := hf (n % 16) (Nat.mod_lt n (Nat.succ_pos 15))
      rw [List.map_append, valueFrom_append, hrec, Option.bind_some,
        List.map_singleton, valueFrom, hlast, Option.bind_some, valueFrom,
        Nat.div_add_mod]

/-- Upper-case digits read the same. -/
theorem digitValue_upper {d : Nat} (h : d < 16) :
    digitValue d.digitChar.toUpper = some d := by
  have hall : ∀ d : Fin 16,
      digitValue d.val.digitChar.toUpper = some d.val := by
    decide
  exact hall ⟨d, h⟩

/-- What is written reads back. -/
theorem value_padded (w n : Nat) : value (padded w n) = some n := by
  have hne : padded w n ≠ [] := by
    intro h
    have hnil := (List.append_eq_nil_iff.mp h).2
    exact Nat.toDigits_ne_nil hnil
  rw [value, if_neg hne, padded, List.leftpad, valueFrom_zeros,
    valueFrom_toDigits]

/-- A digit is less than the radix. -/
theorem digitValue_lt {c : Char} {d : Nat} (h : digitValue c = some d) :
    d < 16 := by
  unfold digitValue at h
  split_ifs at h with h₁ h₂ h₃
  · cases h
    omega
  · cases h
    omega
  · cases h
    omega

/-- More digits do not make a number smaller. -/
theorem le_valueFrom {n m : Nat} {cs : List Char}
    (h : valueFrom n cs = some m) : n ≤ m := by
  induction cs generalizing n with
  | nil =>
    cases h
    exact Nat.le_refl _
  | cons c cs ih =>
    obtain ⟨d, -, h⟩ := Option.bind_eq_some_iff.mp h
    have hle := ih h
    omega

/-- Only digits have a value. -/
theorem isSome_of_valueFrom {n m : Nat} {cs : List Char}
    (h : valueFrom n cs = some m) : ∀ c ∈ cs, (digitValue c).isSome := by
  induction cs generalizing n with
  | nil =>
    intro c hc
    cases hc
  | cons c cs ih =>
    obtain ⟨d, hd, h⟩ := Option.bind_eq_some_iff.mp h
    intro a ha
    rcases List.mem_cons.mp ha with rfl | ha
    · rw [hd]
      rfl
    · exact ih h a ha

/-- Everything that is written is a digit. -/
theorem digitValue_of_mem_toDigits {n : Nat} {c : Char}
    (h : c ∈ Nat.toDigits 16 n) : (digitValue c).isSome := by
  induction n using Nat.strong_induction_on with
  | _ n ih =>
    rw [Nat.toDigits_eq_if (by decide)] at h
    split_ifs at h with hn
    · rw [List.mem_singleton.mp h, digitValue_digitChar hn]
      rfl
    · rcases List.mem_append.mp h with h | h
      · exact ih (n / 16) (by omega) h
      · rw [List.mem_singleton.mp h,
          digitValue_digitChar (Nat.mod_lt n (Nat.succ_pos 15))]
        rfl

theorem digitValue_of_mem_padded {w n : Nat} {c : Char}
    (h : c ∈ padded w n) : (digitValue c).isSome := by
  rcases List.mem_append.mp h with h | h
  · rw [List.eq_of_mem_replicate h]
    rfl
  · exact digitValue_of_mem_toDigits h

/-- A number that needs no more digits gets as many as asked for. -/
theorem length_padded {w n : Nat} (hw : 0 < w) (h : n < 16 ^ w) :
    (padded w n).length = w := by
  rw [padded, List.length_leftpad]
  exact Nat.max_eq_left ((Nat.length_toDigits_le_iff (by decide) hw).mpr h)

end Hex
