/-
Base64, with padding, as the standard has it.

`decode` takes what `encode` gives and nothing else: the padding has to be
there, and the bits that a last symbol does not need have to be zero.
-/
import Mathlib.Data.UInt

namespace Base64

-- ============================================================== symbols

/-- The symbol of a number below 64. -/
def symbol (n : Nat) : Char :=
  if n < 26 then Char.ofNat (n + 65)
  else if n < 52 then Char.ofNat (n + 71)
  else if n < 62 then Char.ofNat (n - 4)
  else if n = 62 then '+' else '/'

/-- The number of a symbol. -/
def value (c : Char) : Option Nat :=
  if 'A' ≤ c ∧ c ≤ 'Z' then some (c.toNat - 65)
  else if 'a' ≤ c ∧ c ≤ 'z' then some (c.toNat - 71)
  else if '0' ≤ c ∧ c ≤ '9' then some (c.toNat + 4)
  else if c = '+' then some 62
  else if c = '/' then some 63
  else none

theorem value_symbol {n : Nat} (h : n < 64) :
    value (symbol n) = some n := by
  decide +revert

theorem symbol_ne_pad {n : Nat} (h : n < 64) : symbol n ≠ '=' := by
  decide +revert

-- =============================================================== coding

/-- The text of some bytes. -/
def encode : List UInt8 → List Char
  | [] => []
  | [a] =>
      [symbol (a.toNat / 4), symbol (a.toNat % 4 * 16), '=', '=']
  | [a, b] =>
      [symbol (a.toNat / 4), symbol (a.toNat % 4 * 16 + b.toNat / 16),
        symbol (b.toNat % 16 * 4), '=']
  | a :: b :: c :: rest =>
      symbol (a.toNat / 4) :: symbol (a.toNat % 4 * 16 + b.toNat / 16)
        :: symbol (b.toNat % 16 * 4 + c.toNat / 64) :: symbol (c.toNat % 64)
        :: encode rest

/-- A byte from the parts that two symbols have of it. -/
def byte (m n : Nat) : UInt8 := UInt8.ofNat (m + n)

/-- The bytes of a text. -/
def decode : List Char → Option (List UInt8)
  | [] => some []
  | [w, x, '=', '='] => do
      let w ← value w
      let x ← value x
      if x % 16 = 0 then some [byte (w * 4) (x / 16)] else none
  | [w, x, y, '='] => do
      let w ← value w
      let x ← value x
      let y ← value y
      if y % 4 = 0 then
        some [byte (w * 4) (x / 16), byte (x % 16 * 16) (y / 4)]
      else none
  | w :: x :: y :: z :: rest => do
      let w ← value w
      let x ← value x
      let y ← value y
      let z ← value z
      let bytes ← decode rest
      some (byte (w * 4) (x / 16) :: byte (x % 16 * 16) (y / 4)
        :: byte (y % 4 * 64) z :: bytes)
  | _ => none

/-- A byte is put together from its parts. -/
theorem byte_eq {a : UInt8} {m n : Nat} (h : m + n = a.toNat) :
    byte m n = a := by
  unfold byte
  rw [h]
  exact UInt8.ofNat_toNat

/-- What was encoded is decoded. -/
theorem decode_encode (bytes : List UInt8) :
    decode (encode bytes) = some bytes := by
  induction bytes using encode.induct with
  | case1 => rfl
  | case2 a =>
      have ha := a.toNat_lt
      have h₁ : byte (a.toNat / 4 * 4) (a.toNat % 4 * 16 / 16) = a :=
        byte_eq (by omega)
      rw [encode, decode, value_symbol (by omega), value_symbol (by omega)]
      simp only [Option.bind_eq_bind, Option.bind_some]
      rw [if_pos (by omega), h₁]
  | case3 a b =>
      have ha := a.toNat_lt
      have hb := b.toNat_lt
      have hpad := symbol_ne_pad (n := b.toNat % 16 * 4) (by omega)
      have h₁ : byte (a.toNat / 4 * 4)
          ((a.toNat % 4 * 16 + b.toNat / 16) / 16) = a :=
        byte_eq (by omega)
      have h₂ : byte ((a.toNat % 4 * 16 + b.toNat / 16) % 16 * 16)
          (b.toNat % 16 * 4 / 4) = b :=
        byte_eq (by omega)
      rw [encode, decode, value_symbol (by omega), value_symbol (by omega),
        value_symbol (by omega)]
      · simp only [Option.bind_eq_bind, Option.bind_some]
        rw [if_pos (by omega), h₁, h₂]
      · exact hpad
  | case4 a b c rest ih =>
      have ha := a.toNat_lt
      have hb := b.toNat_lt
      have hc := c.toNat_lt
      have hpad := symbol_ne_pad (n := c.toNat % 64) (by omega)
      have h₁ : byte (a.toNat / 4 * 4)
          ((a.toNat % 4 * 16 + b.toNat / 16) / 16) = a :=
        byte_eq (by omega)
      have h₂ : byte ((a.toNat % 4 * 16 + b.toNat / 16) % 16 * 16)
          ((b.toNat % 16 * 4 + c.toNat / 64) / 4) = b :=
        byte_eq (by omega)
      have h₃ : byte ((b.toNat % 16 * 4 + c.toNat / 64) % 4 * 64)
          (c.toNat % 64) = c :=
        byte_eq (by omega)
      rw [encode, decode, value_symbol (by omega), value_symbol (by omega),
        value_symbol (by omega), value_symbol (by omega)]
      · simp only [Option.bind_eq_bind, Option.bind_some]
        rw [ih, h₁, h₂, h₃]
        rfl
      · exact fun _ hz _ => hpad hz
      · exact fun hz _ => hpad hz

end Base64
