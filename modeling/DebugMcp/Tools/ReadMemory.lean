/-
`read_memory`, and the two parsers of its address.

The handler puts a `0x` before the address and hands it to the backend,
which parses it to read; for the labels of the dump the handler parses the
same string again. The WinDbg backend trims the string first, the handler
does not: with white space at its end a read is performed and then thrown
away. `addresses_agree_iff` is exactly when the two agree.
-/
import DebugMcp.Dap.Framing
import DebugMcp.Json
import DebugMcp.Tools.Errors
import DebugMcp.Tools.HexDump
import Mathlib.Algebra.Order.Ring.Int

namespace DebugMcp

-- ============================================================== integers

/-- Why a number does not parse. -/
inductive ParseIntError
  | empty | invalidDigit | posOverflow
  deriving DecidableEq

/-- The error's `Display` rendering. -/
def ParseIntError.display : ParseIntError → String
  | empty => "cannot parse integer from empty string"
  | invalidDigit => "invalid digit found in string"
  | posOverflow => "number too large to fit in target type"

/-- `char::to_digit`, for a radix up to 16. -/
def toDigit (radix : Nat) (c : Char) : Option Nat :=
  (Hex.digitValue c).filter (· < radix)

/-- The digits of a `u64`, with its overflow check. -/
def radixDigits (radix : Nat) : List Char → Nat → Except ParseIntError Nat
  | [], n => .ok n
  | c :: cs, n =>
      match toDigit radix c with
      | none => .error .invalidDigit
      | some d =>
          if radix * n + d < UInt64.size then
            radixDigits radix cs (radix * n + d)
          else .error .posOverflow

/-- `u64::from_str_radix`: one optional plus sign and at least one
digit. -/
def fromStrRadix (radix : Nat) (cs : List Char) :
    Except ParseIntError UInt64 :=
  if cs = [] then .error .empty
  else if cs = ['+'] ∨ cs = ['-'] then .error .invalidDigit
  else (radixDigits radix (if cs.head? = some '+' then cs.tail else cs) 0).map
    UInt64.ofNat

-- ============================================================= addresses

/-- `strip_prefix`. -/
def stripPrefix (pre cs : List Char) : Option (List Char) :=
  if pre.isPrefixOf cs then some (cs.drop pre.length) else none

/-- What follows a `0x` or `0X`. -/
def afterHexPrefix (cs : List Char) : Option (List Char) :=
  (stripPrefix ['0', 'x'] cs).or (stripPrefix ['0', 'X'] cs)

/-- `normalize_hex`. -/
def normalizeHex (address : List Char) : List Char :=
  if ['0', 'x'].isPrefixOf address || ['0', 'X'].isPrefixOf address then
    address
  else '0' :: 'x' :: address

/-- The address the handler labels the dump with. -/
def labelAddress (address : List Char) : Except ParseIntError UInt64 :=
  fromStrRadix 16 ((afterHexPrefix address).getD address)

/-- `parse_address`, of the WinDbg backend. -/
def parseAddress (address : List Char) : Except BackendError UInt64 :=
  let trimmed := trim address
  let parsed :=
    match afterHexPrefix trimmed with
    | some hex => fromStrRadix 16 hex
    | none => fromStrRadix 10 trimmed
  parsed.mapError fun _ =>
    .dap s!"invalid address: '{String.ofList address}'"

-- =============================================================== handler

/-- What a backend read. -/
structure MemoryRead where
  address : String
  data : List UInt8

/-- `read_memory`, of a backend. -/
abbrev MemoryReader := List Char → Int → Except BackendError MemoryRead

/-- `read_memory` of the WinDbg backend, over the engine's. -/
def windbgReadMemory
    (engineRead : UInt64 → Nat → Except BackendError MemoryRead) :
    MemoryReader := fun address count => do
  let parsed ← parseAddress address
  engineRead parsed (max count 0).toNat

/-- The answer for what was read. -/
def memoryAnswer (address : List Char) (read : MemoryRead) :
    Except String Json :=
  let resp := RespBuilder.new.set "address" (.str read.address)
  if read.data.isEmpty then .ok (resp.set "bytes_read" (.num 0)).build
  else
    match labelAddress address with
    | .error e => .error s!"failed to parse address: {e.display}"
    | .ok startAddr => .ok
        ((resp.set "bytes_read" (.num read.data.length)).set "hex_dump"
          (.str (formatHexDump read.data startAddr))).build

/-- The answer for what the backend returned. -/
def readAnswer (address : List Char) :
    Except BackendError MemoryRead → Except String Json
  | .error e => .error (OpError.readMemory.render e)
  | .ok read => memoryAnswer address read

/-- `handle_read_memory`, over what its guard, its arguments and the slot
give. -/
def handleReadMemory (guard : Except String Unit)
    (address : Except String (List Char)) (count : Except String Int)
    (backend : Option MemoryReader) : Except String Json := do
  guard
  let address ← address
  let count ← count
  let address := normalizeHex address
  match backend with
  | none => .error OpError.readMemory.requestFailed
  | some readMemory => readAnswer address (readMemory address count)

-- =========================================================== numerals

/-- A hexadecimal numeral of a `u64`, with or without a plus sign. -/
def HexNumeral (cs : List Char) : Prop :=
  ∃ digits n, (cs = digits ∨ cs = '+' :: digits) ∧
    Hex.value digits = some n ∧ n < UInt64.size

theorem toDigit_sixteen (c : Char) : toDigit 16 c = Hex.digitValue c := by
  unfold toDigit
  cases hd : Hex.digitValue c with
  | none => rfl
  | some d => simp [Option.filter, Hex.digitValue_lt hd]

/-- The digits are read if their value fits. -/
theorem radixDigits_eq_ok {cs : List Char} {n m : Nat}
    (hn : n < UInt64.size) :
    radixDigits 16 cs n = .ok m ↔
      Hex.valueFrom n cs = some m ∧ m < UInt64.size := by
  induction cs generalizing n with
  | nil =>
    rw [radixDigits, Hex.valueFrom, Except.ok.injEq, Option.some.injEq]
    constructor
    · rintro rfl
      exact ⟨rfl, hn⟩
    · exact And.left
  | cons c cs ih =>
    rw [radixDigits, Hex.valueFrom, toDigit_sixteen]
    cases Hex.digitValue c with
    | none => simp
    | some d =>
      rw [Option.bind_some]
      by_cases hfit : 16 * n + d < UInt64.size
      · simp only [if_pos hfit]
        exact ih hfit
      · simp only [if_neg hfit]
        constructor
        · intro h
          cases h
        · rintro ⟨h, hm⟩
          have hle := Hex.le_valueFrom h
          omega

/-- The digits of a non-empty text have its value. -/
theorem value_eq_some {cs : List Char} {n : Nat} :
    Hex.value cs = some n ↔ cs ≠ [] ∧ Hex.valueFrom 0 cs = some n := by
  unfold Hex.value
  by_cases h : cs = []
  · simp [h]
  · simp [h]

/-- The plus sign is no digit, and nothing else is left out. -/
theorem hexNumeral_iff {cs : List Char} (hne : cs ≠ [])
    (hplus : cs ≠ ['+']) :
    HexNumeral cs ↔ ∃ n < UInt64.size, Hex.valueFrom 0
      (if cs.head? = some '+' then cs.tail else cs) = some n := by
  cases cs with
  | nil => exact absurd rfl hne
  | cons c cs =>
    by_cases hc : c = '+'
    · subst hc
      have htail : cs ≠ [] := fun h => hplus (h ▸ rfl)
      simp only [List.head?_cons, if_true, List.tail_cons]
      constructor
      · rintro ⟨digits, n, hd | hd, hv, hn⟩
        · rw [← hd] at hv
          cases (value_eq_some.mp hv).2
        · cases hd
          exact ⟨n, hn, (value_eq_some.mp hv).2⟩
      · rintro ⟨n, hn, hv⟩
        exact ⟨cs, n, .inr rfl, value_eq_some.mpr ⟨htail, hv⟩, hn⟩
    · have hhead : (c :: cs).head? ≠ some '+' :=
        fun h => hc (Option.some.inj h)
      rw [if_neg hhead]
      constructor
      · rintro ⟨digits, n, rfl | hd, hv, hn⟩
        · exact ⟨n, hn, (value_eq_some.mp hv).2⟩
        · exact absurd (List.cons.inj hd).1 hc
      · rintro ⟨n, hn, hv⟩
        exact ⟨c :: cs, n, .inl rfl, value_eq_some.mpr ⟨hne, hv⟩, hn⟩

/-- Neither nothing nor a sign is a numeral. -/
theorem not_hexNumeral_sign {cs : List Char}
    (h : cs = [] ∨ cs = ['+'] ∨ cs = ['-']) : ¬ HexNumeral cs := by
  rintro ⟨digits, n, hd, hv, -⟩
  obtain ⟨hne, hv⟩ := value_eq_some.mp hv
  rcases h with rfl | rfl | rfl
  · rcases hd with rfl | hd
    · exact hne rfl
    · cases hd
  · rcases hd with rfl | hd
    · cases hv
    · cases hd
      exact hne rfl
  · rcases hd with rfl | hd
    · cases hv
    · cases hd

/-- What parses are the numerals. -/
theorem fromStrRadix_isOk {cs : List Char} :
    (∃ v, fromStrRadix 16 cs = .ok v) ↔ HexNumeral cs := by
  unfold fromStrRadix
  by_cases hnil : cs = []
  · rw [if_pos hnil]
    refine iff_of_false ?_ (not_hexNumeral_sign (.inl hnil))
    rintro ⟨v, hv⟩
    cases hv
  · rw [if_neg hnil]
    by_cases hsign : cs = ['+'] ∨ cs = ['-']
    · rw [if_pos hsign]
      refine iff_of_false ?_ (not_hexNumeral_sign (.inr hsign))
      rintro ⟨v, hv⟩
      cases hv
    · rw [if_neg hsign, hexNumeral_iff hnil fun h => hsign (.inl h)]
      constructor
      · rintro ⟨v, hv⟩
        cases hd : radixDigits 16
            (if cs.head? = some '+' then cs.tail else cs) 0 with
        | error e =>
          rw [hd] at hv
          cases hv
        | ok m =>
          have hok := (radixDigits_eq_ok (by decide)).mp hd
          exact ⟨m, hok.2, hok.1⟩
      · rintro ⟨n, hn, hv⟩
        rw [(radixDigits_eq_ok (by decide)).mpr ⟨hv, hn⟩]
        exact ⟨UInt64.ofNat n, rfl⟩

/-- No digit is white space. -/
theorem whitespace_no_digit {c : Char} (h : (Hex.digitValue c).isSome) :
    isWhitespace c = false := by
  have hrange : 48 ≤ c.toNat ∧ c.toNat ≤ 102 := by
    unfold Hex.digitValue at h
    split_ifs at h
    · omega
    · omega
    · omega
    · cases h
  unfold isWhitespace
  simp only [Bool.or_eq_false_iff, Bool.and_eq_false_iff,
    decide_eq_false_iff_not, beq_eq_false_iff_ne]
  omega

/-- A numeral has no white space. -/
theorem HexNumeral.not_whitespace {cs : List Char} (h : HexNumeral cs) :
    ∀ c ∈ cs, isWhitespace c = false := by
  obtain ⟨digits, n, hd, hv, -⟩ := h
  have hdigit : ∀ c ∈ digits, isWhitespace c = false := by
    intro c hc
    have hsome := Hex.isSome_of_valueFrom (value_eq_some.mp hv).2 c hc
    exact whitespace_no_digit hsome
  intro c hc
  rcases hd with rfl | rfl
  · exact hdigit c hc
  · rcases List.mem_cons.mp hc with rfl | hc
    · rfl
    · exact hdigit c hc

-- ============================================================ agreement

/-- What is parsed of an address: what follows its prefix, if it has
one. -/
def hexPart (address : List Char) : List Char :=
  (afterHexPrefix address).getD address

/-- A numeral with white space at its end. -/
def BlankAfterNumeral (address : List Char) : Prop :=
  (hexPart address).rdropWhile isWhitespace ≠ hexPart address ∧
  HexNumeral ((hexPart address).rdropWhile isWhitespace)

/-- The label and the address that is read, of what the handler sends. -/
def AddressesAgree (address : List Char) : Prop :=
  (labelAddress (normalizeHex address)).toOption
    = (parseAddress (normalizeHex address)).toOption

/-- A normalised address has a prefix. -/
theorem normalizeHex_eq (address : List Char) :
    ∃ x, (x = 'x' ∨ x = 'X') ∧
      normalizeHex address = '0' :: x :: hexPart address := by
  have hdrop {x : Char} (h : ['0', x].isPrefixOf address = true) :
      address = '0' :: x :: address.drop 2 := by
    obtain ⟨rest, rfl⟩ := List.isPrefixOf_iff_prefix.mp h
    rfl
  unfold normalizeHex hexPart afterHexPrefix stripPrefix
  by_cases hx : ['0', 'x'].isPrefixOf address = true
  · refine ⟨'x', .inl rfl, ?_⟩
    rw [if_pos (by rw [hx]; rfl), if_pos hx]
    exact hdrop hx
  · rw [if_neg hx]
    by_cases hX : ['0', 'X'].isPrefixOf address = true
    · refine ⟨'X', .inr rfl, ?_⟩
      rw [if_pos (by rw [hX, Bool.or_true]), if_pos hX]
      exact hdrop hX
    · refine ⟨'x', .inl rfl, ?_⟩
      rw [if_neg (by simp [hx, hX]), if_neg hX]
      rfl

/-- The prefix comes off. -/
theorem afterHexPrefix_cons {x : Char} (hx : x = 'x' ∨ x = 'X')
    (rest : List Char) : afterHexPrefix ('0' :: x :: rest) = some rest := by
  rcases hx with rfl | rfl <;> rfl

/-- Trimming leaves the prefix. -/
theorem trim_prefixed {x : Char} (hx : x = 'x' ∨ x = 'X')
    (rest : List Char) :
    trim ('0' :: x :: rest)
      = '0' :: x :: rest.rdropWhile isWhitespace := by
  have hfront : ('0' :: x :: rest).dropWhile isWhitespace
      = '0' :: x :: rest := List.dropWhile_cons_of_neg (by decide)
  have hx' : isWhitespace x = false := by rcases hx with rfl | rfl <;> rfl
  rw [trim, hfront]
  induction rest using List.reverseRecOn with
  | nil =>
    have hx : ¬ isWhitespace x = true := Bool.eq_false_iff.mp hx'
    exact List.rdropWhile_concat_neg _ ['0'] x hx
  | append_singleton rest c ih =>
    have hcons : '0' :: x :: (rest ++ [c]) = ('0' :: x :: rest) ++ [c] := rfl
    rw [hcons, List.rdropWhile_concat, List.rdropWhile_concat]
    split_ifs
    · exact ih (List.dropWhile_cons_of_neg (by decide))
    · rfl

/-- The address a label shows. -/
theorem labelAddress_normalized (address : List Char) :
    labelAddress (normalizeHex address)
      = fromStrRadix 16 (hexPart address) := by
  obtain ⟨x, hx, hn⟩ := normalizeHex_eq address
  rw [hn, labelAddress, afterHexPrefix_cons hx]
  rfl

theorem toOption_mapError {ε ε' α : Type} (f : ε → ε') (e : Except ε α) :
    (e.mapError f).toOption = e.toOption := by
  cases e <;> rfl

/-- The address that is read. -/
theorem parseAddress_normalized (address : List Char) :
    (parseAddress (normalizeHex address)).toOption
      = (fromStrRadix 16
          ((hexPart address).rdropWhile isWhitespace)).toOption := by
  obtain ⟨x, hx, hn⟩ := normalizeHex_eq address
  rw [hn, parseAddress, trim_prefixed hx, afterHexPrefix_cons hx,
    toOption_mapError]

/-- What parses, and what does not. -/
theorem toOption_fromStrRadix (cs : List Char) :
    (fromStrRadix 16 cs).toOption = none ↔ ¬ HexNumeral cs := by
  rw [← fromStrRadix_isOk]
  cases fromStrRadix 16 cs with
  | error e => simp [Except.toOption]
  | ok v => simp [Except.toOption]

/-- The two parsers agree on every address but a numeral with white space
at its end. -/
theorem addresses_agree_iff (address : List Char) :
    AddressesAgree address ↔ ¬ BlankAfterNumeral address := by
  unfold AddressesAgree BlankAfterNumeral
  rw [labelAddress_normalized, parseAddress_normalized]
  by_cases hsame : (hexPart address).rdropWhile isWhitespace
      = hexPart address
  · rw [hsame]
    exact iff_of_true rfl fun h => h.1 rfl
  · -- the handler sees the white space
    have hlabel : (fromStrRadix 16 (hexPart address)).toOption = none := by
      rw [toOption_fromStrRadix]
      intro hnum
      apply hsame
      rw [List.rdropWhile_eq_self_iff]
      intro hne
      rw [hnum.not_whitespace _ (List.getLast_mem hne)]
      exact Bool.false_ne_true
    rw [hlabel, eq_comm, toOption_fromStrRadix]
    constructor
    · exact fun h hblank => h hblank.2
    · exact fun h hnum => h ⟨hsame, hnum⟩

/-- The read is performed and the handler cannot label it. -/
theorem blank_address_read :
    ¬ ∀ address, AddressesAgree address := by
  intro hall
  have h := hall "1000 ".toList
  exact absurd h (by unfold AddressesAgree; decide)

/-- What is read at an address on which the two agree is shown, labelled
with the address it was read from. -/
theorem read_is_shown {address : List Char} {count : Int} {read : MemoryRead}
    {engineRead : UInt64 → Nat → Except BackendError MemoryRead}
    (hagree : AddressesAgree address)
    (hread : windbgReadMemory engineRead (normalizeHex address) count
      = .ok read) (hne : read.data.isEmpty = false) :
    ∃ addr, engineRead addr (max count 0).toNat = .ok read ∧
      handleReadMemory (.ok ()) (.ok address) (.ok count)
          (some (windbgReadMemory engineRead))
        = .ok (((RespBuilder.new.set "address" (.str read.address)).set
            "bytes_read" (.num read.data.length)).set "hex_dump"
            (.str (formatHexDump read.data addr))).build := by
  unfold AddressesAgree at hagree
  cases hp : parseAddress (normalizeHex address) with
  | error e =>
    rw [windbgReadMemory, hp] at hread
    cases hread
  | ok addr =>
    rw [hp] at hagree
    have hlabel : labelAddress (normalizeHex address) = .ok addr := by
      cases hl : labelAddress (normalizeHex address) with
      | error e =>
        rw [hl] at hagree
        cases hagree
      | ok v =>
        rw [hl] at hagree
        cases hagree
        rfl
    have hengine : engineRead addr (max count 0).toNat = .ok read := by
      rw [windbgReadMemory, hp] at hread
      exact hread
    refine ⟨addr, hengine, ?_⟩
    show readAnswer (normalizeHex address)
      (windbgReadMemory engineRead (normalizeHex address) count) = _
    rw [hread]
    show memoryAnswer (normalizeHex address) read = _
    rw [memoryAnswer, hne, if_neg Bool.false_ne_true, hlabel]

end DebugMcp
