/-
The hex dump, and reading it back.

A reader that knows only the layout of a row (the label up to the colon,
the columns, the gutter) gets from the dump the address of every row, the
bytes and the text gutters: `hex_dump_reads_back`.
-/
import DebugMcp.Lib.Hex
import Mathlib.Data.List.Basic

namespace DebugMcp

-- ================================================================= dump

/-- `0x{:08x}`. -/
def addressLabel (addr : UInt64) : List Char :=
  '0' :: 'x' :: Hex.padded 8 addr.toNat

/-- A byte column, three spaces when the byte is missing. -/
def byteColumn : Option UInt8 → List Char
  | some b => Hex.padded 2 b.toNat ++ [' ']
  | none => [' ', ' ', ' ']

/-- The columns of a row, with one more space before the ninth. -/
def hexColumns (row : List UInt8) : List Char :=
  (List.range 16).flatMap fun i =>
    (if i = 8 then [' '] else []) ++ byteColumn row[i]?

/-- Is the byte printable ASCII? -/
def isPrintable (b : UInt8) : Bool := 0x20 ≤ b && b ≤ 0x7e

/-- A position of the gutter, a space when the byte is missing. -/
def gutterChar : Option UInt8 → Char
  | some b => if isPrintable b then Char.ofNat b.toNat else '.'
  | none => ' '

/-- The gutter of a row. -/
def gutter (row : List UInt8) : List Char :=
  (List.range 16).map fun i => gutterChar row[i]?

/-- A row of the dump. -/
def hexRow (row : List UInt8) (addr : UInt64) : List Char :=
  addressLabel addr ++ [':', ' '] ++ hexColumns row ++ [' ', '|']
    ++ gutter row ++ ['|']

/-- The loop over the rows, from an offset on. -/
def dumpFrom (data : List UInt8) (startAddr : UInt64) (offset : Nat) :
    List Char :=
  if offset < data.length then
    hexRow ((data.drop offset).take 16) (startAddr + UInt64.ofNat offset)
      ++ (if offset + 16 < data.length then ['\n'] else [])
      ++ dumpFrom data startAddr (offset + 16)
  else []
termination_by data.length - offset

/-- `format_hex_dump`. -/
def formatHexDump (data : List UInt8) (startAddr : UInt64) : String :=
  String.ofList (dumpFrom data startAddr 0)

-- =============================================================== reader

/-- What a row says. -/
structure DumpRow where
  address : Nat
  bytes : List UInt8
  gutter : List Char
  deriving DecidableEq

/-- Read the two digits of a column; two spaces are a missing byte. -/
def readColumn (cs : List Char) : Option (List UInt8) :=
  if cs = [' ', ' '] then some []
  else (Hex.value cs).map fun n => [UInt8.ofNat n]

/-- Read the columns, each at its place. -/
def readColumns (cs : List Char) : Option (List UInt8) :=
  ((List.range 16).mapM fun i =>
    readColumn ((cs.drop (3 * i + if i < 8 then 0 else 1)).take 2)).map
      List.flatten

/-- Read a row: the label ends at the colon, and all the rest has its
place from there on. -/
def readRow (cs : List Char) : Option DumpRow :=
  let label := cs.takeWhile (· ≠ ':')
  let rest := cs.drop label.length
  if label.take 2 = ['0', 'x'] ∧ rest.length = 70 ∧
      rest.take 2 = [':', ' '] ∧ (rest.drop 51).take 2 = [' ', '|'] ∧
      rest.drop 69 = ['|'] then
    (Hex.value (label.drop 2)).bind fun address =>
      (readColumns ((rest.drop 2).take 49)).map fun bytes =>
        ⟨address, bytes, (rest.drop 53).take 16⟩
  else none

/-- The rows of a dump. -/
def dumpRows (dump : String) : List (List Char) :=
  if dump.toList = [] then [] else dump.toList.splitOn '\n'

-- ============================================================ one row

variable (row : List UInt8) (addr : UInt64)

theorem length_byteColumn (b : Option UInt8) : (byteColumn b).length = 3 := by
  cases b with
  | none => rfl
  | some b =>
    rw [byteColumn, List.length_append,
      Hex.length_padded (by decide) b.toNat_lt]
    rfl

theorem length_gutter : (gutter row).length = 16 := by
  rw [gutter, List.length_map, List.length_range]

/-- A column is two digits, or two spaces, and a space. -/
theorem readColumn_byteColumn (b : Option UInt8) :
    readColumn ((byteColumn b).take 2) = some b.toList := by
  cases b with
  | none => rfl
  | some b =>
    have hlen : (Hex.padded 2 b.toNat).length = 2 :=
      Hex.length_padded (by decide) b.toNat_lt
    have htake : (byteColumn (some b)).take 2 = Hex.padded 2 b.toNat := by
      rw [byteColumn, List.take_left' hlen]
    have hne : Hex.padded 2 b.toNat ≠ [' ', ' '] := by
      intro h
      have hd := Hex.digitValue_of_mem_padded (w := 2) (n := b.toNat)
        (c := ' ') (by rw [h]; exact List.mem_cons_self)
      exact absurd hd (by decide)
    rw [htake, readColumn, if_neg hne, Hex.value_padded]
    simp

/-- Blocks of one length: the block at an index starts at the multiple. -/
theorem block_flatMap {α β : Type} {f : α → List β} {w : Nat}
    (hf : ∀ a, (f a).length = w) {l : List α} {i : Nat} {a : α}
    (hi : l[i]? = some a) : ((l.flatMap f).drop (w * i)).take w = f a := by
  induction l generalizing i with
  | nil => cases hi
  | cons b l ih =>
    rw [List.flatMap_cons]
    cases i with
    | zero =>
      cases hi
      exact List.take_left' (hf _)
    | succ i =>
      have hdrop : (f b ++ l.flatMap f).drop (w * (i + 1))
          = (l.flatMap f).drop (w * i) := by
        rw [Nat.mul_succ, Nat.add_comm, ← List.drop_drop,
          List.drop_left' (hf b)]
      rw [hdrop]
      exact ih hi

/-- The columns are two halves with a space between. -/
theorem hexColumns_eq :
    hexColumns row = (List.range 8).flatMap (fun i => byteColumn row[i]?)
      ++ ' ' :: (List.range 8).flatMap (fun i => byteColumn row[8 + i]?) := by
  simp [hexColumns, List.range, List.range.loop]

theorem length_columns (f : Nat → Option UInt8) :
    ((List.range 8).flatMap fun i => byteColumn (f i)).length = 24 := by
  simp [length_byteColumn, List.range, List.range.loop]

theorem length_hexColumns : (hexColumns row).length = 49 := by
  rw [hexColumns_eq, List.length_append, List.length_cons, length_columns,
    length_columns]

/-- Each column is at its place. -/
theorem column_at {i : Nat} (hi : i < 16) :
    ((hexColumns row).drop (3 * i + if i < 8 then 0 else 1)).take 2
      = (byteColumn row[i]?).take 2 := by
  have htake (cs : List Char) : cs.take 2 = (cs.take 3).take 2 := by
    rw [List.take_take]
    rfl
  rw [htake, hexColumns_eq]
  by_cases h8 : i < 8
  · have hlow := block_flatMap (f := fun i => byteColumn row[i]?)
      (fun i => length_byteColumn _) (List.getElem?_range h8)
    rw [if_pos h8, Nat.add_zero, List.drop_append_of_le_length,
      List.take_append_of_le_length, hlow]
    · rw [List.length_drop, length_columns]
      omega
    · rw [length_columns]
      omega
  · have hhigh := block_flatMap (f := fun i => byteColumn row[8 + i]?)
      (fun i => length_byteColumn _) (List.getElem?_range (i := i - 8)
        (show i - 8 < 8 by omega))
    have hplace : 3 * i + 1 = 24 + (3 * (i - 8) + 1) := by omega
    rw [if_neg h8, hplace, ← List.drop_drop,
      List.drop_left' (length_columns _), List.drop_succ_cons, hhigh,
      Nat.add_sub_cancel' (by omega)]

/-- What the positions of a row hold is the row. -/
theorem flatMap_getElem? (n : Nat) :
    (List.range n).flatMap (fun i => row[i]?.toList) = row.take n := by
  induction n with
  | zero => rfl
  | succ n ih =>
    rw [List.range_succ, List.flatMap_append, ih, List.take_add_one,
      List.flatMap_singleton]

/-- Reading parts that can all be read. -/
theorem mapM_eq_some {α β : Type} {f : α → Option β} {g : α → β}
    {l : List α} (h : ∀ a ∈ l, f a = some (g a)) :
    l.mapM f = some (l.map g) := by
  induction l with
  | nil => rfl
  | cons a l ih =>
    rw [List.mapM_cons, h a List.mem_cons_self,
      ih fun b hb => h b (List.mem_cons_of_mem a hb)]
    rfl

/-- The columns read back. -/
theorem readColumns_hexColumns (h : row.length ≤ 16) :
    readColumns (hexColumns row) = some row := by
  have hread : ∀ i ∈ List.range 16,
      readColumn (((hexColumns row).drop
          (3 * i + if i < 8 then 0 else 1)).take 2)
        = some (row[i]?.toList) := by
    intro i hi
    rw [column_at row (List.mem_range.mp hi), readColumn_byteColumn]
  rw [readColumns, mapM_eq_some hread, Option.map_some, ← List.flatMap_def,
    flatMap_getElem?, List.take_of_length_le h]

/-- Every character of a label is `0`, `x` or a digit. -/
theorem mem_addressLabel {c : Char} (h : c ∈ addressLabel addr) :
    c = 'x' ∨ (Hex.digitValue c).isSome := by
  rcases List.mem_cons.mp h with rfl | h
  · exact .inr rfl
  · rcases List.mem_cons.mp h with rfl | h
    · exact .inl rfl
    · exact .inr (Hex.digitValue_of_mem_padded h)

/-- The label ends at the first colon. -/
theorem takeWhile_label (cs : List Char) :
    (addressLabel addr ++ ':' :: cs).takeWhile (· ≠ ':')
      = addressLabel addr := by
  have hcolon : ∀ c ∈ addressLabel addr, decide (c ≠ ':') = true := by
    intro c hc
    rcases mem_addressLabel addr hc with rfl | hd
    · rfl
    · refine decide_eq_true ?_
      rintro rfl
      exact absurd hd (by decide)
  rw [List.takeWhile_append_of_pos hcolon, List.takeWhile_cons]
  simp

/-- What follows the label has every part at its place. -/
theorem row_places {cols gut : List Char} (hc : cols.length = 49)
    (hg : gut.length = 16) :
    let rest := ':' :: ' ' :: (cols ++ ' ' :: '|' :: (gut ++ ['|']))
    rest.length = 70 ∧ rest.drop 51 = ' ' :: '|' :: (gut ++ ['|']) ∧
      rest.drop 53 = gut ++ ['|'] ∧ rest.drop 69 = ['|'] := by
  have h49 : (cols ++ ' ' :: '|' :: (gut ++ ['|'])).drop 49
      = ' ' :: '|' :: (gut ++ ['|']) := List.drop_left' hc
  have h51 : (cols ++ ' ' :: '|' :: (gut ++ ['|'])).drop (49 + 2)
      = gut ++ ['|'] := by
    rw [← List.drop_drop, h49]
    rfl
  have h67 : (cols ++ ' ' :: '|' :: (gut ++ ['|'])).drop (51 + 16)
      = ['|'] := by
    rw [← List.drop_drop, h51]
    exact List.drop_left' hg
  refine ⟨?_, h49, h51, h67⟩
  simp [hc, hg]

/-- A row reads back. -/
theorem readRow_hexRow (h : row.length ≤ 16) :
    readRow (hexRow row addr) = some ⟨addr.toNat, row, gutter row⟩ := by
  have hrow : hexRow row addr = addressLabel addr ++ ':' :: (' ' ::
      (hexColumns row ++ ' ' :: '|' :: (gutter row ++ ['|']))) := by
    simp [hexRow]
  have hcols := length_hexColumns row
  have hgut := length_gutter row
  obtain ⟨hlen, h51, h53, h69⟩ := row_places hcols hgut
  have haddr : Hex.value ((addressLabel addr).drop 2) = some addr.toNat :=
    Hex.value_padded 8 addr.toNat
  have hread : ((':' :: ' ' :: (hexColumns row
      ++ ' ' :: '|' :: (gutter row ++ ['|']))).drop 2).take 49
      = hexColumns row := List.take_left' hcols
  rw [readRow, hrow, takeWhile_label, List.drop_left, h51,
    if_pos ⟨rfl, hlen, rfl, rfl, h69⟩, haddr, hread,
    readColumns_hexColumns row h, h53, List.take_left' hgut]
  rfl

-- ============================================================== all rows

/-- A column has no newline. -/
theorem newline_not_mem_byteColumn (b : Option UInt8) :
    '\n' ∉ byteColumn b := by
  intro h
  cases b with
  | none => exact absurd h (by decide)
  | some b =>
    rcases List.mem_append.mp h with h | h
    · exact absurd (Hex.digitValue_of_mem_padded h) (by decide)
    · exact absurd h (by decide)

/-- A gutter has no newline. -/
theorem gutterChar_ne_newline (b : Option UInt8) : gutterChar b ≠ '\n' := by
  cases b with
  | none => decide
  | some b =>
    have hall : ∀ n : Fin 256,
        gutterChar (some (UInt8.ofNat n.val)) ≠ '\n' := by decide +kernel
    have hb := hall ⟨b.toNat, b.toNat_lt⟩
    rwa [UInt8.ofNat_toNat] at hb

/-- A row is one line. -/
theorem newline_not_mem_hexRow : '\n' ∉ hexRow row addr := by
  intro h
  have hcols : '\n' ∉ hexColumns row := by
    intro h
    obtain ⟨i, -, h⟩ := List.mem_flatMap.mp h
    rcases List.mem_append.mp h with h | h
    · split_ifs at h
      · exact absurd h (by decide)
      · cases h
    · exact newline_not_mem_byteColumn _ h
  have hgut : '\n' ∉ gutter row := by
    intro h
    obtain ⟨i, -, h⟩ := List.mem_map.mp h
    exact gutterChar_ne_newline _ h
  have hlabel : '\n' ∉ addressLabel addr := by
    intro h
    rcases mem_addressLabel addr h with h | h
    · exact absurd h (by decide)
    · exact absurd h (by decide)
  simp only [hexRow, List.mem_append, or_assoc] at h
  rcases h with h | h | h | h | h | h
  · exact hlabel h
  · exact absurd h (by decide)
  · exact hcols h
  · exact absurd h (by decide)
  · exact hgut h
  · exact absurd h (by decide)

variable (data : List UInt8) (startAddr : UInt64)

/-- The block of 16 bytes a row shows. -/
def block (k : Nat) : List UInt8 := (data.drop (16 * k)).take 16

/-- How many blocks are started. -/
def blocks : Nat := (data.length + 15) / 16

/-- The row of a block. -/
def blockRow (k : Nat) : List Char :=
  hexRow (block data k) (startAddr + UInt64.ofNat (16 * k))

/-- The loop from block `k` on prints the rows from there, with newlines
between. -/
theorem dumpFrom_eq (n k : Nat) (h : blocks data = k + n) :
    dumpFrom data startAddr (16 * k) = ['\n'].intercalate
      ((List.range' k n).map (blockRow data startAddr)) := by
  unfold blocks at h
  induction n generalizing k with
  | zero =>
    rw [dumpFrom, if_neg (by omega)]
    rfl
  | succ n ih =>
    have hrec := ih (k + 1) (by omega)
    have hnext : 16 * k + 16 = 16 * (k + 1) := by omega
    rw [dumpFrom, if_pos (by omega), hnext, hrec, List.range'_succ,
      List.map_cons]
    by_cases hmore : 16 * (k + 1) < data.length
    · obtain ⟨m, rfl⟩ : ∃ m, n = m + 1 := ⟨n - 1, by omega⟩
      rw [if_pos hmore, List.range'_succ, List.map_cons,
        List.intercalate_cons_cons]
      rfl
    · have hn : n = 0 := by omega
      subst hn
      rw [if_neg hmore, List.append_nil]
      rfl

/-- The rows of the dump. -/
theorem dumpRows_formatHexDump :
    dumpRows (formatHexDump data startAddr)
      = (List.range (blocks data)).map (blockRow data startAddr) := by
  have hdump : (formatHexDump data startAddr).toList
      = ['\n'].intercalate
        ((List.range (blocks data)).map (blockRow data startAddr)) := by
    rw [formatHexDump, String.toList_ofList, List.range_eq_range']
    exact dumpFrom_eq data startAddr (blocks data) 0 (Nat.zero_add _).symm
  rw [dumpRows, hdump]
  cases hn : blocks data with
  | zero => rfl
  | succ n =>
    have hne : (List.range (n + 1)).map (blockRow data startAddr) ≠ [] := by
      simp
    have hfirst : ['\n'].intercalate
        ((List.range (n + 1)).map (blockRow data startAddr)) ≠ [] := by
      rw [List.range_eq_range', List.range'_succ, List.map_cons]
      cases n <;> exact fun h => (by cases h)
    rw [if_neg hfirst, List.splitOn_intercalate _ _ hne]
    intro l hl
    obtain ⟨k, -, rfl⟩ := List.mem_map.mp hl
    exact newline_not_mem_hexRow _ _

/-- The blocks are the data. -/
theorem flatMap_block (n : Nat) :
    (List.range n).flatMap (block data) = data.take (16 * n) := by
  induction n with
  | zero => rfl
  | succ n ih =>
    rw [List.range_succ, List.flatMap_append, ih, List.flatMap_singleton,
      block, Nat.mul_succ, List.take_add]

theorem length_block (k : Nat) : (block data k).length ≤ 16 :=
  List.length_take_le _ _

theorem block_getElem? {i : Nat} (k : Nat) (hi : i < 16) :
    (block data k)[i]? = data[16 * k + i]? := by
  rw [block, List.getElem?_take_of_lt hi, List.getElem?_drop]

/-- The address of a row, which may wrap. -/
theorem toNat_add_ofNat (n : Nat) :
    (addr + UInt64.ofNat n).toNat = (addr.toNat + n) % UInt64.size := by
  simp [UInt64.toNat_add]

-- =============================================================== result

/-- What a position of a gutter shows of a byte: a printable one as
itself, any other one as a dot, and a missing one as a space. -/
inductive Shows : Option UInt8 → Char → Prop
  | printable {b : UInt8} {c : Char} (hlow : 0x20 ≤ b.toNat)
      (hhigh : b.toNat ≤ 0x7e) (hc : c.toNat = b.toNat) : Shows (some b) c
  | other {b : UInt8} (h : b.toNat < 0x20 ∨ 0x7e < b.toNat) :
      Shows (some b) '.'
  | missing : Shows none ' '

theorem shows_gutterChar (b : Option UInt8) : Shows b (gutterChar b) := by
  cases b with
  | none => exact .missing
  | some b =>
    have hb : isPrintable b = true ↔ 0x20 ≤ b.toNat ∧ b.toNat ≤ 0x7e := by
      simp [isPrintable, UInt8.le_iff_toNat_le]
    show Shows (some b) (if isPrintable b then Char.ofNat b.toNat else '.')
    by_cases h : isPrintable b = true
    · obtain ⟨hlow, hhigh⟩ := hb.mp h
      rw [if_pos h]
      refine .printable hlow hhigh ?_
      have hvalid : b.toNat.isValidChar := .inl (by omega)
      unfold Char.ofNat
      rw [dif_pos hvalid]
      rfl
    · rw [if_neg h]
      rw [hb] at h
      exact .other (by omega)

/-- A dump that can be read back: one row for each started block of 16
bytes, each with its address and its gutter, and the bytes of all of them
are the data. -/
structure ReadsBack (dump : String) : Prop where
  count : (dumpRows dump).length = (data.length + 15) / 16
  rows : ∃ rows : List DumpRow,
    (dumpRows dump).map readRow = rows.map some ∧
    rows.flatMap DumpRow.bytes = data ∧
    ∀ k row, rows[k]? = some row →
      row.address = (startAddr.toNat + 16 * k) % UInt64.size ∧
      row.gutter.length = 16 ∧
      ∀ i < 16, ∃ c, row.gutter[i]? = some c ∧
        Shows data[16 * k + i]? c

/-- What is read from the row of a block. -/
def blockRead (k : Nat) : DumpRow where
  address := (startAddr + UInt64.ofNat (16 * k)).toNat
  bytes := block data k
  gutter := gutter (block data k)

theorem readRow_blockRow (k : Nat) :
    readRow (blockRow data startAddr k) = some (blockRead data startAddr k) :=
  readRow_hexRow (block data k) (startAddr + UInt64.ofNat (16 * k))
    (length_block data k)

/-- A dump reads back. -/
theorem hex_dump_reads_back :
    ReadsBack data startAddr (formatHexDump data startAddr) := by
  have hrows := dumpRows_formatHexDump data startAddr
  refine ⟨?_, (List.range (blocks data)).map (blockRead data startAddr),
    ?_, ?_, ?_⟩
  · rw [hrows, List.length_map, List.length_range, blocks]
  · simp only [hrows, List.map_map, Function.comp_def, readRow_blockRow]
  · rw [List.flatMap_map]
    show (List.range (blocks data)).flatMap (block data) = data
    rw [flatMap_block, List.take_of_length_le]
    unfold blocks
    omega
  · intro k row hk
    rw [List.getElem?_map] at hk
    obtain ⟨j, hj, rfl⟩ := Option.map_eq_some_iff.mp hk
    obtain ⟨hlt, hj⟩ := List.getElem?_eq_some_iff.mp hj
    rw [List.getElem_range] at hj
    subst hj
    refine ⟨toNat_add_ofNat startAddr (16 * k), length_gutter _, ?_⟩
    intro i hi
    refine ⟨_, ?_, shows_gutterChar _⟩
    show (gutter (block data k))[i]? = _
    rw [gutter, List.getElem?_map, List.getElem?_range hi, Option.map_some,
      block_getElem? data k hi]

example : formatHexDump [0x41, 0x42, 0x43, 0x00, 0xff] 0x1000
    = "0x00001000: 41 42 43 00 ff                                    "
      ++ "|ABC..           |" := by
  decide +kernel

end DebugMcp
