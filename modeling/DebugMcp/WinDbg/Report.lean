/-
The report of `analyze`, cut to 32 KiB.

A report over the limit is cut at a character boundary: the search goes
back from the limit, byte by byte, until the byte there begins a
character. `truncate` panics at any other index, so the search must end
at a boundary. UTF-8 is self-synchronizing, which makes the bytes tell
(`isCode_utf8`), and the boundary that is found is where the longest
prefix of the report that fits the limit ends: `report_truncated`.

A `String` of the source is a `String` here, with its bytes; `none` is a
panic.
-/
import DebugMcp.Dap.Framing
import DebugMcp.Lib.SelfSync
import Mathlib.Data.Nat.PSub

namespace DebugMcp

open SelfSync

-- ============================================================= strings

/-- `as_bytes`. -/
def asBytes (s : String) : Bytes := utf8 s.toList

/-- Does the byte begin a character? As a signed number, it is at least
-64. -/
def isUtf8CharBoundary (b : UInt8) : Bool :=
  b.toNat < 128 || 192 ≤ b.toNat

/-- `str::is_char_boundary`. -/
def isCharBoundary (s : String) (index : Nat) : Bool :=
  if index = 0 then true
  else match (asBytes s)[index]? with
    | none => index = (asBytes s).length
    | some b => isUtf8CharBoundary b

/-- `String::truncate`: it panics within a character, and does nothing
past the end. -/
def truncate (s : String) (newLen : Nat) : Option String :=
  if newLen ≤ (asBytes s).length then
    if isCharBoundary s newLen then
      (decodeUtf8 ((asBytes s).take newLen)).map String.ofList
    else none
  else some s

/-- The size of a string is the number of its bytes. -/
theorem utf8ByteSize_ofList (cs : List Char) :
    (String.ofList cs).utf8ByteSize = (utf8 cs).length := by
  rw [← String.size_toByteArray, String.toByteArray_ofList]
  exact List.size_toByteArray

-- ============================================================== UTF-8

/-- A byte that is no first byte. -/
private theorem not_boundary {n : Nat} (hlo : 128 ≤ n) (hhi : n < 192) :
    isUtf8CharBoundary (UInt8.ofNat n) = false := by
  have hn : (UInt8.ofNat n).toNat = n := by
    rw [UInt8.toNat_ofNat', Nat.mod_eq_of_lt (by omega)]
  simp only [isUtf8CharBoundary, hn, Bool.or_eq_false_iff,
    decide_eq_false_iff_not]
  omega

/-- A first byte: of a character of one byte, or of more. -/
private theorem boundary_of {n : Nat} (hn : n < 256)
    (h : n < 128 ∨ 192 ≤ n) :
    isUtf8CharBoundary (UInt8.ofNat n) = true := by
  have hn : (UInt8.ofNat n).toNat = n := by
    rw [UInt8.toNat_ofNat', Nat.mod_eq_of_lt hn]
  simpa only [isUtf8CharBoundary, hn, Bool.or_eq_true,
    decide_eq_true_eq] using h

/-- UTF-8 is self-synchronizing. -/
theorem isCode_utf8 : IsCode String.utf8EncodeChar isUtf8CharBoundary := by
  intro c
  unfold String.utf8EncodeChar
  dsimp only
  split
  · exact ⟨_, _, rfl, boundary_of (by omega) (by omega), nofun⟩
  split
  · refine ⟨_, _, rfl, boundary_of (by omega) (by omega), ?_⟩
    exact List.forall_mem_singleton.mpr
      (not_boundary (by omega) (by omega))
  split
  · refine ⟨_, _, rfl, boundary_of (by omega) (by omega), ?_⟩
    exact List.forall_mem_cons.mpr
      ⟨not_boundary (by omega) (by omega), List.forall_mem_singleton.mpr
        (not_boundary (by omega) (by omega))⟩
  · refine ⟨_, _, rfl, boundary_of (by omega) (by omega), ?_⟩
    exact List.forall_mem_cons.mpr
      ⟨not_boundary (by omega) (by omega), List.forall_mem_cons.mpr
        ⟨not_boundary (by omega) (by omega),
          List.forall_mem_singleton.mpr
            (not_boundary (by omega) (by omega))⟩⟩

/-- In a string, `is_char_boundary` is right: it holds exactly where a
character begins, and at the end. -/
theorem isCharBoundary_eq (s : String) (index : Nat) :
    isCharBoundary s index
      = isBoundary isUtf8CharBoundary (asBytes s) index := by
  unfold isCharBoundary
  by_cases h0 : index = 0
  · subst h0
    rw [if_pos rfl]
    exact (isCode_utf8.isBoundary_zero s.toList).symm
  · rw [if_neg h0, isBoundary]
    cases (asBytes s)[index]? <;> rfl

-- ============================================================== report

/-- The limit, in bytes. -/
def maxOutputSize : Nat := 32768

/-- The truncation note. -/
def truncationNote : String := "\n\n... (output truncated at 32KB)"

/-- The search back for a boundary; `none` if `cut -= 1` underflows. -/
def searchBack (output : String) (cut : Nat) : Option Nat :=
  if cut > 0 && !isCharBoundary output cut then
    match _h : cut.ppred with
    | some cut => searchBack output cut
    | none => none
  else some cut
termination_by cut
decreasing_by exact (Nat.ppred_eq_some.mp _h) ▸ Nat.lt_succ_self _

/-- `truncate_output`. -/
def truncateOutput (output : String) : Option String :=
  if output.utf8ByteSize > maxOutputSize then do
    let cut ← searchBack output maxOutputSize
    let output ← truncate output cut
    return output ++ truncationNote
  else some output

/-- The search finds the last boundary up to where it starts. -/
theorem searchBack_eq (output : String) (cut : Nat) :
    searchBack output cut = some (Nat.findGreatest
      (fun i => isBoundary isUtf8CharBoundary (asBytes output) i = true)
      cut) := by
  induction cut with
  | zero =>
      rw [searchBack]
      rfl
  | succ cut ih =>
      rw [searchBack, Nat.findGreatest_succ, isCharBoundary_eq]
      cases hb : isBoundary isUtf8CharBoundary (asBytes output)
          (cut + 1) with
      | true => rfl
      | false =>
          have hpos : (decide (cut + 1 > 0) && !false) = true := by
            rw [decide_eq_true (Nat.succ_pos cut)]
            rfl
          rw [if_pos hpos, if_neg nofun, ← ih]
          rfl

/-- Cutting a string where a prefix of its characters ends leaves that
prefix. -/
theorem truncate_prefix {s : String} {kept : List Char}
    (hkept : kept <+: s.toList) :
    truncate s (utf8 kept).length = some (String.ofList kept) := by
  have hbound : isCharBoundary s (utf8 kept).length = true := by
    rw [isCharBoundary_eq]
    exact (isCode_utf8.isBoundary_iff s.toList _).mpr ⟨kept, hkept, rfl⟩
  obtain ⟨rest, hrest⟩ := hkept
  have hbytes : asBytes s = utf8 kept ++ utf8 rest := by
    rw [asBytes, ← hrest, utf8_append]
  have hle : (utf8 kept).length ≤ (asBytes s).length := by
    rw [hbytes, List.length_append]
    exact Nat.le_add_right _ _
  unfold truncate
  rw [if_pos hle, if_pos hbound, hbytes, List.take_left,
    decodeUtf8_utf8]
  rfl

/-- For every report: the search ends, without underflow, at a character
boundary; the longest prefix of the report that has at most the limit of
bytes ends there; and the report is returned unchanged when it has at
most the limit of bytes, that prefix and the note otherwise. -/
theorem report_truncated (output : String) :
    ∃ cut kept, searchBack output maxOutputSize = some cut ∧
      isCharBoundary output cut = true ∧
      cut = (String.ofList kept).utf8ByteSize ∧
      LongestPrefix
        (fun t => (String.ofList t).utf8ByteSize ≤ maxOutputSize)
        kept output.toList ∧
      truncateOutput output = some
        (if output.utf8ByteSize ≤ maxOutputSize then output
          else String.ofList kept ++ truncationNote) := by
  obtain ⟨kept, hlong, hcut⟩ :=
    isCode_utf8.longestPrefix_of_boundary output.toList maxOutputSize
  have hsearch : searchBack output maxOutputSize
      = some (utf8 kept).length :=
    (searchBack_eq output maxOutputSize).trans (congrArg some hcut.symm)
  refine ⟨(utf8 kept).length, kept, hsearch, ?_,
    (utf8ByteSize_ofList kept).symm, ?_, ?_⟩
  · rw [isCharBoundary_eq]
    exact (isCode_utf8.isBoundary_iff output.toList _).mpr
      ⟨kept, hlong.isPrefix, rfl⟩
  · simp only [utf8ByteSize_ofList]
    exact hlong
  · unfold truncateOutput
    by_cases hfits : output.utf8ByteSize ≤ maxOutputSize
    · rw [if_neg (Nat.not_lt.mpr hfits), if_pos hfits]
    · rw [if_pos (Nat.not_le.mp hfits), if_neg hfits, hsearch]
      simp only [Option.bind_eq_bind, Option.bind_some,
        truncate_prefix hlong.isPrefix]
      rfl

end DebugMcp
