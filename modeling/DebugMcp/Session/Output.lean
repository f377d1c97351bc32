/-
The session's output buffer: captured output under a 1 MiB cap, oldest
entries evicted first, with a truncation flag a drain turns into a
marker entry.

The buffer carries its accounting as fields: `size` is the byte total of
the entries, and it never exceeds the cap. An `append` that broke either
could not be written.
-/
import Mathlib.Algebra.BigOperators.Group.List.Basic
import Mathlib.Algebra.Order.Ring.Int

namespace DebugMcp

/-- One captured output line; `category` is opaque. -/
structure OutputEntry where
  category : String
  text : String
  deriving DecidableEq

namespace OutputEntry

/-- The bytes an entry counts for. -/
def bytes (e : OutputEntry) : Nat :=
  e.category.utf8ByteSize + e.text.utf8ByteSize

/-- The marker a drain prepends after an eviction. -/
def marker : OutputEntry := ⟨"console", "[output truncated]"⟩

end OutputEntry

/-- The byte total of a list of entries. -/
def totalBytes (es : List OutputEntry) : Nat :=
  (es.map OutputEntry.bytes).sum

@[simp] theorem totalBytes_nil : totalBytes [] = 0 := rfl

@[simp] theorem totalBytes_cons (e : OutputEntry)
    (es : List OutputEntry) :
    totalBytes (e :: es) = e.bytes + totalBytes es := by
  simp [totalBytes]

@[simp] theorem totalBytes_append (es fs : List OutputEntry) :
    totalBytes (es ++ fs) = totalBytes es + totalBytes fs := by
  simp [totalBytes]

/-- The cap on buffered bytes. -/
def maxSize : Nat := 1048576

/-- The buffer behind its lock. -/
structure OutputBuffer where
  entries : List OutputEntry
  size : Nat
  truncated : Bool
  size_eq : size = totalBytes entries
  size_le : size ≤ maxSize
  deriving DecidableEq

namespace OutputBuffer

/-- An empty buffer. -/
def new : OutputBuffer := ⟨[], 0, false, rfl, Nat.zero_le _⟩

instance : Inhabited OutputBuffer := ⟨new⟩

/-- The eviction loop: drop oldest entries while the total exceeds the
cap. Returns the entries, the total and the truncation flag. -/
def evict : List OutputEntry → Nat → Bool →
    List OutputEntry × Nat × Bool
  | [], size, truncated => ([], size, truncated)
  | e :: es, size, truncated =>
      if size > maxSize then evict es (size - e.bytes) true
      else (e :: es, size, truncated)

/-- Eviction keeps the accounting. -/
theorem evict_size_eq {es : List OutputEntry} {size : Nat} {t : Bool}
    (h : size = totalBytes es) :
    (evict es size t).2.1 = totalBytes (evict es size t).1 := by
  induction es generalizing size t with
  | nil => exact h
  | cons e es ih =>
      rw [evict]
      split
      · apply ih
        rw [h, totalBytes_cons, Nat.add_sub_cancel_left]
      · exact h

/-- Eviction ends under the cap: an empty buffer counts nothing. -/
theorem evict_size_le {es : List OutputEntry} {size : Nat} {t : Bool}
    (h : size = totalBytes es) : (evict es size t).2.1 ≤ maxSize := by
  induction es generalizing size t with
  | nil =>
      rw [totalBytes_nil] at h
      subst h
      exact Nat.zero_le _
  | cons e es ih =>
      rw [evict]
      split
      · apply ih
        rw [h, totalBytes_cons, Nat.add_sub_cancel_left]
      · exact Nat.le_of_not_lt ‹_›

/-- Append one entry, then evict. -/
def append (b : OutputBuffer) (category text : String) : OutputBuffer :=
  let entry : OutputEntry := ⟨category, text⟩
  have h : b.size + entry.bytes = totalBytes (b.entries ++ [entry]) := by
    rw [totalBytes_append, b.size_eq]
    simp
  let r := evict (b.entries ++ [entry]) (b.size + entry.bytes) b.truncated
  ⟨r.1, r.2.1, r.2.2, evict_size_eq h, evict_size_le h⟩

/-- Whether a drain would return nothing. -/
def isClear (b : OutputBuffer) : Bool :=
  b.entries.isEmpty && !b.truncated

/-- Return the buffered entries, the marker first when entries were
evicted, and clear the buffer. -/
def drain (b : OutputBuffer) : List OutputEntry × OutputBuffer :=
  if b.isClear then ([], b)
  else
    ((if b.truncated then [.marker] else []) ++ b.entries,
      ⟨[], 0, false, rfl, Nat.zero_le _⟩)

/-- A drain of a clear buffer changes nothing. -/
theorem drain_of_isClear {b : OutputBuffer} (h : b.isClear = true) :
    b.drain = ([], b) := by
  rw [drain, if_pos h]

/-- A drained buffer is clear: a second drain returns nothing. -/
theorem isClear_drain (b : OutputBuffer) : b.drain.2.isClear = true := by
  rw [drain]
  split
  · assumption
  · rfl

end OutputBuffer

end DebugMcp
