/-
The captured stderr of the adapter: a ring that keeps the newest bytes.

A write that is at least as large as the ring replaces what it holds; any
other is appended, and the oldest bytes are dropped. Either way what is
left is the tail of what was there with the write behind it (`written_eq`),
so over any sequence of writes the ring holds the tail of everything
written: `stderr_keeps_tail`. The background task that drains the pipe is
such a sequence (`stderr_drained`).

The lock makes every write one step. Subtractions and ranges are checked
where the code's are: `written` is `none` where the code would panic.
-/
import DebugMcp.Dap.Wire
import DebugMcp.Lib.Newest
import Mathlib.Data.Nat.PSub

namespace DebugMcp

open Newest

/-- The default capacity. -/
def defaultStderrCap : Nat := 4096

/-- The elements from `start` on; `none` if that is past the end. -/
def sliceFrom {α : Type} (data : List α) (start : Nat) :
    Option (List α) :=
  if start ≤ data.length then some (data.drop start) else none

/-- The ring: its bytes, oldest first, and its capacity. -/
structure StderrBuffer where
  inner : Bytes
  size : Nat
  size_pos : 0 < size
  inner_le : inner.length ≤ size
  deriving DecidableEq

namespace StderrBuffer

/-- `new`: an empty ring; size zero means the default. -/
def new (size : Nat) : StderrBuffer where
  inner := []
  size := if size = 0 then defaultStderrCap else size
  size_pos := by
    split
    · decide
    · exact Nat.pos_of_ne_zero ‹_›
  inner_le := Nat.zero_le _

/-- The configured capacity. -/
def capacity (b : StderrBuffer) : Nat := b.size

/-- The bytes `write` leaves in a ring that holds `buf`. -/
def written (size : Nat) (buf data : Bytes) : Option Bytes :=
  if data.length ≥ size then do
    let start ← data.length.psub size
    sliceFrom data start
  else
    let buf := buf ++ data
    if buf.length > size then do
      let excess ← buf.length.psub size
      -- `drain(0..excess)`
      sliceFrom buf excess
    else some buf

/-- The tail of a list is a slice of it. -/
theorem slice_tail {size : Nat} {data : Bytes} (h : size ≤ data.length) :
    (do
      let start ← data.length.psub size
      sliceFrom data start) = some (data.rtake size) := by
  have hsub : data.length.psub size = some (data.length - size) :=
    Nat.psub_eq_sub h
  have hle : data.length - size ≤ data.length := Nat.sub_le _ _
  simp only [hsub, Option.bind_eq_bind, Option.bind_some, sliceFrom,
    if_pos hle]
  rfl

/-- Whatever the fill level and the write: no subtraction underflows, no
range is out of bounds, and what is left is the tail. -/
theorem written_eq (size : Nat) (buf data : Bytes) :
    written size buf data = some ((buf ++ data).rtake size) := by
  unfold written
  by_cases hdata : data.length ≥ size
  · rw [if_pos hdata, slice_tail hdata, rtake_append_of_le buf data hdata]
  · rw [if_neg hdata]
    by_cases hbuf : (buf ++ data).length > size
    · rw [if_pos hbuf]
      exact slice_tail (Nat.le_of_lt hbuf)
    · rw [if_neg hbuf, rtake_of_length_le _ (Nat.not_lt.mp hbuf)]

/-- `write`: the input's length and the ring after it. -/
def write (b : StderrBuffer) (data : Bytes) : Nat × StderrBuffer :=
  have h := written_eq b.size b.inner data
  (data.length,
    { b with
      inner := (written b.size b.inner data).get
        (Option.isSome_of_eq_some h)
      inner_le := by
        simp only [h, Option.get_some, length_rtake]
        exact Nat.min_le_left _ _ })

/-- A write leaves the tail. -/
theorem write_inner (b : StderrBuffer) (data : Bytes) :
    (b.write data).2.inner = (b.inner ++ data).rtake b.capacity := by
  simp only [write, written_eq, Option.get_some, capacity]

/-- The ring after a sequence of writes. -/
def after (b : StderrBuffer) (writes : List Bytes) : StderrBuffer :=
  writes.foldl (fun b data => (b.write data).2) b

/-- No write changes the capacity. -/
theorem after_capacity (b : StderrBuffer) (writes : List Bytes) :
    (b.after writes).capacity = b.capacity := by
  induction writes generalizing b with
  | nil => rfl
  | cons data writes ih => exact ih _

/-- After any writes the ring holds the tail of what it held with the
writes behind it: what each write dropped was no part of that tail. -/
theorem after_inner (b : StderrBuffer) (writes : List Bytes) :
    (b.after writes).inner
      = (b.inner ++ writes.flatten).rtake b.capacity := by
  induction writes generalizing b with
  | nil =>
      rw [List.flatten_nil, List.append_nil]
      exact (rtake_of_length_le _ b.inner_le).symm
  | cons data writes ih =>
      have hstep : ((b.write data).2.after writes).inner
          = ((b.write data).2.inner ++ writes.flatten).rtake b.capacity :=
        ih _
      rw [write_inner, rtake_rtake_append, List.append_assoc] at hstep
      exact hstep

end StderrBuffer

/-- For every capacity and every sequence of writes, the ring holds the
last bytes of everything written, as many as its capacity or all there
are. -/
theorem stderr_keeps_tail (size : Nat) (writes : List Bytes) :
    ((StderrBuffer.new size).after writes).inner
        = writes.flatten.rtake
          (min (if size = 0 then 4096 else size) writes.flatten.length) ∧
      ((StderrBuffer.new size).after writes).inner.length
        = min (if size = 0 then 4096 else size) writes.flatten.length ∧
      ((StderrBuffer.new size).after writes).capacity
        = if size = 0 then 4096 else size := by
  have hinner := (StderrBuffer.new size).after_inner writes
  have hcap : (StderrBuffer.new size).capacity
      = if size = 0 then 4096 else size := rfl
  have hnil : (StderrBuffer.new size).inner = [] := rfl
  rw [hcap, hnil, List.nil_append] at hinner
  refine ⟨?_, ?_, ?_⟩
  · rw [hinner, rtake_min]
  · rw [hinner, length_rtake]
  · rw [StderrBuffer.after_capacity, hcap]

example : ((StderrBuffer.new 3).after [[1, 2], [], [3, 4], [5]]).inner
    = [3, 4, 5] := by decide

-- =============================================================== drain

/-- `spawn_stderr_drain`: every chunk read is written, until the end of
the pipe (an empty read) or an error. -/
def drainStderr (b : StderrBuffer) :
    List (Except Unit Bytes) → StderrBuffer
  | [] => b
  | .ok [] :: _ => b
  | .error () :: _ => b
  | .ok chunk :: reads => drainStderr (b.write chunk).2 reads

/-- The chunks that are read before the end of the pipe or an error. -/
def captured : List (Except Unit Bytes) → List Bytes
  | [] => []
  | .ok [] :: _ => []
  | .error () :: _ => []
  | .ok chunk :: reads => chunk :: captured reads

/-- The drain is the sequence of the writes of what it captures. -/
theorem drainStderr_eq (b : StderrBuffer)
    (reads : List (Except Unit Bytes)) :
    drainStderr b reads = b.after (captured reads) := by
  fun_induction drainStderr b reads with
  | case1 | case2 | case3 => rfl
  | case4 b chunk reads hne ih =>
      rw [captured, ih]
      · rfl
      · exact hne

/-- At any time the adapter's ring holds the last 4096 bytes that were
read from its stderr. -/
theorem stderr_drained (reads : List (Except Unit Bytes)) :
    (drainStderr (.new defaultStderrCap) reads).inner
      = (captured reads).flatten.rtake defaultStderrCap := by
  have hinner := (StderrBuffer.new defaultStderrCap).after_inner
    (captured reads)
  rw [drainStderr_eq, hinner]
  rfl

end DebugMcp
