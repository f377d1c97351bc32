/-
Framed streams.

A reader takes what it understands off the front of a stream, and says
what it took or why it failed. A frame *delimits* a value when the
reader, given the frame and anything after it, takes exactly the frame.
Delimiting frames can be written one after another and read back one
after another: no frame's content matters to where the next one begins.
-/
import Mathlib.Data.List.Forall2

namespace Framing

variable {β ε α : Type}

/-- A reader: what it took off the stream, and what it left. -/
abbrev Reader (β ε α : Type) : Type := List β → Except ε α × List β

/-- Read `n` times. -/
def readMany (read : Reader β ε α) :
    Nat → List β → List (Except ε α) × List β
  | 0, s => ([], s)
  | n + 1, s =>
      let (r, s) := read s
      let (rs, s) := readMany read n s
      (r :: rs, s)

/-- Whatever follows the frame, the reader takes the frame and nothing
else. -/
def Delimits (read : Reader β ε α) (frame : List β) (a : α) : Prop :=
  ∀ rest, read (frame ++ rest) = (.ok a, rest)

variable {read : Reader β ε α}

theorem readMany_succ (n : Nat) (s : List β) :
    readMany read (n + 1) s
      = ((read s).1 :: (readMany read n (read s).2).1,
        (readMany read n (read s).2).2) := rfl

/-- Delimiting frames are read back in order, and the stream is left
where the last of them ends. -/
theorem readMany_flatten {frames : List (List β)} {as : List α}
    (h : List.Forall₂ (Delimits read) frames as) (rest : List β) :
    readMany read as.length (frames.flatten ++ rest)
      = (as.map .ok, rest) := by
  induction h with
  | nil => rfl
  | cons hd _ ih =>
      rw [List.flatten_cons, List.append_assoc, List.length_cons,
        readMany_succ, hd, ih]
      rfl

/-- Reading on from where reading stopped. -/
theorem readMany_add (m n : Nat) (s : List β) :
    readMany read (m + n) s
      = ((readMany read m s).1
          ++ (readMany read n (readMany read m s).2).1,
        (readMany read n (readMany read m s).2).2) := by
  induction m generalizing s with
  | zero => rw [Nat.zero_add, readMany, List.nil_append]
  | succ m ih =>
      rw [Nat.succ_add, readMany_succ, readMany_succ, ih]
      rfl

end Framing
