/-
The output buffer keeps the newest output.

Over any sequence of appends and drains the entries are the longest suffix
of what was appended since the last drain that fits the cap, the eviction
never subtracts more than there is, and the flag tells whether anything
was evicted since then: `output_keeps_newest`.
-/
import DebugMcp.Lib.Newest
import DebugMcp.Session.Output

open Newest

namespace DebugMcp

/-- A call on the buffer. -/
inductive BufferOp
  | append (category text : String)
  | drain
  deriving DecidableEq

/-- What a call makes of the entries appended since the last drain. -/
def BufferOp.since (es : List OutputEntry) : BufferOp → List OutputEntry
  | .append category text => es ++ [⟨category, text⟩]
  | .drain => []

/-- The entries appended since the last drain. -/
def appendedSince (ops : List BufferOp) : List OutputEntry :=
  ops.foldl (fun es op => op.since es) []

/-- Entries that fit the cap. -/
abbrev Fits (es : List OutputEntry) : Prop := totalBytes es ≤ maxSize

theorem fits_nil : Fits [] := Nat.zero_le _

theorem prefixClosed_fits : PrefixClosed Fits := by
  intro es e h
  rw [Fits, totalBytes_append] at h
  exact Nat.le_of_add_right_le h

namespace OutputBuffer

/-- The buffer after a call. -/
def apply (b : OutputBuffer) : BufferOp → OutputBuffer
  | .append category text => b.append category text
  | .drain => b.drain.2

/-- The buffer after a sequence of calls. -/
def after (ops : List BufferOp) : OutputBuffer := ops.foldl apply new

/-- The eviction loop, failing when its subtraction underflows. -/
def evictChecked : List OutputEntry → Nat → Bool →
    Option (List OutputEntry × Nat × Bool)
  | [], size, truncated => some ([], size, truncated)
  | e :: es, size, truncated =>
      if size > maxSize then
        if e.bytes ≤ size then evictChecked es (size - e.bytes) true
        else none
      else some (e :: es, size, truncated)

/-- With the right size the loop never underflows. -/
theorem evictChecked_eq {es : List OutputEntry} {size : Nat} {t : Bool}
    (h : size = totalBytes es) :
    evictChecked es size t = some (evict es size t) := by
  induction es generalizing size t with
  | nil => rfl
  | cons e es ih =>
    rw [evictChecked, evict]
    rw [totalBytes_cons] at h
    split_ifs with hs hle
    · apply ih
      rw [h, Nat.add_sub_cancel_left]
    · exact absurd (h ▸ Nat.le_add_right _ _) hle
    · rfl

/-- The loop keeps the newest entries that fit, and sets the flag when it
drops one. -/
theorem evict_eq {es : List OutputEntry} {size : Nat} {t : Bool}
    (h : size = totalBytes es) :
    (evict es size t).1 = keepNewest Fits es ∧
    ((evict es size t).2.2 = true ↔ t = true ∨ keepNewest Fits es ≠ es) := by
  induction es generalizing size t with
  | nil => exact ⟨rfl, by simp [evict, keepNewest]⟩
  | cons e es ih =>
    by_cases hs : size > maxSize
    · have hnot : ¬ Fits (e :: es) := by
        rw [Fits, ← h]
        exact Nat.not_le.mpr hs
      have hrest : size - e.bytes = totalBytes es := by
        rw [h, totalBytes_cons, Nat.add_sub_cancel_left]
      obtain ⟨hes, hflag⟩ := ih (t := true) hrest
      have hev : evict (e :: es) size t = evict es (size - e.bytes) true :=
        if_pos hs
      have hnew : keepNewest Fits (e :: es) = keepNewest Fits es := if_neg hnot
      rw [hev]
      refine ⟨hes.trans hnew.symm, iff_of_true (hflag.mpr (.inl rfl)) ?_⟩
      exact .inr (keepNewest_ne hnot fits_nil)
    · have hfits : Fits (e :: es) := by
        rw [Fits, ← h]
        exact Nat.not_lt.mp hs
      have hev : evict (e :: es) size t = (e :: es, size, t) := if_neg hs
      have hnew : keepNewest Fits (e :: es) = e :: es := if_pos hfits
      rw [hev, hnew]
      exact ⟨rfl, by simp⟩

/-- The size an append starts its eviction with. -/
theorem size_pushed (b : OutputBuffer) (category text : String) :
    b.size + OutputEntry.bytes ⟨category, text⟩
      = totalBytes (b.entries ++ [⟨category, text⟩]) := by
  rw [b.size_eq, totalBytes_append, totalBytes_cons, totalBytes_nil,
    Nat.add_zero]

/-- A drain empties the buffer. -/
theorem drain_eq (b : OutputBuffer) :
    b.drain = ((if b.truncated then [.marker] else []) ++ b.entries, new) := by
  cases hc : b.isClear with
  | false =>
    rw [drain, hc]
    rfl
  | true =>
    rw [drain_of_isClear hc]
    obtain ⟨es, size, t, rfl, hle⟩ := b
    obtain ⟨hes, ht⟩ := Bool.and_eq_true_iff.mp hc
    cases es with
    | cons => cases hes
    | nil =>
      cases t with
      | true => cases ht
      | false => rfl

end OutputBuffer

/-- A buffer that has the newest of what was appended since the last
drain. -/
structure KeepsNewest (appended : List OutputEntry) (b : OutputBuffer) :
    Prop where
  newest : LongestSuffix Fits b.entries appended
  size : b.size = totalBytes b.entries
  /-- The flag is set when an entry was evicted. -/
  truncated : b.truncated = true ↔
    ∃ evicted, evicted ≠ [] ∧ appended = evicted ++ b.entries
  /-- An append subtracts no more than there is. -/
  append : ∀ category text,
    OutputBuffer.evictChecked (b.entries ++ [⟨category, text⟩])
        (b.size + OutputEntry.bytes ⟨category, text⟩) b.truncated
      = some ((b.append category text).entries,
          (b.append category text).size, (b.append category text).truncated)
  /-- A drain gives the marker, when the flag is set, and the entries. -/
  drain : b.drain
    = ((if b.truncated then [.marker] else []) ++ b.entries, .new)

/-- An append evicts without underflow: the buffer's size is right. -/
theorem append_checked (b : OutputBuffer) (category text : String) :
    OutputBuffer.evictChecked (b.entries ++ [⟨category, text⟩])
        (b.size + OutputEntry.bytes ⟨category, text⟩) b.truncated
      = some ((b.append category text).entries,
          (b.append category text).size,
          (b.append category text).truncated) :=
  OutputBuffer.evictChecked_eq (b.size_pushed category text)

/-- What a buffer keeps and when its flag is set decide the rest. -/
theorem KeepsNewest.of_newest {appended : List OutputEntry}
    {b : OutputBuffer} (hn : LongestSuffix Fits b.entries appended)
    (ht : b.truncated = true ↔ b.entries ≠ appended) :
    KeepsNewest appended b where
  newest := hn
  size := b.size_eq
  truncated := ht.trans (suffix_ne_iff hn.suffix)
  append := append_checked b
  drain := b.drain_eq

/-- An append keeps the newest. -/
theorem KeepsNewest.apply_append {appended : List OutputEntry}
    {b : OutputBuffer} (h : KeepsNewest appended b)
    (category text : String) :
    KeepsNewest (appended ++ [⟨category, text⟩])
      (b.append category text) := by
  obtain ⟨hes, hflag⟩ := OutputBuffer.evict_eq (t := b.truncated)
    (b.size_pushed category text)
  have hes : (b.append category text).entries
      = keepNewest Fits (b.entries ++ [⟨category, text⟩]) := hes
  have hlong := longestSuffix_keepNewest fits_nil
    (b.entries ++ [(⟨category, text⟩ : OutputEntry)])
  have htrunc := h.truncated.trans (suffix_ne_iff h.newest.suffix).symm
  apply KeepsNewest.of_newest
  · rw [hes]
    exact h.newest.snoc prefixClosed_fits hlong
  · rw [hes]
    refine hflag.trans ?_
    constructor
    · rintro (ht | hne) heq
      -- what was evicted before does not come back
      · have hle := hlong.suffix.length_le
        rw [heq, List.length_append, List.length_append] at hle
        have hlt := h.newest.suffix.length_le
        have hall : b.entries = appended :=
          h.newest.suffix.eq_of_length (by omega)
        exact htrunc.mp ht hall
      · apply hne
        apply hlong.suffix.eq_of_length
        have hle := hlong.suffix.length_le
        have hlt := h.newest.suffix.length_le
        rw [heq, List.length_append, List.length_append] at hle ⊢
        omega
    · intro hne
      by_cases hb : b.entries = appended
      · exact .inr (hb ▸ hne)
      · exact .inl (htrunc.mpr hb)

/-- A drained buffer keeps all of nothing. -/
theorem keepsNewest_new : KeepsNewest [] .new :=
  .of_newest (.nil fits_nil)
    ⟨fun h => Bool.noConfusion h, fun h => absurd rfl h⟩

/-- A call keeps the newest of what was appended since the last drain. -/
theorem KeepsNewest.apply {appended : List OutputEntry} {b : OutputBuffer}
    (h : KeepsNewest appended b) (op : BufferOp) :
    KeepsNewest (op.since appended) (b.apply op) := by
  cases op with
  | append category text => exact h.apply_append category text
  | drain =>
    show KeepsNewest [] b.drain.2
    rw [b.drain_eq]
    exact keepsNewest_new

/-- After any sequence of calls the buffer has the newest of what was
appended since the last drain. -/
theorem output_keeps_newest (ops : List BufferOp) :
    KeepsNewest (appendedSince ops) (OutputBuffer.after ops) := by
  suffices h : ∀ appended b, KeepsNewest appended b →
      KeepsNewest (ops.foldl (fun es op => op.since es) appended)
        (ops.foldl OutputBuffer.apply b) from h [] .new keepsNewest_new
  induction ops with
  | nil => exact fun _ _ h => h
  | cons op ops ih => exact fun _ _ h => ih _ _ (h.apply op)

end DebugMcp
