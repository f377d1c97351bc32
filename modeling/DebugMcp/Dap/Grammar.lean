/-
The framing grammar, and that the reader accepts exactly that.

A frame is a header, a blank line and a body (`FrameParts`). The reader
is followed line by line: a line ended by a line feed does one of four
things to it, and an unended one at the end of the stream lets it return
a message only if an empty body is one. `Fields` is what a header does to
the length that the reader has; `read_message_grammar` is the result.

# Representation

- That the JSON library rejects the empty body is a hypothesis: a blank
  line without its line feed at the end of the stream leaves one.
- A numeral may have a plus sign, as `parse` has it.
-/
import DebugMcp.Dap.Framing

namespace DebugMcp

-- ============================================================== grammar

/-- The bytes of lines, each ended by a line feed. -/
def headerBytes (lines : List (List Char)) : Bytes :=
  lines.flatMap fun line => utf8 (line ++ ['\n'])

/-- A line, its line feed apart, of carriage returns alone. -/
def Blank (line : List Char) : Prop := ∀ c ∈ line, c = '\r'

instance (line : List Char) : Decidable (Blank line) :=
  List.decidableBAll (fun c => c = '\r') line

/-- The line is a `Content-Length` field with a length within the limit:
a numeral, with white space around it. -/
def States (line : List Char) (n : Nat) : Prop :=
  n ≤ maxContentLength ∧ ∃ before sign digits after,
    line = contentLength ++ (before ++ (sign ++ digits) ++ after) ∧
    (∀ c ∈ before, isWhitespace c = true) ∧
    (∀ c ∈ after, isWhitespace c = true) ∧
    (sign = [] ∨ sign = ['+']) ∧ digits ≠ [] ∧
    (∀ c ∈ digits, c.isDigit = true) ∧ Nat.ofDigitChars 10 digits 0 = n

/-- A stream that starts with a frame, and its parts. -/
structure FrameParts {T : Type} (json : JsonWire T) (s : Bytes)
    (m : DapMessage) (rest : Bytes) (lines : List (List Char))
    (blank : List Char) (body : Bytes) : Prop where
  stream : s = headerBytes lines ++ (utf8 (blank ++ ['\n']) ++ (body ++ rest))
  /-- No line feed in a line, and none is blank but the last. -/
  header : ∀ line ∈ lines, '\n' ∉ line ∧ ¬ Blank line
  ended : Blank blank
  /-- Every field states a length. -/
  fields : ∀ line ∈ lines, contentLength <+: line → ∃ n, States line n
  /-- The last one states that of the body. -/
  last : ∃ before line after, lines = before ++ line :: after ∧
    States line body.length ∧ ∀ l ∈ after, ¬ contentLength <+: l
  decodes : json.fromSlice body = .ok m

-- ============================================================= numerals

/-- The digits of a number that fits are read. -/
theorem parseDigits_eq_some {cs : List Char} {m n : Nat} :
    parseDigits cs m = some n →
      (∀ c ∈ cs, c.isDigit = true) ∧ Nat.ofDigitChars 10 cs m = n := by
  induction cs generalizing m with
  | nil =>
    intro h
    cases h
    exact ⟨fun c hc => (by cases hc), rfl⟩
  | cons c cs ih =>
    intro h
    rw [parseDigits] at h
    obtain ⟨hd, h⟩ := Option.ite_none_right_eq_some.mp h
    obtain ⟨-, h⟩ := Option.ite_none_right_eq_some.mp h
    obtain ⟨hds, hv⟩ := ih h
    refine ⟨?_, by rw [Nat.ofDigitChars_cons, hv]⟩
    intro a ha
    rcases List.mem_cons.mp ha with rfl | ha
    · exact hd
    · exact hds a ha

theorem parseUsize_plus (cs : List Char) :
    parseUsize ('+' :: cs)
      = if cs.isEmpty then none else parseDigits cs 0 := rfl

theorem parseUsize_unsigned {cs : List Char} (h : cs.head? ≠ some '+') :
    parseUsize cs = if cs.isEmpty then none else parseDigits cs 0 := by
  unfold parseUsize
  split
  · exact absurd rfl h
  · rfl

/-- Digits that parse. -/
theorem digits_eq_some {digits : List Char} {n : Nat}
    (h : (if digits.isEmpty then none else parseDigits digits 0) = some n) :
    digits ≠ [] ∧ (∀ c ∈ digits, c.isDigit = true) ∧
      Nat.ofDigitChars 10 digits 0 = n := by
  obtain ⟨hne, h⟩ := Option.ite_none_left_eq_some.mp h
  exact ⟨fun he => hne (by rw [he]; rfl), parseDigits_eq_some h⟩

/-- What parses is a numeral. -/
theorem parseUsize_eq_some {cs : List Char} {n : Nat}
    (h : parseUsize cs = some n) :
    ∃ sign digits, cs = sign ++ digits ∧ (sign = [] ∨ sign = ['+']) ∧
      digits ≠ [] ∧ (∀ c ∈ digits, c.isDigit = true) ∧
      Nat.ofDigitChars 10 digits 0 = n := by
  by_cases hplus : cs.head? = some '+'
  · obtain ⟨digits, rfl⟩ := List.head?_eq_some_iff.mp hplus
    rw [parseUsize_plus] at h
    exact ⟨['+'], digits, rfl, .inr rfl, digits_eq_some h⟩
  · rw [parseUsize_unsigned hplus] at h
    exact ⟨[], cs, rfl, .inl rfl, digits_eq_some h⟩

/-- A numeral that fits parses. -/
theorem parseUsize_numeral {sign digits : List Char}
    (hs : sign = [] ∨ sign = ['+']) (hne : digits ≠ [])
    (hd : ∀ c ∈ digits, c.isDigit = true)
    (hlt : Nat.ofDigitChars 10 digits 0 < 2 ^ 64) :
    parseUsize (sign ++ digits) = some (Nat.ofDigitChars 10 digits 0) := by
  have hempty : digits.isEmpty = false := List.isEmpty_eq_false_iff.mpr hne
  have hof : (if digits.isEmpty then none else parseDigits digits 0)
      = some (Nat.ofDigitChars 10 digits 0) := by
    rw [hempty, if_neg Bool.false_ne_true]
    exact parseDigits_eq hd hlt
  rcases hs with rfl | rfl
  · have hplus : digits.head? ≠ some '+' := by
      intro h
      exact absurd (hd _ (List.mem_of_head? h)) (by decide)
    rw [List.nil_append, parseUsize_unsigned hplus, hof]
  · exact hof

/-- A digit is no white space. -/
theorem isWhitespace_of_isDigit {c : Char} (h : c.isDigit = true) :
    isWhitespace c = false := by
  rw [Char.isDigit, Bool.and_eq_true, decide_eq_true_iff,
    decide_eq_true_iff] at h
  have hrange : 48 ≤ c.toNat ∧ c.toNat ≤ 57 := h
  simp only [isWhitespace, Bool.or_eq_false_iff, Bool.and_eq_false_iff,
    decide_eq_false_iff_not, beq_eq_false_iff_ne]
  omega

-- ============================================================= trimming

/-- Trimming takes off the white space at both ends. -/
theorem trim_padded {before cs after : List Char}
    (hb : ∀ c ∈ before, isWhitespace c = true)
    (ha : ∀ c ∈ after, isWhitespace c = true) :
    trim (before ++ cs ++ after) = trim cs := by
  have hend (xs : List Char) : (xs ++ after).rdropWhile isWhitespace
      = xs.rdropWhile isWhitespace := by
    unfold List.rdropWhile
    rw [List.reverse_append, List.dropWhile_append_of_pos]
    exact fun c hc => ha c (List.mem_reverse.mp hc)
  unfold trim
  rw [List.append_assoc, List.dropWhile_append_of_pos hb,
    List.dropWhile_append]
  split_ifs with hempty
  · have hafter : after.dropWhile isWhitespace = [] :=
      List.dropWhile_eq_nil_iff.mpr ha
    rw [hafter, List.isEmpty_iff.mp hempty]
  · exact hend _

/-- What is trimmed off is white space. -/
theorem trim_parts (cs : List Char) :
    ∃ before after, cs = before ++ trim cs ++ after ∧
      (∀ c ∈ before, isWhitespace c = true) ∧
      (∀ c ∈ after, isWhitespace c = true) := by
  refine ⟨cs.takeWhile isWhitespace,
    (cs.dropWhile isWhitespace).rtakeWhile isWhitespace, ?_,
    fun c hc => List.mem_takeWhile_imp hc,
    fun c hc => List.mem_rtakeWhile_imp hc⟩
  rw [trim, List.append_assoc, List.rdropWhile_append_rtakeWhile,
    List.takeWhile_append_dropWhile]

/-- The line end of a line ended by a line feed. -/
theorem trimLineEnd_ended (line : List Char) :
    trimLineEnd (line ++ ['\n']) = trimLineEnd line :=
  List.rdropWhile_concat_pos _ _ _ rfl

/-- A line is empty but for its line end if it is blank. -/
theorem trimLineEnd_isEmpty {line : List Char} (h : '\n' ∉ line) :
    (trimLineEnd (line ++ ['\n'])).isEmpty = true ↔ Blank line := by
  rw [trimLineEnd_ended, List.isEmpty_iff, trimLineEnd,
    List.rdropWhile_eq_nil_iff]
  constructor
  · intro hall c hc
    rcases Bool.or_eq_true_iff.mp (hall c hc) with hr | hn
    · exact beq_iff_eq.mp hr
    · exact absurd (beq_iff_eq.mp hn ▸ hc) h
  · intro hall c hc
    rw [hall c hc]
    rfl

/-- The line end is no part of the field's name. -/
theorem trimLineEnd_field (v : List Char) :
    trimLineEnd (contentLength ++ v) = contentLength ++ trimLineEnd v := by
  unfold trimLineEnd
  induction v using List.reverseRecOn with
  | nil => decide
  | append_singleton v c ih =>
    rw [← List.append_assoc, List.rdropWhile_concat, List.rdropWhile_concat]
    split_ifs
    · exact ih
    · exact List.append_assoc _ _ _

/-- The reader looks for the field where it is. -/
theorem field_trimLineEnd (line : List Char) :
    contentLength.isPrefixOf (trimLineEnd (line ++ ['\n'])) = true ↔
      contentLength <+: line := by
  rw [trimLineEnd_ended, List.isPrefixOf_iff_prefix]
  constructor
  · intro h
    exact h.trans (List.rdropWhile_prefix _ _)
  · rintro ⟨v, rfl⟩
    rw [trimLineEnd_field]
    exact List.prefix_append _ _

/-- The value of a field, trimmed. -/
theorem trim_field (v : List Char) :
    trim ((trimLineEnd (contentLength ++ v ++ ['\n'])).drop
      contentLength.length) = trim v := by
  rw [trimLineEnd_ended, trimLineEnd_field, List.drop_left]
  have hend : ∀ c ∈ v.rtakeWhile (fun c => c == '\r' || c == '\n'),
      isWhitespace c = true := by
    intro c hc
    have hcr := List.mem_rtakeWhile_imp hc
    rcases Bool.or_eq_true_iff.mp hcr with h | h
    · rw [beq_iff_eq.mp h]
      rfl
    · rw [beq_iff_eq.mp h]
      rfl
  have hpad : trim ([] ++ trimLineEnd v ++ v.rtakeWhile _)
      = trim (trimLineEnd v) :=
    trim_padded (fun c hc => (by cases hc)) hend
  rw [List.nil_append, trimLineEnd, List.rdropWhile_append_rtakeWhile]
    at hpad
  exact hpad.symm

/-- A field states what its value parses to, within the limit. -/
theorem states_iff {v : List Char} {n : Nat} :
    States (contentLength ++ v) n ↔
      parseUsize (trim v) = some n ∧ n ≤ maxContentLength := by
  constructor
  · rintro ⟨hn, before, sign, digits, after, hv, hb, ha, hs, hne, hd, rfl⟩
    cases List.append_cancel_left hv
    have hnot : ∀ c ∈ sign ++ digits, isWhitespace c = false := by
      intro c hc
      rcases List.mem_append.mp hc with hc | hc
      · rcases hs with rfl | rfl
        · cases hc
        · rw [List.mem_singleton.mp hc]
          rfl
      · exact isWhitespace_of_isDigit (hd c hc)
    rw [trim_padded hb ha, trim_of_notWhitespace hnot]
    refine ⟨parseUsize_numeral hs hne hd ?_, hn⟩
    exact Nat.lt_of_le_of_lt hn (by decide)
  · rintro ⟨h, hn⟩
    obtain ⟨sign, digits, hcs, hs, hne, hd, hv⟩ := parseUsize_eq_some h
    obtain ⟨before, after, hparts, hb, ha⟩ := trim_parts v
    rw [hcs] at hparts
    exact ⟨hn, before, sign, digits, after, by rw [← hparts], hb, ha, hs,
      hne, hd, hv⟩

-- ================================================================ lines

/-- A line ended by a line feed is read whole. -/
theorem splitLine_ended {line : List Char} (h : '\n' ∉ line) (rest : Bytes) :
    splitLine (utf8 (line ++ ['\n']) ++ rest)
      = (utf8 (line ++ ['\n']), rest) := by
  have hline : utf8 (line ++ ['\n']) = utf8 line ++ [newline] := by
    rw [utf8_append]
    rfl
  rw [hline, List.append_assoc]
  exact splitLine_append (newline_notMem_utf8 h) rest

theorem utf8_ended_ne_nil (line : List Char) : utf8 (line ++ ['\n']) ≠ [] := by
  rw [utf8_append]
  exact List.append_ne_nil_of_right_ne_nil _ (by decide)

section

variable {line : List Char} (k : Option Nat) (first : Bool) (rest : Bytes)

/-- A blank line ends the header. -/
theorem readHeader_blankLine (h : '\n' ∉ line) (hb : Blank line) :
    readHeader k first (utf8 (line ++ ['\n']) ++ rest)
      = (k.elim (.error .missingContentLength) .ok, rest) := by
  have hempty := (trimLineEnd_isEmpty h).mpr hb
  rw [readHeader]
  simp only [splitLine_ended h, utf8_ended_ne_nil, decodeUtf8_utf8, hempty,
    dite_false, if_true]
  cases k <;> rfl

/-- A field with a length sets it. -/
theorem readHeader_fieldLine {n : Nat} (h : '\n' ∉ line)
    (hs : States line n) :
    readHeader k first (utf8 (line ++ ['\n']) ++ rest)
      = readHeader (some n) false rest := by
  have hp : contentLength <+: line := by
    obtain ⟨-, before, sign, digits, after, hv, -⟩ := hs
    exact ⟨_, hv.symm⟩
  have hnb : (trimLineEnd (line ++ ['\n'])).isEmpty = false := by
    rw [Bool.eq_false_iff, Ne, trimLineEnd_isEmpty h]
    intro hb
    exact absurd (hb 'C' (hp.subset (by decide))) (by decide)
  have hfield := (field_trimLineEnd line).mpr hp
  obtain ⟨v, rfl⟩ := hp
  obtain ⟨hparse, hn⟩ := states_iff.mp hs
  rw [readHeader]
  simp only [splitLine_ended h, utf8_ended_ne_nil, decodeUtf8_utf8, hnb,
    hfield, trim_field, hparse, Nat.not_lt.mpr hn, dite_false, if_false,
    if_true, Bool.false_eq_true]

/-- A field without one is refused. -/
theorem readHeader_badLine (h : '\n' ∉ line) (hp : contentLength <+: line)
    (hs : ∀ n, ¬ States line n) :
    ∃ value, readHeader k first (utf8 (line ++ ['\n']) ++ rest)
      = (.error (.invalidContentLength value), rest) := by
  have hnb : (trimLineEnd (line ++ ['\n'])).isEmpty = false := by
    rw [Bool.eq_false_iff, Ne, trimLineEnd_isEmpty h]
    intro hb
    exact absurd (hb 'C' (hp.subset (by decide))) (by decide)
  have hfield := (field_trimLineEnd line).mpr hp
  obtain ⟨v, rfl⟩ := hp
  refine ⟨.ofList (trim v), ?_⟩
  rw [readHeader]
  simp only [splitLine_ended h, utf8_ended_ne_nil, decodeUtf8_utf8, hnb,
    hfield, trim_field, dite_false, if_false, if_true, Bool.false_eq_true]
  cases hparse : parseUsize (trim v) with
  | none => rfl
  | some n =>
    have hn : maxContentLength < n := by
      by_contra hle
      exact hs n (states_iff.mpr ⟨hparse, Nat.not_lt.mp hle⟩)
    simp only [if_pos hn]

/-- Any other line is passed over. -/
theorem readHeader_otherLine (h : '\n' ∉ line) (hb : ¬ Blank line)
    (hp : ¬ contentLength <+: line) :
    readHeader k first (utf8 (line ++ ['\n']) ++ rest)
      = readHeader k false rest := by
  have hnb : (trimLineEnd (line ++ ['\n'])).isEmpty = false := by
    rw [Bool.eq_false_iff, Ne, trimLineEnd_isEmpty h]
    exact hb
  have hfield : contentLength.isPrefixOf (trimLineEnd (line ++ ['\n']))
      = false := by
    rw [Bool.eq_false_iff, Ne, field_trimLineEnd]
    exact hp
  rw [readHeader]
  simp only [splitLine_ended h, utf8_ended_ne_nil, decodeUtf8_utf8, hnb,
    hfield, dite_false, if_false, Bool.false_eq_true]

end

-- ========================================================= start of a line

/-- Bytes that decode are the encoding of what they decode to. -/
theorem eq_utf8_of_decodeUtf8 {bytes : Bytes} {cs : List Char}
    (h : decodeUtf8 bytes = some cs) : bytes = utf8 cs := by
  obtain ⟨text, ht, -⟩ := Option.map_eq_some_iff.mp h
  obtain ⟨l, hl⟩ := ByteArray.isSome_utf8Decode?_iff.mp
    (Option.isSome_iff_exists.mpr ⟨text, ht⟩)
  have hbytes : bytes = utf8 l := by
    have hdata : bytes.toByteArray.data.toList
        = (utf8 l).toByteArray.data.toList :=
      congrArg (fun b => b.data.toList) hl
    rwa [List.toList_data_toByteArray, List.toList_data_toByteArray] at hdata
  rw [hbytes, decodeUtf8_utf8] at h
  rw [hbytes, Option.some.inj h]

/-- A line is ended by a line feed, or it is all that is left. -/
theorem splitLine_cases (s : Bytes) :
    (newline ∉ s ∧ splitLine s = (s, [])) ∨
    ∃ line rest, newline ∉ line ∧ s = line ++ newline :: rest ∧
      splitLine s = (line ++ [newline], rest) := by
  induction s with
  | nil => exact .inl ⟨fun h => (by cases h), rfl⟩
  | cons b s ih =>
    by_cases hb : b = newline
    · subst hb
      exact .inr ⟨[], s, fun h => (by cases h), rfl, if_pos rfl⟩
    · rcases ih with ⟨hnot, hs⟩ | ⟨line, rest, hnot, rfl, hs⟩
      · refine .inl ⟨List.not_mem_cons_of_ne_of_not_mem (Ne.symm hb) hnot, ?_⟩
        rw [splitLine, if_neg hb, hs]
      · refine .inr ⟨b :: line, rest,
          List.not_mem_cons_of_ne_of_not_mem (Ne.symm hb) hnot, rfl, ?_⟩
        rw [splitLine, if_neg hb, hs]
        rfl

/-- Text that ends with the line feed byte ends with the line feed. -/
theorem ended_of_utf8 {text : List Char} {line : Bytes}
    (hnot : newline ∉ line) (h : line ++ [newline] = utf8 text) :
    ∃ cs, '\n' ∉ cs ∧ text = cs ++ ['\n'] := by
  rcases List.eq_nil_or_concat text with rfl | ⟨cs, c, rfl⟩
  · exact absurd h (List.append_ne_nil_of_right_ne_nil _ (by simp))
  rw [List.concat_eq_append] at h ⊢
  have hone : utf8 [c] = String.utf8EncodeChar c := List.append_nil _
  rw [utf8_append, hone] at h
  rcases List.eq_nil_or_concat (String.utf8EncodeChar c) with he | ⟨e, b, he⟩
  · exact absurd he String.utf8EncodeChar_ne_nil
  · rw [he, List.concat_eq_append, ← List.append_assoc] at h
    obtain ⟨hline, hb⟩ := List.append_inj' h rfl
    have hc : c = '\n' := by
      apply eq_newline_of_mem_utf8EncodeChar
      rw [he, List.concat_eq_append, ← hb]
      exact List.mem_append_right _ List.mem_cons_self
    subst hc
    refine ⟨cs, fun hmem => hnot ?_, rfl⟩
    rw [hline]
    exact List.mem_append_left _
      (List.mem_flatMap.mpr ⟨'\n', hmem, by decide⟩)

/-- What a line that is not ended leaves of the stream: nothing, and a
length only if the line is blank. -/
def Unended (r : Except WireError Nat × Bytes) : Prop :=
  (∃ n, r = (.ok n, [])) ∨ ∃ e rest, e ≠ .eof ∧ r = (.error e, rest)

/-- The end of the stream, after a line. -/
theorem readHeader_end (k : Option Nat) :
    readHeader k false [] = (.error (.io .unexpectedEof), []) := by
  rw [readHeader]
  rfl

/-- A stream starts with a line, or the header ends there. -/
theorem readHeader_start {s : Bytes} (hs : s ≠ []) :
    (∃ line rest, '\n' ∉ line ∧ s = utf8 (line ++ ['\n']) ++ rest) ∨
    ∀ k first, Unended (readHeader k first s) := by
  cases hd : decodeUtf8 (splitLine s).1 with
  | none =>
    refine .inr fun k first => .inr ⟨.io .invalidData, (splitLine s).2,
      by decide, ?_⟩
    have hne : (splitLine s).1 ≠ [] := by
      intro he
      rw [he] at hd
      exact absurd hd (by decide)
    rw [readHeader]
    simp only [hne, hd, dite_false]
  | some text =>
    have htext := eq_utf8_of_decodeUtf8 hd
    rcases splitLine_cases s with ⟨hnot, hsplit⟩ |
      ⟨line, rest, hnot, hs', hsplit⟩
    · right
      intro k first
      rw [hsplit] at hd
      rw [readHeader]
      simp only [hsplit, hs, hd, dite_false]
      by_cases hb : (trimLineEnd text).isEmpty = true
      · simp only [hb, if_true]
        cases k with
        | none => exact .inr ⟨_, _, by decide, rfl⟩
        | some n => exact .inl ⟨n, rfl⟩
      · rw [if_neg hb]
        by_cases hp : contentLength.isPrefixOf (trimLineEnd text) = true
        · rw [if_pos hp]
          cases parseUsize (trim ((trimLineEnd text).drop
              contentLength.length)) with
          | none => exact .inr ⟨_, _, WireError.noConfusion, rfl⟩
          | some n =>
            by_cases hn : maxContentLength < n
            · simp only [if_pos hn]
              exact .inr ⟨_, _, WireError.noConfusion, rfl⟩
            · simp only [if_neg hn, readHeader_end]
              exact .inr ⟨_, _, by decide, rfl⟩
        · rw [if_neg hp, readHeader_end]
          exact .inr ⟨_, _, by decide, rfl⟩
    · left
      rw [hsplit] at htext
      obtain ⟨cs, hcs, rfl⟩ := ended_of_utf8 hnot htext
      refine ⟨cs, rest, hcs, ?_⟩
      rw [← htext, hs', List.append_assoc]
      rfl

-- =============================================================== headers

/-- What header lines do to the length that is known. -/
inductive Fields : Option Nat → List (List Char) → Option Nat → Prop
  | nil (k : Option Nat) : Fields k [] k
  | field {k k' : Option Nat} {n : Nat} {line : List Char}
      {lines : List (List Char)} (hs : States line n)
      (h : Fields (some n) lines k') : Fields k (line :: lines) k'
  | other {k k' : Option Nat} {line : List Char}
      {lines : List (List Char)} (hp : ¬ contentLength <+: line)
      (h : Fields k lines k') : Fields k (line :: lines) k'

namespace Fields

variable {k k' : Option Nat} {lines : List (List Char)} {n : Nat}

/-- Every field states a length. -/
theorem all (h : Fields k lines k') :
    ∀ line ∈ lines, contentLength <+: line → ∃ n, States line n := by
  induction h with
  | nil =>
    intro line hl
    cases hl
  | @field _ _ n _ _ hs _ ih =>
    intro line hl hp
    rcases List.mem_cons.mp hl with rfl | hl
    · exact ⟨n, hs⟩
    · exact ih line hl hp
  | other hnot _ ih =>
    intro line hl hp
    rcases List.mem_cons.mp hl with rfl | hl
    · exact absurd hp hnot
    · exact ih line hl hp

/-- Lines without a field leave the length as it is. -/
theorem skip (h : ∀ line ∈ lines, ¬ contentLength <+: line) :
    Fields k lines k := by
  induction lines with
  | nil => exact .nil k
  | cons line lines ih =>
    exact .other (h line List.mem_cons_self)
      (ih fun l hl => h l (List.mem_cons_of_mem _ hl))

/-- The length is that of the last field, or was known before. -/
theorem last (h : Fields k lines (some n)) :
    (k = some n ∧ ∀ line ∈ lines, ¬ contentLength <+: line) ∨
    ∃ before line after, lines = before ++ line :: after ∧
      States line n ∧ ∀ l ∈ after, ¬ contentLength <+: l := by
  obtain ⟨k', hk⟩ : ∃ k', k' = some n := ⟨_, rfl⟩
  rw [← hk] at h
  induction h with
  | nil => exact .inl ⟨hk, fun line hl => (by cases hl)⟩
  | @field _ _ m line lines hs _ ih =>
    rcases ih hk with ⟨hm, hnone⟩ | ⟨before, l, after, rfl, hl, hafter⟩
    · cases hm
      exact .inr ⟨[], line, lines, rfl, hs, hnone⟩
    · exact .inr ⟨line :: before, l, after, rfl, hl, hafter⟩
  | @other _ _ line lines hnot _ ih =>
    rcases ih hk with ⟨hm, hnone⟩ | ⟨before, l, after, rfl, hl, hafter⟩
    · refine .inl ⟨hm, ?_⟩
      intro l hl
      rcases List.mem_cons.mp hl with rfl | hl
      · exact hnot
      · exact hnone l hl
    · exact .inr ⟨line :: before, l, after, rfl, hl, hafter⟩

/-- Lines whose fields all state lengths, up to the last field. -/
theorem of_last {before after : List (List Char)} {line : List Char}
    (hall : ∀ l ∈ before, contentLength <+: l → ∃ n, States l n)
    (hs : States line n) (hafter : ∀ l ∈ after, ¬ contentLength <+: l) :
    Fields k (before ++ line :: after) (some n) := by
  induction before generalizing k with
  | nil => exact .field hs (skip hafter)
  | cons l before ih =>
    have hrest := fun k => ih (k := k) fun l hl =>
      hall l (List.mem_cons_of_mem _ hl)
    by_cases hp : contentLength <+: l
    · obtain ⟨m, hm⟩ := hall l List.mem_cons_self hp
      exact .field hm (hrest (some m))
    · exact .other hp (hrest k)

end Fields

theorem headerBytes_cons (line : List Char) (lines : List (List Char)) :
    headerBytes (line :: lines)
      = utf8 (line ++ ['\n']) ++ headerBytes lines := List.flatMap_cons

/-- A header is read to the length its lines leave. -/
theorem readHeader_fields {k : Option Nat} {lines : List (List Char)}
    {n : Nat} {blank : List Char} (hf : Fields k lines (some n))
    (hl : ∀ line ∈ lines, '\n' ∉ line ∧ ¬ Blank line) (hb : Blank blank)
    (first : Bool) (rest : Bytes) :
    readHeader k first
        (headerBytes lines ++ (utf8 (blank ++ ['\n']) ++ rest))
      = (.ok n, rest) := by
  obtain ⟨k', hk⟩ : ∃ k', k' = some n := ⟨_, rfl⟩
  rw [← hk] at hf
  induction hf generalizing first with
  | nil k =>
    subst hk
    have hnot : '\n' ∉ blank := fun h => absurd (hb '\n' h) (by decide)
    exact readHeader_blankLine (some n) first rest hnot hb
  | field hs _ ih =>
    rw [headerBytes_cons, List.append_assoc,
      readHeader_fieldLine _ _ _ (hl _ List.mem_cons_self).1 hs]
    exact ih (fun l h => hl l (List.mem_cons_of_mem _ h)) false hk
  | other hp _ ih =>
    have hline := hl _ List.mem_cons_self
    rw [headerBytes_cons, List.append_assoc,
      readHeader_otherLine _ _ _ hline.1 hline.2 hp]
    exact ih (fun l h => hl l (List.mem_cons_of_mem _ h)) false hk

/-- What a header that is read was: ended by a blank line, or by the end
of the stream. -/
theorem fields_of_readHeader {k : Option Nat} {first : Bool} {s : Bytes}
    {n : Nat} {rest : Bytes} (h : readHeader k first s = (.ok n, rest)) :
    rest = [] ∨ ∃ lines blank,
      s = headerBytes lines ++ (utf8 (blank ++ ['\n']) ++ rest) ∧
      (∀ line ∈ lines, '\n' ∉ line ∧ ¬ Blank line) ∧ Blank blank ∧
      Fields k lines (some n) := by
  induction hlen : s.length using Nat.strong_induction_on
    generalizing k first s with
  | _ len ih =>
    by_cases hs : s = []
    · subst hs
      rw [readHeader] at h
      cases h
    rcases readHeader_start hs with ⟨line, after, hnot, rfl⟩ | hend
    · have hlt : after.length < len := by
        have hpos := List.length_pos_iff.mpr (utf8_ended_ne_nil line)
        rw [List.length_append] at hlen
        omega
      -- the lines after the first one, when it is not blank
      have hcons : ∀ {k₁ : Option Nat}, ¬ Blank line →
          readHeader k₁ false after = (.ok n, rest) →
          (∀ {lines}, Fields k₁ lines (some n) →
            Fields k (line :: lines) (some n)) →
          rest = [] ∨ ∃ lines blank,
            utf8 (line ++ ['\n']) ++ after
              = headerBytes lines ++ (utf8 (blank ++ ['\n']) ++ rest) ∧
            (∀ line ∈ lines, '\n' ∉ line ∧ ¬ Blank line) ∧ Blank blank ∧
            Fields k lines (some n) := by
        intro k₁ hb hread hfields
        rcases ih after.length hlt hread rfl with hnil |
          ⟨lines, blank, rfl, hl, hblank, hf⟩
        · exact .inl hnil
        · refine .inr ⟨line :: lines, blank, ?_, ?_, hblank, hfields hf⟩
          · rw [headerBytes_cons, List.append_assoc]
          · intro l hmem
            rcases List.mem_cons.mp hmem with rfl | hmem
            · exact ⟨hnot, hb⟩
            · exact hl l hmem
      by_cases hb : Blank line
      · rw [readHeader_blankLine k first after hnot hb] at h
        obtain ⟨hk, hrest⟩ := Prod.mk.inj h
        cases k with
        | none => cases hk
        | some m =>
          cases hk
          refine .inr ⟨[], line, ?_, fun l hl => (by cases hl), hb, .nil _⟩
          rw [hrest]
          rfl
      · by_cases hp : contentLength <+: line
        · by_cases hstates : ∃ m, States line m
          · obtain ⟨m, hm⟩ := hstates
            rw [readHeader_fieldLine k first after hnot hm] at h
            exact hcons hb h fun hf => .field hm hf
          · obtain ⟨value, hbad⟩ := readHeader_badLine k first after hnot hp
              fun m hm => hstates ⟨m, hm⟩
            rw [hbad] at h
            cases h
        · rw [readHeader_otherLine k first after hnot hb hp] at h
          exact hcons hb h fun hf => .other hp hf
    · rcases hend k first with ⟨m, hm⟩ | ⟨e, r, -, he⟩
      · rw [hm] at h
        exact .inl (Prod.mk.inj h).2.symm
      · rw [he] at h
        cases h

/-- The reader reports the end of the stream before the first line
only. -/
theorem readHeader_eof (k : Option Nat) (first : Bool) (s : Bytes) :
    (readHeader k first s).1 = .error .eof ↔ s = [] ∧ first = true := by
  induction hlen : s.length using Nat.strong_induction_on
    generalizing k first s with
  | _ len ih =>
    by_cases hs : s = []
    · subst hs
      cases first with
      | true =>
        rw [readHeader]
        exact iff_of_true rfl ⟨rfl, rfl⟩
      | false =>
        rw [readHeader_end]
        exact iff_of_false (by decide) (by decide)
    refine iff_of_false ?_ fun h => hs h.1
    rcases readHeader_start hs with ⟨line, after, hnot, rfl⟩ | hend
    · have hlt : after.length < len := by
        have hpos := List.length_pos_iff.mpr (utf8_ended_ne_nil line)
        rw [List.length_append] at hlen
        omega
      have hrest (k) : (readHeader k false after).1 ≠ .error .eof :=
        fun h => absurd ((ih after.length hlt k false after rfl).mp h).2
          (by decide)
      by_cases hb : Blank line
      · rw [readHeader_blankLine k first after hnot hb]
        cases k with
        | none => exact fun h => (by cases h)
        | some m => exact fun h => (by cases h)
      · by_cases hp : contentLength <+: line
        · by_cases hstates : ∃ m, States line m
          · obtain ⟨m, hm⟩ := hstates
            rw [readHeader_fieldLine k first after hnot hm]
            exact hrest (some m)
          · obtain ⟨value, hbad⟩ := readHeader_badLine k first after hnot hp
              fun m hm => hstates ⟨m, hm⟩
            rw [hbad]
            exact fun h => (by cases h)
        · rw [readHeader_otherLine k first after hnot hb hp]
          exact hrest k
    · rcases hend k first with ⟨m, hm⟩ | ⟨e, r, hne, he⟩
      · rw [hm]
        exact fun h => (by cases h)
      · rw [he]
        exact fun h => hne (Except.error.inj h)

-- =============================================================== result

section

variable {T : Type} {json : JsonWire T}

theorem eventFromEnvelope_ne_eof (body : Bytes) (envelope : Envelope) :
    json.eventFromEnvelope body envelope ≠ .error .eof := by
  intro h
  unfold JsonWire.eventFromEnvelope at h
  split at h
  all_goals first
    | cases h
    | split at h <;> cases h

/-- Decoding does not report the end of the stream. -/
theorem fromSlice_ne_eof (body : Bytes) :
    json.fromSlice body ≠ .error .eof := by
  intro h
  unfold JsonWire.fromSlice at h
  cases henv : json.envelope body with
  | error e => simp only [henv, reduceCtorEq, Except.error.injEq] at h
  | ok envelope =>
    simp only [henv] at h
    split_ifs at h
    · cases hr : json.response body <;> rw [hr] at h <;> cases h
    · cases hev : json.eventFromEnvelope body envelope with
      | error e =>
        rw [hev] at h
        exact eventFromEnvelope_ne_eof body envelope
          (hev.trans (congrArg Except.error (Except.error.inj h)))
      | ok event =>
        rw [hev] at h
        cases event <;> cases h

/-- A frame is read, and nothing more. -/
theorem readMessage_frame {s : Bytes} {m : DapMessage} {rest : Bytes}
    {lines : List (List Char)} {blank : List Char} {body : Bytes}
    (h : FrameParts json s m rest lines blank body) :
    readMessage json s = (.ok m, rest) := by
  obtain ⟨before, line, after, hlines, hs, hafter⟩ := h.last
  have hf : Fields none lines (some body.length) := by
    rw [hlines]
    refine .of_last (fun l hl => h.fields l ?_) hs hafter
    rw [hlines]
    exact List.mem_append_left _ hl
  have hbody : readExactBody body.length (body ++ rest)
      = (.ok body, rest) := by
    rw [readExactBody, if_neg, List.take_left, List.drop_left]
    rw [List.length_append]
    exact Nat.not_lt.mpr (Nat.le_add_right _ _)
  rw [h.stream, readMessage, readHeader_fields hf h.header h.ended]
  simp only [hbody, h.decodes]

/-- What is read: a header, a body of its length, and its decoding. -/
theorem readMessage_eq_ok {s : Bytes} {m : DapMessage} {rest : Bytes}
    (h : readMessage json s = (.ok m, rest)) :
    ∃ n after, readHeader none true s = (.ok n, after) ∧
      n ≤ after.length ∧ rest = after.drop n ∧
      json.fromSlice (after.take n) = .ok m := by
  rw [readMessage] at h
  cases hr : readHeader none true s with
  | mk r after =>
    cases r with
    | error e =>
      rw [hr] at h
      cases h
    | ok n =>
      simp only [hr, readExactBody] at h
      by_cases hn : after.length < n
      · simp only [if_pos hn] at h
        cases h
      · simp only [if_neg hn] at h
        obtain ⟨hm, hrest⟩ := Prod.mk.inj h
        exact ⟨n, after, rfl, Nat.not_lt.mp hn, hrest.symm, hm⟩

/-- What is read is a frame, if the empty body is no message. -/
theorem frame_of_readMessage (hempty : ∃ e, json.envelope [] = .error e)
    {s : Bytes} {m : DapMessage} {rest : Bytes}
    (h : readMessage json s = (.ok m, rest)) :
    ∃ lines blank body, FrameParts json s m rest lines blank body := by
  obtain ⟨n, after, hread, hn, rfl, hm⟩ := readMessage_eq_ok h
  rcases fields_of_readHeader hread with rfl |
    ⟨lines, blank, hs, hl, hb, hf⟩
  · -- nothing is left for the body
    obtain ⟨e, he⟩ := hempty
    rw [List.take_nil, JsonWire.fromSlice, he] at hm
    cases hm
  · refine ⟨lines, blank, after.take n, ?_, hl, hb, hf.all, ?_, hm⟩
    · rw [hs, List.take_append_drop]
    · rcases hf.last with ⟨hk, -⟩ | ⟨before, line, lines', hlines, hst, hno⟩
      · cases hk
      · rw [List.length_take_of_le hn]
        exact ⟨before, line, lines', hlines, hst, hno⟩

/-- The end of the stream is reported if the stream is empty. -/
theorem readMessage_eof (s : Bytes) :
    (readMessage json s).1 = .error .eof ↔ s = [] := by
  have hheader := readHeader_eof none true s
  rw [and_iff_left rfl] at hheader
  rw [← hheader, readMessage]
  cases hr : readHeader none true s with
  | mk r after =>
    cases r with
    | error e => simp only [Except.error.injEq]
    | ok n =>
      refine iff_of_false ?_ fun h => (by cases h)
      simp only [readExactBody]
      by_cases hn : after.length < n
      · rw [if_pos hn]
        exact fun h => (by cases h)
      · rw [if_neg hn]
        exact fromSlice_ne_eof _

/-- The reader returns a message if and only if the stream starts with a
frame; it consumes the frame and returns the decoding of its body. It
reports the end of the stream if and only if the stream is empty, and
every other stream gives another error. -/
theorem read_message_grammar (hempty : ∃ e, json.envelope [] = .error e)
    (s : Bytes) :
    (∀ m rest, readMessage json s = (.ok m, rest) ↔
      ∃ lines blank body, FrameParts json s m rest lines blank body) ∧
    ((readMessage json s).1 = .error .eof ↔ s = []) ∧
    (s ≠ [] → (¬ ∃ m rest lines blank body,
        FrameParts json s m rest lines blank body) →
      ∃ e, e ≠ .eof ∧ (readMessage json s).1 = .error e) := by
  have hread (m rest) : readMessage json s = (.ok m, rest) ↔
      ∃ lines blank body, FrameParts json s m rest lines blank body :=
    ⟨frame_of_readMessage hempty,
      fun ⟨_, _, _, h⟩ => readMessage_frame h⟩
  refine ⟨hread, readMessage_eof s, fun hne hno => ?_⟩
  cases hr : readMessage json s with
  | mk r rest =>
    cases r with
    | ok m => exact absurd ⟨m, rest, (hread m rest).mp hr⟩ hno
    | error e =>
      refine ⟨e, ?_, rfl⟩
      rintro rfl
      exact hne ((readMessage_eof s).mp (congrArg Prod.fst hr))

end

/-- A header that states two lengths, with another field between. -/
def twoLengths : List (List Char) :=
  [contentLength ++ [' ', '7', '\r'], "X: 1".toList,
    contentLength ++ '+' :: Nat.toDigits 10 (utf8 outputText.toList).length]

/-- A frame with that header, and the start of another. -/
def twoLengthsFrame : Bytes :=
  headerBytes twoLengths ++ (utf8 (['\r'] ++ ['\n'])
    ++ (utf8 outputText.toList ++ utf8 contentLength))

/-- The second length is that of the body. -/
theorem two_lengths_read :
    readMessage outputJson twoLengthsFrame
      = (.ok (.event (.output outputEvent)), utf8 contentLength) := by
  have hne : ¬ [] = utf8 outputText.toList := by decide +kernel
  have hempty : ∃ e, outputJson.envelope [] = .error e :=
    ⟨"expected value", by simp only [outputJson, hne, if_false]⟩
  have hfirst : States (contentLength ++ [' ', '7', '\r']) 7 :=
    states_iff.mpr (by decide)
  have hlast : States (contentLength ++ '+' :: Nat.toDigits 10
      (utf8 outputText.toList).length) (utf8 outputText.toList).length :=
    states_iff.mpr (by decide +kernel)
  refine ((read_message_grammar hempty twoLengthsFrame).1 _ _).mpr
    ⟨twoLengths, ['\r'], utf8 outputText.toList, rfl, by decide +kernel,
      by decide, ?_, ⟨twoLengths.take 2, _, [], rfl, hlast, by simp⟩, ?_⟩
  · intro line hl hp
    simp only [twoLengths, List.mem_cons, List.not_mem_nil, or_false] at hl
    rcases hl with rfl | rfl | rfl
    · exact ⟨7, hfirst⟩
    · exact absurd (List.isPrefixOf_iff_prefix.mpr hp) (by decide)
    · exact ⟨_, hlast⟩
  · simp [JsonWire.fromSlice, JsonWire.eventFromEnvelope, outputJson]

end DebugMcp
