/-
Content-Length framing.

A frame is one header line, a blank line, and as many body bytes as the
header says. The reader is the code's: it reads header lines up to the
first blank one, looks only at `Content-Length` fields, and then takes
exactly that many bytes.

# Representation

- The stream is the list of bytes the peer sends before it closes; how
  they arrive in chunks does not show in `read_line` and `read_exact`.
- `read_line` takes a line with its newline and fails when it is not
  UTF-8.
- `usize` has 64 bits. `parse` accepts one leading plus sign.
- Writing to the transport does not fail here.

# Result

`frames_round_trip`: messages whose bodies are within the limit and
decode, written one after another, are read back one by one, each read
ending where the next frame begins, and then the end of the stream. The
induction over the stream is `Framing.readMany_flatten`; what is left to
show is that one frame delimits its message, whatever its body holds.
-/
import DebugMcp.Dap.Wire
import DebugMcp.Lib.Framing
import Mathlib.Data.List.DropRight

namespace DebugMcp

open Framing

-- ================================================================ text

/-- A text as bytes. -/
def utf8 (cs : List Char) : Bytes := cs.flatMap String.utf8EncodeChar

/-- Bytes as a text, when they are one. -/
def decodeUtf8 (bytes : Bytes) : Option (List Char) :=
  bytes.toByteArray.utf8Decode?.map Array.toList

/-- What was encoded decodes. -/
@[simp] theorem decodeUtf8_utf8 (cs : List Char) :
    decodeUtf8 (utf8 cs) = some cs := by
  rw [decodeUtf8, show (utf8 cs).toByteArray = cs.utf8Encode from rfl,
    List.utf8Decode?_utf8Encode]
  rfl

@[simp] theorem utf8_append (cs ds : List Char) :
    utf8 (cs ++ ds) = utf8 cs ++ utf8 ds := List.flatMap_append

/-- The newline byte. -/
def newline : UInt8 := 10

/-- A byte is the newline byte only as the number ten. -/
private theorem eq_ten_of_newline {n : Nat} (hn : n < 256)
    (h : newline = UInt8.ofNat n) : n = 10 := by
  have htn := congrArg UInt8.toNat h
  rw [UInt8.toNat_ofNat', Nat.mod_eq_of_lt hn] at htn
  exact htn.symm

/-- Only a newline is encoded with the newline byte: the bytes of a
longer encoding have their high bit set. -/
theorem eq_newline_of_mem_utf8EncodeChar {c : Char}
    (h : newline ∈ String.utf8EncodeChar c) : c = '\n' := by
  have hhigh : ∀ {n}, 128 ≤ n → n < 256 → newline ≠ UInt8.ofNat n := by
    intro n hlo hhi heq
    have hten := eq_ten_of_newline hhi heq
    omega
  unfold String.utf8EncodeChar at h
  dsimp only at h
  split at h
  · have hten := eq_ten_of_newline (by omega) (List.mem_singleton.mp h)
    exact Char.ext (UInt32.toNat_inj.mp hten)
  exfalso
  split at h
  · simp only [List.mem_cons, List.not_mem_nil, or_false] at h
    rcases h with h | h <;> exact hhigh (by omega) (by omega) h
  split at h
  · simp only [List.mem_cons, List.not_mem_nil, or_false] at h
    rcases h with h | h | h <;> exact hhigh (by omega) (by omega) h
  · simp only [List.mem_cons, List.not_mem_nil, or_false] at h
    rcases h with h | h | h | h <;> exact hhigh (by omega) (by omega) h

/-- A text without newlines is encoded without the newline byte. -/
theorem newline_notMem_utf8 {cs : List Char} (h : '\n' ∉ cs) :
    newline ∉ utf8 cs := by
  intro hmem
  obtain ⟨c, hc, hb⟩ := List.mem_flatMap.mp hmem
  exact h (eq_newline_of_mem_utf8EncodeChar hb ▸ hc)

-- ============================================================ the reader

/-- `read_line`: the bytes up to and with the first newline, or all. -/
def splitLine : Bytes → Bytes × Bytes
  | [] => ([], [])
  | b :: s =>
      if b = newline then ([b], s)
      else (b :: (splitLine s).1, (splitLine s).2)

/-- A line ends at its newline, whatever follows. -/
theorem splitLine_append {line : Bytes} (h : newline ∉ line)
    (rest : Bytes) :
    splitLine (line ++ newline :: rest) = (line ++ [newline], rest) := by
  induction line with
  | nil => rfl
  | cons b line ih =>
      rw [List.mem_cons, not_or] at h
      rw [List.cons_append, splitLine, if_neg (Ne.symm h.1), ih h.2]
      rfl

/-- A line that is read makes the stream shorter. -/
theorem length_splitLine_lt {s : Bytes} (h : (splitLine s).1 ≠ []) :
    (splitLine s).2.length < s.length := by
  have hle : ∀ s, (splitLine s).2.length ≤ s.length := by
    intro s
    induction s with
    | nil => exact Nat.le_refl 0
    | cons b s ih =>
        rw [splitLine]
        split
        · exact Nat.le_succ _
        · exact Nat.le_succ_of_le ih
  cases s with
  | nil => exact absurd rfl h
  | cons b s =>
      rw [splitLine]
      split
      · exact Nat.lt_succ_self _
      · exact Nat.lt_succ_of_le (hle s)

/-- The characters `trim` strips: Unicode white space. -/
def isWhitespace (c : Char) : Bool :=
  let n := c.toNat
  (9 ≤ n && n ≤ 13) || n == 32 || n == 0x85 || n == 0xA0 || n == 0x1680
    || (0x2000 ≤ n && n ≤ 0x200A) || n == 0x2028 || n == 0x2029
    || n == 0x202F || n == 0x205F || n == 0x3000

/-- `trim`. -/
def trim (cs : List Char) : List Char :=
  (cs.dropWhile isWhitespace).rdropWhile isWhitespace

/-- `trim_end_matches(['\r', '\n'])`. -/
def trimLineEnd (cs : List Char) : List Char :=
  cs.rdropWhile fun c => c == '\r' || c == '\n'

/-- The digits of a `usize`, with its overflow check. -/
def parseDigits : List Char → Nat → Option Nat
  | [], n => some n
  | c :: cs, n =>
      if c.isDigit then
        let m := 10 * n + (c.toNat - '0'.toNat)
        if m < 2 ^ 64 then parseDigits cs m else none
      else none

/-- `parse::<usize>`: one optional plus sign and at least one digit. -/
def parseUsize (cs : List Char) : Option Nat :=
  let digits :=
    match cs with
    | '+' :: cs => cs
    | cs => cs
  if digits.isEmpty then none else parseDigits digits 0

/-- The field the reader looks at. -/
def contentLength : List Char := "Content-Length:".toList

/-- The largest body the reader accepts. -/
def maxContentLength : Nat := 64 * 1024 * 1024

/-- `read_header`: header lines up to the blank one, with the last
`Content-Length` seen; a clean end of stream only before the first
line. -/
def readHeader (length : Option Nat) (firstLine : Bool) (s : Bytes) :
    Except WireError Nat × Bytes :=
  if hline : (splitLine s).1 = [] then
    (.error (if firstLine then .eof else .io .unexpectedEof), s)
  else
    have := length_splitLine_lt hline
    let rest := (splitLine s).2
    match decodeUtf8 (splitLine s).1 with
    | none => (.error (.io .invalidData), rest)
    | some line =>
        let trimmed := trimLineEnd line
        if trimmed.isEmpty then
          match length with
          | some n => (.ok n, rest)
          | none => (.error .missingContentLength, rest)
        else if contentLength.isPrefixOf trimmed then
          let value := trim (trimmed.drop contentLength.length)
          match parseUsize value with
          | none =>
              (.error (.invalidContentLength (.ofList value)), rest)
          | some n =>
              if maxContentLength < n then
                (.error (.invalidContentLength (.ofList value)), rest)
              else readHeader (some n) false rest
        else readHeader length false rest
termination_by s.length

/-- `read_exact`: that many bytes, or a truncated frame. -/
def readExactBody (n : Nat) (s : Bytes) : Except WireError Bytes × Bytes :=
  if s.length < n then (.error (.io .unexpectedEof), [])
  else (.ok (s.take n), s.drop n)

/-- `read_message`: a header, its body, decoded. -/
def readMessage {T : Type} (json : JsonWire T) :
    Reader UInt8 WireError DapMessage := fun s =>
  match readHeader none true s with
  | (.error e, s) => (.error e, s)
  | (.ok n, s) =>
      match readExactBody n s with
      | (.error e, s) => (.error e, s)
      | (.ok body, s) => (json.fromSlice body, s)

-- ============================================================ the writer

/-- The header of a body of `n` bytes. -/
def header (n : Nat) : String := s!"Content-Length: {n}\r\n\r\n"

/-- A body in its frame. -/
def frame (body : Bytes) : Bytes :=
  utf8 (header body.length).toList ++ body

/-- `write_message`: append a message's frame to what was written. -/
def writeMessage {T : Type} (json : JsonWire T) (written : Bytes)
    (message : T) : Except WireError Bytes :=
  match json.toVec message with
  | .error e => .error (.json e)
  | .ok body => .ok (written ++ frame body)

/-- Messages written one after another. -/
def writeMessages {T : Type} (json : JsonWire T) (written : Bytes) :
    List T → Except WireError Bytes
  | [] => .ok written
  | m :: ms =>
      match writeMessage json written m with
      | .error e => .error e
      | .ok written => writeMessages json written ms

-- ============================================================ one header

/-- The header line of a body of `n` bytes, without its line end. -/
def fieldLine (n : Nat) : List Char :=
  contentLength ++ ' ' :: Nat.toDigits 10 n

theorem header_toList (n : Nat) :
    (header n).toList = fieldLine n ++ ['\r', '\n'] ++ ['\r', '\n'] := by
  have htext : (header n).toList = "Content-Length: ".toList
      ++ Nat.toDigits 10 n ++ ['\r', '\n', '\r', '\n'] := by
    show (toString "Content-Length: " ++ toString n
      ++ toString "\r\n\r\n").toList = _
    simp [toString]
  have hfield : "Content-Length: ".toList = contentLength ++ [' '] := rfl
  rw [htext, hfield, fieldLine]
  simp

/-- A decimal digit is no white space, no line end and no sign. -/
theorem isDigit_of_mem_digits {n : Nat} {c : Char}
    (h : c ∈ Nat.toDigits 10 n) : 48 ≤ c.toNat ∧ c.toNat ≤ 57 := by
  have hd := Nat.isDigit_of_mem_toDigits (by decide) (by decide) h
  rw [Char.isDigit, Bool.and_eq_true, decide_eq_true_iff,
    decide_eq_true_iff] at hd
  exact hd

theorem isWhitespace_of_mem_digits {n : Nat} {c : Char}
    (h : c ∈ Nat.toDigits 10 n) : isWhitespace c = false := by
  obtain ⟨hlo, hhi⟩ := isDigit_of_mem_digits h
  simp only [isWhitespace, Bool.or_eq_false_iff, Bool.and_eq_false_iff,
    decide_eq_false_iff_not, beq_eq_false_iff_ne]
  omega

/-- The header line holds no line end. -/
theorem lineEnd_notMem_fieldLine {n : Nat} {c : Char}
    (hc : c = '\r' ∨ c = '\n') : c ∉ fieldLine n := by
  intro h
  rcases List.mem_append.mp h with h | h
  · rcases hc with rfl | rfl <;> revert h <;> decide
  · rcases List.mem_cons.mp h with h | h
    · rcases hc with rfl | rfl <;> revert h <;> decide
    · obtain ⟨hlo, -⟩ := isDigit_of_mem_digits h
      rcases hc with rfl | rfl <;> revert hlo <;> decide

/-- Trimming the line end gives the header line back. -/
theorem trimLineEnd_fieldLine (n : Nat) :
    trimLineEnd (fieldLine n ++ ['\r', '\n']) = fieldLine n := by
  rw [trimLineEnd, show ['\r', '\n'] = ['\r'] ++ ['\n'] from rfl,
    ← List.append_assoc, List.rdropWhile_concat_pos _ _ _ rfl,
    List.rdropWhile_concat_pos _ _ _ rfl, List.rdropWhile_eq_self_iff]
  intro hne hlast
  have hmem := List.getLast_mem hne
  rw [Bool.or_eq_true, beq_iff_eq, beq_iff_eq] at hlast
  exact lineEnd_notMem_fieldLine hlast hmem

/-- Text with no white space at its ends is left as it is. -/
theorem trim_of_notWhitespace {cs : List Char}
    (h : ∀ c ∈ cs, isWhitespace c = false) : trim cs = cs := by
  have hdrop : cs.dropWhile isWhitespace = cs := by
    rw [List.dropWhile_eq_self_iff]
    intro hlen
    rw [h _ (List.getElem_mem hlen)]
    exact Bool.false_ne_true
  rw [trim, hdrop, List.rdropWhile_eq_self_iff]
  intro hne
  rw [h _ (List.getLast_mem hne)]
  exact Bool.false_ne_true

/-- The value of a header line is its number in decimal. -/
theorem trim_value (n : Nat) :
    trim ((fieldLine n).drop contentLength.length)
      = Nat.toDigits 10 n := by
  rw [fieldLine, List.drop_left]
  have hblank : trim (' ' :: Nat.toDigits 10 n)
      = trim (Nat.toDigits 10 n) := by
    rw [trim, List.dropWhile_cons_of_pos (by decide)]
    rfl
  rw [hblank]
  exact trim_of_notWhitespace fun c hc => isWhitespace_of_mem_digits hc

/-- Digits that do not overflow parse to their number. -/
theorem parseDigits_eq {cs : List Char} {m : Nat}
    (hd : ∀ c ∈ cs, c.isDigit = true)
    (hlt : Nat.ofDigitChars 10 cs m < 2 ^ 64) :
    parseDigits cs m = some (Nat.ofDigitChars 10 cs m) := by
  induction cs generalizing m with
  | nil => rfl
  | cons c cs ih =>
      rw [Nat.ofDigitChars_cons] at hlt ⊢
      have hstep : 10 * m + (c.toNat - '0'.toNat) < 2 ^ 64 := by
        refine Nat.lt_of_le_of_lt ?_ hlt
        rw [Nat.ofDigitChars_eq_ofDigitChars_zero]
        have hpow : 1 ≤ 10 ^ cs.length := Nat.one_le_two_pow.trans
          (Nat.pow_le_pow_left (by decide) _)
        exact (Nat.le_mul_of_pos_left _ hpow).trans (Nat.le_add_right _ _)
      rw [parseDigits, if_pos (hd c List.mem_cons_self)]
      dsimp only
      rw [if_pos hstep]
      exact ih (fun c hc => hd c (List.mem_cons_of_mem _ hc)) hlt

/-- A length in decimal parses to itself. -/
theorem parseUsize_digits {n : Nat} (h : n < 2 ^ 64) :
    parseUsize (Nat.toDigits 10 n) = some n := by
  have hdigits : ∀ c ∈ Nat.toDigits 10 n, c.isDigit = true :=
    fun c hc => Nat.isDigit_of_mem_toDigits (by decide) (by decide) hc
  have hplus : (match Nat.toDigits 10 n with
      | '+' :: cs => cs
      | cs => cs) = Nat.toDigits 10 n := by
    split
    · next cs heq =>
        have hmem : '+' ∈ Nat.toDigits 10 n := by
          rw [heq]
          exact List.mem_cons_self
        obtain ⟨hlo, -⟩ := isDigit_of_mem_digits hmem
        exact absurd hlo (by decide)
    · rfl
  have hne : (Nat.toDigits 10 n).isEmpty = false := by
    rw [List.isEmpty_eq_false_iff]
    exact Nat.toDigits_ne_nil
  unfold parseUsize
  dsimp only
  rw [hplus, hne, parseDigits_eq hdigits]
  · rw [Nat.ofDigitChars_ten_toDigits]
    rfl
  · rw [Nat.ofDigitChars_ten_toDigits]
    exact h

-- ============================================================ one frame

/-- A line of text ends at its line end. -/
theorem splitLine_text (cs : List Char) (h : '\n' ∉ cs) (rest : Bytes) :
    splitLine (utf8 (cs ++ ['\r', '\n']) ++ rest)
      = (utf8 (cs ++ ['\r', '\n']), rest) := by
  have hline : utf8 (cs ++ ['\r', '\n'])
      = utf8 (cs ++ ['\r']) ++ [newline] := by
    rw [show ['\r', '\n'] = ['\r'] ++ ['\n'] from rfl,
      ← List.append_assoc, utf8_append]
    rfl
  have hnot : '\n' ∉ cs ++ ['\r'] := by
    simp only [List.mem_append, List.mem_singleton, not_or]
    exact ⟨h, by decide⟩
  rw [hline, List.append_assoc]
  exact splitLine_append (newline_notMem_utf8 hnot) rest

/-- A header line is read and its number kept. -/
theorem readHeader_field {n : Nat} (hn : n ≤ maxContentLength)
    (length : Option Nat) (firstLine : Bool) (rest : Bytes) :
    readHeader length firstLine
        (utf8 (fieldLine n ++ ['\r', '\n']) ++ rest)
      = readHeader (some n) false rest := by
  have hsplit := splitLine_text (fieldLine n)
    (lineEnd_notMem_fieldLine (.inr rfl)) rest
  have hne : utf8 (fieldLine n ++ ['\r', '\n']) ≠ [] := by
    rw [utf8_append]
    exact List.append_ne_nil_of_right_ne_nil _ (by decide)
  have htrim : (fieldLine n).isEmpty = false := rfl
  have hprefix : contentLength.isPrefixOf (fieldLine n) = true :=
    List.isPrefixOf_iff_prefix.mpr (List.prefix_append _ _)
  have hlt : n < 2 ^ 64 := Nat.lt_of_le_of_lt hn (by decide)
  rw [readHeader]
  simp only [hsplit, hne, decodeUtf8_utf8, trimLineEnd_fieldLine, htrim,
    hprefix, trim_value, parseUsize_digits hlt, Nat.not_lt.mpr hn,
    if_true, if_false, dite_false, Bool.false_eq_true]

/-- A blank line ends the header. -/
theorem readHeader_blank (n : Nat) (firstLine : Bool) (rest : Bytes) :
    readHeader (some n) firstLine (utf8 ['\r', '\n'] ++ rest)
      = (.ok n, rest) := by
  have hsplit := splitLine_text [] (by decide) rest
  rw [List.nil_append] at hsplit
  have hne : utf8 ['\r', '\n'] ≠ [] := by decide
  have htrim : (trimLineEnd ['\r', '\n']).isEmpty = true := by decide
  rw [readHeader]
  simp only [hsplit, hne, decodeUtf8_utf8, htrim, if_true, dite_false]

/-- A header is read as the length it states, whatever follows. -/
theorem readHeader_header {n : Nat} (hn : n ≤ maxContentLength)
    (rest : Bytes) :
    readHeader none true (utf8 (header n).toList ++ rest)
      = (.ok n, rest) := by
  rw [header_toList, utf8_append, List.append_assoc, readHeader_field hn,
    readHeader_blank]

section

variable {T : Type} {json : JsonWire T}

/-- A frame within the limit delimits what its body decodes to. -/
theorem frame_delimits {body : Bytes} {m : DapMessage}
    (hlen : body.length ≤ maxContentLength)
    (hm : json.fromSlice body = .ok m) :
    Delimits (readMessage json) (frame body) m := by
  intro rest
  have hbody : readExactBody body.length (body ++ rest)
      = (.ok body, rest) := by
    rw [readExactBody, if_neg, List.take_left, List.drop_left]
    rw [List.length_append]
    omega
  rw [frame, List.append_assoc, readMessage, readHeader_header hlen]
  dsimp only
  rw [hbody]
  dsimp only
  rw [hm]

/-- A message whose body is within the limit and decodes. -/
def Framed (json : JsonWire T) (m : T) (d : DapMessage) : Prop :=
  ∃ body, json.toVec m = .ok body ∧ body.length ≤ maxContentLength ∧
    json.fromSlice body = .ok d

/-- Writing framed messages writes delimiting frames. -/
theorem writeMessages_frames {ms : List T} {ds : List DapMessage}
    (h : List.Forall₂ (Framed json) ms ds) :
    ∃ frames : List Bytes,
      (∀ written, writeMessages json written ms
        = .ok (written ++ frames.flatten)) ∧
      List.Forall₂ (Delimits (readMessage json)) frames ds := by
  induction h with
  | nil =>
      refine ⟨[], fun written => ?_, .nil⟩
      rw [List.flatten_nil, List.append_nil]
      rfl
  | cons hd _ ih =>
      obtain ⟨body, hvec, hlen, hdec⟩ := hd
      obtain ⟨frames, hwrite, hframes⟩ := ih
      refine ⟨frame body :: frames, fun written => ?_,
        .cons (frame_delimits hlen hdec) hframes⟩
      rw [writeMessages, writeMessage, hvec]
      dsimp only
      rw [hwrite, List.flatten_cons, List.append_assoc]

/-- Writing two lists is writing one after the other. -/
theorem writeMessages_append {ms ms' : List T} {written w : Bytes}
    (h : writeMessages json written ms = .ok w) :
    writeMessages json written (ms ++ ms') = writeMessages json w ms' := by
  induction ms generalizing written with
  | nil =>
      cases h
      rfl
  | cons m ms ih =>
      rw [writeMessages] at h
      rw [List.cons_append, writeMessages]
      split at h
      · cases h
      · next w' hw' => exact ih h

/-- At the end of the stream the reader reports it. -/
theorem readMessage_nil :
    readMessage json [] = (.error .eof, []) := by
  rw [readMessage, readHeader]
  rfl

-- =========================================================== the results

/-- Framed messages written one after another are read back in order,
each once, up to any point with exactly the frames after it left, and
then the end of the stream; and each body is classified by the `type`
and `event` of its envelope. -/
theorem frames_round_trip {ms : List T} {ds : List DapMessage}
    (h : List.Forall₂ (Framed json) ms ds) :
    ∃ stream, writeMessages json [] ms = .ok stream ∧
      readMany (readMessage json) (ds.length + 1) stream
        = (ds.map .ok ++ [.error .eof], []) ∧
      (∀ k ≤ ds.length, ∃ rest,
        writeMessages json [] (ms.drop k) = .ok rest ∧
        readMany (readMessage json) k stream
          = ((ds.take k).map .ok, rest)) ∧
      ∀ body d, json.fromSlice body = .ok d →
        ∃ envelope, json.envelope body = .ok envelope ∧
          d.class = classOf envelope.ty envelope.event := by
  obtain ⟨frames, hwrite, hframes⟩ := writeMessages_frames h
  have hall := readMany_flatten hframes []
  rw [List.append_nil] at hall
  refine ⟨frames.flatten, hwrite [], ?_, fun k hk => ?_,
    fun body d hd => fromSlice_class hd⟩
  · rw [readMany_add, hall]
    dsimp only
    rw [readMany_succ, readMessage_nil]
    rfl
  · -- The first `k` frames are read; the frames after them are left.
    obtain ⟨frames₁, hwrite₁, hframes₁⟩ :=
      writeMessages_frames (List.forall₂_take k h)
    obtain ⟨frames₂, hwrite₂, -⟩ :=
      writeMessages_frames (List.forall₂_drop k h)
    have hstream : frames.flatten
        = frames₁.flatten ++ frames₂.flatten := by
      have happ : writeMessages json [] (ms.take k ++ ms.drop k)
          = writeMessages json ([] ++ frames₁.flatten) (ms.drop k) :=
        writeMessages_append (hwrite₁ [])
      rw [List.take_append_drop, hwrite, hwrite₂] at happ
      exact Except.ok.inj happ
    have hlen : (ds.take k).length = k := by
      rw [List.length_take, Nat.min_eq_left hk]
    refine ⟨frames₂.flatten, hwrite₂ [], ?_⟩
    have hread := readMany_flatten hframes₁ frames₂.flatten
    rw [hlen] at hread
    rw [hstream]
    exact hread

end

/-- An output event whose text looks like a header. -/
def outputText : String :=
  "\x7b\"seq\":1,\"type\":\"event\",\"event\":\"output\",\"body\":"
    ++ "\x7b\"output\":\"é\\r\\n\\r\\nContent-Length: 9\"\x7d\x7d"

/-- The event of the text. -/
def outputEvent : OutputEvent :=
  ⟨1, "event", "output", "", "é\r\n\r\nContent-Length: 9"⟩

/-- A JSON library that knows one text. -/
def outputJson : JsonWire OutputEvent where
  toVec _ := .ok (utf8 outputText.toList)
  envelope b :=
    if b = utf8 outputText.toList then .ok ⟨1, "event", none, some "output"⟩
    else .error "expected value"
  response _ := .error "missing field `request_seq`"
  stopped _ := .error "missing field `reason`"
  output b :=
    if b = utf8 outputText.toList then .ok outputEvent
    else .error "expected value"
  exited _ := .error "missing field `exitCode`"

/-- Two such events in one stream. -/
theorem two_outputs_round_trip :
    ∃ stream, writeMessages outputJson [] [outputEvent, outputEvent]
        = .ok stream ∧
      readMany (readMessage outputJson) 3 stream
        = ([.ok (.event (.output outputEvent)),
            .ok (.event (.output outputEvent)), .error .eof], []) := by
  have hframed : Framed outputJson outputEvent
      (.event (.output outputEvent)) := by
    refine ⟨_, rfl, by decide +kernel, ?_⟩
    simp [JsonWire.fromSlice, JsonWire.eventFromEnvelope, outputJson]
  obtain ⟨stream, hwrite, hread, -⟩ :=
    frames_round_trip (.cons hframed (.cons hframed .nil))
  exact ⟨stream, hwrite, hread⟩

end DebugMcp
