/-
How Windows splits a command line into arguments.

The program comes first: quotes delimit it and nothing is escaped. After
it, arguments are separated by blanks; a quote opens or closes a part in
which blanks are kept; backslashes stand for themselves, except before a
quote, where two make one and an odd one makes the quote a character. A
quote right after a closing one is a character too: the C runtime goes
on in the quoted part then, `CommandLineToArgvW` and the older runtimes
do not (`keeps`).

`split_joined_iff`: words joined with blanks, as they are, come back if
and only if they are plain. Splitting never adds to the text, and each
quote costs something (`weight_split_lt`); without quotes it cuts at
blanks.
-/
import Mathlib.Data.List.Basic

namespace CommandLine

/-- The characters that separate arguments. -/
def isBlank (c : Char) : Bool := c = ' ' || c = '\t'

/-- Where in an argument the scan is; `closed` is right after a closing
quote. -/
inductive Mode
  | between | plain | quoted | closed
  deriving DecidableEq

/-- The mode after a character of an argument. -/
def Mode.inside : Mode → Mode
  | quoted => quoted
  | _ => plain

/-- Characters in front of the argument that is being read. -/
def emit (cs : List Char) : List (List Char) → List (List Char)
  | [] => [cs]
  | w :: ws => (cs ++ w) :: ws

/-- So many backslashes. -/
def slashes (n : Nat) : List Char := List.replicate n '\\'

/-- What a quote adds to the argument after so many backslashes. -/
def quoteText (m : Mode) (n : Nat) : List Char :=
  if n % 2 = 1 then slashes (n / 2) ++ ['"']
  else if m = .closed then ['"']
  else slashes (n / 2)

/-- The mode after a quote. -/
def quoteMode (keeps : Bool) (m : Mode) (n : Nat) : Mode :=
  if n % 2 = 1 then m.inside
  else match m with
    | .closed => if keeps then .quoted else .plain
    | .quoted => .closed
    | _ => .quoted

/-- The arguments, with the backslashes that were just read. -/
def splitFrom (keeps : Bool) : Mode → Nat → List Char → List (List Char)
  | m, n, [] => if m = .between then [] else [slashes n]
  | m, n, c :: cs =>
      if c = '\\' then splitFrom keeps m.inside (n + 1) cs
      else if c = '"' then
        emit (quoteText m n) (splitFrom keeps (quoteMode keeps m n) 0 cs)
      else if isBlank c = false ∨ m = .quoted then
        emit (slashes n ++ [c]) (splitFrom keeps m.inside 0 cs)
      else if m = .between then splitFrom keeps .between 0 cs
      else slashes n :: splitFrom keeps .between 0 cs

/-- The program, and what follows it. -/
def program : Bool → List Char → List Char × List Char
  | _, [] => ([], [])
  | quoted, c :: cs =>
      if c = '"' then program (!quoted) cs
      else if isBlank c ∧ quoted = false then ([], c :: cs)
      else (c :: (program quoted cs).1, (program quoted cs).2)

/-- A command line's program and arguments. -/
def split (keeps : Bool) (cs : List Char) : List (List Char) :=
  (program false cs).1 :: splitFrom keeps .between 0 (program false cs).2

/-- Words, each after a blank. -/
def joined (ws : List (List Char)) : List Char :=
  ws.flatMap fun w => ' ' :: w

/-- A word that stands for itself. -/
def Plain (w : List Char) : Prop :=
  w ≠ [] ∧ ∀ c ∈ w, isBlank c = false ∧ c ≠ '"'

instance (w : List Char) : Decidable (Plain w) :=
  have := List.decidableBAll (fun c => isBlank c = false ∧ c ≠ '"') w
  inferInstanceAs (Decidable (_ ∧ _))

variable {keeps : Bool} {m : Mode} {n : Nat} {c : Char}
  {cs w : List Char} {ws : List (List Char)}

-- ============================================================== weight

/-- The characters that are no blanks. -/
def weight (cs : List Char) : Nat := cs.countP fun c => !isBlank c

@[simp] theorem weight_nil : weight [] = 0 := rfl

@[simp] theorem weight_append (cs ds : List Char) :
    weight (cs ++ ds) = weight cs + weight ds := List.countP_append

theorem weight_cons (c : Char) (cs : List Char) :
    weight (c :: cs) = weight [c] + weight cs := weight_append [c] cs

@[simp] theorem weight_slashes (n : Nat) : weight (slashes n) = n := by
  induction n with
  | zero => rfl
  | succ n ih =>
      rw [slashes, List.replicate_succ, weight_cons]
      exact (congrArg (1 + ·) ih).trans (Nat.add_comm 1 n)

@[simp] theorem flatten_emit (cs : List Char) (ws : List (List Char)) :
    (emit cs ws).flatten = cs ++ ws.flatten := by
  cases ws with
  | nil => rfl
  | cons w ws => exact List.append_assoc ..

theorem weight_quoteText_le : weight (quoteText m n) ≤ n + 1 := by
  unfold quoteText
  split_ifs
  · rw [weight_append, weight_slashes]
    show n / 2 + 1 ≤ n + 1
    omega
  · show 1 ≤ n + 1
    omega
  · rw [weight_slashes]
    omega

theorem weight_quoteText_lt (hm : m ≠ .closed) :
    weight (quoteText m n) < n + 1 := by
  unfold quoteText
  split_ifs with hodd
  · rw [weight_append, weight_slashes]
    show n / 2 + 1 < n + 1
    omega
  · rw [weight_slashes]
    omega

/-- What is split was there. -/
theorem weight_splitFrom_le :
    weight (splitFrom keeps m n cs).flatten ≤ weight cs + n := by
  induction cs generalizing m n with
  | nil =>
      rw [splitFrom]
      split_ifs
      · exact Nat.zero_le _
      · rw [List.flatten_singleton, weight_slashes]
        omega
  | cons c cs ih =>
      rw [splitFrom, weight_cons]
      split_ifs with hs hq hin hbetween
      · subst hs
        have := @ih m.inside (n + 1)
        show _ ≤ 1 + weight cs + n
        omega
      · subst hq
        have := @ih (quoteMode keeps m n) 0
        have := @weight_quoteText_le m n
        rw [flatten_emit, weight_append]
        show _ ≤ 1 + weight cs + n
        omega
      · have := @ih m.inside 0
        rw [flatten_emit, weight_append, weight_append, weight_slashes]
        omega
      · have := @ih .between 0
        omega
      · have := @ih .between 0
        rw [List.flatten_cons, weight_append, weight_slashes]
        omega

/-- A quote is not there any more, or costs its backslash. -/
theorem weight_splitFrom_lt (hm : m ≠ .closed) (hq : '"' ∈ cs) :
    weight (splitFrom keeps m n cs).flatten < weight cs + n := by
  induction cs generalizing m n with
  | nil => cases hq
  | cons c cs ih =>
      have hmode : m.inside ≠ .closed := by cases m <;> decide
      rw [splitFrom, weight_cons]
      split_ifs with hs hc hin hbetween
      · subst hs
        have := ih (n := n + 1) hmode (List.mem_of_ne_of_mem (by decide) hq)
        show _ < 1 + weight cs + n
        omega
      · subst hc
        have := @weight_splitFrom_le keeps (quoteMode keeps m n) 0 cs
        have := weight_quoteText_lt (n := n) hm
        rw [flatten_emit, weight_append]
        show _ < 1 + weight cs + n
        omega
      · have := ih (n := 0) hmode (List.mem_of_ne_of_mem (Ne.symm hc) hq)
        rw [flatten_emit, weight_append, weight_append, weight_slashes]
        omega
      · have := ih (m := .between) (n := 0) (by decide)
          (List.mem_of_ne_of_mem (Ne.symm hc) hq)
        omega
      · have := ih (m := .between) (n := 0) (by decide)
          (List.mem_of_ne_of_mem (Ne.symm hc) hq)
        rw [List.flatten_cons, weight_append, weight_slashes]
        omega

theorem weight_joined (ws : List (List Char)) :
    weight (joined ws) = weight ws.flatten := by
  induction ws with
  | nil => rfl
  | cons w ws ih =>
      rw [joined, List.flatMap_cons, List.flatten_cons, weight_append,
        weight_append, ← joined, ih]
      rfl

-- =============================================================== plain

/-- No character of the word separates or quotes. -/
def Kept (w : List Char) : Prop := ∀ c ∈ w, isBlank c = false ∧ c ≠ '"'

theorem kept_slashes (n : Nat) : Kept (slashes n) := by
  intro c hc
  rw [List.eq_of_mem_replicate hc]
  decide

theorem kept_append {v w : List Char} (hv : Kept v) (hw : Kept w) :
    Kept (v ++ w) := by
  intro c hc
  rcases List.mem_append.mp hc with hc | hc
  · exact hv c hc
  · exact hw c hc

theorem kept_singleton (hb : isBlank c = false) (hq : c ≠ '"') :
    Kept [c] := by
  intro c' hc'
  rw [List.mem_singleton.mp hc']
  exact ⟨hb, hq⟩

/-- A blank outside quotes ends the argument, if there is one. -/
theorem splitFrom_blank (hb : isBlank c = true) (hm : m ≠ .quoted) :
    splitFrom keeps m n (c :: cs) =
      if m = .between then splitFrom keeps .between 0 cs
      else slashes n :: splitFrom keeps .between 0 cs := by
  have hne : ∀ d, isBlank d = false → c ≠ d := by
    intro d hd h
    rw [h, hd] at hb
    cases hb
  have hcut : ¬ (isBlank c = false ∨ m = .quoted) := by
    rw [hb]
    rintro (h | h)
    · cases h
    · exact hm h
  rw [splitFrom, if_neg (hne '\\' rfl), if_neg (hne '"' rfl), if_neg hcut]

/-- Backslashes are something. -/
theorem slashes_ne_nil (hn : 0 < n) : slashes n ≠ [] := by
  rw [slashes, ne_eq, List.replicate_eq_nil_iff]
  exact Nat.ne_of_gt hn

/-- Words cut at blanks, of which the first is not empty if something of
it was there before. -/
def Cut (started : Prop) (ws : List (List Char)) : Prop :=
  ∃ w rest, ws = w :: rest ∧ Kept w ∧ (started → w ≠ []) ∧
    ∀ v ∈ rest, Plain v

theorem Cut.mono {p q : Prop} (h : Cut p ws) (hpq : q → p) : Cut q ws := by
  obtain ⟨w, rest, hws, hw, hne, hrest⟩ := h
  exact ⟨w, rest, hws, hw, fun hp => hne (hpq hp), hrest⟩

theorem Cut.plain {p : Prop} (h : Cut p ws) (hp : p) :
    ∀ w ∈ ws, Plain w := by
  obtain ⟨w, rest, rfl, hw, hne, hrest⟩ := h
  intro v hv
  rcases List.mem_cons.mp hv with rfl | hv
  · exact ⟨hne hp, hw⟩
  · exact hrest v hv

/-- Something in front of the first word. -/
theorem Cut.emit {p : Prop} {v : List Char} (h : Cut p ws) (hv : Kept v)
    (hne : v ≠ []) (q : Prop) : Cut q (emit v ws) := by
  obtain ⟨w, rest, rfl, hw, -, hrest⟩ := h
  refine ⟨v ++ w, rest, rfl, kept_append hv hw, ?_, hrest⟩
  intro _ he
  exact hne (List.append_eq_nil_iff.mp he).1

/-- Without quotes, arguments are cut at blanks. -/
theorem splitFrom_cut (hq : '"' ∉ cs) :
    (∀ w ∈ splitFrom keeps .between 0 cs, Plain w) ∧
    ∀ n, Cut (0 < n) (splitFrom keeps .plain n cs) := by
  induction cs with
  | nil =>
      constructor
      · intro w hw
        cases hw
      · intro n
        exact ⟨slashes n, [], rfl, kept_slashes n, slashes_ne_nil,
          fun _ h => by cases h⟩
  | cons c cs ih =>
      have hc : c ≠ '"' := fun h => hq (h ▸ List.mem_cons_self)
      obtain ⟨hbetween, hplain⟩ := ih fun h => hq (List.mem_cons_of_mem _ h)
      by_cases hs : c = '\\'
      · subst hs
        constructor
        · exact (hplain 1).plain Nat.one_pos
        · intro n
          exact (hplain (n + 1)).mono fun _ => Nat.succ_pos n
      · cases hb : isBlank c with
        | false =>
            have hput : ∀ m n, m.inside = .plain →
                Cut True (splitFrom keeps m n (c :: cs)) := by
              intro m n hm
              rw [splitFrom, if_neg hs, if_neg hc, if_pos (Or.inl hb), hm]
              apply (hplain 0).emit
              · exact kept_append (kept_slashes n) (kept_singleton hb hc)
              · exact fun he => by cases (List.append_eq_nil_iff.mp he).2
            constructor
            · exact (hput .between 0 rfl).plain trivial
            · intro n
              exact (hput .plain n rfl).mono fun _ => trivial
        | true =>
            constructor
            · rw [splitFrom_blank hb (by decide), if_pos rfl]
              exact hbetween
            · intro n
              rw [splitFrom_blank hb (by decide), if_neg (by decide)]
              exact ⟨slashes n, _, rfl, kept_slashes n, slashes_ne_nil,
                hbetween⟩

/-- A plain word ends at a blank or at the end of the line. -/
theorem splitFrom_word (hw : Kept w) (hcs : ∀ c ∈ cs.head?, isBlank c) :
    splitFrom keeps .plain n (w ++ cs)
      = (slashes n ++ w) :: splitFrom keeps .between 0 cs := by
  induction w generalizing n with
  | nil =>
      rw [List.nil_append, List.append_nil]
      cases cs with
      | nil => rfl
      | cons c cs =>
          have hb : isBlank c = true := hcs c rfl
          rw [splitFrom_blank hb (by decide), if_neg (by decide),
            splitFrom_blank hb (by decide), if_pos rfl]
  | cons c w ih =>
      obtain ⟨hb, hq⟩ := hw c List.mem_cons_self
      have hrest := fun k => @ih k fun c hc => hw c (List.mem_cons_of_mem _ hc)
      rw [List.cons_append, splitFrom]
      by_cases hs : c = '\\'
      · rw [if_pos hs, show Mode.plain.inside = .plain from rfl, hrest, hs,
          slashes, slashes, List.replicate_succ', List.append_assoc]
        rfl
      · rw [if_neg hs, if_neg hq, if_pos (Or.inl hb),
          show Mode.plain.inside = .plain from rfl, hrest, emit,
          List.append_assoc]
        rfl

/-- A plain word after a blank. -/
theorem splitFrom_joined_cons (hw : Plain w)
    (hcs : ∀ c ∈ cs.head?, isBlank c) :
    splitFrom keeps .between 0 (' ' :: w ++ cs)
      = w :: splitFrom keeps .between 0 cs := by
  obtain ⟨hne, hkept⟩ := hw
  cases w with
  | nil => exact absurd rfl hne
  | cons c w =>
      -- the first character opens the argument as if it were open already
      have hopen : splitFrom keeps .between 0 (c :: (w ++ cs))
          = splitFrom keeps .plain 0 (c :: (w ++ cs)) := by
        obtain ⟨hb, hq⟩ := hkept c List.mem_cons_self
        rw [splitFrom, splitFrom, if_neg hq, if_neg hq,
          if_pos (Or.inl hb), if_pos (Or.inl hb)]
        rfl
      have hword : splitFrom keeps .plain 0 (c :: w ++ cs) = _ :=
        splitFrom_word hkept hcs
      rw [List.cons_append, splitFrom_blank rfl (by decide), if_pos rfl,
        List.cons_append, hopen, ← List.cons_append, hword]
      rfl

/-- What is joined starts with a blank, if there is anything. -/
theorem joined_head (ws : List (List Char)) :
    ∀ c ∈ (joined ws).head?, isBlank c := by
  intro c hc
  cases ws with
  | nil => cases hc
  | cons w ws =>
      cases hc
      rfl

/-- Words joined with blanks come back if and only if they are plain. -/
theorem split_joined_iff (ws : List (List Char)) :
    splitFrom keeps .between 0 (joined ws) = ws ↔ ∀ w ∈ ws, Plain w := by
  constructor
  · intro h
    have hq : '"' ∉ joined ws := by
      intro hq
      have hlt : weight (splitFrom keeps .between 0 (joined ws)).flatten
          < weight (joined ws) + 0 := weight_splitFrom_lt (by decide) hq
      rw [h, weight_joined] at hlt
      exact Nat.lt_irrefl _ hlt
    have hplain : ∀ w ∈ splitFrom keeps .between 0 (joined ws), Plain w :=
      (splitFrom_cut hq).1
    rwa [h] at hplain
  · intro h
    induction ws with
    | nil => rfl
    | cons w ws ih =>
        rw [joined, List.flatMap_cons, ← joined,
          splitFrom_joined_cons (h w List.mem_cons_self) (joined_head ws),
          ih fun v hv => h v (List.mem_cons_of_mem _ hv)]

-- ============================================================= program

/-- The program ends at a blank. -/
theorem program_rest (hcs : ∀ c ∈ cs.head?, isBlank c) :
    program false cs = ([], cs) := by
  cases cs with
  | nil => rfl
  | cons c cs =>
      have hb : isBlank c = true := hcs c rfl
      have hq : c ≠ '"' := by
        intro h
        rw [h] at hb
        cases hb
      rw [program, if_neg hq, if_pos ⟨hb, rfl⟩]

/-- A program in quotes, with no quote in it. -/
theorem program_quoted {p : List Char} (hp : '"' ∉ p)
    (hcs : ∀ c ∈ cs.head?, isBlank c) :
    program false ('"' :: p ++ '"' :: cs) = (p, cs) := by
  have hin : program true (p ++ '"' :: cs) = (p, cs) := by
    induction p with
    | nil =>
        rw [List.nil_append, program, if_pos rfl]
        exact program_rest hcs
    | cons c p ih =>
        have hc : c ≠ '"' := fun h => hp (h ▸ List.mem_cons_self)
        rw [List.cons_append, program, if_neg hc,
          if_neg (fun h => by cases h.2), ih fun h => hp (List.mem_cons_of_mem _ h)]
  rw [List.cons_append, program, if_pos rfl]
  exact hin

end CommandLine
