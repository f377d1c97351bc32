/-
Documents, and how records are read from them.

A document is what a JSON text says, with the integers apart from the
other numbers. A record is read by name from an object, whatever else is
in it and in whatever order, and by position from an array; a member may
be left out where there is something to take for it.

`Writes` is the other side, an object that has the members of a record,
each in a form of its own. `field_bind` reads one member off it, and a
record is read by one such step a field (`record_writes`).
-/
import Mathlib.Data.Rat.Defs

namespace Doc

-- ============================================================ documents

/-- A document. -/
inductive Value
  | null
  | bool (b : Bool)
  | int (n : Int)
  | float (q : Rat)
  | str (s : String)
  | arr (xs : List Value)
  | obj (members : List (String × Value))

/-- The value under a key. -/
def lookup (key : String) (members : List (String × Value)) :
    Option Value :=
  (members.find? fun kv => kv.1 == key).map Prod.snd

/-- How a value is read. -/
abbrev Reader (α : Type) := Value → Option α

namespace Reader

/-- A string. -/
def str : Reader String
  | .str s => some s
  | _ => none

/-- A truth value. -/
def bool : Reader Bool
  | .bool b => some b
  | _ => none

/-- An integer of 64 bits. -/
def int64 : Reader Int64
  | .int n => if (Int64.ofInt n).toInt = n then some (.ofInt n) else none
  | _ => none

/-- What may be null. -/
def option {α : Type} (r : Reader α) : Reader (Option α)
  | .null => some none
  | v => (r v).map some

/-- A list. -/
def list {α : Type} (r : Reader α) : Reader (List α)
  | .arr xs => xs.mapM r
  | _ => none

end Reader

-- ============================================================== records

/-- What a record is read from: the members of an object, or the elements
of an array that are left. -/
inductive Source
  | members (ms : List (String × Value))
  | elements (xs : List Value)

/-- The rest of a record. -/
abbrev Record (α : Type) := StateT Source Option α

/-- A field; `missing` is taken where it is left out. -/
def field {α : Type} (key : String) (r : Reader α) (missing : Option α) :
    Record α
  | .members ms =>
      match lookup key ms with
      | some v => (r v).map fun a => (a, .members ms)
      | none => missing.map fun a => (a, .members ms)
  | .elements (x :: xs) => (r x).map fun a => (a, .elements xs)
  | .elements [] => missing.map fun a => (a, .elements [])

/-- Read a record; no element may be left. -/
def record {α : Type} (p : Record α) : Reader α
  | .obj ms => (p (.members ms)).map Prod.fst
  | .arr xs =>
      match p (.elements xs) with
      | some (a, .elements []) => some a
      | _ => none
  | _ => none

-- =============================================================== writing

/-- A member a writer has: its key, the forms its value may have, and
whether it may be left out. -/
structure Member where
  key : String
  form : Value → Prop
  spared : Prop

/-- Has an object the member, or leaves it out as it may? -/
def Member.In (f : Member) (ms : List (String × Value)) : Prop :=
  (∃ u, lookup f.key ms = some u ∧ f.form u) ∨
    (lookup f.key ms = none ∧ f.spared)

/-- An object with these members, and maybe others. -/
def Writes (fields : List Member) (v : Value) : Prop :=
  ∃ ms, v = .obj ms ∧ ∀ f ∈ fields, f.In ms

/-- An array of elements in their forms. -/
def WritesList {α : Type} (form : α → Value → Prop) (as : List α)
    (v : Value) : Prop :=
  ∃ xs, v = .arr xs ∧ List.Forall₂ form as xs

namespace Member

/-- A string; an empty one may be left out. -/
def text (key s : String) : Member := ⟨key, (· = .str s), s = ""⟩

/-- An integer that may not be left out. -/
def needed (key : String) (n : Int64) : Member :=
  ⟨key, (· = .int n.toInt), False⟩

/-- An integer; zero may be left out. -/
def number (key : String) (n : Int64) : Member :=
  ⟨key, (· = .int n.toInt), n = 0⟩

/-- A truth value; false may be left out. -/
def flag (key : String) (b : Bool) : Member :=
  ⟨key, (· = .bool b), b = false⟩

/-- What may be null, or left out. -/
def perhaps {α : Type} (key : String) (form : α → Value → Prop) :
    Option α → Member
  | some a => ⟨key, fun u => u ≠ .null ∧ form a u, False⟩
  | none => ⟨key, (· = .null), True⟩

/-- A list; an empty one may be left out. -/
def elements {α : Type} (key : String) (form : α → Value → Prop)
    (as : List α) : Member :=
  ⟨key, WritesList form as, as = []⟩

end Member

section

variable {α β : Type} {ms : List (String × Value)} {key : String}

/-- A field is read off a member. -/
theorem field_in {f : Member} {r : Reader α} {missing : Option α} {a : α}
    (h : f.In ms) (hform : ∀ u, f.form u → r u = some a)
    (hspared : f.spared → missing = some a) :
    field f.key r missing (.members ms) = some (a, .members ms) := by
  unfold field
  rcases h with ⟨u, hu, hf⟩ | ⟨hn, hs⟩
  · simp only [hu]
    rw [hform u hf]
    rfl
  · simp only [hn]
    rw [hspared hs]
    rfl

/-- And then the rest after it. -/
theorem bind_in {p : Record α} {a : α} {k : α → Record β}
    (h : p (.members ms) = some (a, .members ms)) :
    (p >>= k) (.members ms) = k a (.members ms) := by
  show (p (.members ms) >>= fun x => k x.1 x.2) = _
  rw [h]
  rfl

theorem field_bind {f : Member} {r : Reader α} {missing : Option α}
    {a : α} {k : α → Record β} (h : f.In ms)
    (hform : ∀ u, f.form u → r u = some a)
    (hspared : f.spared → missing = some a) :
    (field f.key r missing >>= k) (.members ms) = k a (.members ms) :=
  bind_in (field_in h hform hspared)

theorem text_bind {s : String} {k : String → Record β}
    (h : (Member.text key s).In ms) :
    (field key Reader.str (some "") >>= k) (.members ms)
      = k s (.members ms) := by
  apply field_bind h
  · rintro u rfl
    rfl
  · intro hs
    rw [hs]

/-- An integer of 64 bits is read. -/
theorem int64_int (n : Int64) : Reader.int64 (.int n.toInt) = some n := by
  unfold Reader.int64
  simp

theorem needed_bind {n : Int64} {k : Int64 → Record β}
    (h : (Member.needed key n).In ms) :
    (field key Reader.int64 none >>= k) (.members ms)
      = k n (.members ms) := by
  apply field_bind h
  · rintro u rfl
    exact int64_int n
  · exact False.elim

theorem number_bind {n : Int64} {k : Int64 → Record β}
    (h : (Member.number key n).In ms) :
    (field key Reader.int64 (some 0) >>= k) (.members ms)
      = k n (.members ms) := by
  apply field_bind h
  · rintro u rfl
    exact int64_int n
  · intro hn
    rw [hn]

theorem flag_bind {b : Bool} {k : Bool → Record β}
    (h : (Member.flag key b).In ms) :
    (field key Reader.bool (some false) >>= k) (.members ms)
      = k b (.members ms) := by
  apply field_bind h
  · rintro u rfl
    rfl
  · intro hb
    rw [hb]

theorem perhaps_bind {form : α → Value → Prop} {r : Reader α}
    (hform : ∀ a u, form a u → r u = some a) {a : Option α}
    {k : Option α → Record β} (h : (Member.perhaps key form a).In ms) :
    (field key (Reader.option r) (some none) >>= k) (.members ms)
      = k a (.members ms) := by
  cases a with
  | none =>
      refine field_bind h ?_ fun _ => rfl
      rintro u rfl
      rfl
  | some a =>
      refine field_bind h ?_ False.elim
      rintro u ⟨hnull, hu⟩
      have hr := hform a u hu
      cases u with
      | null => exact absurd rfl hnull
      | bool | int | float | str | arr | obj =>
          show (r _).map some = _
          rw [hr]
          rfl

/-- A list is read element by element. -/
theorem list_writes {form : α → Value → Prop} {r : Reader α}
    (hform : ∀ a u, form a u → r u = some a) {as : List α} {v : Value}
    (h : WritesList form as v) : Reader.list r v = some as := by
  obtain ⟨xs, rfl, hxs⟩ := h
  show xs.mapM r = some as
  induction hxs with
  | nil => rfl
  | cons hx _ ih =>
      rw [List.mapM_cons, hform _ _ hx, ih]
      rfl

theorem elements_in {form : α → Value → Prop} {r : Reader α}
    (hform : ∀ a u, form a u → r u = some a) {as : List α}
    (h : (Member.elements key form as).In ms) :
    field key (Reader.list r) (some []) (.members ms)
      = some (as, .members ms) := by
  apply field_in h
  · intro u hu
    exact list_writes hform hu
  · intro ha
    rw [ha]

/-- A record is read off an object that has its members. -/
theorem record_writes {fields : List Member} {p : Record α} {a : α}
    {v : Value} (h : Writes fields v)
    (hp : ∀ ms, (∀ f ∈ fields, f.In ms) →
      p (.members ms) = some (a, .members ms)) :
    record p v = some a := by
  obtain ⟨ms, rfl, hms⟩ := h
  show (p (.members ms)).map Prod.fst = some a
  rw [hp ms hms]
  rfl

end

end Doc
