/-
Histories, apart from the calls that made them.

A `Path` is a list of events that can follow one another, whatever
programs performed the operations. What is true of every path of a machine
is true of every run of every pool over it, and of the part of a run that
goes through it when it is one part of a larger machine.
-/
import DebugMcp.Lib.Pool

namespace Conc

variable {Op F G : Type → Type} {Ans Env ω α A B E₁ E₂ ω₁ ω₂ : Type}

-- ================================================================ paths

/-- The events `h`, newest first, can lead the machine from `w₀` to
`w`. -/
inductive Path (m : Machine Op Ans Env ω) (w₀ : ω) :
    List (Event Op Env ω) → ω → Prop
  | nil : Path m w₀ [] w₀
  | act {h : List (Event Op Env ω)} {w w' : ω} {i : Nat} {β : Type}
      {op : Op β} {a : Ans} {b : β} (hp : Path m w₀ h w)
      (hr : m.run i op a w = some (b, w')) :
      Path m w₀ (.act i op b w w' :: h) w'
  | env {h : List (Event Op Env ω)} {w w' : ω} {e : Env}
      (hp : Path m w₀ h w) (he : m.env e w = some w') :
      Path m w₀ (.env e w w' :: h) w'

/-- The history of a run is a path. -/
theorem RunIf.path {m : Machine Op Ans Env ω}
    {ok : List (Event Op Env ω) → Event Op Env ω → Prop}
    {s₀ s : Pool Op α ω} {h : List (Event Op Env ω)}
    (hr : RunIf m ok s₀ h s) : Path m s₀.world h s.world := by
  induction hr with
  | nil => exact .nil
  | snoc _ hs _ ih =>
      cases hs with
      | act _ hr => exact .act ih hr
      | env he => exact .env ih he

-- ============================================================= two parts

/-- The operations of two machines. -/
def OpSum.run (m₁ : Machine F A E₁ ω₁) (m₂ : Machine G B E₂ ω₂) {β : Type}
    (i : Nat) (op : OpSum F G β) (a : A ⊕ B) (w : ω₁ × ω₂) :
    Option (β × (ω₁ × ω₂)) :=
  match op, a with
  | .inl op, .inl a => (m₁.run i op a w.1).map fun r => (r.1, r.2, w.2)
  | .inr op, .inr b => (m₂.run i op b w.2).map fun r => (r.1, w.1, r.2)
  | _, _ => none

/-- Two machines side by side: a call may use both, and neither sees the
other. -/
def Machine.beside (m₁ : Machine F A E₁ ω₁) (m₂ : Machine G B E₂ ω₂) :
    Machine (OpSum F G) (A ⊕ B) (E₁ ⊕ E₂) (ω₁ × ω₂) where
  run i op a w := OpSum.run m₁ m₂ i op a w
  env e w :=
    match e with
    | .inl e => (m₁.env e w.1).map (·, w.2)
    | .inr e => (m₂.env e w.2).map (w.1, ·)

/-- The first machine's event of an event, if it is the first's. -/
def Event.left? : Event (OpSum F G) (E₁ ⊕ E₂) (ω₁ × ω₂) →
    Option (Event F E₁ ω₁)
  | .act i (.inl op) b w w' => some (.act i op b w.1 w'.1)
  | .env (.inl e) w w' => some (.env e w.1 w'.1)
  | _ => none

/-- What the first machine did. -/
def leftPart (h : List (Event (OpSum F G) (E₁ ⊕ E₂) (ω₁ × ω₂))) :
    List (Event F E₁ ω₁) :=
  h.filterMap Event.left?

/-- A path of the two is one of the first. -/
theorem Path.left {m₁ : Machine F A E₁ ω₁} {m₂ : Machine G B E₂ ω₂}
    {w₀ w : ω₁ × ω₂} {h : List (Event (OpSum F G) (E₁ ⊕ E₂) (ω₁ × ω₂))}
    (hp : Path (m₁.beside m₂) w₀ h w) :
    Path m₁ w₀.1 (leftPart h) w.1 := by
  induction hp with
  | nil => exact .nil
  | @act h w w' i β op a b _ hr ih =>
      cases op with
      | inl op =>
          cases a with
          | inl a =>
              obtain ⟨r, hr₁, he⟩ := Option.map_eq_some_iff.mp hr
              cases he
              exact .act ih hr₁
          | inr _ => cases hr
      | inr op =>
          cases a with
          | inl _ => cases hr
          | inr b =>
              obtain ⟨r, -, he⟩ := Option.map_eq_some_iff.mp hr
              cases he
              exact ih
  | @env h w w' e _ he ih =>
      cases e with
      | inl e =>
          obtain ⟨v, hv, he⟩ := Option.map_eq_some_iff.mp he
          cases he
          exact .env ih hv
      | inr e =>
          obtain ⟨v, -, he⟩ := Option.map_eq_some_iff.mp he
          cases he
          exact ih

end Conc
