/-
A pool of concurrent calls over one shared world.

A `Machine` says what each atomic operation does to the world and which
moves the environment can make on its own. A `Pool` is a world together
with the calls (each at the program it has still to run), and a run
interleaves the calls and the environment one operation at a time, in
any order. The history of a run is the list of its events, newest first:
properties that speak of the past ("the last reset", "the call that
installed it") are functions of the history, so the world carries
nothing but what the modelled program stores. A call that may be
cancelled at an await says so in its text: the await's answer has a case
for it, and the destructors are the operations that follow.

# Rules

- `RunIf.invariant` is the induction principle: an invariant relates the
  world, the history and a phase for every call. One step lemma per kind
  of event proves it for every interleaving. Calls enter only through
  the protocol they obey.
- `exec` replays a list of scheduling decisions, and `exec_run` says
  that what it computes is a run.
-/
import DebugMcp.Lib.Prog

namespace Conc

-- ============================================================ machines

/-- The shared world's operations: `run i op a w` performs `op` for call
`i`, with the environment's choice `a`; `none` when that answer is not
possible in `w`. -/
structure Machine (Op : Type → Type) (Ans Env ω : Type) where
  run : ∀ {β : Type}, Nat → Op β → Ans → ω → Option (β × ω)
  env : Env → ω → Option ω

/-- One event of a run: who moved, what it was answered, and the world
before and after. -/
inductive Event (Op : Type → Type) (Env ω : Type) : Type 1
  | act {β : Type} (i : Nat) (op : Op β) (b : β) (pre post : ω)
  | env (e : Env) (pre post : ω)

/-- A pool: the world and what is left of every call; `none` where there
is no call. -/
structure Pool (Op : Type → Type) (α ω : Type) : Type 1 where
  world : ω
  prog : Nat → Option (Prog Op α)

/-- What call `i` returned, once it has. -/
def Pool.returned {Op : Type → Type} {α ω : Type} (s : Pool Op α ω)
    (i : Nat) : Option α :=
  match s.prog i with
  | some (.ret a) => some a
  | _ => none

theorem Pool.prog_of_returned {Op : Type → Type} {α ω : Type}
    {s : Pool Op α ω} {i : Nat} {a : α} (h : s.returned i = some a) :
    s.prog i = some (.ret a) := by
  unfold Pool.returned at h
  split at h
  · next b hp =>
      cases h
      exact hp
  · cases h

/-- A scheduling decision. -/
inductive Action (Ans Env : Type)
  | step (i : Nat) (a : Ans)
  | env (e : Env)

section

variable {Op : Type → Type} {Ans Env ω α Q : Type}

namespace Event

/-- The call that moved, if a call did. -/
def who : Event Op Env ω → Option Nat
  | act i _ _ _ _ => some i
  | env _ _ _ => none

/-- The world before the event. -/
def pre : Event Op Env ω → ω
  | act _ _ _ w _ => w
  | env _ w _ => w

/-- The world after the event. -/
def post : Event Op Env ω → ω
  | act _ _ _ _ w => w
  | env _ _ w => w

end Event

-- ================================================================ runs

/-- One step of the pool. -/
inductive Step (m : Machine Op Ans Env ω) :
    Pool Op α ω → Event Op Env ω → Pool Op α ω → Prop
  | act {s : Pool Op α ω} {i : Nat} {β : Type} {op : Op β}
      {k : β → Prog Op α} {a : Ans} {b : β} {w' : ω}
      (hp : s.prog i = some (.act op k))
      (hr : m.run i op a s.world = some (b, w')) :
      Step m s (.act i op b s.world w')
        ⟨w', Function.update s.prog i (some (k b))⟩
  | env {s : Pool Op α ω} {e : Env} {w' : ω}
      (he : m.env e s.world = some w') :
      Step m s (.env e s.world w') ⟨w', s.prog⟩

/-- The runs from `s₀` whose every step meets `ok`, a condition on the
history before the step and on the step's event. Newest event first. -/
inductive RunIf (m : Machine Op Ans Env ω)
    (ok : List (Event Op Env ω) → Event Op Env ω → Prop)
    (s₀ : Pool Op α ω) : List (Event Op Env ω) → Pool Op α ω → Prop
  | nil : RunIf m ok s₀ [] s₀
  | snoc {h : List (Event Op Env ω)} {s s' : Pool Op α ω}
      {ev : Event Op Env ω} (hr : RunIf m ok s₀ h s)
      (hs : Step m s ev s') (hok : ok h ev) : RunIf m ok s₀ (ev :: h) s'

/-- All runs from `s₀`. -/
abbrev Run (m : Machine Op Ans Env ω) (s₀ : Pool Op α ω) :
    List (Event Op Env ω) → Pool Op α ω → Prop :=
  RunIf m (fun _ _ => True) s₀

variable {m : Machine Op Ans Env ω}
  {ok : List (Event Op Env ω) → Event Op Env ω → Prop}
  {s₀ s s' : Pool Op α ω} {h : List (Event Op Env ω)}
  {ev : Event Op Env ω}

/-- The world a step leaves is the one its event records. -/
theorem Step.post_eq (hs : Step m s ev s') : ev.post = s'.world := by
  cases hs <;> rfl

/-- The world a step starts in is the one its event records. -/
theorem Step.pre_eq (hs : Step m s ev s') : ev.pre = s.world := by
  cases hs <;> rfl

/-- A call that has returned stays so. -/
theorem RunIf.ret_stays {i : Nat} {a : α} (hr : RunIf m ok s₀ h s)
    (hp : s₀.prog i = some (.ret a)) : s.prog i = some (.ret a) := by
  induction hr with
  | nil => exact hp
  | snoc _ hs _ ih =>
      cases hs with
      | @act j β op k b b' w' hj hr =>
          have hij : i ≠ j := by
            rintro rfl
            cases ih.symm.trans hj
          exact (Function.update_of_ne hij _ _).trans ih
      | env he => exact ih

/-- There is a call where there was one. -/
theorem RunIf.prog_isSome {i : Nat} (hr : RunIf m ok s₀ h s)
    (hp : (s₀.prog i).isSome) : (s.prog i).isSome := by
  induction hr with
  | nil => exact hp
  | snoc _ hs _ ih =>
      cases hs with
      | @act j β op k b b' w' hj hr =>
          by_cases hij : i = j
          · subst hij
            exact Option.isSome_of_eq_some (Function.update_self ..)
          · exact (congrArg Option.isSome
              (Function.update_of_ne hij _ _)).trans ih
      | env he => exact ih

/-- One run goes on as another. -/
theorem RunIf.append {ok : Event Op Env ω → Prop}
    {h' : List (Event Op Env ω)}
    (hr : RunIf m (fun _ => ok) s₀ h s)
    (hr' : RunIf m (fun _ => ok) s h' s') :
    RunIf m (fun _ => ok) s₀ (h' ++ h) s' := by
  induction hr' with
  | nil => exact hr
  | snoc _ hs hok ih => exact .snoc ih hs hok

/-- Runs under a condition are runs. -/
theorem RunIf.run (hr : RunIf m ok s₀ h s) : Run m s₀ h s := by
  induction hr with
  | nil => exact .nil
  | snoc _ hs _ ih => exact .snoc ih hs trivial

/-- How many steps call `i` has taken. -/
def stepsOf (i : Nat) : List (Event Op Env ω) → Nat
  | [] => 0
  | ev :: h => stepsOf i h + if ev.who = some i then 1 else 0

-- ============================================ the invariant principle

/-- An invariant of a pool whose calls obey a protocol. `φ i` is the
phase of call `i`. -/
structure Inductive (m : Machine Op Ans Env ω) (P : Protocol Op Q)
    (ok : List (Event Op Env ω) → Event Op Env ω → Prop)
    (I : ω → (Nat → Q) → List (Event Op Env ω) → Prop) : Prop where
  act : ∀ {w w' : ω} {φ : Nat → Q} {h : List (Event Op Env ω)} {i : Nat}
    {β : Type} {op : Op β} {a : Ans} {b : β} {q' : Q},
    I w φ h → m.run i op a w = some (b, w') → P (φ i) op b q' →
    ok h (.act i op b w w') →
    I w' (Function.update φ i q') (.act i op b w w' :: h)
  env : ∀ {w w' : ω} {φ : Nat → Q} {h : List (Event Op Env ω)} {e : Env},
    I w φ h → m.env e w = some w' → ok h (.env e w w') →
    I w' φ (.env e w w' :: h)

variable {P : Protocol Op Q} {R : Nat → Q → α → Prop}
  {I : ω → (Nat → Q) → List (Event Op Env ω) → Prop} {q₀ : Nat → Q}

/-- The induction principle for runs: an inductive invariant that holds
of the first world holds in every state a run reaches, for phases every
remaining program obeys. -/
theorem RunIf.invariant (hI : Inductive m P ok I)
    (hcalls : ∀ i p, s₀.prog i = some p → Obeys P (R i) p (q₀ i))
    (hinit : I s₀.world q₀ []) (hr : RunIf m ok s₀ h s) :
    ∃ φ, I s.world φ h ∧
      ∀ i p, s.prog i = some p → Obeys P (R i) p (φ i) := by
  induction hr with
  | nil => exact ⟨q₀, hinit, hcalls⟩
  | snoc _ hs hok ih =>
      obtain ⟨φ, hφ, hobey⟩ := ih
      cases hs with
      | @act i β op k a b w' hp hr =>
          obtain ⟨q', hq, hk⟩ := hobey i _ hp b
          refine ⟨_, hI.act hφ hr hq hok, fun j p hj => ?_⟩
          dsimp only at hj
          by_cases hij : j = i
          · subst hij
            rw [Function.update_self] at hj ⊢
            cases hj
            exact hk
          · rw [Function.update_of_ne hij] at hj ⊢
            exact hobey j p hj
      | env he => exact ⟨φ, hI.env hφ he hok, hobey⟩

/-- An invariant that may use another one, which holds before every
step. -/
structure InductiveOver (m : Machine Op Ans Env ω) (P : Protocol Op Q)
    (ok : List (Event Op Env ω) → Event Op Env ω → Prop)
    (I J : ω → (Nat → Q) → List (Event Op Env ω) → Prop) : Prop where
  act : ∀ {w w' : ω} {φ : Nat → Q} {h : List (Event Op Env ω)} {i : Nat}
    {β : Type} {op : Op β} {a : Ans} {b : β} {q' : Q},
    I w φ h → J w φ h → m.run i op a w = some (b, w') →
    P (φ i) op b q' → ok h (.act i op b w w') →
    J w' (Function.update φ i q') (.act i op b w w' :: h)
  env : ∀ {w w' : ω} {φ : Nat → Q} {h : List (Event Op Env ω)} {e : Env},
    I w φ h → J w φ h → m.env e w = some w' → ok h (.env e w w') →
    J w' φ (.env e w w' :: h)

/-- An invariant of the runs a condition allows is one of those a
stronger condition does. -/
theorem Inductive.mono
    {ok' : List (Event Op Env ω) → Event Op Env ω → Prop}
    (hI : Inductive m P ok I) (hok : ∀ h ev, ok' h ev → ok h ev) :
    Inductive m P ok' I where
  act h hr hq h' := hI.act h hr hq (hok _ _ h')
  env h he h' := hI.env h he (hok _ _ h')

/-- The two invariants together are one. -/
theorem Inductive.over
    {J : ω → (Nat → Q) → List (Event Op Env ω) → Prop}
    (hI : Inductive m P ok I) (hJ : InductiveOver m P ok I J) :
    Inductive m P ok (fun w φ h => I w φ h ∧ J w φ h) where
  act h hr hq hok := ⟨hI.act h.1 hr hq hok, hJ.act h.1 h.2 hr hq hok⟩
  env h he hok := ⟨hI.env h.1 he hok, hJ.env h.1 h.2 he hok⟩

/-- Two invariants together are one. -/
theorem Inductive.and
    {J : ω → (Nat → Q) → List (Event Op Env ω) → Prop}
    (hI : Inductive m P ok I) (hJ : Inductive m P ok J) :
    Inductive m P ok (fun w φ h => I w φ h ∧ J w φ h) where
  act h hr hq hok := ⟨hI.act h.1 hr hq hok, hJ.act h.2 hr hq hok⟩
  env h he hok := ⟨hI.env h.1 he hok, hJ.env h.2 he hok⟩

/-- A measure that every step of the protocol lowers bounds the steps of
every call, in any run. -/
theorem Inductive.measure {μ : Q → Nat}
    (hμ : ∀ {q q' : Q} {β : Type} {op : Op β} {b : β},
      P q op b q' → μ q' < μ q) :
    Inductive m P ok (fun _ φ h => ∀ i, stepsOf i h + μ (φ i) ≤ μ (q₀ i))
    where
  act := by
    intro w w' φ h i β op a b q' hI _ hq _ j
    have hj := hI j
    show stepsOf j h + (if some i = some j then 1 else 0)
      + μ (Function.update φ i q' j) ≤ μ (q₀ j)
    by_cases hij : i = j
    · subst hij
      have hlt := hμ hq
      rw [if_pos rfl, Function.update_self]
      omega
    · rw [if_neg fun e => hij (Option.some.inj e),
        Function.update_of_ne fun e => hij e.symm]
      exact hj
  env := by
    intro w w' φ h e hI _ _ j
    exact hI j

-- ============================================================ replaying

/-- Carry out one scheduling decision, when it is possible. -/
def fire (m : Machine Op Ans Env ω) (s : Pool Op α ω) :
    Action Ans Env → Option (Event Op Env ω × Pool Op α ω)
  | .step i a =>
      match s.prog i with
      | some (.act op k) =>
          match m.run i op a s.world with
          | some (b, w') =>
              some (.act i op b s.world w',
                ⟨w', Function.update s.prog i (some (k b))⟩)
          | none => none
      | _ => none
  | .env e =>
      match m.env e s.world with
      | some w' => some (.env e s.world w', ⟨w', s.prog⟩)
      | none => none

/-- Carry out a list of decisions from a state with its history. -/
def exec (m : Machine Op Ans Env ω) :
    List (Action Ans Env) → List (Event Op Env ω) → Pool Op α ω →
      Option (List (Event Op Env ω) × Pool Op α ω)
  | [], h, s => some (h, s)
  | a :: as, h, s =>
      match fire m s a with
      | some (ev, s') => exec m as (ev :: h) s'
      | none => none

/-- A decision that can be carried out is a step. -/
theorem fire_step {a : Action Ans Env}
    (hf : fire m s a = some (ev, s')) : Step m s ev s' := by
  cases a with
  | step i a =>
      simp only [fire] at hf
      split at hf
      · next op k hp =>
          split at hf
          · next b w' hr =>
              cases hf
              exact .act hp hr
          · cases hf
      · cases hf
  | env e =>
      simp only [fire] at hf
      split at hf
      · next w' he =>
          cases hf
          exact .env he
      · cases hf

/-- What a replay computes is a run. -/
theorem exec_run {as : List (Action Ans Env)}
    {h' : List (Event Op Env ω)} (hr : Run m s₀ h s)
    (he : exec m as h s = some (h', s')) : Run m s₀ h' s' := by
  induction as generalizing h s with
  | nil =>
      cases he
      exact hr
  | cons a as ih =>
      simp only [exec] at he
      split at he
      · next ev s₁ hf => exact ih (.snoc hr (fire_step hf) trivial) he
      · cases he

/-- Every event of the history met the condition when it happened. -/
def Meets (ok : List (Event Op Env ω) → Event Op Env ω → Prop) :
    List (Event Op Env ω) → Prop
  | [] => True
  | ev :: h => ok h ev ∧ Meets ok h

instance Meets.decidable [∀ h ev, Decidable (ok h ev)] :
    ∀ h, Decidable (Meets ok h)
  | [] => .isTrue trivial
  | ev :: h =>
      have := Meets.decidable h
      inferInstanceAs (Decidable (ok h ev ∧ Meets ok h))

/-- A run whose every event met the condition is a conditional run. -/
theorem RunIf.ofMeets (hr : Run m s₀ h s) (hm : Meets ok h) :
    RunIf m ok s₀ h s := by
  induction hr with
  | nil => exact .nil
  | snoc _ hs _ ih => exact .snoc (ih hm.2) hs hm.1

/-- What a replay can be checked to end in, some run ends in. -/
theorem exec_witness (m : Machine Op Ans Env ω) (s₀ : Pool Op α ω)
    (as : List (Action Ans Env))
    (C : List (Event Op Env ω) → Pool Op α ω → Prop)
    [∀ h s, Decidable (C h s)]
    (hC : (exec m as [] s₀).any (fun r => decide (C r.1 r.2)) = true) :
    ∃ h s, Run m s₀ h s ∧ C h s := by
  cases he : exec m as [] s₀ with
  | none =>
      rw [he] at hC
      cases hC
  | some r =>
      rw [he] at hC
      exact ⟨r.1, r.2, exec_run .nil he, of_decide_eq_true hC⟩

end

end Conc
