/-
Programs as trees of operations.

A concurrent call is written once, in `do` notation, over a signature
`Op : Type → Type` of atomic operations: one operation is one critical
section or one suspension point, and between two operations the call
does nothing another call could see. What an operation does to the
shared world is not said here (`Lib/Pool.lean`); what a call does with
the answers is the tree itself, so a call's text can be read against the
program it models.

# Protocols

A protocol is a transition relation on phases, labelled by an operation
and its answer. `Obeys` says that a program performs only operations its
phase allows, whatever the answers are. It is the interface the pool's
invariant rule consumes: a proof about all interleavings sees a call
only through its protocol, never through its text.
-/
import Mathlib.Logic.Function.Basic

namespace Conc

-- =========================================================== programs

/-- A call: it has returned, or it performs one operation and continues
with the answer. -/
inductive Prog (Op : Type → Type) (α : Type) : Type 1
  | ret (a : α)
  | act {β : Type} (op : Op β) (k : β → Prog Op α)

namespace Prog

variable {Op : Type → Type} {α β γ : Type}

/-- Sequencing: graft the continuation at the leaves. -/
def bind : Prog Op α → (α → Prog Op γ) → Prog Op γ
  | ret a, f => f a
  | act op k, f => act op fun b => (k b).bind f

/-- The program of one operation. -/
def perform (op : Op β) : Prog Op β := act op ret

instance : Monad (Prog Op) where
  pure := ret
  bind := bind

@[simp] theorem pure_eq (a : α) : (pure a : Prog Op α) = ret a := rfl

@[simp] theorem ret_bind (a : α) (f : α → Prog Op γ) :
    (ret a : Prog Op α) >>= f = f a := rfl

@[simp] theorem act_bind {δ : Type} (op : Op δ) (k : δ → Prog Op α)
    (f : α → Prog Op γ) : act op k >>= f = act op fun b => k b >>= f :=
  rfl

@[simp] theorem perform_bind (op : Op β) (f : β → Prog Op γ) :
    perform op >>= f = act op f := rfl

/-- Sequencing is associative. -/
theorem bind_assoc (p : Prog Op α) (f : α → Prog Op β)
    (g : β → Prog Op γ) : p >>= f >>= g = p >>= fun a => f a >>= g := by
  induction p with
  | ret a => rfl
  | act op k ih =>
      rw [act_bind, act_bind, act_bind]
      congr 1
      funext b
      exact ih b

/-- Replace every operation by a program over another signature. -/
def interp {Op' : Type → Type} (f : ∀ {β : Type}, Op β → Prog Op' β) :
    Prog Op α → Prog Op' α
  | ret a => ret a
  | act op k => f op >>= fun b => (k b).interp f

/-- Returning what a program returns is the program. -/
theorem bind_ret (p : Prog Op α) : (p >>= ret) = p := by
  induction p with
  | ret a => rfl
  | act op k ih =>
      rw [act_bind]
      congr 1
      funext b
      exact ih b

section

variable {Op' : Type → Type} (f : ∀ {β : Type}, Op β → Prog Op' β)

/-- One operation is replaced by its program. -/
@[simp] theorem interp_perform (op : Op β) :
    (perform op).interp f = f op := bind_ret (f op)

/-- Replacing goes through sequencing. -/
theorem interp_bind (p : Prog Op α) (k : α → Prog Op γ) :
    (p >>= k).interp f = p.interp f >>= fun a => (k a).interp f := by
  induction p with
  | ret a => rfl
  | act op l ih =>
      show (f op >>= fun b => (l b >>= k).interp f)
        = (f op >>= fun b => (l b).interp f) >>= _
      rw [bind_assoc]
      congr 1
      funext b
      exact ih b

end

end Prog

/-- The sum of two signatures. -/
inductive OpSum (F G : Type → Type) (β : Type) : Type
  | inl (op : F β)
  | inr (op : G β)

-- ========================================================== protocols

/-- A protocol: from phase `q`, operation `op` answered by `b` leads to
phase `q'`. -/
abbrev Protocol (Op : Type → Type) (Q : Type) : Type 1 :=
  ∀ ⦃β : Type⦄, Q → Op β → β → Q → Prop

section Obeys

variable {Op : Type → Type} {Q α β : Type} {P : Protocol Op Q}

/-- The program, started in phase `q`, performs only operations the
protocol allows, whatever they answer, and returns in a phase and with a
value that satisfy `R`. -/
def Obeys (P : Protocol Op Q) (R : Q → α → Prop) : Prog Op α → Q → Prop
  | .ret a, q => R q a
  | .act op k, q => ∀ b, ∃ q', P q op b q' ∧ Obeys P R (k b) q'

@[simp] theorem obeys_ret {R : Q → α → Prop} {a : α} {q : Q} :
    Obeys P R (.ret a) q ↔ R q a := Iff.rfl

/-- A weaker postcondition. -/
theorem Obeys.mono {R S : Q → α → Prop} {p : Prog Op α} {q : Q}
    (h : Obeys P R p q) (hRS : ∀ q a, R q a → S q a) : Obeys P S p q := by
  induction p generalizing q with
  | ret a => exact hRS q a h
  | act op k ih =>
      intro b
      obtain ⟨q', hq, hk⟩ := h b
      exact ⟨q', hq, ih b hk⟩

/-- Sequencing: the continuation starts where the first part ended. -/
theorem Obeys.bind {R : Q → α → Prop} {S : Q → β → Prop} {p : Prog Op α}
    {f : α → Prog Op β} {q : Q} (h : Obeys P R p q)
    (hf : ∀ q a, R q a → Obeys P S (f a) q) : Obeys P S (p >>= f) q := by
  induction p generalizing q with
  | ret a => exact hf q a h
  | act op k ih =>
      intro b
      obtain ⟨q', hq, hk⟩ := h b
      exact ⟨q', hq, ih b hk⟩

/-- One operation and the rest. -/
theorem Obeys.perform {R : Q → α → Prop} {op : Op β}
    {k : β → Prog Op α} {q : Q}
    (h : ∀ b, ∃ q', P q op b q' ∧ Obeys P R (k b) q') :
    Obeys P R (Prog.perform op >>= k) q := h

/-- Phases of one protocol embedded in those of another that allows at
least as much. -/
theorem Obeys.embed {Q' : Type} {P' : Protocol Op Q'} {f : Q → Q'}
    {R : Q → α → Prop} {R' : Q' → α → Prop} {p : Prog Op α} {q : Q}
    (hP : ∀ {β : Type} {q q' : Q} {op : Op β} {b : β},
      P q op b q' → P' (f q) op b (f q'))
    (hR : ∀ q a, R q a → R' (f q) a) (h : Obeys P R p q) :
    Obeys P' R' p (f q) := by
  induction p generalizing q with
  | ret a => exact hR q a h
  | act op k ih =>
      intro b
      obtain ⟨q', hq, hk⟩ := h b
      exact ⟨f q', hP hq, ih b hk⟩

end Obeys

end Conc
