/-
A call that runs alone.

No other call is interleaved with it, but the environment still moves
between any two of its operations. So what is known of the world between
two operations must be *stable*: no environment move may take it away.
`Ensures` is the program logic for such a call: an assertion before each
operation, one obligation per answer, and a postcondition on what the
call returned, the world it left and the history of its run.

# Rules

- `Ensures.keep` passes an operation the assertion survives.
- `Ensures.learn` does so too, and keeps what the answer says.
- `Ensures.write` is the general rule of one operation.
- `Ensures.ofObeys` is the rule for a call known by its protocol.
- `Ensures.sound` takes the result to the runs of the pool of one call.
-/
import DebugMcp.Lib.Seq

namespace Conc

variable {Op : Type → Type} {Ans Env ω α γ : Type}

-- ========================================================= assertions

/-- What may be known of the world and of the run that led to it. -/
abbrev Assertion (Op : Type → Type) (Env ω : Type) : Type 1 :=
  ω → List (Event Op Env ω) → Prop

section

variable (m : Machine Op Ans Env ω)
  (ok : List (Event Op Env ω) → Event Op Env ω → Prop)

/-- No environment move takes the assertion away. -/
def Stable (P : Assertion Op Env ω) : Prop :=
  ∀ ⦃w w' : ω⦄ ⦃h : List (Event Op Env ω)⦄ ⦃e : Env⦄,
    P w h → m.env e w = some w' → ok h (.env e w w') →
    P w' (.env e w w' :: h)

/-- Operation `op`, answered by `b`, leads from `P` to `P'`. -/
def Leads {β : Type} (P : Assertion Op Env ω) (op : Op β) (b : β)
    (P' : Assertion Op Env ω) : Prop :=
  ∀ ⦃a : Ans⦄ ⦃w w' : ω⦄ ⦃h : List (Event Op Env ω)⦄,
    P w h → m.run 0 op a w = some (b, w') → ok h (.act 0 op b w w') →
    P' w' (.act 0 op b w w' :: h)

/-- The call, started where `P` holds, returns only values and worlds
`Q` allows. -/
def Ensures (Q : α → Assertion Op Env ω) :
    Prog Op α → Assertion Op Env ω → Prop
  | .ret a, P => ∀ w h, P w h → Q a w h
  | .act op k, P => ∀ b, ∃ P', Stable m ok P' ∧ Leads m ok P op b P' ∧
      Ensures Q (k b) P'

end

variable {m : Machine Op Ans Env ω}
  {ok : List (Event Op Env ω) → Event Op Env ω → Prop}
  {Q : α → Assertion Op Env ω} {P P' : Assertion Op Env ω}

-- ============================================================== rules

theorem Ensures.ret {a : α} (h : ∀ w h, P w h → Q a w h) :
    Ensures m ok Q (.ret a) P := h

/-- One operation and the rest. -/
theorem Ensures.write {β : Type} {op : Op β} {k : β → Prog Op α}
    (P' : β → Assertion Op Env ω) (hst : ∀ b, Stable m ok (P' b))
    (hop : ∀ b, Leads m ok P op b (P' b))
    (hk : ∀ b, Ensures m ok Q (k b) (P' b)) :
    Ensures m ok Q (Prog.perform op >>= k) P :=
  fun b => ⟨P' b, hst b, hop b, hk b⟩

/-- An operation the assertion survives. -/
theorem Ensures.keep {β : Type} {op : Op β} {k : β → Prog Op α}
    (hst : Stable m ok P) (hop : ∀ b, Leads m ok P op b P)
    (hk : ∀ b, Ensures m ok Q (k b) P) :
    Ensures m ok Q (Prog.perform op >>= k) P :=
  .write (fun _ => P) (fun _ => hst) hop hk

/-- A stronger assertion before. -/
theorem Ensures.pre {p : Prog Op α} (h : Ensures m ok Q p P)
    (hP : ∀ w h, P' w h → P w h) : Ensures m ok Q p P' := by
  cases p with
  | ret a => exact fun w h' hw => h w h' (hP w h' hw)
  | act op k =>
      intro b
      obtain ⟨R, hst, hop, hk⟩ := h b
      exact ⟨R, hst, fun _ _ _ _ hw => hop (hP _ _ hw), hk⟩

/-- A fact that does not depend on the world may be assumed. -/
theorem Ensures.fact {φ : Prop} {p : Prog Op α}
    (h : φ → Ensures m ok Q p P) :
    Ensures m ok Q p (fun w h => φ ∧ P w h) := by
  by_cases hφ : φ
  · exact (h hφ).pre fun _ _ hw => hw.2
  · -- The assertion cannot hold: any program is as good as another.
    cases p with
    | ret a => exact fun _ _ hw => (hφ hw.1).elim
    | act op k =>
        intro b
        refine ⟨fun _ _ => False, fun _ _ _ _ hw => hw.elim,
          fun _ _ _ _ hw => (hφ hw.1).elim, ?_⟩
        induction k b with
        | ret a => exact fun _ _ hw => hw.elim
        | act op k ih =>
            exact fun b => ⟨_, fun _ _ _ _ hw => hw.elim,
              fun _ _ _ _ hw => hw.elim, ih b⟩

/-- An operation the assertion survives, whose answer says `φ`. -/
theorem Ensures.learn {β : Type} {op : Op β} {k : β → Prog Op α}
    (φ : β → Prop) (hst : Stable m ok P)
    (hop : ∀ b, Leads m ok P op b (fun w h => φ b ∧ P w h))
    (hk : ∀ b, φ b → Ensures m ok Q (k b) P) :
    Ensures m ok Q (Prog.perform op >>= k) P :=
  .write _ (fun _ _ _ _ _ hw he hok => ⟨hw.1, hst hw.2 he hok⟩) hop
    fun b => .fact (hk b)

/-- A weaker postcondition. -/
theorem Ensures.mono {R : α → Assertion Op Env ω} {p : Prog Op α}
    (h : Ensures m ok Q p P) (hQ : ∀ a w h, Q a w h → R a w h) :
    Ensures m ok R p P := by
  induction p generalizing P with
  | ret a => exact fun w h' hw => hQ a w h' (h w h' hw)
  | act op k ih =>
      intro b
      obtain ⟨P', hst, hop, hk⟩ := h b
      exact ⟨P', hst, hop, ih b hk⟩

/-- Sequencing: the rest starts where the first part ended. -/
theorem Ensures.bind {R : γ → Assertion Op Env ω} {p : Prog Op γ}
    {f : γ → Prog Op α} (hp : Ensures m ok R p P)
    (hf : ∀ c, Ensures m ok Q (f c) (R c)) :
    Ensures m ok Q (p >>= f) P := by
  induction p generalizing P with
  | ret c => exact (hf c).pre fun w h hw => hp w h hw
  | act op k ih =>
      intro b
      obtain ⟨P', hst, hop, hk⟩ := hp b
      exact ⟨P', hst, hop, ih b hk⟩

/-- A call that obeys a protocol, each step of which keeps the assertion
of its phase. -/
theorem Ensures.ofObeys {Q : Type} {N : Protocol Op Q}
    {R : Q → α → Prop} {J : Q → Assertion Op Env ω} {p : Prog Op α}
    {q : Q} (hst : ∀ q, Stable m ok (J q))
    (hop : ∀ {q q' : Q} {β : Type} {op : Op β} {b : β},
      N q op b q' → Leads m ok (J q) op b (J q'))
    (hp : Obeys N R p q) :
    Ensures m ok (fun a w h => ∃ q, R q a ∧ J q w h) p (J q) := by
  induction p generalizing q with
  | ret a => exact fun w h hw => ⟨q, hp, hw⟩
  | act op k ih =>
      intro b
      obtain ⟨q', hq, hk⟩ := hp b
      exact ⟨J q', hst q', hop hq, ih b hk⟩

-- ========================================================== soundness

/-- Every run of the pool of one call ends where its postcondition
says. -/
theorem Ensures.sound {p : Prog Op α} {w : ω}
    {h : List (Event Op Env ω)} {s : Pool Op α ω} {a : α}
    (hp : Ensures m ok Q p P) (hst : Stable m ok P) (hw : P w [])
    (hr : RunIf m ok (solo p w) h s) (ha : s.returned 0 = some a) :
    Q a s.world h := by
  -- What is left of the call, and what is known there.
  have hinv : (∀ i, i ≠ 0 → s.prog i = none) ∧
      ∃ p' P', s.prog 0 = some p' ∧ Stable m ok P' ∧
        Ensures m ok Q p' P' ∧ P' s.world h := by
    clear ha
    induction hr with
    | nil =>
        exact ⟨fun i hi => if_neg hi, p, P, rfl, hst, hp, hw⟩
    | snoc _ hs hok ih =>
        obtain ⟨hothers, p', P', hp', hst', hens, hw'⟩ := ih
        cases hs with
        | @act i β op k a b w' hi hrun =>
            by_cases hi0 : i = 0
            · subst hi0
              cases hp'.symm.trans hi
              obtain ⟨P'', hst'', hop, hk⟩ := hens b
              refine ⟨fun j hj => ?_, k b, P'', ?_, hst'', hk,
                hop hw' hrun hok⟩
              · exact (Function.update_of_ne hj _ _).trans (hothers j hj)
              · dsimp only
                rw [Function.update_self]
            · rw [hothers i hi0] at hi
              cases hi
        | env he =>
            exact ⟨hothers, p', P', hp', hst', hens, hst' hw' he hok⟩
  obtain ⟨-, p', P', hp', -, hens, hw'⟩ := hinv
  cases hp'.symm.trans (Pool.prog_of_returned ha)
  exact hens _ _ hw'

end Conc
