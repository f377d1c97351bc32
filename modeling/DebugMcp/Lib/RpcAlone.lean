/-
A call that has the thread to itself.

Where no other call uses the thread, nobody drops the call, and the thread
ends only over a command that ends it, asking for a command is one step of
the thread's state (`ask_alone`): what the call and the thread do in
between cannot be told from the command being carried out on the spot.
-/
import DebugMcp.Lib.Alone
import DebugMcp.Lib.RpcCalls

namespace Conc

variable {κ ι σ ω : Type} {F : Type → Type} {B E : Type}

-- ================================================================= calls

section

variable (S : Service κ ι σ) (dies : κ → σ → Bool)

/-- What a command does to the thread's state when it is carried out on
the spot; a thread that is gone has none. -/
inductive AtOnce (c : κ) :
    Option σ → Except Unit (S.Value c) → Option σ → Prop
  | gone : AtOnce c none (.error ()) none
  | dies {s : σ} (h : dies c s = true) : AtOnce c (some s) (.error ()) none
  | done {s s' : σ} {a : ι} {v : S.Value c}
      (h : S.exec c a s = some (v, s')) :
      AtOnce c (some s) (.ok v) (some s')

/-- Does nobody drop the call, and end the thread over a command that does
not end it? -/
def undisturbed :
    Event (OpSum (RpcOp S.Value) F) (RpcMove ι ⊕ E) (Rpc S × ω) → Bool
  | .act _ (.inl (.send _)) none _ _ => false
  | .act _ (.inl (.recv _ _)) none _ _ => false
  | .env (.inl .die) pre _ =>
      pre.1.serving.any fun job => dies job.1 pre.1.state
  | _ => true

-- ================================================================ phases

/-- The thread is idle, in this state or gone. -/
structure Idle (s : Option σ) (w : Rpc S) : Prop where
  queue : w.queue = []
  serving : w.serving = none
  gone : w.gone = s.isNone
  state : ∀ x ∈ s, w.state = x
  fresh : ∀ t, w.sent ≤ t → w.reply t = .waiting

/-- The thread has a command to carry out, of this ticket. -/
structure Owing (s : σ) (t : Nat) (w : Rpc S) : Prop where
  gone : w.gone = false
  state : w.state = s
  waiting : w.reply t = .waiting
  sent : t < w.sent
  fresh : ∀ t, w.sent ≤ t → w.reply t = .waiting

/-- The command's way from the queue to its reply. -/
inductive OnItsWay (c : κ) (s : σ) (t : Nat) (w : Rpc S) : Prop
  | queued (ho : Owing S s t w) (hq : w.queue = [(c, t)])
      (hs : w.serving = none)
  | serving (ho : Owing S s t w) (hq : w.queue = [])
      (hs : w.serving = some (c, t))
  | done {a : ι} {v : S.Value c} {s' : σ}
      (hx : S.exec c a s = some (v, s')) (hi : Idle S (some s') w)
      (hr : w.reply t = .answered ⟨c, v⟩)
  | dead (hd : dies c s = true) (hi : Idle S none w)
      (hr : w.reply t = .closed)

end

variable {S : Service κ ι σ} {dies : κ → σ → Bool} {c : κ} {s : σ} {t : Nat}
  {w w' : Rpc S}

/-- An idle thread stays idle, unless it ends for nothing. -/
theorem Idle.stuck {x : Option σ} {e : RpcMove ι} (hi : Idle S x w)
    (he : w.move e = some w') : e = .die := by
  cases e with
  | take =>
      simp [Rpc.move, hi.queue] at he
  | finish a =>
      simp [Rpc.move, hi.serving] at he
  | die => rfl

/-- A step of the thread takes the command on its way. -/
theorem OnItsWay.step {e : RpcMove ι} (ha : OnItsWay S dies c s t w)
    (hdie : e = .die → w.serving.any (fun job => dies job.1 w.state) = true)
    (he : w.move e = some w') : OnItsWay S dies c s t w' := by
  have hidle {x : Option σ} (hi : Idle S x w) : False := by
    have hd := hdie (hi.stuck he)
    simp [hi.serving] at hd
  cases ha with
  | queued ho hq hs =>
      cases e with
      | take =>
          simp only [Rpc.move, hs, hq] at he
          cases he
          exact .serving ⟨ho.gone, ho.state, ho.waiting, ho.sent, ho.fresh⟩
            rfl rfl
      | finish a => simp [Rpc.move, hs] at he
      | die =>
          have hd := hdie rfl
          simp [hs] at hd
  | serving ho hq hs =>
      cases e with
      | take => simp [Rpc.move, hs] at he
      | finish a =>
          simp only [Rpc.move, hs] at he
          obtain ⟨⟨v, s'⟩, hx, he⟩ := Option.map_eq_some_iff.mp he
          cases he
          rw [ho.state] at hx
          refine .done hx ⟨hq, rfl, ho.gone, ?_, ?_⟩ ?_
          · intro x hx
            cases hx
            rfl
          · intro t' ht'
            have hne : t' ≠ t :=
              Nat.ne_of_gt (Nat.lt_of_lt_of_le ho.sent ht')
            exact (Function.update_of_ne hne _ _).trans (ho.fresh t' ht')
          · exact Function.update_self _ _ _
      | die =>
          have hd := hdie rfl
          simp only [hs, Option.any_some, ho.state] at hd
          simp only [Rpc.move, ho.gone, Bool.false_eq_true, if_false] at he
          cases he
          refine .dead hd ⟨rfl, rfl, rfl, ?_, ?_⟩ ?_
          · intro x hx
            cases hx
          · intro t' ht'
            have hne : t' ≠ t :=
              Nat.ne_of_gt (Nat.lt_of_lt_of_le ho.sent ht')
            simpa [Rpc.held, hs, hq, hne] using ho.fresh t' ht'
          · simp [Rpc.held, hs]
  | done hx hi hr => exact (hidle hi).elim
  | dead hd hi hr => exact (hidle hi).elim

-- ============================================================ operations

section

variable [DecidableEq κ] {cap : Nat}

/-- A send to an idle thread. -/
theorem Idle.send (dies : κ → σ → Bool) {x : Option σ} {a : RpcAnswer}
    {b : Option (Except Unit Nat)} (hi : Idle S x w)
    (hr : w.run cap (.send c) a = some (b, w')) :
    b = none ∨ (b = some (.error ()) ∧ x = none ∧ Idle S none w') ∨
      ∃ s t, b = some (.ok t) ∧ x = some s ∧ OnItsWay S dies c s t w' := by
  have hgone := hi.gone
  rcases Rpc.run_send hr with ⟨rfl, rfl | ⟨hg, rfl⟩⟩ | ⟨hg, rfl, rfl⟩
  · exact .inl rfl
  · cases x with
    | none => exact .inr (.inl ⟨rfl, rfl, hi⟩)
    | some s => simp [hg] at hgone
  · cases x with
    | none => simp [hg] at hgone
    | some s =>
        refine .inr (.inr ⟨s, w.sent, rfl, rfl, .queued ⟨hg, ?_, ?_, ?_, ?_⟩
          ?_ hi.serving⟩)
        · exact hi.state s rfl
        · exact hi.fresh _ (Nat.le_refl _)
        · exact Nat.lt_succ_self _
        · exact fun t ht => hi.fresh t (Nat.le_of_succ_le ht)
        · simp [hi.queue]

/-- A receipt of the reply of a command on its way. -/
theorem OnItsWay.recv {a : RpcAnswer} {b : Option (Except Unit (S.Value c))}
    (ha : OnItsWay S dies c s t w)
    (hr : w.run cap (.recv c t) a = some (b, w')) :
    b = none ∨ ∃ o y, b = some o ∧ AtOnce S dies c (some s) o y ∧
      Idle S y w' := by
  obtain ⟨rfl, hok, hclosed⟩ := Rpc.run_recv hr
  cases b with
  | none => exact .inl rfl
  | some o =>
      refine .inr ?_
      have hrep : (∃ v, w'.reply t = .answered ⟨c, v⟩ ∧ o = .ok v) ∨
          (w'.reply t = .closed ∧ o = .error ()) := by
        cases o with
        | ok v => exact .inl ⟨v, hok v rfl, rfl⟩
        | error u => exact .inr ⟨hclosed rfl, rfl⟩
      cases ha with
      | queued ho hq hs | serving ho hq hs => simp [ho.waiting] at hrep
      | done hx hi hdone =>
          obtain ⟨v, hv, rfl⟩ | ⟨hc, -⟩ := hrep
          · rw [hdone] at hv
            cases hv
            exact ⟨_, _, rfl, .done hx, hi⟩
          · rw [hdone] at hc
            cases hc
      | dead hd hi hdead =>
          obtain ⟨v, hv, -⟩ | ⟨-, rfl⟩ := hrep
          · rw [hdead] at hv
            cases hv
          · exact ⟨_, _, rfl, .dies hd, hi⟩

-- ================================================================ triple

variable {m₂ : Machine F B E ω} {J : ω → Prop}

/-- What is known once the command was sent, or was not. -/
def Sent (S : Service κ ι σ) (dies : κ → σ → Bool) (J : ω → Prop) (c : κ)
    (x : Option σ) : Option (Except Unit Nat) → Rpc S × ω → Prop
  | none, _ => False
  | some (.error ()), w => x = none ∧ Idle S none w.1 ∧ J w.2
  | some (.ok t), w => ∃ s, x = some s ∧ OnItsWay S dies c s t w.1 ∧ J w.2

/-- A move of the thread, or of what is beside it, of a call that is not
disturbed. -/
theorem beside_env {e : RpcMove ι ⊕ E} {w w' : Rpc S × ω}
    (he : ((rpcMachine S cap).beside m₂).env e w = some w')
    (hok : undisturbed (F := F) S dies (.env e w w') = true) :
    (∃ e₁, w.1.move e₁ = some w'.1 ∧ w'.2 = w.2 ∧
      (e₁ = .die →
        w.1.serving.any (fun job => dies job.1 w.1.state) = true)) ∨
    ∃ e₂, m₂.env e₂ w.2 = some w'.2 ∧ w'.1 = w.1 := by
  cases e with
  | inl e =>
      obtain ⟨v, hv, he⟩ := Option.map_eq_some_iff.mp he
      cases he
      refine .inl ⟨e, hv, rfl, ?_⟩
      rintro rfl
      exact hok
  | inr e =>
      obtain ⟨v, hv, he⟩ := Option.map_eq_some_iff.mp he
      cases he
      exact .inr ⟨e, hv, rfl⟩

/-- An idle thread stays so while a call that is not disturbed does
nothing. -/
theorem Idle.stays {x : Option σ} {e : RpcMove ι ⊕ E} {w w' : Rpc S × ω}
    (hJ : ∀ e u u', m₂.env e u = some u' → J u → J u')
    (hi : Idle S x w.1) (hj : J w.2)
    (he : ((rpcMachine S cap).beside m₂).env e w = some w')
    (hok : undisturbed (F := F) S dies (.env e w w') = true) :
    Idle S x w'.1 ∧ J w'.2 := by
  obtain ⟨e₁, hm, -, hdie⟩ | ⟨e₂, hm, hw₁⟩ := beside_env he hok
  · have hd := hdie (hi.stuck hm)
    simp [hi.serving] at hd
  · exact ⟨hw₁ ▸ hi, hJ _ _ _ hm hj⟩

/-- What is known once the reply is there. -/
def Replied (S : Service κ ι σ) (dies : κ → σ → Bool) (J : ω → Prop)
    (c : κ) (x : Option σ) (r : Option (Except Unit (S.Value c)))
    (w : Rpc S × ω) : Prop :=
  ∃ o y, r = some o ∧ AtOnce S dies c x o y ∧ Idle S y w.1 ∧ J w.2

/-- The await of a reply that is on its way. -/
theorem recv_alone (hJ : ∀ e u u', m₂.env e u = some u' → J u → J u')
    (c : κ) (x : Option σ) (t : Nat) :
    Ensures ((rpcMachine S cap).beside m₂)
      (fun _ ev => undisturbed S dies ev = true)
      (fun r w _ => Replied S dies J c x r w)
      (Prog.perform (.inl (.recv c t)))
      (fun w _ => Sent S dies J c x (some (.ok t)) w) := by
  refine .write (k := Prog.ret) (fun r w _ => Replied S dies J c x r w)
    ?_ ?_ fun _ => .ret fun _ _ h => h
  · rintro r w w' h e ⟨o, y, hr, ha, hi, hj⟩ he hok
    exact ⟨o, y, hr, ha, hi.stays hJ hj he hok⟩
  · rintro r a w w' h ⟨s, rfl, ha, hj⟩ hrun hok
    cases a with
    | inr a => cases hrun
    | inl a =>
        obtain ⟨⟨b, v⟩, hv, he⟩ := Option.map_eq_some_iff.mp hrun
        cases he
        obtain rfl | ⟨o, y, rfl, hans, hi⟩ := ha.recv hv
        · cases hok
        · exact ⟨o, y, rfl, hans, hi, hj⟩

/-- A call that has the thread to itself is one step of its state, and
leaves what is beside it alone. -/
theorem ask_alone (hJ : ∀ e u u', m₂.env e u = some u' → J u → J u')
    (c : κ) (x : Option σ) :
    Ensures ((rpcMachine S cap).beside m₂)
      (fun _ ev => undisturbed S dies ev = true)
      (fun r w _ => Replied S dies J c x r w)
      (ask c) (fun w _ => Idle S x w.1 ∧ J w.2) := by
  refine .write (fun b w _ => Sent S dies J c x b w) ?_ ?_ ?_
  · intro b w w' h e hw he hok
    match b, hw with
    | some (.error ()), hw =>
        exact ⟨hw.1, hw.2.1.stays hJ hw.2.2 he hok⟩
    | some (.ok t), ⟨s, hx, ha, hj⟩ =>
        obtain ⟨e₁, hm, hw₂, hdie⟩ | ⟨e₂, hm, hw₁⟩ := beside_env he hok
        · exact ⟨s, hx, ha.step hdie hm, hw₂ ▸ hj⟩
        · exact ⟨s, hx, hw₁ ▸ ha, hJ _ _ _ hm hj⟩
  · rintro b a w w' h ⟨hi, hj⟩ hrun hok
    cases a with
    | inr a => cases hrun
    | inl a =>
        obtain ⟨⟨b, v⟩, hv, he⟩ := Option.map_eq_some_iff.mp hrun
        cases he
        obtain rfl | ⟨rfl, hx, hgone⟩ | ⟨s, t, rfl, hx, ha⟩ :=
          hi.send dies hv
        · cases hok
        · exact ⟨hx, hgone, hj⟩
        · exact ⟨s, hx, ha, hj⟩
  · intro b
    match b with
    | none => exact .ret fun _ _ h => h.elim
    | some (.error ()) =>
        refine .ret ?_
        rintro w h ⟨rfl, hi, hj⟩
        exact ⟨_, _, rfl, .gone, hi, hj⟩
    | some (.ok t) => exact recv_alone hJ c x t

end

end Conc
