/-
Calls of a thread: what they return, and that they can be finished.

A call asks for one command after the other, and awaits each reply before
it goes on; in between it may use what is beside the thread. `Comes` is
how far such a text comes when its commands are answered from a given
sequence: each with the entry in a place of its own, after the place of
the one before it, or with the news that the thread is gone. With the
sequence of the commands the thread carried out, this is what every call
of every run returns (`returned_comes`), whatever the other calls do. And no
call waits in vain (`can_finish`): from every state of a run, steps of its
own and of the thread alone lead to its return.
-/
import Mathlib.Logic.Relation
import DebugMcp.Lib.Rpc

namespace Conc

variable {κ ι σ ω α γ : Type} {F : Type → Type} {B E : Type}

-- ================================================================= texts

/-- A command is sent, and its reply awaited. -/
def ask {V : κ → Type} (c : κ) :
    Prog (OpSum (RpcOp V) F) (Option (Except Unit (V c))) := do
  match ← Prog.perform (.inl (.send c)) with
  | none => return none
  | some (.error ()) => return some (.error ())
  | some (.ok t) => Prog.perform (.inl (.recv c t))

/-- How a program that asks for a command goes on once it is sent. -/
def asked {V : κ → Type} (c : κ)
    (k : Option (Except Unit (V c)) → Prog (OpSum (RpcOp V) F) α) :
    Option (Except Unit Nat) → Prog (OpSum (RpcOp V) F) α
  | none => k none
  | some (.error ()) => k (some (.error ()))
  | some (.ok t) => .act (.inl (.recv c t)) k

theorem ask_bind {V : κ → Type} (c : κ)
    (k : Option (Except Unit (V c)) → Prog (OpSum (RpcOp V) F) α) :
    ask c >>= k = .act (.inl (.send c)) (asked c k) := by
  show Prog.act _ _ = _
  congr 1
  funext b
  match b with
  | none => rfl
  | some (.error ()) => rfl
  | some (.ok t) => rfl

/-- A program that uses the thread by `ask` alone, and returns nothing
when it is dropped at an await. `kept` says of an operation beside the
thread that the program was not dropped there. -/
inductive Asks {V : κ → Type} (kept : ∀ ⦃β : Type⦄, F β → β → Bool) :
    Prog (OpSum (RpcOp V) F) (Option α) → Prop
  | ret (r : α) : Asks kept (.ret (some r))
  | own {β : Type} {op : F β}
      {k : β → Prog (OpSum (RpcOp V) F) (Option α)}
      (hk : ∀ b, kept op b = true → Asks kept (k b))
      (hdrop : ∀ b, kept op b = false → k b = .ret none) :
      Asks kept (.act (.inr op) k)
  | ask {c : κ}
      {k : Option (Except Unit (V c)) →
        Prog (OpSum (RpcOp V) F) (Option α)}
      (hk : ∀ r, Asks kept (k (some r))) (hdrop : k none = .ret none) :
      Asks kept (ask c >>= k)

namespace Asks

variable {V : κ → Type} {kept : ∀ ⦃β : Type⦄, F β → β → Bool}

/-- A part of a program, and the rest, which a dropped one does not
have. -/
theorem bind {p : Prog (OpSum (RpcOp V) F) (Option α)}
    {f : Option α → Prog (OpSum (RpcOp V) F) (Option γ)}
    (hp : Asks kept p) (hf : ∀ r, Asks kept (f (some r)))
    (hdrop : f none = .ret none) : Asks kept (p >>= f) := by
  induction hp with
  | ret r => exact hf r
  | own hk hkept ih =>
      refine .own (fun b hb => ih b hb) fun b hb => ?_
      rw [hkept b hb]
      exact hdrop
  | ask hk hnone ih =>
      rw [Prog.bind_assoc]
      refine .ask (fun r => ih r) ?_
      rw [hnone]
      exact hdrop

/-- An operation beside the thread that no caller is dropped at, and the
rest. -/
theorem perform {β : Type} {op : F β}
    {k : β → Prog (OpSum (RpcOp V) F) (Option α)}
    (hop : ∀ b, kept op b = true) (hk : ∀ b, Asks kept (k b)) :
    Asks kept (Prog.perform (.inr op) >>= k) :=
  .own (fun b _ => hk b) fun b hb => absurd (hop b) (by simp [hb])

/-- One command. -/
theorem one (c : κ) : Asks kept (Conc.ask (V := V) c) := by
  rw [← Prog.bind_ret (Conc.ask c)]
  exact .ask .ret rfl

end Asks

section

variable {V : κ → Type} (own : ∀ ⦃β : Type⦄, F β → β → Prop)
  (mine : Nat → Prop) (ds : List (Done V)) (gone : Bool)

/-- How far the program `p` comes, with each command it asks for answered
from `ds`: by the entry in a place that is its own (`mine`), after those
of the commands before it, or not at all, where the thread is gone. What
is left of it can use the places from `n` on. -/
inductive Comes (p : Prog (OpSum (RpcOp V) F) α) :
    Nat → Prog (OpSum (RpcOp V) F) α → Prop
  | start : Comes p 0 p
  | own {n : Nat} {β : Type} {op : F β} {b : β}
      {k : β → Prog (OpSum (RpcOp V) F) α}
      (hp : Comes p n (.act (.inr op) k)) (hb : own op b) :
      Comes p n (k b)
  | reply {n t : Nat} {c : κ} {v : V c}
      {k : Option (Except Unit (V c)) → Prog (OpSum (RpcOp V) F) α}
      (hp : Comes p n (ask c >>= k)) (hn : n ≤ t) (hm : mine t)
      (hd : ds[t]? = some ⟨c, v⟩) : Comes p (t + 1) (k (some (.ok v)))
  | closed {n : Nat} {c : κ}
      {k : Option (Except Unit (V c)) → Prog (OpSum (RpcOp V) F) α}
      (hp : Comes p n (ask c >>= k)) (hg : gone = true) :
      Comes p n (k (some (.error ())))

end

/-- A program comes as far with more that was answered. -/
theorem Comes.mono {V : κ → Type}
    {own own' : ∀ ⦃β : Type⦄, F β → β → Prop} {mine mine' : Nat → Prop}
    {ds ds' : List (Done V)} {gone gone' : Bool}
    {p q : Prog (OpSum (RpcOp V) F) α} {n : Nat}
    (h : Comes own mine ds gone p n q)
    (hown : ∀ ⦃β : Type⦄ ⦃op : F β⦄ ⦃b : β⦄, own op b → own' op b)
    (hmine : ∀ ⦃t : Nat⦄, mine t → mine' t)
    (hds : ∀ ⦃t : Nat⦄ ⦃d : Done V⦄, ds[t]? = some d → ds'[t]? = some d)
    (hg : gone = true → gone' = true) :
    Comes own' mine' ds' gone' p n q := by
  induction h with
  | start => exact .start
  | own _ hb ih => exact .own ih (hown hb)
  | reply _ hn hm hd ih => exact .reply ih hn (hmine hm) (hds hd)
  | closed _ hgone ih => exact .closed ih (hg hgone)

-- ============================================================= histories

variable {S : Service κ ι σ}

/-- An event of a thread with something beside it. -/
abbrev CallEvent (S : Service κ ι σ) (F : Type → Type) (E ω : Type) :=
  Event (OpSum (RpcOp S.Value) F) (RpcMove ι ⊕ E) (Rpc S × ω)

/-- The operations of call `i` beside the thread were answered so. -/
def ownAnswered (i : Nat) (h : List (CallEvent S F E ω)) ⦃β : Type⦄
    (op : F β) (b : β) : Prop :=
  ∃ pre post, .act i (.inr op) b pre post ∈ h

/-- The call whose command an event sent. -/
def CallEvent.sender? : CallEvent S F E ω → Option Nat
  | .act i (.inl (.send _)) (some (.ok _)) _ _ => some i
  | _ => none

/-- The calls whose commands were sent, oldest first. -/
def senders : List (CallEvent S F E ω) → List Nat
  | [] => []
  | ev :: h => senders h ++ ev.sender?.toList

/-- Call `i` sent the command in place `t`. -/
def sentBy (i : Nat) (h : List (CallEvent S F E ω)) (t : Nat) : Prop :=
  (senders h)[t]? = some i

section

variable {h : List (CallEvent S F E ω)} (ev : CallEvent S F E ω)

theorem leftPart_done {t : Nat} {d : Done S.Value}
    (hd : (commandsDone (leftPart h))[t]? = some d) :
    (commandsDone (leftPart (ev :: h)))[t]? = some d := by
  unfold leftPart
  rw [List.filterMap_cons]
  split
  · exact hd
  · exact getElem?_grow hd

theorem leftPart_sent {t : Nat} {c : κ}
    (hc : (commandsSent (leftPart h))[t]? = some c) :
    (commandsSent (leftPart (ev :: h)))[t]? = some c := by
  unfold leftPart
  rw [List.filterMap_cons]
  split
  · exact hc
  · exact getElem?_grow hc

theorem leftPart_length :
    (commandsSent (leftPart h)).length
      ≤ (commandsSent (leftPart (ev :: h))).length := by
  unfold leftPart
  rw [List.filterMap_cons]
  split
  · exact Nat.le_refl _
  · rw [commandsSent, List.length_append]
    exact Nat.le_add_right _ _

end

/-- An event that sends a command has a sender. -/
theorem sender_sent (ev : CallEvent S F E ω) :
    ev.sender?.toList.length
      = (ev.left?.bind RpcEvent.sent?).toList.length := by
  cases ev with
  | act i op b pre post =>
      cases op with
      | inl op =>
          cases op with
          | send c =>
              match b with
              | none | some (.error ()) | some (.ok t) => rfl
          | recv c t => rfl
      | inr op => rfl
  | env e pre post => cases e <;> rfl

/-- Every command has its sender. -/
theorem senders_length (h : List (CallEvent S F E ω)) :
    (senders h).length = (commandsSent (leftPart h)).length := by
  induction h with
  | nil => rfl
  | cons ev h ih =>
      have hev := sender_sent ev
      rw [senders, List.length_append, ih, hev]
      unfold leftPart
      rw [List.filterMap_cons]
      cases ev.left? with
      | none => rfl
      | some ev => exact (List.length_append ..).symm

-- ============================================================== position

/-- How far call `i` comes with what was answered in the course of a
run. -/
abbrev CallComes (i : Nat) (h : List (CallEvent S F E ω)) (gone : Bool) :
    Prog (OpSum (RpcOp S.Value) F) α → Nat →
      Prog (OpSum (RpcOp S.Value) F) α → Prop :=
  Comes (ownAnswered i h) (sentBy i h) (commandsDone (leftPart h)) gone

/-- Where call `i`, whose text is `p`, is in the course of a run. -/
inductive CallAt (kept : ∀ ⦃β : Type⦄, F β → β → Bool) (i : Nat)
    (p : Prog (OpSum (RpcOp S.Value) F) (Option α))
    (h : List (CallEvent S F E ω)) (gone : Bool) :
    Prog (OpSum (RpcOp S.Value) F) (Option α) → Prop
  | dropped : CallAt kept i p h gone (.ret none)
  | between {n : Nat} {q : Prog (OpSum (RpcOp S.Value) F) (Option α)}
      (hc : CallComes i h gone p n q)
      (ha : Asks kept q) (hn : n ≤ (commandsSent (leftPart h)).length) :
      CallAt kept i p h gone q
  | waiting {n t : Nat} {c : κ}
      {k : Option (Except Unit (S.Value c)) →
        Prog (OpSum (RpcOp S.Value) F) (Option α)}
      (hc : CallComes i h gone p n (ask c >>= k))
      (hk : ∀ r, Asks kept (k (some r))) (hdrop : k none = .ret none)
      (hn : n ≤ t) (hm : sentBy i h t)
      (ht : (commandsSent (leftPart h))[t]? = some c) :
      CallAt kept i p h gone (.act (.inl (.recv c t)) k)

section

variable {kept : ∀ ⦃β : Type⦄, F β → β → Bool} {i : Nat}
  {p q : Prog (OpSum (RpcOp S.Value) F) (Option α)}
  {h : List (CallEvent S F E ω)} {ev : CallEvent S F E ω}
  {gone gone' : Bool}

/-- A program comes as far in a longer run. -/
theorem Comes.grow {n : Nat}
    (hc : CallComes i h gone p n q)
    (hg : gone = true → gone' = true) :
    CallComes i (ev :: h) gone' p n q := by
  refine hc.mono ?_ (fun t hm => getElem?_grow hm)
    (fun t d hd => leftPart_done ev hd) hg
  rintro β op b ⟨pre, post, hm⟩
  exact ⟨pre, post, List.mem_cons_of_mem _ hm⟩

/-- Nothing that happens to others moves a call. -/
theorem CallAt.grow (hat : CallAt kept i p h gone q)
    (hg : gone = true → gone' = true) :
    CallAt kept i p (ev :: h) gone' q := by
  cases hat with
  | dropped => exact .dropped
  | between hc ha hn =>
      exact .between (hc.grow hg) ha
        (Nat.le_trans hn (leftPart_length ev))
  | waiting hc hk hdrop hn hm ht =>
      exact .waiting (hc.grow hg) hk hdrop hn (getElem?_grow hm)
        (leftPart_sent ev ht)

end

-- ============================================================ operations

section

variable [DecidableEq κ] {cap : Nat} {m₂ : Machine F B E ω}
  {kept : ∀ ⦃β : Type⦄, F β → β → Bool} {i : Nat}
  {p : Prog (OpSum (RpcOp S.Value) F) (Option α)}
  {h : List (CallEvent S F E ω)} {w w' : Rpc S × ω} {s₀ : σ}

/-- What an operation of the thread's does is the thread's. -/
theorem beside_act {β : Type} {op : RpcOp S.Value β} {a : RpcAnswer ⊕ B}
    {b : β} (hr : ((rpcMachine S cap).beside m₂).run i (.inl op) a w
      = some (b, w')) :
    ∃ a, w.1.run cap op a = some (b, w'.1) := by
  cases a with
  | inr a => cases hr
  | inl a =>
      obtain ⟨r, hrun, he⟩ := Option.map_eq_some_iff.mp hr
      cases he
      exact ⟨a, hrun⟩

/-- What another operation does is not. -/
theorem beside_own {β : Type} {op : F β} {a : RpcAnswer ⊕ B} {b : β}
    (hr : ((rpcMachine S cap).beside m₂).run i (.inr op) a w
      = some (b, w')) : w'.1 = w.1 := by
  cases a with
  | inl a => cases hr
  | inr a =>
      obtain ⟨r, -, he⟩ := Option.map_eq_some_iff.mp hr
      cases he
      rfl

/-- A command of a call is sent, or not. -/
theorem CallAt.send {n : Nat} {c : κ}
    {k : Option (Except Unit (S.Value c)) →
      Prog (OpSum (RpcOp S.Value) F) (Option α)}
    {a : RpcAnswer} {b : Option (Except Unit Nat)}
    (hc : CallComes i h w.1.gone p n (ask c >>= k))
    (hk : ∀ r, Asks kept (k (some r))) (hdrop : k none = .ret none)
    (hn : n ≤ (commandsSent (leftPart h)).length)
    (hi : RpcInv S s₀ (leftPart h) w.1)
    (hr : w.1.run cap (.send c) a = some (b, w'.1)) :
    CallAt kept i p (.act i (.inl (.send c)) b w w' :: h) w'.1.gone
      (asked c k b) := by
  have hgone : w.1.gone = true → w'.1.gone = true := by
    rw [Rpc.run_gone hr]
    exact id
  obtain ⟨-, rfl | ⟨hg, rfl⟩⟩ | ⟨-, rfl, -⟩ := Rpc.run_send hr
  · rw [asked, hdrop]
    exact .dropped
  · exact (CallAt.between (.closed hc hg) (hk _) hn).grow hgone
  · -- The ticket is the command's place.
    refine .waiting (hc.grow hgone) hk hdrop ?_ ?_ ?_
    · rw [hi.count]
      exact hn
    · rw [hi.count, ← senders_length]
      exact List.getElem?_concat_length
    · rw [hi.count]
      exact List.getElem?_concat_length

/-- A reply is received, or not. -/
theorem CallAt.recv {n t : Nat} {c : κ}
    {k : Option (Except Unit (S.Value c)) →
      Prog (OpSum (RpcOp S.Value) F) (Option α)}
    {a : RpcAnswer} {b : Option (Except Unit (S.Value c))}
    (hc : CallComes i h w.1.gone p n (ask c >>= k))
    (hk : ∀ r, Asks kept (k (some r))) (hdrop : k none = .ret none)
    (hn : n ≤ t) (hm : sentBy i h t)
    (ht : (commandsSent (leftPart h))[t]? = some c)
    (hi : RpcInv S s₀ (leftPart h) w.1)
    (hr : w.1.run cap (.recv c t) a = some (b, w'.1)) :
    CallAt kept i p (.act i (.inl (.recv c t)) b w w' :: h) w'.1.gone
      (k b) := by
  have hgone : w.1.gone = true → w'.1.gone = true := by
    rw [Rpc.run_gone hr]
    exact id
  obtain ⟨hlt, -⟩ := List.getElem?_eq_some_iff.mp ht
  obtain ⟨-, hok, hclosed⟩ := Rpc.run_recv hr
  match b with
  | none =>
      rw [hdrop]
      exact .dropped
  | some (.ok v) =>
      have hd := hi.replied.mp (hok v rfl)
      exact (CallAt.between (.reply hc hn hm hd) (hk _) hlt).grow hgone
  | some (.error ()) =>
      have hg := hi.closed (hclosed rfl)
      refine (CallAt.between (.closed hc hg) (hk _) ?_).grow hgone
      exact Nat.le_trans hn (Nat.le_of_lt hlt)

/-- An operation of a call beside the thread. -/
theorem CallAt.own {n : Nat} {β : Type} {op : F β}
    {k : β → Prog (OpSum (RpcOp S.Value) F) (Option α)}
    {a : RpcAnswer ⊕ B} {b : β}
    (hc : CallComes i h w.1.gone p n (.act (.inr op) k))
    (hk : ∀ b, kept op b = true → Asks kept (k b))
    (hdrop : ∀ b, kept op b = false → k b = .ret none)
    (hn : n ≤ (commandsSent (leftPart h)).length)
    (hr : ((rpcMachine S cap).beside m₂).run i (.inr op) a w
      = some (b, w')) :
    CallAt kept i p (.act i (.inr op) b w w' :: h) w'.1.gone (k b) := by
  rw [beside_own hr]
  cases hb : kept op b with
  | false =>
      rw [hdrop b hb]
      exact .dropped
  | true =>
      refine .between (.own (hc.grow id) ?_) (hk b hb) hn
      exact ⟨w, w', List.mem_cons_self⟩

/-- An operation of a call moves it on. -/
theorem CallAt.act {β : Type} {op : OpSum (RpcOp S.Value) F β}
    {k : β → Prog (OpSum (RpcOp S.Value) F) (Option α)}
    {a : RpcAnswer ⊕ B} {b : β}
    (hat : CallAt kept i p h w.1.gone (.act op k))
    (hi : RpcInv S s₀ (leftPart h) w.1)
    (hr : ((rpcMachine S cap).beside m₂).run i op a w = some (b, w')) :
    CallAt kept i p (.act i op b w w' :: h) w'.1.gone (k b) := by
  generalize hq : Prog.act op k = q at hat
  cases hat with
  | dropped => cases hq
  | between hc ha hn =>
      cases ha with
      | ret r => cases hq
      | own hk hdrop =>
          cases hq
          exact .own hc hk hdrop hn hr
      | ask hk hdrop =>
          rw [ask_bind] at hq
          cases hq
          obtain ⟨a, hrun⟩ := beside_act hr
          exact .send hc hk hdrop hn hi hrun
  | waiting hc hk hdrop hn hm ht =>
      cases hq
      obtain ⟨a, hrun⟩ := beside_act hr
      exact .recv hc hk hdrop hn hm ht hi hrun

end

-- ================================================================== runs

section

variable [DecidableEq κ] {cap : Nat} {m₂ : Machine F B E ω}
  {kept : ∀ ⦃β : Type⦄, F β → β → Bool} {i : Nat} {x₀ : σ}
  {p : Prog (OpSum (RpcOp S.Value) F) (Option α)}
  {s₀ s : Pool (OpSum (RpcOp S.Value) F) (Option α) (Rpc S × ω)}
  {h : List (CallEvent S F E ω)}

/-- The thread's invariant holds along the runs of its calls. -/
theorem rpcInv_of_run (hw : s₀.world.1 = .new S x₀)
    (hr : Run ((rpcMachine S cap).beside m₂) s₀ h s) :
    RpcInv S x₀ (leftPart h) s.world.1 :=
  rpcInv_of_path (hw ▸ hr.path.left)

/-- A thread that is gone stays so. -/
theorem RpcInv.gone_env {e : RpcMove ι ⊕ E} {w w' : Rpc S × ω}
    (hi : RpcInv S x₀ (leftPart h) w.1)
    (he : ((rpcMachine S cap).beside m₂).env e w = some w')
    (hg : w.1.gone = true) : w'.1.gone = true := by
  cases e with
  | inl e =>
      obtain ⟨v, hv, -⟩ := Option.map_eq_some_iff.mp he
      exact (hi.dead hg hv).elim
  | inr e =>
      obtain ⟨v, -, he⟩ := Option.map_eq_some_iff.mp he
      cases he
      exact hg

/-- In every run each call is somewhere in its text. -/
theorem callAt_of_run (hw : s₀.world.1 = .new S x₀)
    (hp : s₀.prog i = some p) (ha : Asks kept p)
    (hr : Run ((rpcMachine S cap).beside m₂) s₀ h s) :
    ∃ q, s.prog i = some q ∧ CallAt kept i p h s.world.1.gone q := by
  induction hr with
  | nil => exact ⟨p, hp, .between .start ha (Nat.zero_le _)⟩
  | snoc hr hs _ ih =>
      obtain ⟨q, hq, hat⟩ := ih
      have hi := rpcInv_of_run hw hr
      cases hs with
      | @act j β op k a b w' hj hrun =>
          by_cases hij : i = j
          · subst hij
            cases hq.symm.trans hj
            exact ⟨k b, Function.update_self .., hat.act hi hrun⟩
          · refine ⟨q, (Function.update_of_ne hij _ _).trans hq,
              hat.grow fun hg => ?_⟩
            cases op with
            | inl op =>
                obtain ⟨a, hrun⟩ := beside_act hrun
                exact (Rpc.run_gone hrun).trans hg
            | inr op => exact (congrArg Rpc.gone (beside_own hrun)).trans hg
      | env he => exact ⟨q, hq, hat.grow (hi.gone_env he)⟩

/-- What a call returns is what its text does, each command it asked for
answered from those carried out. -/
theorem returned_comes (hw : s₀.world.1 = .new S x₀)
    (hp : s₀.prog i = some p) (ha : Asks kept p)
    (hr : Run ((rpcMachine S cap).beside m₂) s₀ h s) {r : α}
    (hret : s.returned i = some (some r)) :
    ∃ n, CallComes i h s.world.1.gone p n (.ret (some r)) := by
  obtain ⟨q, hq, hat⟩ := callAt_of_run hw hp ha hr
  cases hq.symm.trans (Pool.prog_of_returned hret)
  generalize hr : Prog.ret (some r) = q at hat
  cases hat with
  | dropped => cases hr
  | between hc ha hn => exact ⟨_, hc⟩
  | waiting hc hk hdrop hn hm ht => cases hr

end

-- ================================================================ thread

/-- A step of the thread, which ends only over a command it cannot carry
out. -/
def Served (w w' : Rpc S) : Prop :=
  ∃ e, w.move e = some w' ∧ (e = .die → ∃ c t, w.serving = some (c, t) ∧
    ∀ a, S.exec c a w.state = none)

/-- What the thread has still to do: every job that is not taken yet is
to be taken and carried out. -/
def Rpc.left (w : Rpc S) : Nat :=
  2 * w.queue.length + w.serving.toList.length

/-- What a step leaves of a thread that has something to do. -/
inductive Onward (w w' : Rpc S) : Prop
  | took (hg : w'.gone = false) (hl : w'.left < w.left)
      (hh : w'.held = w.held)
  | answered {c : κ} {t : Nat} {v : S.Value c} (hg : w'.gone = false)
      (hl : w'.left < w.left) (hh : w.held = (c, t) :: w'.held)
      (hr : w'.reply t = .answered ⟨c, v⟩)
  | ended (hg : w'.gone = true)
      (hr : ∀ job ∈ w.held, w'.reply job.2 = .closed)

section

variable {w : Rpc S}

/-- A thread that has something to do can go on. -/
theorem exists_onward (hg : w.gone = false) (hne : w.held ≠ []) :
    ∃ w', Served w w' ∧ Onward w w' := by
  cases hs : w.serving with
  | none =>
      cases hq : w.queue with
      | nil => exact absurd (by rw [Rpc.held, hs, hq]; rfl) hne
      | cons job queue =>
          refine ⟨{ w with queue, serving := some job },
            ⟨.take, by rw [Rpc.move, hs, hq], fun h => by cases h⟩,
            .took hg ?_ ?_⟩
          · simp [Rpc.left, hs, hq]
            omega
          · simp [Rpc.held, hs, hq]
  | some job =>
      obtain ⟨c, t⟩ := job
      by_cases hx : ∃ a r, S.exec c a w.state = some r
      · obtain ⟨a, ⟨v, x⟩, hx⟩ := hx
        refine ⟨{ w with
            state := x
            serving := none
            reply := Function.update w.reply t (.answered ⟨c, v⟩) },
          ⟨.finish a, by simp [Rpc.move, hs, hx], fun h => by cases h⟩,
          .answered hg ?_ ?_ (Function.update_self ..)⟩
        · simp [Rpc.left, hs]
        · simp [Rpc.held, hs]
      · refine ⟨_, ⟨.die, by rw [Rpc.move, hg]; rfl, fun _ =>
          ⟨c, t, hs, fun a => ?_⟩⟩, .ended rfl ?_⟩
        · by_contra hne
          obtain ⟨r, hr⟩ := Option.ne_none_iff_exists'.mp hne
          exact hx ⟨a, r, hr⟩
        · intro job hm
          exact if_pos (List.mem_map_of_mem hm)

open Relation in
/-- A job that the thread holds is answered, or closed, after some steps
of it. -/
theorem answered_soon [DecidableEq κ] {c : κ} {t : Nat}
    (hg : w.gone = false) (hm : (c, t) ∈ w.held)
    (hu : ∀ c', (c', t) ∈ w.held → c' = c) :
    ∃ w', ReflTransGen Served w w' ∧ (w'.received c t).isSome := by
  induction hn : w.left using Nat.strongRecOn generalizing w with
  | ind n ih =>
      obtain ⟨w', hs, ho⟩ := exists_onward hg (List.ne_nil_of_mem hm)
      cases ho with
      | took hg' hl hh =>
          rw [← hh] at hm hu
          obtain ⟨w'', hs', hrec⟩ := ih _ (hn ▸ hl) hg' hm hu rfl
          exact ⟨w'', .head hs hs', hrec⟩
      | @answered c' t' v hg' hl hh hr =>
          rw [hh] at hm hu
          by_cases ht : t' = t
          · subst ht
            cases hu c' List.mem_cons_self
            refine ⟨w', .single hs, ?_⟩
            rw [Rpc.received, hr]
            simp
          · have hm' : (c, t) ∈ w'.held := by
              rcases List.mem_cons.mp hm with he | hm
              · cases he
                exact absurd rfl ht
              · exact hm
            obtain ⟨w'', hs', hrec⟩ := ih _ (hn ▸ hl) hg' hm'
              (fun c' hc' => hu c' (List.mem_cons_of_mem _ hc')) rfl
            exact ⟨w'', .head hs hs', hrec⟩
      | ended hg' hr =>
          refine ⟨w', .single hs, ?_⟩
          rw [Rpc.received, hr _ hm]
          rfl

open Relation in
/-- There is room in the queue after some steps of the thread. -/
theorem room_soon {cap : Nat} (hcap : 0 < cap) :
    ∃ w', ReflTransGen Served w w' ∧
      (w'.gone = true ∨ w'.queue.length < cap) := by
  induction hn : w.left using Nat.strongRecOn generalizing w with
  | ind n ih =>
      by_cases hq : w.queue.length < cap
      · exact ⟨w, .refl, .inr hq⟩
      · cases hg : w.gone with
        | true => exact ⟨w, .refl, .inl hg⟩
        | false =>
            have hne : w.held ≠ [] := by
              intro hnil
              have hqueue := (List.append_eq_nil_iff.mp hnil).2
              rw [hqueue] at hq
              exact hq hcap
            obtain ⟨w', hs, ho⟩ := exists_onward hg hne
            cases ho with
            | took hg' hl hh | answered hg' hl hh hr =>
                obtain ⟨w'', hs', hroom⟩ := ih _ (hn ▸ hl) rfl
                exact ⟨w'', .head hs hs', hroom⟩
            | ended hg' hr => exact ⟨w', .single hs, .inl hg'⟩

end

-- ============================================================== progress

/-- Is it a step of call `i`, which is not dropped there, or one of the
thread, which ends only over a command it cannot carry out? -/
def Helps (kept : ∀ ⦃β : Type⦄, F β → β → Bool) (i : Nat) :
    CallEvent S F E ω → Prop
  | .act j (.inl (.send _)) b _ _ => j = i ∧ b ≠ none
  | .act j (.inl (.recv _ _)) b _ _ => j = i ∧ b ≠ none
  | .act j (.inr op) b _ _ => j = i ∧ kept op b = true
  | .env (.inl e) pre _ => e = .die → ∃ c t,
      pre.1.serving = some (c, t) ∧ ∀ a, S.exec c a pre.1.state = none
  | .env (.inr _) _ _ => False

section

variable [DecidableEq κ] (cap : Nat) (m₂ : Machine F B E ω)
  (kept : ∀ ⦃β : Type⦄, F β → β → Bool) (i : Nat)

/-- Call `i` can return by steps of its own and of the thread alone. -/
def CanReturn
    (s : Pool (OpSum (RpcOp S.Value) F) (Option α) (Rpc S × ω)) : Prop :=
  ∃ h' s' r, RunIf ((rpcMachine S cap).beside m₂)
    (fun _ => Helps kept i) s h' s' ∧ s'.returned i = some (some r)

end

section

variable [DecidableEq κ] {cap : Nat} {m₂ : Machine F B E ω}
  {kept : ∀ ⦃β : Type⦄, F β → β → Bool} {i : Nat} {x₀ : σ}
  {p q : Prog (OpSum (RpcOp S.Value) F) (Option α)}
  {s₀ s : Pool (OpSum (RpcOp S.Value) F) (Option α) (Rpc S × ω)}
  {h : List (CallEvent S F E ω)}

/-- It can if it can after some such steps. -/
theorem CanReturn.after
    {s' : Pool (OpSum (RpcOp S.Value) F) (Option α) (Rpc S × ω)}
    {h' : List (CallEvent S F E ω)}
    (hr : RunIf ((rpcMachine S cap).beside m₂) (fun _ => Helps kept i) s h'
      s')
    (hc : CanReturn cap m₂ kept i s') : CanReturn cap m₂ kept i s := by
  obtain ⟨h'', s'', r, hr', hret⟩ := hc
  exact ⟨h'' ++ h', s'', r, hr.append hr', hret⟩

/-- After an operation of its own. -/
theorem CanReturn.act (hr : Run ((rpcMachine S cap).beside m₂) s₀ h s)
    {β : Type} {op : OpSum (RpcOp S.Value) F β} {a : RpcAnswer ⊕ B} {b : β}
    {k : β → Prog (OpSum (RpcOp S.Value) F) (Option α)} {w' : Rpc S × ω}
    (hp : s.prog i = some (.act op k))
    (hrun : ((rpcMachine S cap).beside m₂).run i op a s.world
      = some (b, w'))
    (hh : Helps (E := E) kept i (.act i op b s.world w'))
    (hk : ∀ s', Run ((rpcMachine S cap).beside m₂) s₀
        (.act i op b s.world w' :: h) s' →
      s'.prog i = some (k b) → CanReturn cap m₂ kept i s') :
    CanReturn cap m₂ kept i s :=
  .after (.snoc .nil (.act hp hrun) hh)
    (hk _ (.snoc hr (.act hp hrun) trivial) (Function.update_self ..))

open Relation in
/-- After what the thread can do. -/
theorem CanReturn.served (hr : Run ((rpcMachine S cap).beside m₂) s₀ h s)
    {w' : Rpc S} (hs : ReflTransGen Served s.world.1 w')
    (hk : ∀ h' s', Run ((rpcMachine S cap).beside m₂) s₀ h' s' →
      s'.world.1 = w' → s'.prog = s.prog → CanReturn cap m₂ kept i s') :
    CanReturn cap m₂ kept i s := by
  have hrun : ∃ h', RunIf ((rpcMachine S cap).beside m₂)
      (fun _ => Helps kept i) s h' ⟨(w', s.world.2), s.prog⟩ := by
    clear hk
    induction hs with
    | refl => exact ⟨[], .nil⟩
    | tail _ hstep ih =>
        obtain ⟨h', hr'⟩ := ih
        obtain ⟨e, he, hdie⟩ := hstep
        refine ⟨_, .snoc hr' (.env (e := .inl e) ?_) ?_⟩
        · exact congrArg (Option.map (·, s.world.2)) he
        · exact hdie
  obtain ⟨h', hr'⟩ := hrun
  exact .after hr' (hk _ _ (hr.append hr'.run) rfl rfl)

/-- A command that was sent has its reply, or the thread holds it, under
a ticket that no other command has. -/
theorem RpcInv.sent_place {h : List (RpcEvent S)} {w : Rpc S} {c : κ}
    {t : Nat} (hi : RpcInv S x₀ h w) (ht : (commandsSent h)[t]? = some c) :
    (w.received c t).isSome ∨ w.gone = false ∧ (c, t) ∈ w.held ∧
      ∀ c', (c', t) ∈ w.held → c' = c := by
  obtain ⟨pending, hsent, hheld⟩ := hi.order
  obtain ⟨hlt, -⟩ := List.getElem?_eq_some_iff.mp ht
  by_cases hd : t < (commandsDone h).length
  · -- It was carried out.
    have hdone := List.getElem?_eq_getElem hd
    have hcmd : ((commandsDone h)[t]).cmd = c := by
      rw [hsent, List.getElem?_append_left (by simpa using hd),
        List.getElem?_map, hdone] at ht
      exact Option.some.inj ht
    refine .inl ?_
    rw [Rpc.received, hi.replied.mpr hdone]
    simp [hcmd]
  · cases hg : w.gone with
    | true =>
        refine .inl ?_
        cases hr : w.reply t with
        | waiting => exact absurd hr (hi.nobody hg t hlt)
        | answered d =>
            have hdone := hi.replied.mp hr
            rw [List.getElem?_eq_none (Nat.le_of_not_lt hd)] at hdone
            cases hdone
        | closed =>
            rw [Rpc.received, hr]
            rfl
    | false =>
        have hplace {c' : κ} : (c', t) ∈ w.held ↔ c = c' := by
          rw [hheld hg, List.mk_mem_zipIdx_iff_le_and_getElem?_sub]
          rw [hsent, List.getElem?_append_right (by simpa using hd),
            List.length_map] at ht
          rw [ht]
          simp [Nat.le_of_not_lt hd]
        exact .inr ⟨rfl, hplace.mpr rfl, fun c' hc' => (hplace.mp hc').symm⟩

/-- A call that waits for a reply can go on. -/
theorem can_receive (hw : s₀.world.1 = .new S x₀)
    (hr : Run ((rpcMachine S cap).beside m₂) s₀ h s) {c : κ} {t : Nat}
    {k : Option (Except Unit (S.Value c)) →
      Prog (OpSum (RpcOp S.Value) F) (Option α)}
    (hp : s.prog i = some (.act (.inl (.recv c t)) k))
    (ht : (commandsSent (leftPart h))[t]? = some c)
    (hk : ∀ r {h s}, Run ((rpcMachine S cap).beside m₂) s₀ h s →
      s.prog i = some (k (some r)) → CanReturn cap m₂ kept i s) :
    CanReturn cap m₂ kept i s := by
  have hsoon : ∃ w', Relation.ReflTransGen Served s.world.1 w' ∧
      (w'.received c t).isSome := by
    rcases (rpcInv_of_run hw hr).sent_place ht with hrec | ⟨hg, hm, hu⟩
    · exact ⟨_, .refl, hrec⟩
    · exact answered_soon hg hm hu
  obtain ⟨w', hserved, hrec⟩ := hsoon
  obtain ⟨r, hrec⟩ := Option.isSome_iff_exists.mp hrec
  refine .served hr hserved fun h' s' hr' hw' hp' => ?_
  have hrun : ((rpcMachine S cap).beside m₂).run i (.inl (.recv c t))
      (.inl .sync) s'.world = some (some r, s'.world) := by
    show Option.map _ (Option.map _ (s'.world.1.received c t)) = _
    rw [hw', hrec, ← hw']
    rfl
  refine .act hr' (hp' ▸ hp) hrun ⟨rfl, Option.some_ne_none _⟩ ?_
  intro s'' hr'' hp''
  exact hk r hr'' hp''

/-- A call that goes by its text can return. -/
theorem Asks.can_return (hw : s₀.world.1 = .new S x₀) (hcap : 0 < cap)
    (hown : ∀ {β : Type} (op : F β) (v : ω), ∃ a b v',
      m₂.run i op a v = some (b, v') ∧ kept op b = true)
    (ha : Asks kept q)
    (hr : Run ((rpcMachine S cap).beside m₂) s₀ h s)
    (hq : s.prog i = some q) : CanReturn cap m₂ kept i s := by
  induction ha generalizing h s with
  | ret r => exact ⟨[], s, r, .nil, by rw [Pool.returned, hq]⟩
  | @own β op k hk hdrop ih =>
      obtain ⟨a, b, v', hrun, hb⟩ := hown op s.world.2
      have hrun : ((rpcMachine S cap).beside m₂).run i (.inr op) (.inr a)
          s.world = some (b, (s.world.1, v')) := by
        show Option.map _ (m₂.run i op a s.world.2) = _
        rw [hrun]
        rfl
      exact .act hr hq hrun ⟨rfl, hb⟩ fun s' hr' hp' => ih b hb hr' hp'
  | @ask c k hk hdrop ih =>
      rw [ask_bind] at hq
      obtain ⟨w', hserved, hroom⟩ := room_soon (w := s.world.1) hcap
      refine .served hr hserved fun h' s' hr' hw' hp' => ?_
      have hsent (b : Option (Except Unit Nat)) (v : Rpc S)
          (h : s'.world.1.run cap (.send c) .sync = some (b, v)) :
          ((rpcMachine S cap).beside m₂).run i (.inl (.send c)) (.inl .sync)
            s'.world = some (b, (v, s'.world.2)) := by
        show Option.map _ (s'.world.1.run cap (.send c) .sync) = _
        rw [h]
        rfl
      rw [← hw'] at hroom
      cases hg : s'.world.1.gone with
      | true =>
          have hrun := hsent (some (.error ())) s'.world.1 (by
            simp [Rpc.run, hg])
          refine .act hr' (hp' ▸ hq) hrun ⟨rfl, Option.some_ne_none _⟩ ?_
          intro s'' hr'' hp''
          exact ih _ hr'' hp''
      | false =>
          rw [hg] at hroom
          have hlt := hroom.resolve_left Bool.false_ne_true
          have hrun := hsent (some (.ok s'.world.1.sent)) _ (by
            simp only [Rpc.run, hg, hlt]
            rfl)
          refine .act hr' (hp' ▸ hq) hrun ⟨rfl, Option.some_ne_none _⟩ ?_
          intro s'' hr'' hp''
          refine can_receive hw hr'' hp'' ?_ fun r h s hr hp => ih r hr hp
          rw [(rpcInv_of_run hw hr').count]
          exact List.getElem?_concat_length

/-- Every call of a run has been dropped, or can return. -/
theorem can_finish (hw : s₀.world.1 = .new S x₀) (hcap : 0 < cap)
    (hown : ∀ {β : Type} (op : F β) (v : ω), ∃ a b v',
      m₂.run i op a v = some (b, v') ∧ kept op b = true)
    (hp : s₀.prog i = some p) (ha : Asks kept p)
    (hr : Run ((rpcMachine S cap).beside m₂) s₀ h s) :
    s.returned i = some none ∨ CanReturn cap m₂ kept i s := by
  obtain ⟨q, hq, hat⟩ := callAt_of_run hw hp ha hr
  cases hat with
  | dropped => exact .inl (by rw [Pool.returned, hq])
  | between hc ha hn => exact .inr (ha.can_return hw hcap hown hr hq)
  | waiting hc hk hdrop hn hm ht =>
      refine .inr (can_receive hw hr hq ht fun r h s hr hp => ?_)
      exact (hk r).can_return hw hcap hown hr hp

end

end Conc
