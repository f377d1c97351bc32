/-
A thread that owns a state, behind a channel.

Only the thread touches the state. A call that wants something done to it
makes a one-shot channel, sends a command together with the channel's
sending end over a bounded queue, and awaits the reply on the receiving
end. The thread takes one command after the other, carries it out, and
replies. It may die at any step, and takes down with it what it has not
answered. A call may be dropped at either await; the command it has sent
is carried out all the same.

One-shot channels are named by the order in which their commands were
sent: the n-th command's is channel `n`, its ticket.

# The atomic object

`CarriedOut` is what the commands are when nobody shares the state: one after
the other, each on the state the one before it left. `Linearized` says
that the calls of a path see no more than that. The commands carried out
are the first ones sent, in the order sent; each ticket is answered with
what its own command returned; and a ticket that was answered before
another command was sent comes before that one's. `Linearized.snapshot` is
what follows for commands that only look: between two commands that
change what is looked at, everybody sees one and the same state.
-/
import DebugMcp.Lib.Path

namespace Conc

variable {κ ι σ τ : Type}

-- ============================================================== service

/-- What a command does to the state, and what it is answered; `ι` is what
it meets outside the state. -/
structure Service (κ ι σ : Type) where
  Value : κ → Type
  exec : (c : κ) → ι → σ → Option (Value c × σ)

/-- A command that was carried out, with its answer. -/
structure Done (V : κ → Type) where
  cmd : κ
  value : V cmd

/-- The commands, carried out one after the other from `s₀`, leave `s` and
are answered so; oldest first. -/
inductive CarriedOut (S : Service κ ι σ) (s₀ : σ) :
    List (Done S.Value) → σ → Prop
  | nil : CarriedOut S s₀ [] s₀
  | snoc {ds : List (Done S.Value)} {s s' : σ} {c : κ} {a : ι}
      {v : S.Value c} (hc : CarriedOut S s₀ ds s)
      (he : S.exec c a s = some (v, s')) :
      CarriedOut S s₀ (ds ++ [⟨c, v⟩]) s'

/-- Where nothing was carried out the state is the first. -/
theorem CarriedOut.nil_inv {S : Service κ ι σ} {s₀ s : σ}
    (h : CarriedOut S s₀ [] s) : s = s₀ := by
  generalize hds : ([] : List (Done S.Value)) = ds at h
  cases h with
  | nil => rfl
  | snoc hc he => cases (List.append_eq_nil_iff.mp hds.symm).2

-- ================================================================ world

/-- A one-shot channel. -/
inductive ReplySlot (V : κ → Type)
  | waiting
  | answered (d : Done V)
  /-- Its sender is gone. -/
  | closed

/-- The thread with its state and its channels. A job is a command with
its ticket. -/
structure Rpc (S : Service κ ι σ) where
  state : σ
  queue : List (κ × Nat)
  serving : Option (κ × Nat)
  gone : Bool
  /-- How many commands have been sent. -/
  sent : Nat
  reply : Nat → ReplySlot S.Value

/-- The operations of a call. An await answers `none` when its caller was
dropped there. -/
inductive RpcOp (V : κ → Type) : Type → Type
  /-- The send of a command, which gives its ticket. -/
  | send (c : κ) : RpcOp V (Option (Except Unit Nat))
  /-- The await of the reply. -/
  | recv (c : κ) (t : Nat) : RpcOp V (Option (Except Unit (V c)))

/-- The environment's part in an operation. -/
inductive RpcAnswer
  | sync
  | cancel

/-- A step of the thread. -/
inductive RpcMove (ι : Type)
  | take
  | finish (a : ι)
  | die

variable {S : Service κ ι σ}

namespace Rpc

/-- An idle thread. -/
def new (S : Service κ ι σ) (s₀ : σ) : Rpc S where
  state := s₀
  queue := []
  serving := none
  gone := false
  sent := 0
  reply _ := .waiting

/-- The jobs that are not answered yet, in order. -/
def held (w : Rpc S) : List (κ × Nat) := w.serving.toList ++ w.queue

/-- The answer of a ticket's channel, at its command's type. -/
def received [DecidableEq κ] (w : Rpc S) (c : κ) (t : Nat) :
    Option (Except Unit (S.Value c)) :=
  match w.reply t with
  | .waiting => none
  | .closed => some (.error ())
  | .answered d => if h : d.cmd = c then some (.ok (h ▸ d.value)) else none

/-- One operation of a call; `cap` is the queue's bound. -/
def run [DecidableEq κ] (cap : Nat) {β : Type} (op : RpcOp S.Value β)
    (a : RpcAnswer) (w : Rpc S) : Option (β × Rpc S) :=
  match op, a with
  | .send c, .sync =>
      if w.gone then some (some (.error ()), w)
      else if w.queue.length < cap then
        some (some (.ok w.sent), { w with
          queue := w.queue ++ [(c, w.sent)], sent := w.sent + 1 })
      else none
  | .recv c t, .sync => (w.received c t).map (some ·, w)
  | .send _, .cancel => some (none, w)
  | .recv _ _, .cancel => some (none, w)

/-- A step of the thread. -/
def move (w : Rpc S) : RpcMove ι → Option (Rpc S)
  | .take =>
      match w.serving, w.queue with
      | none, job :: queue => some { w with queue, serving := some job }
      | _, _ => none
  | .finish a =>
      match w.serving with
      | some (c, t) => (S.exec c a w.state).map fun r => { w with
          state := r.2
          serving := none
          reply := Function.update w.reply t (.answered ⟨c, r.1⟩) }
      | none => none
  | .die =>
      if w.gone then none
      else some { w with
        queue := []
        serving := none
        gone := true
        reply := fun t =>
          if t ∈ w.held.map Prod.snd then .closed else w.reply t }

end Rpc

/-- The thread as a machine. -/
def rpcMachine [DecidableEq κ] (S : Service κ ι σ) (cap : Nat) :
    Machine (RpcOp S.Value) RpcAnswer (RpcMove ι) (Rpc S) where
  run _ op a w := w.run cap op a
  env e w := w.move e

-- ================================================================ lists

/-- What is in place stays so when a list grows. -/
theorem getElem?_grow {α : Type} {l l' : List α} {t : Nat} {x : α}
    (h : l[t]? = some x) : (l ++ l')[t]? = some x := by
  obtain ⟨hlt, -⟩ := List.getElem?_eq_some_iff.mp h
  rw [List.getElem?_append_left hlt]
  exact h

/-- What is in place in a list with one more is that one, or was. -/
theorem getElem?_snoc {α : Type} {l : List α} {t : Nat} {x y : α}
    (h : (l ++ [y])[t]? = some x) :
    (t = l.length ∧ x = y) ∨ l[t]? = some x := by
  by_cases ht : t = l.length
  · subst ht
    rw [List.getElem?_concat_length] at h
    cases h
    exact .inl ⟨rfl, rfl⟩
  · obtain ⟨hlt, -⟩ := List.getElem?_eq_some_iff.mp h
    rw [List.length_append, List.length_singleton] at hlt
    rw [List.getElem?_append_left (by omega)] at h
    exact .inr h

-- ============================================================= histories

/-- An event of the thread or one of its calls. -/
abbrev RpcEvent (S : Service κ ι σ) :=
  Event (RpcOp S.Value) (RpcMove ι) (Rpc S)

/-- The command an event sent. -/
def RpcEvent.sent? : RpcEvent S → Option κ
  | .act _ (.send c) (some (.ok _)) _ _ => some c
  | _ => none

/-- The commands sent, oldest first. -/
def commandsSent : List (RpcEvent S) → List κ
  | [] => []
  | ev :: h => commandsSent h ++ ev.sent?.toList

/-- The command an event carried out. -/
def RpcEvent.done? : RpcEvent S → Option (Done S.Value)
  | .env (.finish _) pre post =>
      match pre.serving with
      | some (_, t) =>
          match post.reply t with
          | .answered d => some d
          | _ => none
      | none => none
  | _ => none

/-- The commands carried out, oldest first. -/
def commandsDone : List (RpcEvent S) → List (Done S.Value)
  | [] => []
  | ev :: h => commandsDone h ++ ev.done?.toList

/-- The calls see no more of the thread than its commands, carried out one
after the other in the order they were sent. -/
structure Linearized (S : Service κ ι σ) (s₀ : σ) (h : List (RpcEvent S))
    (w : Rpc S) : Prop where
  carries : CarriedOut S s₀ (commandsDone h) w.state
  order : (commandsDone h).map Done.cmd <+: commandsSent h
  /-- Nothing that was sent is lost. -/
  rest : w.gone = false →
    commandsSent h = (commandsDone h).map Done.cmd ++ w.held.map Prod.fst
  /-- A call's ticket is its command's place. -/
  sent : ∀ {i : Nat} {c : κ} {t : Nat} {pre post : Rpc S},
    .act i (.send c) (some (.ok t)) pre post ∈ h →
      (commandsSent h)[t]? = some c
  /-- It receives the answer of the command in that place. -/
  answered : ∀ {i : Nat} {c : κ} {t : Nat} {v : S.Value c}
    {pre post : Rpc S},
    .act i (.recv c t) (some (.ok v)) pre post ∈ h →
    (commandsDone h)[t]? = some ⟨c, v⟩
  /-- It is told that the thread is gone only if it is, and only of a
  command that is never answered. -/
  closed : ∀ {i : Nat} {c : κ} {t : Nat} {pre post : Rpc S},
    .act i (.recv c t) (some (.error ())) pre post ∈ h →
    w.gone = true ∧ (commandsDone h)[t]? = none
  /-- A command is refused only once the thread is gone. -/
  refused : ∀ {i : Nat} {c : κ} {pre post : Rpc S},
    .act i (.send c) (some (.error ())) pre post ∈ h → w.gone = true
  /-- Once the thread is gone nobody waits for it. -/
  nobody : w.gone = true → ∀ t < (commandsSent h).length,
    w.reply t ≠ .waiting

-- =============================================================== steps

section

variable [DecidableEq κ] {cap : Nat} {w w' : Rpc S}

/-- A send is dropped, refused or takes the next ticket. -/
theorem Rpc.run_send {c : κ} {a : RpcAnswer}
    {b : Option (Except Unit Nat)}
    (hr : w.run cap (.send c) a = some (b, w')) :
    (w' = w ∧ (b = none ∨ (w.gone = true ∧ b = some (.error ())))) ∨
      w.gone = false ∧ b = some (.ok w.sent) ∧
        w' = { w with
          queue := w.queue ++ [(c, w.sent)], sent := w.sent + 1 } := by
  cases a with
  | cancel =>
      cases hr
      exact .inl ⟨rfl, .inl rfl⟩
  | sync =>
      simp only [Rpc.run] at hr
      split at hr
      · next hg =>
          cases hr
          exact .inl ⟨rfl, .inr ⟨hg, rfl⟩⟩
      · next hg =>
          split at hr
          · cases hr
            exact .inr ⟨Bool.eq_false_iff.mpr hg, rfl, rfl⟩
          · cases hr

/-- A receipt changes nothing, and is of what the channel holds. -/
theorem Rpc.run_recv {c : κ} {t : Nat} {a : RpcAnswer}
    {b : Option (Except Unit (S.Value c))}
    (hr : w.run cap (.recv c t) a = some (b, w')) :
    w' = w ∧ (∀ v, b = some (.ok v) → w.reply t = .answered ⟨c, v⟩) ∧
      (b = some (.error ()) → w.reply t = .closed) := by
  cases a with
  | cancel =>
      cases hr
      exact ⟨rfl, nofun, nofun⟩
  | sync =>
      obtain ⟨r, hv, he⟩ := Option.map_eq_some_iff.mp hr
      cases he
      unfold Rpc.received at hv
      split at hv
      · cases hv
      · next hc =>
          cases hv
          exact ⟨rfl, nofun, fun _ => hc⟩
      · next d hd =>
          split at hv
          · next hc =>
              subst hc
              cases hv
              refine ⟨rfl, ?_, nofun⟩
              intro v hv
              cases hv
              exact hd
          · cases hv

/-- No call ends the thread. -/
theorem Rpc.run_gone {β : Type} {op : RpcOp S.Value β} {a : RpcAnswer}
    {b : β} (hr : w.run cap op a = some (b, w')) : w'.gone = w.gone := by
  cases op with
  | send c =>
      obtain ⟨rfl, -⟩ | ⟨-, -, rfl⟩ := Rpc.run_send hr
      · rfl
      · rfl
  | recv c t => rw [(Rpc.run_recv hr).1]

end

section

variable {w w' : Rpc S} {s₀ : σ} {h : List (RpcEvent S)}

/-- The thread takes the job that has waited longest. -/
theorem Rpc.move_take (he : w.move .take = some w') :
    w'.held = w.held ∧ w'.state = w.state ∧ w'.gone = w.gone ∧
      w'.sent = w.sent ∧ w'.reply = w.reply := by
  simp only [Rpc.move] at he
  split at he
  · next job queue hs hq =>
      cases he
      refine ⟨?_, rfl, rfl, rfl, rfl⟩
      unfold Rpc.held
      rw [hs, hq]
      rfl
  · cases he

/-- It finishes the job it is at. -/
theorem Rpc.move_finish {a : ι} (he : w.move (.finish a) = some w') :
    ∃ c t r, w.serving = some (c, t) ∧
      S.exec c a w.state = some (r, w'.state) ∧
      w'.held = w.queue ∧ w'.gone = w.gone ∧ w'.sent = w.sent ∧
      w'.reply = Function.update w.reply t (.answered ⟨c, r⟩) := by
  simp only [Rpc.move] at he
  split at he
  · next c t hs =>
      obtain ⟨r, hx, he⟩ := Option.map_eq_some_iff.mp he
      cases he
      exact ⟨c, t, r.1, hs, hx, rfl, rfl, rfl, rfl⟩
  · cases he

/-- What is known of the thread in the course of a path. -/
structure RpcInv (S : Service κ ι σ) (s₀ : σ) (h : List (RpcEvent S))
    (w : Rpc S) : Prop where
  carries : CarriedOut S s₀ (commandsDone h) w.state
  order : ∃ pending,
    commandsSent h = (commandsDone h).map Done.cmd ++ pending ∧
    (w.gone = false → w.held = pending.zipIdx (commandsDone h).length)
  count : w.sent = (commandsSent h).length
  replied : ∀ {t : Nat} {d : Done S.Value},
    w.reply t = .answered d ↔ (commandsDone h)[t]? = some d
  closed : ∀ {t : Nat}, w.reply t = .closed → w.gone = true
  nobody : w.gone = true → ∀ t < (commandsSent h).length,
    w.reply t ≠ .waiting
  empty : w.gone = true → w.held = []

theorem rpcInv_new : RpcInv S s₀ [] (.new S s₀) where
  carries := .nil
  order := ⟨[], rfl, fun _ => rfl⟩
  count := rfl
  replied := ⟨nofun, nofun⟩
  closed := nofun
  nobody := nofun
  empty := nofun

namespace RpcInv

variable {ev : RpcEvent S}

/-- An event that leaves the thread and sends and finishes nothing. -/
theorem quiet (hi : RpcInv S s₀ h w) (hs : ev.sent? = none)
    (hd : ev.done? = none) : RpcInv S s₀ (ev :: h) w := by
  have hs' : commandsSent (ev :: h) = commandsSent h := by
    rw [commandsSent, hs, Option.toList_none, List.append_nil]
  have hd' : commandsDone (ev :: h) = commandsDone h := by
    rw [commandsDone, hd, Option.toList_none, List.append_nil]
  constructor
  · rw [hd']
    exact hi.carries
  · rw [hd', hs']
    exact hi.order
  · rw [hs']
    exact hi.count
  · rw [hd']
    exact hi.replied
  · exact hi.closed
  · rw [hs']
    exact hi.nobody
  · exact hi.empty

/-- A command is sent. -/
theorem send (hi : RpcInv S s₀ h w) {c : κ} (hs : ev.sent? = some c)
    (hd : ev.done? = none) (hg : w.gone = false) :
    RpcInv S s₀ (ev :: h) { w with
      queue := w.queue ++ [(c, w.sent)], sent := w.sent + 1 } := by
  have hs' : commandsSent (ev :: h) = commandsSent h ++ [c] := by
    rw [commandsSent, hs]
    rfl
  have hd' : commandsDone (ev :: h) = commandsDone h := by
    rw [commandsDone, hd, Option.toList_none, List.append_nil]
  obtain ⟨pending, hp, hh⟩ := hi.order
  have hcount : w.sent = (commandsDone h).length + pending.length := by
    rw [hi.count, hp, List.length_append, List.length_map]
  constructor
  · rw [hd']
    exact hi.carries
  · refine ⟨pending ++ [c], ?_, fun _ => ?_⟩
    · rw [hs', hd', hp, List.append_assoc]
    · show w.serving.toList ++ (w.queue ++ [(c, w.sent)]) = _
      have hh : w.serving.toList ++ w.queue = _ := hh hg
      rw [← List.append_assoc, hh, hd', List.zipIdx_append, hcount]
      rfl
  · rw [hs', List.length_append, ← hi.count]
    rfl
  · rw [hd']
    exact hi.replied
  · exact hi.closed
  · intro hg'
    cases hg.symm.trans hg'
  · intro hg'
    cases hg.symm.trans hg'

/-- A command is taken. -/
theorem take {pre post : Rpc S} (hi : RpcInv S s₀ h w)
    (he : w.move .take = some w') :
    RpcInv S s₀ (.env .take pre post :: h) w' := by
  obtain ⟨hheld, hstate, hgone, hsent, hreply⟩ := Rpc.move_take he
  have hq : RpcInv S s₀ (.env .take pre post :: h) w :=
    hi.quiet rfl rfl
  constructor
  · rw [hstate]
    exact hq.carries
  · rw [hgone, hheld]
    exact hq.order
  · rw [hsent]
    exact hq.count
  · rw [hreply]
    exact hq.replied
  · rw [hreply, hgone]
    exact hq.closed
  · rw [hreply, hgone]
    exact hq.nobody
  · rw [hgone, hheld]
    exact hq.empty

/-- A command is carried out: it is the first one not yet, and its ticket
is its place. -/
theorem finish {a : ι} (hi : RpcInv S s₀ h w)
    (he : w.move (.finish a) = some w') :
    RpcInv S s₀ (.env (.finish a) w w' :: h) w' := by
  obtain ⟨c, t, r, hserv, hx, hheld, hgone, hsent, hreply⟩ :=
    Rpc.move_finish he
  have hg : w.gone = false := by
    cases hg : w.gone with
    | false => rfl
    | true =>
        have hempty := hi.empty hg
        rw [Rpc.held, hserv] at hempty
        cases hempty
  obtain ⟨pending, hp, hh⟩ := hi.order
  have hh : (c, t) :: w.queue = pending.zipIdx (commandsDone h).length := by
    rw [← hh hg, Rpc.held, hserv]
    rfl
  obtain ⟨rest, rfl, rfl, hq⟩ : ∃ rest, pending = c :: rest ∧
      t = (commandsDone h).length ∧
      w.queue = rest.zipIdx ((commandsDone h).length + 1) := by
    cases pending with
    | nil => cases hh
    | cons c' rest =>
        rw [List.zipIdx_cons] at hh
        obtain ⟨hct, hq⟩ := List.cons.inj hh
        cases hct
        exact ⟨rest, rfl, rfl, hq⟩
  have hd : commandsDone (.env (.finish a) w w' :: h)
      = commandsDone h ++ [⟨c, r⟩] := by
    have hev : RpcEvent.done? (.env (.finish a) w w') = some ⟨c, r⟩ := by
      simp only [RpcEvent.done?, hserv, hreply, Function.update_self]
    rw [commandsDone, hev]
    rfl
  have hs : commandsSent (.env (.finish a) w w' :: h) = commandsSent h :=
    List.append_nil _
  constructor
  · rw [hd]
    exact .snoc hi.carries hx
  · refine ⟨rest, ?_, fun _ => ?_⟩
    · rw [hs, hd, hp, List.map_append, List.append_assoc]
      rfl
    · rw [hheld, hq, hd, List.length_append]
      rfl
  · rw [hs, hsent]
    exact hi.count
  · intro u d
    rw [hreply, hd]
    by_cases hu : u = (commandsDone h).length
    · subst hu
      rw [Function.update_self, List.getElem?_concat_length]
      constructor
      · intro he
        cases he
        rfl
      · intro he
        cases he
        rfl
    · rw [Function.update_of_ne hu, hi.replied]
      rcases Nat.lt_or_gt_of_ne hu with hlt | hgt
      · rw [List.getElem?_append_left hlt]
      · rw [List.getElem?_eq_none (by omega),
          List.getElem?_eq_none (by simp; omega)]
  · intro u hu
    rw [hreply] at hu
    by_cases hne : u = (commandsDone h).length
    · subst hne
      rw [Function.update_self] at hu
      cases hu
    · rw [Function.update_of_ne hne] at hu
      rw [hgone]
      exact hi.closed hu
  · intro hg'
    rw [hgone, hg] at hg'
    cases hg'
  · intro hg'
    rw [hgone, hg] at hg'
    cases hg'

/-- The thread dies, and what it has not answered is closed. -/
theorem die {pre post : Rpc S} (hi : RpcInv S s₀ h w)
    (he : w.move .die = some w') :
    RpcInv S s₀ (.env .die pre post :: h) w' := by
  simp only [Rpc.move] at he
  split at he
  · cases he
  · next hg =>
      cases he
      have hg : w.gone = false := Bool.eq_false_iff.mpr hg
      have hq : RpcInv S s₀ (.env .die pre post :: h) w :=
        hi.quiet rfl rfl
      obtain ⟨pending, hp, hh⟩ := hq.order
      have hh := hh hg
      have hmem {t : Nat} : t ∈ w.held.map Prod.snd ↔
          (commandsDone (.env .die pre post :: h)).length ≤ t ∧
            t < (commandsSent (.env .die pre post :: h)).length := by
        rw [hh, List.zipIdx_map_snd, List.mem_range'_1, hp,
          List.length_append, List.length_map]
      constructor
      · exact hq.carries
      · exact ⟨pending, hp, nofun⟩
      · exact hq.count
      · intro t d
        show (if t ∈ w.held.map Prod.snd then ReplySlot.closed
          else w.reply t) = .answered d ↔ _
        by_cases ht : t ∈ w.held.map Prod.snd
        · rw [if_pos ht, List.getElem?_eq_none (hmem.mp ht).1]
          exact ⟨nofun, nofun⟩
        · rw [if_neg ht]
          exact hq.replied
      · exact fun _ => rfl
      · intro _ t ht
        show (if t ∈ w.held.map Prod.snd then ReplySlot.closed
          else w.reply t) ≠ .waiting
        by_cases hm : t ∈ w.held.map Prod.snd
        · rw [if_pos hm]
          nofun
        · rw [if_neg hm]
          -- what is not held has been answered
          have hlt :
              t < (commandsDone (.env .die pre post :: h)).length := by
            by_contra hlt
            exact hm (hmem.mpr ⟨Nat.le_of_not_lt hlt, ht⟩)
          rw [hq.replied.mpr (List.getElem?_eq_getElem hlt)]
          nofun
      · exact fun _ => rfl

/-- A dead thread carries nothing out any more. -/
theorem dead {e : RpcMove ι}
    (hi : RpcInv S s₀ h w) (hg : w.gone = true)
    (he : w.move e = some w') : False := by
  have hheld := hi.empty hg
  obtain ⟨hs, hq⟩ := List.append_eq_nil_iff.mp hheld
  cases e with
  | take =>
      simp only [Rpc.move, hq] at he
      split at he
      · next hq' =>
          cases hq'
      · cases he
  | finish a =>
      obtain ⟨c, t, -, hserv, -⟩ := Rpc.move_finish he
      rw [hserv] at hs
      cases hs
  | die =>
      rw [Rpc.move, if_pos hg] at he
      cases he

end RpcInv

end

-- ================================================================= paths

section

variable [DecidableEq κ] {cap : Nat} {w : Rpc S} {s₀ : σ}
  {h : List (RpcEvent S)}

/-- The invariant holds along every path. -/
theorem rpcInv_of_path (hp : Path (rpcMachine S cap) (.new S s₀) h w) :
    RpcInv S s₀ h w := by
  induction hp with
  | nil => exact rpcInv_new
  | @act h w w' i β op a b _ hr ih =>
      cases op with
      | send c =>
          obtain ⟨rfl, rfl | ⟨-, rfl⟩⟩ | ⟨hg, rfl, rfl⟩ := Rpc.run_send hr
          · exact ih.quiet rfl rfl
          · exact ih.quiet rfl rfl
          · exact ih.send rfl rfl hg
      | recv c t =>
          obtain ⟨rfl, -, -⟩ := Rpc.run_recv hr
          exact ih.quiet rfl rfl
  | @env h w w' e _ he ih =>
      cases e with
      | take => exact ih.take he
      | finish a => exact ih.finish he
      | die => exact ih.die he

/-- A command is refused only once the thread is gone. -/
theorem gone_of_refused (hp : Path (rpcMachine S cap) (.new S s₀) h w)
    {i : Nat} {c : κ} {pre post : Rpc S}
    (hm : .act i (.send c) (some (.error ())) pre post ∈ h) :
    w.gone = true := by
  induction hp with
  | nil => cases hm
  | @act h w w' n β op a b hp hr ih =>
      rw [Rpc.run_gone hr]
      rcases List.mem_cons.mp hm with he | hm
      · cases he
        obtain ⟨-, he | ⟨hg, -⟩⟩ | ⟨-, he, -⟩ := Rpc.run_send hr
        · cases he
        · exact hg
        · cases he
      · exact ih hm
  | @env h w w' e hp he ih =>
      rcases List.mem_cons.mp hm with hc | hm
      · cases hc
      · exact ((rpcInv_of_path hp).dead (ih hm) he).elim

/-- What the calls see of a thread is its commands, carried out one after
the other in the order they were sent. -/
theorem linearized (hp : Path (rpcMachine S cap) (.new S s₀) h w) :
    Linearized S s₀ h w := by
  have hi := rpcInv_of_path hp
  obtain ⟨pending, hsent, hheld⟩ := hi.order
  have hrest : w.gone = false →
      commandsSent h
        = (commandsDone h).map Done.cmd ++ w.held.map Prod.fst := by
    intro hg
    rw [hheld hg, List.zipIdx_map_fst]
    exact hsent
  have hcalls :
      (∀ {i c t pre post},
        .act i (.send c) (some (.ok t)) pre post ∈ h →
          (commandsSent h)[t]? = some c) ∧
      (∀ {i c t v pre post},
        .act i (.recv c t) (some (.ok v)) pre post ∈ h →
          (commandsDone h)[t]? = some ⟨c, v⟩) ∧
      (∀ {i c t pre post},
        .act i (.recv c t) (some (.error ())) pre post ∈ h →
          w.gone = true ∧ (commandsDone h)[t]? = none) := by
    clear hi hsent hheld hrest
    induction hp with
    | nil => exact ⟨nofun, nofun, nofun⟩
    | @act h w w' n β op a b hp hr ih =>
        have hi := rpcInv_of_path hp
        refine ⟨?_, ?_, ?_⟩
        · intro i c t pre post hm
          rcases List.mem_cons.mp hm with he | hm
          · cases he
            obtain ⟨-, he | ⟨-, he⟩⟩ | ⟨-, he, -⟩ := Rpc.run_send hr
            · cases he
            · cases he
            · cases he
              rw [hi.count]
              exact List.getElem?_concat_length
          · exact getElem?_grow (ih.1 hm)
        · intro i c t v pre post hm
          rcases List.mem_cons.mp hm with he | hm
          · cases he
            have hreply := (Rpc.run_recv hr).2.1 v rfl
            exact getElem?_grow (hi.replied.mp hreply)
          · exact getElem?_grow (ih.2.1 hm)
        · intro i c t pre post hm
          have hdone :
              commandsDone (.act n op b w w' :: h) = commandsDone h :=
            List.append_nil _
          rw [hdone, Rpc.run_gone hr]
          rcases List.mem_cons.mp hm with he | hm
          · cases he
            have hreply := (Rpc.run_recv hr).2.2 rfl
            refine ⟨hi.closed hreply, ?_⟩
            by_contra hne
            obtain ⟨d, hd⟩ := Option.ne_none_iff_exists'.mp hne
            cases (hi.replied.mpr hd).symm.trans hreply
          · exact ih.2.2 hm
    | @env h w w' e hp he ih =>
        have hi := rpcInv_of_path hp
        refine ⟨?_, ?_, ?_⟩
        · intro i c t pre post hm
          rcases List.mem_cons.mp hm with he | hm
          · cases he
          · exact getElem?_grow (ih.1 hm)
        · intro i c t v pre post hm
          rcases List.mem_cons.mp hm with he | hm
          · cases he
          · exact getElem?_grow (ih.2.1 hm)
        · intro i c t pre post hm
          rcases List.mem_cons.mp hm with he | hm
          · cases he
          · exact (hi.dead (ih.2.2 hm).1 he).elim
  exact ⟨hi.carries, ⟨pending, hsent.symm⟩, hrest, hcalls.1, hcalls.2.1,
    hcalls.2.2, gone_of_refused hp, hi.nobody⟩

end

-- ============================================================= snapshots

/-- A command that only looks, at a state as `K` says: it leaves the state,
and is answered from it. -/
def Looking (S : Service κ ι σ) (K : σ → Prop)
    (answer : (c : κ) → σ → Option (S.Value c)) (c : κ) : Prop :=
  ∀ ⦃a : ι⦄ ⦃s : σ⦄ ⦃v : S.Value c⦄ ⦃s' : σ⦄,
    K s → S.exec c a s = some (v, s') → s' = s ∧ answer c s = some v

section

variable {K : σ → Prop} {answer : (c : κ) → σ → Option (S.Value c)}
  {s₀ s : σ} {ds : List (Done S.Value)} {j k : Nat}

/-- Looks that are carried out with nothing else between them are all
answered from the state the commands before them left. -/
theorem CarriedOut.snapshot (hc : CarriedOut S s₀ ds s) (hj : j ≤ ds.length)
    (hlook : ∀ t d, j ≤ t → t < k → ds[t]? = some d →
      Looking S K answer d.cmd) :
    ∃ x, CarriedOut S s₀ (ds.take j) x ∧ (K x →
      (∀ t d, j ≤ t → t < k → ds[t]? = some d →
        answer d.cmd x = some d.value) ∧
      (ds.length ≤ k → s = x)) := by
  induction hc with
  | nil =>
      rw [List.take_nil]
      exact ⟨s₀, .nil, fun _ => ⟨nofun, fun _ => rfl⟩⟩
  | @snoc ds s s' c a v hc he ih =>
      have hlast : (ds ++ [(⟨c, v⟩ : Done S.Value)])[ds.length]?
          = some ⟨c, v⟩ := List.getElem?_concat_length
      rw [List.length_append, List.length_singleton] at hj ⊢
      by_cases hnow : j = ds.length + 1
      · -- the block begins after this command
        refine ⟨s', ?_, fun _ => ⟨?_, fun _ => rfl⟩⟩
        · rw [List.take_of_length_le (by simp [hnow])]
          exact .snoc hc he
        · intro t d hjt _ hd
          obtain ⟨hlt, -⟩ := List.getElem?_eq_some_iff.mp hd
          rw [List.length_append, List.length_singleton] at hlt
          omega
      · have hj : j ≤ ds.length := by omega
        obtain ⟨x, hx, hall⟩ := ih hj fun t d hjt htk hd =>
          hlook t d hjt htk (getElem?_grow hd)
        refine ⟨x, ?_, fun hK => ?_⟩
        · rw [List.take_append_of_le_length hj]
          exact hx
        · obtain ⟨hall, hs⟩ := hall hK
          by_cases hk : ds.length < k
          · have hsx := hs (Nat.le_of_lt hk)
            subst hsx
            obtain ⟨rfl, hv⟩ := hlook _ _ hj hk hlast hK he
            refine ⟨?_, fun _ => rfl⟩
            intro t d hjt htk hd
            rcases getElem?_snoc hd with ⟨rfl, rfl⟩ | hd
            · exact hv
            · exact hall t d hjt htk hd
          · refine ⟨?_, fun hle => absurd hle (by omega)⟩
            intro t d hjt htk hd
            rcases getElem?_snoc hd with ⟨rfl, -⟩ | hd
            · exact absurd htk hk
            · exact hall t d hjt htk hd

/-- The same of what calls receive: as long as only looks are sent after
the first `j` commands, each receives what it would from the state these
left. -/
theorem Linearized.snapshot {h : List (RpcEvent S)} {w : Rpc S}
    (hl : Linearized S s₀ h w) (hj : j ≤ (commandsDone h).length)
    (hlook : ∀ t c, j ≤ t → t < k → (commandsSent h)[t]? = some c →
      Looking S K answer c) :
    ∃ x, CarriedOut S s₀ ((commandsDone h).take j) x ∧ (K x →
      ∀ {i : Nat} {c : κ} {t : Nat} {v : S.Value c} {pre post : Rpc S},
        .act i (.recv c t) (some (.ok v)) pre post ∈ h →
        j ≤ t → t < k → answer c x = some v) := by
  have hdone : ∀ t d, j ≤ t → t < k → (commandsDone h)[t]? = some d →
      Looking S K answer d.cmd := by
    intro t d hjt htk hd
    refine hlook t d.cmd hjt htk ?_
    obtain ⟨rest, hrest⟩ := hl.order
    rw [← hrest]
    refine getElem?_grow ?_
    rw [List.getElem?_map, hd]
    rfl
  obtain ⟨x, hx, hall⟩ := hl.carries.snapshot hj hdone
  refine ⟨x, hx, fun hK => ?_⟩
  intro i c t v pre post hm hjt htk
  exact (hall hK).1 t _ hjt htk (hl.answered hm)

end

end Conc
