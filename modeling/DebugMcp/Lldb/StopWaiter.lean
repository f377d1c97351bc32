/-
The stop waiter.

It is a slot for one waiter, which the read loop takes and sends to. What
a waiter was resolved to is read off the history: `woken` says what
happened first since it was registered. `SlotInv` says that a receiver
that is still held has just that, or that the read loop is on its way to
send it. Who holds one is left to those who use it: `waiterInv` is about
any callers of which each registers once.
-/
import DebugMcp.Lldb.Waiters

namespace DebugMcp

open Conc

-- ============================================== the read loop's steps

/-- Does a step of the read loop work on the stop waiter? -/
def ReaderOp.onStop : ReaderOp → Bool
  | takeStop _ | sendStop _ _ => true
  | _ => false

/-- Does it fire the signal? -/
def ReaderOp.onSignal : ReaderOp → Bool
  | signalInitialized => true
  | _ => false

/-- A step the read loop puts in front of the rest of its steps. -/
def ReaderOp.isSend : ReaderOp → Bool
  | sendPending _ _ | sendStop _ _ => true
  | _ => false

/-- What a step of the read loop leaves in its queue, and what it leaves
alone. -/
structure ReaderFrame (w w' : DapClient) (op : ReaderOp)
    (rest : List ReaderOp) : Prop where
  head : w.reader = op :: rest
  next : w'.reader = rest ∨
    ∃ x, x.isSend = true ∧ (op.onStop = false → x.onStop = false) ∧
      w'.reader = x :: rest
  ended : w'.ended = w.ended
  stop : op.onStop = false → SameStop w w'
  signal : op.onSignal = false → SameSignal w w'

section

variable {w w' : DapClient} {k : Nat}

/-- A step of the read loop is one of its first operation. -/
theorem DapClient.envMove_reader (he : w.envMove (.reader k) = some w') :
    ∃ op rest, w.reader = op :: rest ∧ w.readerStep k rest op = some w' := by
  unfold DapClient.envMove at he
  dsimp only at he
  split at he
  · cases he
  · next op rest hw => exact ⟨op, rest, hw, he⟩

/-- The frame of a step of the read loop. -/
theorem DapClient.readerStep_frame {op : ReaderOp} {rest : List ReaderOp}
    (hw : w.reader = op :: rest) (hs : w.readerStep k rest op = some w') :
    ReaderFrame w w' op rest := by
  unfold DapClient.readerStep at hs
  -- what is only kept by a step that is none of the stop's, or signal's
  have hout : ∀ {P : Prop}, true = false → P := fun h =>
    absurd h.symm Bool.false_ne_true
  cases op with
  | takePending n m =>
      dsimp only at hs
      split at hs <;> cases hs
      · exact ⟨hw, .inr ⟨_, rfl, fun _ => rfl, rfl⟩, rfl,
          fun _ => ⟨rfl, rfl⟩, fun _ => ⟨rfl, rfl, rfl⟩⟩
      · exact ⟨hw, .inl rfl, rfl, fun _ => ⟨rfl, rfl⟩,
          fun _ => ⟨rfl, rfl, rfl⟩⟩
  | sendPending cs r =>
      dsimp only at hs
      split at hs
      · cases hs
        exact ⟨hw, .inr ⟨_, rfl, fun _ => rfl, rfl⟩, rfl,
          fun _ => ⟨rfl, rfl⟩, fun _ => ⟨rfl, rfl, rfl⟩⟩
      · split at hs <;> cases hs
        exact ⟨hw, .inl rfl, rfl, fun _ => ⟨rfl, rfl⟩,
          fun _ => ⟨rfl, rfl, rfl⟩⟩
  | drainPending e =>
      cases hs
      exact ⟨hw, .inr ⟨_, rfl, fun _ => rfl, rfl⟩, rfl,
        fun _ => ⟨rfl, rfl⟩, fun _ => ⟨rfl, rfl, rfl⟩⟩
  | takeStop o =>
      dsimp only at hs
      split at hs <;> cases hs
      · exact ⟨hw, .inr ⟨_, rfl, hout, rfl⟩, rfl, hout,
          fun _ => ⟨rfl, rfl, rfl⟩⟩
      · exact ⟨hw, .inl rfl, rfl, hout, fun _ => ⟨rfl, rfl, rfl⟩⟩
  | sendStop i o =>
      cases hs
      exact ⟨hw, .inl rfl, rfl, hout, fun _ => ⟨rfl, rfl, rfl⟩⟩
  | signalInitialized =>
      cases hs
      exact ⟨hw, .inl rfl, rfl, fun _ => ⟨rfl, rfl⟩, hout⟩
  | output c | recordExit c | fireTerminated =>
      cases hs
      exact ⟨hw, .inl rfl, rfl, fun _ => ⟨rfl, rfl⟩,
        fun _ => ⟨rfl, rfl, rfl⟩⟩

end

/-- What is in the queue after a step was in it, or is to be sent. -/
theorem ReaderFrame.mem {w w' : DapClient} {op x : ReaderOp}
    {rest : List ReaderOp} (hf : ReaderFrame w w' op rest)
    (hx : x ∈ w'.reader) : x.isSend = true ∨ x ∈ w.reader := by
  rcases hf.next with he | ⟨y, hy, -, he⟩ <;> rw [he] at hx
  · rw [hf.head]
    exact .inr (List.mem_cons_of_mem _ hx)
  · rcases List.mem_cons.mp hx with rfl | hx
    · exact .inl hy
    · rw [hf.head]
      exact .inr (List.mem_cons_of_mem _ hx)

/-- The client is done with the end of the stream. -/
def DapClient.finished (w : DapClient) : Bool :=
  w.ended && w.reader.isEmpty

/-- Nothing the environment could still do is left. -/
theorem DapClient.envMove_finished {w : DapClient}
    (hf : w.finished = true) (e : ClientMove) : w.envMove e = none := by
  obtain ⟨he, hr⟩ := Bool.and_eq_true_iff.mp hf
  have hr : w.reader = [] := List.isEmpty_iff.mp hr
  cases e with
  | reader k =>
      unfold DapClient.envMove
      rw [hr]
  | _ =>
      unfold DapClient.envMove
      rw [hr, he]
      rfl

-- ========================================================= stop waiters

/-- The operation the read loop is at. -/
def DapClient.head (w : DapClient) : Option ReaderOp := w.reader.head?

theorem DapClient.head_of_reader {w : DapClient} {op : ReaderOp}
    {rest : List ReaderOp} (hr : w.reader = op :: rest) :
    w.head = some op := by
  rw [head, hr]
  rfl

/-- What call `i`'s stop waiter was resolved to since it was registered:
the first execution event dispatched, or that another call's
registration replaced it. -/
def woken (i : Nat) : ClientHistory → Option (Except Unit StopOutcome)
  | [] => none
  | .act j .registerStop _ _ _ :: h =>
      if j = i then none else (woken i h).or (some (.error ()))
  | .env (.reader _) w _ :: h =>
      match w.head with
      | some (.takeStop o) => (woken i h).or (some (.ok o))
      | _ => woken i h
  | _ :: h => woken i h

/-- Does an operation register a stop waiter? -/
def ClientOp.registersStop {β : Type} : ClientOp β → Bool
  | .registerStop => true
  | _ => false

/-- Has call `i` registered its stop waiter? -/
def hasRegistered (i : Nat) : ClientHistory → Bool
  | [] => false
  | .act j op _ _ _ :: h =>
      (j = i && op.registersStop) || hasRegistered i h
  | .env _ _ _ :: h => hasRegistered i h

/-- Does call `i` hold the receiver of a stop waiter it registered? -/
def holdsStop (i : Nat) : ClientHistory → Bool
  | [] => false
  | .act j .registerStop _ _ _ :: h => j = i || holdsStop i h
  | .act j .dropStop _ _ _ :: h => j ≠ i && holdsStop i h
  | _ :: h => holdsStop i h

/-- What call `i`, which holds a stop waiter's receiver, was woken
with. -/
inductive Held (w : DapClient) (i : Nat) :
    Option (Except Unit StopOutcome) → Prop
  /-- It is in the slot. -/
  | waiting (hs : w.slot = some i) (he : w.stopRx i = .empty)
      (hq : ∀ o, .sendStop i o ∉ w.reader) : Held w i none
  /-- The read loop has taken it and sends next. -/
  | taken (o : StopOutcome) (rest : List ReaderOp)
      (hr : w.reader = .sendStop i o :: rest)
      (he : w.stopRx i = .empty) (hs : w.slot ≠ some i) :
      Held w i (some (.ok o))
  | resolved (r : Except Unit StopOutcome)
      (hr : (w.stopRx i).recv = some r) : Held w i (some r)

/-- What a dispatched message queues sends no stop yet. -/
theorem dispatch_no_send (m : DapMessage) (i : Nat) (o : StopOutcome) :
    .sendStop i o ∉ dispatch m := by
  intro hm
  cases mem_dispatch hm

/-- A step off the stop waiter resolves none. -/
theorem woken_off {i j : Nat} {h : ClientHistory} {w w' : DapClient}
    {β : Type} {op : ClientOp β} {b : β} (hop : op.onStop = false) :
    woken j (.act i op b w w' :: h) = woken j h := by
  cases op with
  | registerStop | dropStop => cases hop
  | _ => rfl

section

variable {w w' : DapClient} {h : ClientHistory} {i j k : Nat}
  {op : ReaderOp} {rest : List ReaderOp}

/-- An execution event resolves every waiter that is not resolved. -/
theorem woken_take {o : StopOutcome} (hr : w.reader = .takeStop o :: rest) :
    woken j (.env (.reader k) w w' :: h)
      = (woken j h).or (some (.ok o)) := by
  have hh := DapClient.head_of_reader hr
  show (match w.head with
    | some (.takeStop o) => (woken j h).or (some (.ok o))
    | _ => woken j h) = _
  rw [hh]

/-- No other step of the read loop resolves one. -/
theorem woken_pass (hr : w.reader = op :: rest)
    (hop : ∀ o, op ≠ .takeStop o) :
    woken j (.env (.reader k) w w' :: h) = woken j h := by
  have hh := DapClient.head_of_reader hr
  show (match w.head with
    | some (.takeStop o) => (woken j h).or (some (.ok o))
    | _ => woken j h) = woken j h
  rw [hh]
  cases op with
  | takeStop o => exact absurd rfl (hop o)
  | _ => rfl

-- =========================================================== invariant

/-- The waiters: `armed` are the calls that hold a receiver, `fresh`
those that have not registered yet. -/
structure SlotInv (armed fresh : Nat → Prop) (w : DapClient)
    (h : ClientHistory) : Prop where
  /-- Nothing is about to be sent behind the step the read loop is
  at. -/
  single : ∀ op ∈ w.reader.tail, ∀ i o, op ≠ .sendStop i o
  fresh : ∀ i, fresh i → w.slot ≠ some i ∧ ∀ o, .sendStop i o ∉ w.reader
  held : ∀ i, armed i → Held w i (woken i h)

/-- Off the stop waiter, a held receiver stays as it is. -/
theorem Held.same {x : Option (Except Unit StopOutcome)}
    (hs : SameStop w w') (hr : w'.reader = w.reader) (hx : Held w j x) :
    Held w' j x := by
  cases hx with
  | waiting hsl he hq =>
      exact .waiting (hs.slot.trans hsl) (by rw [hs.stopRx, he])
        (by rw [hr]; exact hq)
  | taken o rest hre he hsl =>
      exact .taken o rest (hr.trans hre) (by rw [hs.stopRx, he])
        (by rw [hs.slot]; exact hsl)
  | resolved r hre => exact .resolved r (by rw [hs.stopRx]; exact hre)

/-- What is resolved stays resolved when the sender goes. -/
theorem Oneshot.recv_close_of {α : Type} {o : Oneshot α}
    {r : Except Unit α} (h : o.recv = some r) : o.close.recv = some r := by
  cases o with
  | empty => cases h
  | _ => exact h

/-- What is resolved stays resolved when something is sent. -/
theorem Oneshot.recv_send_of {α : Type} {o : Oneshot α} {a : α}
    {r : Except Unit α} (h : o.recv = some r) :
    (o.send a).recv = some r := by
  cases o with
  | empty => cases h
  | _ => exact h

namespace SlotInv

variable {armed fresh armed' fresh' : Nat → Prop} {ev : ClientEvent}

/-- A step that does not touch a stop waiter. -/
theorem quiet (hI : SlotInv armed fresh w h) (hs : SameStop w w')
    (hr : w'.reader = w.reader) (hw : ∀ j, woken j (ev :: h) = woken j h)
    (ha : ∀ j, armed' j → armed j) (hf : ∀ j, fresh' j → fresh j) :
    SlotInv armed' fresh' w' (ev :: h) := by
  refine ⟨?_, fun j hj => ?_, fun j hj => ?_⟩
  · rw [hr]
    exact hI.single
  · rw [hs.slot, hr]
    exact hI.fresh j (hf j hj)
  · rw [hw]
    exact (hI.held j (ha j hj)).same hs hr

/-- A registration replaces the receiver that is in the slot. -/
theorem registerStop (hI : SlotInv armed fresh w h) (hi : fresh i)
    (ha : ∀ j, armed' j → j = i ∨ armed j)
    (hf : ∀ j, fresh' j → j ≠ i ∧ fresh j) :
    SlotInv armed' fresh' (w.registerStop i)
      (.act i .registerStop () w (w.registerStop i) :: h) := by
  obtain ⟨-, hsend⟩ := hI.fresh i hi
  refine ⟨hI.single, fun j hj => ?_, fun j hj => ?_⟩
  · obtain ⟨hij, hj⟩ := hf j hj
    exact ⟨fun hs => hij (Option.some.inj hs).symm, (hI.fresh j hj).2⟩
  · by_cases hij : j = i
    · subst hij
      have hw : woken j (.act j .registerStop () w (w.registerStop j) :: h)
          = none := if_pos rfl
      rw [hw]
      exact .waiting rfl (Function.update_self ..) hsend
    · have hw : woken j (.act i .registerStop () w (w.registerStop i) :: h)
          = (woken j h).or (some (.error ())) :=
        if_neg fun e => hij e.symm
      have hrx : (w.registerStop i).stopRx j = if w.slot = some j then
          (w.stopRx j).close else w.stopRx j := by
        unfold DapClient.registerStop
        dsimp only
        rw [Function.update_of_ne hij]
        cases hs : w.slot with
        | none => rfl
        | some l =>
            by_cases hl : l = j
            · subst hl
              rw [if_pos rfl]
              exact Function.update_self ..
            · rw [if_neg fun e => hl (Option.some.inj e)]
              exact Function.update_of_ne (fun e => hl e.symm) _ _
      have hx := hI.held j ((ha j hj).resolve_left hij)
      rw [hw]
      generalize woken j h = x at hx ⊢
      cases hx with
      | waiting hs he hq =>
          refine .resolved (.error ()) ?_
          rw [hrx, if_pos hs, he]
          rfl
      | taken o rest hre he hs =>
          refine .taken o rest hre ?_ fun hc => hij (Option.some.inj hc).symm
          rw [hrx, if_neg hs, he]
      | resolved r hre =>
          refine .resolved r ?_
          rw [hrx]
          split
          · exact Oneshot.recv_close_of hre
          · exact hre

/-- A caller drops its receiver. -/
theorem dropStop (hI : SlotInv armed fresh w h)
    (ha : ∀ j, armed' j → j ≠ i ∧ armed j)
    (hf : ∀ j, fresh' j → fresh j) :
    SlotInv armed' fresh' { w with
      stopRx := Function.update w.stopRx i (w.stopRx i).drop }
      (.act i .dropStop () w { w with
        stopRx := Function.update w.stopRx i (w.stopRx i).drop } :: h) := by
  refine ⟨hI.single, fun j hj => hI.fresh j (hf j hj), fun j hj => ?_⟩
  obtain ⟨hij, hj⟩ := ha j hj
  have hrx : (Function.update w.stopRx i (w.stopRx i).drop) j
      = w.stopRx j := Function.update_of_ne hij _ _
  show Held _ j (woken j h)
  have hx := hI.held j hj
  generalize woken j h = x at hx ⊢
  cases hx with
  | waiting hs he hq => exact .waiting hs (hrx.trans he) hq
  | taken o rest hre he hs => exact .taken o rest hre (hrx.trans he) hs
  | resolved r hre =>
      exact .resolved r (by dsimp only; rw [hrx]; exact hre)

/-- Behind the step the read loop is at, nothing is about to be sent. -/
theorem rest_no_send (hI : SlotInv armed fresh w h)
    (hr : w.reader = op :: rest) : ∀ x ∈ rest, ∀ i o, x ≠ .sendStop i o := by
  have := hI.single
  rw [hr] at this
  exact this

/-- A step of the read loop off the stop waiter. -/
theorem reader_off (hI : SlotInv armed fresh w h)
    (hf : ReaderFrame w w' op rest) (hop : op.onStop = false) :
    SlotInv armed fresh w' (.env (.reader k) w w' :: h) := by
  have hrest := hI.rest_no_send hf.head
  have hno : ∀ i o, .sendStop i o ∉ w'.reader := by
    intro i o hm
    rcases hf.next with he | ⟨x, -, hx, he⟩ <;> rw [he] at hm
    · exact hrest _ hm i o rfl
    · rcases List.mem_cons.mp hm with rfl | hm
      · cases hx hop
      · exact hrest _ hm i o rfl
  have hsame := hf.stop hop
  refine ⟨fun x hx i o he => hno i o (he ▸ List.mem_of_mem_tail hx),
    fun j hj => ?_, fun j hj => ?_⟩
  · rw [hsame.slot]
    exact ⟨(hI.fresh j hj).1, hno j⟩
  · rw [woken_pass hf.head (by rintro o rfl; cases hop)]
    have hx := hI.held j hj
    generalize woken j h = x at hx ⊢
    cases hx with
    | waiting hs he hq =>
        exact .waiting (hsame.slot.trans hs) (by rw [hsame.stopRx, he])
          (hno j)
    | taken o rest' hre he hs =>
        rw [hf.head] at hre
        cases hre
        cases hop
    | resolved r hre =>
        exact .resolved r (by rw [hsame.stopRx]; exact hre)

/-- An execution event takes the waiter that is in the slot. -/
theorem takeStop {o : StopOutcome} (hI : SlotInv armed fresh w h)
    (hr : w.reader = .takeStop o :: rest)
    (he : w.readerStep k rest (.takeStop o) = some w') :
    SlotInv armed fresh w' (.env (.reader k) w w' :: h) := by
  have hrest := hI.rest_no_send hr
  unfold DapClient.readerStep at he
  dsimp only at he
  cases hsl : w.slot with
  | none =>
      rw [hsl] at he
      cases he
      refine ⟨fun x hx => hrest x (List.mem_of_mem_tail hx),
        fun j _ => ⟨fun h => (by cases h), fun o' hm =>
          hrest _ hm j o' rfl⟩, fun j hj => ?_⟩
      rw [woken_take hr]
      have hx := hI.held j hj
      generalize woken j h = x at hx ⊢
      cases hx with
      | waiting hs he hq => cases hsl.symm.trans hs
      | taken o' rest' hre he hs => cases hr.symm.trans hre
      | resolved r hre => exact .resolved r hre
  | some l =>
      rw [hsl] at he
      cases he
      refine ⟨hrest, ?_, fun j hj => ?_⟩
      · intro j hj
        refine ⟨fun h => (by cases h), fun o' hm => ?_⟩
        rcases List.mem_cons.mp hm with hm | hm
        · cases hm
          exact (hI.fresh _ hj).1 hsl
        · exact hrest _ hm j o' rfl
      · rw [woken_take hr]
        have hx := hI.held j hj
        generalize woken j h = x at hx ⊢
        cases hx with
        | waiting hs he hq =>
            cases hsl.symm.trans hs
            exact .taken o rest rfl he nofun
        | taken o' rest' hre he hs => cases hr.symm.trans hre
        | resolved r hre => exact .resolved r hre

/-- The read loop sends to the waiter it has taken. -/
theorem sendStop {l : Nat} {o : StopOutcome} (hI : SlotInv armed fresh w h)
    (hr : w.reader = .sendStop l o :: rest)
    (he : w.readerStep k rest (.sendStop l o) = some w') :
    SlotInv armed fresh w' (.env (.reader k) w w' :: h) := by
  have hrest := hI.rest_no_send hr
  cases he
  refine ⟨fun x hx => hrest x (List.mem_of_mem_tail hx),
    fun j hj => ⟨(hI.fresh j hj).1, fun o' hm => hrest _ hm j o' rfl⟩,
    fun j hj => ?_⟩
  have hrx : ∀ j, j ≠ l → Function.update w.stopRx l
      ((w.stopRx l).send o) j = w.stopRx j := fun j hj =>
    Function.update_of_ne hj _ _
  rw [woken_pass hr (by rintro o' h; cases h)]
  have hx := hI.held j hj
  generalize woken j h = x at hx ⊢
  cases hx with
  | waiting hs he hq =>
      have hjl : j ≠ l := fun e => by
        subst e
        exact hq o (hr ▸ List.mem_cons_self ..)
      exact .waiting hs ((hrx j hjl).trans he) fun o' hm =>
        hrest _ hm j o' rfl
  | taken o' rest' hre he hs =>
      cases hr.symm.trans hre
      refine .resolved (.ok o) ?_
      dsimp only
      rw [Function.update_self, he]
      rfl
  | resolved r hre =>
      refine .resolved r ?_
      dsimp only
      by_cases hjl : j = l
      · subst hjl
        rw [Function.update_self]
        exact Oneshot.recv_send_of hre
      · rw [hrx j hjl]
        exact hre

/-- The read loop gets a frame or the end of the stream. -/
theorem next {e : ClientMove} (hI : SlotInv armed fresh w h)
    (hr : w.reader = []) (hs : SameStop w w')
    (hw : ∀ j, woken j (.env e w w' :: h) = woken j h)
    (hno : ∀ i o, .sendStop i o ∉ w'.reader) :
    SlotInv armed fresh w' (.env e w w' :: h) := by
  refine ⟨fun x hx i o he => hno i o (he ▸ List.mem_of_mem_tail hx),
    fun j hj => ?_, fun j hj => ?_⟩
  · rw [hs.slot]
    exact ⟨(hI.fresh j hj).1, hno j⟩
  · rw [hw]
    have hx := hI.held j hj
    generalize woken j h = x at hx ⊢
    cases hx with
    | waiting hsl he hq =>
        exact .waiting (hs.slot.trans hsl) (by rw [hs.stopRx, he]) (hno j)
    | taken o rest hre he hsl => cases hr.symm.trans hre
    | resolved r hre => exact .resolved r (by rw [hs.stopRx]; exact hre)

/-- The environment keeps the waiters. -/
theorem env {e : ClientMove} (hI : SlotInv armed fresh w h)
    (he : w.envMove e = some w') :
    SlotInv armed fresh w' (.env e w w' :: h) := by
  cases e with
  | reader k =>
      obtain ⟨op, rest, hw, hs⟩ := DapClient.envMove_reader he
      cases op with
      | takeStop o => exact hI.takeStop hw hs
      | sendStop i o => exact hI.sendStop hw hs
      | _ => exact hI.reader_off (DapClient.readerStep_frame hw hs) rfl
  | frame m =>
      obtain ⟨hw, -, rfl⟩ := DapClient.envMove_frame he
      exact hI.next hw ⟨rfl, rfl⟩ (fun _ => rfl) (dispatch_no_send m)
  | eof =>
      obtain ⟨hw, -, rfl⟩ := DapClient.envMove_eof he
      refine hI.next hw ⟨rfl, rfl⟩ (fun _ => rfl) fun i o hm => ?_
      rcases List.mem_cons.mp hm with hm | hm
      · cases hm
      · rcases List.mem_cons.mp hm with hm | hm
        · cases hm
        · cases List.mem_singleton.mp hm

end SlotInv

-- ============================================================= callers

/-- Each call registers its stop waiter at most once: a waiter has a name
of its own. -/
def RegistersOnce (h : ClientHistory) : ClientEvent → Prop
  | .act i op _ _ _ =>
      op.registersStop = true → hasRegistered i h = false
  | .env _ _ _ => True

/-- The waiters of any callers. -/
def WaiterInv (w : DapClient) (h : ClientHistory) : Prop :=
  SlotInv (holdsStop · h = true) (hasRegistered · h = false) w h

/-- A caller's operation keeps the waiters. -/
theorem WaiterInv.act {β : Type} {op : ClientOp β} {a : Reply} {b : β}
    (hI : WaiterInv w h) (hr : w.run i op a = some (b, w'))
    (hok : RegistersOnce h (.act i op b w w')) :
    WaiterInv w' (.act i op b w w' :: h) := by
  have hfresh : ∀ j, hasRegistered j (.act i op b w w' :: h) = false →
      (op.registersStop = true → j ≠ i) ∧ hasRegistered j h = false := by
    intro j hj
    obtain ⟨hi, hj⟩ := Bool.or_eq_false_iff.mp hj
    refine ⟨?_, hj⟩
    rintro hop rfl
    rw [hop, decide_eq_true rfl] at hi
    cases hi
  cases op with
  | registerStop =>
      have he := DapClient.run_registerStop hr
      subst he
      refine SlotInv.registerStop hI (hok rfl) (fun j hj => ?_) fun j hj =>
        ⟨(hfresh j hj).1 rfl, (hfresh j hj).2⟩
      rcases Bool.or_eq_true_iff.mp hj with he | hj
      · exact .inl (of_decide_eq_true he).symm
      · exact .inr hj
  | dropStop =>
      have he := DapClient.run_dropStop hr
      subst he
      refine SlotInv.dropStop hI (fun j hj => ?_) fun j hj => (hfresh j hj).2
      obtain ⟨hij, hj⟩ := Bool.and_eq_true_iff.mp hj
      exact ⟨Ne.symm (of_decide_eq_true hij), hj⟩
  | _ =>
      exact SlotInv.quiet hI (DapClient.run_off_stop hr rfl)
        (DapClient.run_reader hr).reader (fun j => woken_off rfl)
        (fun j hj => hj) fun j hj => (hfresh j hj).2

/-- So does a step of the environment. -/
theorem WaiterInv.env {e : ClientMove} (hI : WaiterInv w h)
    (he : w.envMove e = some w') : WaiterInv w' (.env e w w' :: h) :=
  SlotInv.env hI he

theorem waiterInv_new : WaiterInv DapClient.new [] where
  single _ h := by cases h
  fresh _ _ := ⟨fun h => (by cases h), fun _ h => (by cases h)⟩
  held _ h := by cases h

end

end DebugMcp
