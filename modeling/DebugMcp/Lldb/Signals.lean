/-
The stop waiter and the initialized signal, for the backend's callers.

Both are a slot for one waiter, which the read loop takes and sends to.
What a waiter was resolved to is read off the history: `woken` and
`signalled` say what happened first since it was registered, and
`StopInv` and `SignalInv` say that its receiver holds just that, or that
the read loop is on its way to send it.
-/
import DebugMcp.Lldb.StopWaiter

namespace DebugMcp

open Conc

-- ========================================================= stop waiters

/-- Does a step register the stop waiter? -/
def PlanStep.isRegister : PlanStep → Bool
  | register => true
  | _ => false

/-- How often a plan registers the stop waiter. -/
def registrations (plan : List PlanStep) : Nat :=
  plan.countP PlanStep.isRegister

namespace CallPhase

/-- What a caller has still to do, its current step included. -/
def plan : CallPhase → List PlanStep
  | active p _ _ _ => p
  | _ => []

end CallPhase

/-- A caller's plan only gets shorter. -/
theorem PlanNext.suffix {p p' : CallPhase} {β : Type} {op : ClientOp β}
    {b : β} (hq : PlanNext p op b p') : p'.plan <:+ p.plan := by
  cases hq with
  | number | register | write | park => exact List.suffix_refl _
  | writeDeferred | answer | ready | fired | registerStop | response =>
      exact List.suffix_cons ..
  | _ => exact List.nil_suffix

/-- A caller's plan stays a part of the plan it started with. -/
theorem planSuffix (calls : Nat → LldbCall) :
    Inductive clientMachine PlanNext (fun _ _ => True)
      (fun _ φ _ => ∀ i, (φ i).plan <:+ (calls i).plan) where
  act := by
    intro w w' φ h i β op a b q' hI _ hq _ j
    by_cases hij : j = i
    · subst hij
      rw [Function.update_self]
      exact hq.suffix.trans (hI j)
    · rw [Function.update_of_ne hij]
      exact hI j
  env := fun hI _ _ => hI

/-- Stop waiters: a caller registers once, and what its receiver is
resolved to is what the history says. -/
structure StopInv (w : DapClient) (φ : Nat → CallPhase)
    (h : ClientHistory) : Prop where
  /-- Nothing is about to be sent behind the step the read loop is
  at. -/
  single : ∀ op ∈ w.reader.tail, ∀ i o, op ≠ .sendStop i o
  once : ∀ i, registrations (φ i).plan ≤ 1
  fresh : ∀ i, 0 < registrations (φ i).plan → (φ i).armed = false ∧
    w.slot ≠ some i ∧ ∀ o, .sendStop i o ∉ w.reader
  held : ∀ i, (φ i).armed = true → Held w i (woken i h)

namespace StopInv

variable {w w' : DapClient} {φ : Nat → CallPhase} {h : ClientHistory}
  {ev : ClientEvent} {i : Nat} {q' : CallPhase}

/-- The callers' waiters, without their phases. -/
theorem slot (hI : StopInv w φ h) :
    SlotInv (fun i => (φ i).armed = true)
      (fun i => 0 < registrations (φ i).plan) w h where
  single := hI.single
  fresh i hi := (hI.fresh i hi).2
  held := hI.held

/-- A caller moves: what it has ahead gets less, and it has not
registered while it has that ahead. -/
theorem of_slot (hI : StopInv w φ h)
    (hs : SlotInv (fun j => (Function.update φ i q' j).armed = true)
      (fun j => 0 < registrations (Function.update φ i q' j).plan)
      w' (ev :: h))
    (hsuf : q'.plan <:+ (φ i).plan)
    (harm : 0 < registrations q'.plan → q'.armed = false) :
    StopInv w' (Function.update φ i q') (ev :: h) where
  single := hs.single
  once j := by
    by_cases hij : j = i
    · subst hij
      rw [Function.update_self]
      exact (List.Sublist.countP_le hsuf.sublist).trans (hI.once j)
    · rw [Function.update_of_ne hij]
      exact hI.once j
  fresh j hj := by
    refine ⟨?_, hs.fresh j hj⟩
    by_cases hij : j = i
    · subst hij
      rw [Function.update_self] at hj ⊢
      exact harm hj
    · rw [Function.update_of_ne hij] at hj ⊢
      exact (hI.fresh j hj).1
  held := hs.held

/-- A caller moves without touching a stop waiter. -/
theorem moved (hI : StopInv w φ h) (hs : SameStop w w')
    (hr : w'.reader = w.reader)
    (hw : ∀ j, woken j (ev :: h) = woken j h)
    (hsuf : q'.plan <:+ (φ i).plan)
    (harm : q'.armed = true → (φ i).armed = true) :
    StopInv w' (Function.update φ i q') (ev :: h) := by
  have hcount := List.Sublist.countP_le (p := PlanStep.isRegister)
    hsuf.sublist
  refine hI.of_slot (hI.slot.quiet hs hr hw (fun j hj => ?_)
    fun j hj => ?_) hsuf fun hq => ?_
  · by_cases hij : j = i
    · subst hij
      rw [Function.update_self] at hj
      exact harm hj
    · rwa [Function.update_of_ne hij] at hj
  · by_cases hij : j = i
    · subst hij
      rw [Function.update_self] at hj
      exact hj.trans_le hcount
    · rwa [Function.update_of_ne hij] at hj
  · refine (Bool.not_eq_true _).mp fun ht => ?_
    rw [(hI.fresh i (hq.trans_le hcount)).1] at harm
    cases harm ht

/-- A registration replaces the receiver that is in the slot. -/
theorem registerStop {rest : List PlanStep} {sv : Option (Int × ChanId)}
    {ar : Bool} (hI : StopInv w φ h)
    (hφ : φ i = .active (.register :: rest) .idle sv ar) :
    StopInv (w.registerStop i)
      (Function.update φ i (.active rest .idle sv true))
      (.act i .registerStop () w (w.registerStop i) :: h) := by
  have hcount : registrations (φ i).plan = registrations rest + 1 := by
    rw [hφ]
    exact List.countP_cons_of_pos rfl
  have hnone : registrations rest = 0 := by
    have := hI.once i
    omega
  have hsuf : rest <:+ (φ i).plan := by
    rw [hφ]
    exact List.suffix_cons ..
  refine hI.of_slot (hI.slot.registerStop (by omega) (fun j hj => ?_)
    fun j hj => ?_) hsuf fun hq => ?_
  · by_cases hij : j = i
    · exact .inl hij
    · rw [Function.update_of_ne hij] at hj
      exact .inr hj
  · by_cases hij : j = i
    · subst hij
      rw [Function.update_self] at hj
      have hj : 0 < registrations rest := hj
      omega
    · rw [Function.update_of_ne hij] at hj
      exact ⟨hij, hj⟩
  · have hq : 0 < registrations rest := hq
    omega

/-- A caller drops its receiver. -/
theorem dropStop (hI : StopInv w φ h) :
    StopInv { w with
      stopRx := Function.update w.stopRx i (w.stopRx i).drop }
      (Function.update φ i (.failing false))
      (.act i .dropStop () w { w with
        stopRx := Function.update w.stopRx i (w.stopRx i).drop } :: h) := by
  refine hI.of_slot (hI.slot.dropStop (fun j hj => ?_) fun j hj => ?_)
    List.nil_suffix fun hq => (by cases hq)
  · by_cases hij : j = i
    · subst hij
      rw [Function.update_self] at hj
      cases hj
    · rw [Function.update_of_ne hij] at hj
      exact ⟨hij, hj⟩
  · by_cases hij : j = i
    · subst hij
      rw [Function.update_self] at hj
      cases hj
    · rwa [Function.update_of_ne hij] at hj

end StopInv

/-- No dispatched message drains the table. -/
theorem dispatch_no_drain (m : DapMessage) (e : BackendError) :
    .drainPending e ∉ dispatch m := by
  intro hm
  cases mem_dispatch hm

/-- Off the stop waiter, no caller arms or disarms it. -/
theorem PlanNext.off_stop {p p' : CallPhase} {β : Type}
    {op : ClientOp β} {b : β} (hq : PlanNext p op b p')
    (hop : op.onStop = false) : p'.armed = true → p.armed = true := by
  cases hq with
  | registerStop | release => cases hop
  | stopped | stopDrop => exact fun _ => rfl
  | _ => exact id

/-- The stop waiters' invariant is kept by every step. -/
theorem stopInv : Inductive clientMachine PlanNext (fun _ _ => True)
    StopInv where
  act := by
    intro w w' φ h i β op a b q' hI hr hq _
    have hr : w.run i op a = some (b, w') := hr
    cases hop : op.onStop with
    | false =>
        exact hI.moved (DapClient.run_off_stop hr hop)
          (DapClient.run_reader hr).reader (fun j => woken_off hop)
          hq.suffix (hq.off_stop hop)
    | true =>
        generalize hp : φ i = p at hq
        cases hq with
        | registerStop rest sv ar =>
            have he := DapClient.run_registerStop hr
            subst he
            exact hI.registerStop hp
        | release =>
            have he := DapClient.run_dropStop hr
            subst he
            exact hI.dropStop
        | _ => cases hop
  env := by
    intro w w' φ h e hI he _
    have hs := hI.slot.env he
    exact ⟨hs.single, hI.once,
      fun j hj => ⟨(hI.fresh j hj).1, hs.fresh j hj⟩, hs.held⟩

-- ======================================================= the signal

/-- Does an operation park its caller for the signal? -/
def ClientOp.parks {β : Type} (op : ClientOp β) (b : β) : Bool :=
  match op, b with
  | .pollInitialized, false => true
  | .selectBoth _ _, some .parked => true
  | _, _ => false

/-- Was call `i` woken since it parked for the signal, by the signal or
by another call that parked in its place? -/
def signalled (i : Nat) : ClientHistory → Bool
  | [] => false
  | .act j op b _ _ :: h =>
      if op.parks b then if j = i then false else true
      else signalled i h
  | .env (.reader _) w _ :: h =>
      match w.head with
      | some .signalInitialized => true
      | _ => signalled i h
  | .env _ _ _ :: h => signalled i h

/-- Was `initialized` dispatched? -/
def fired : ClientHistory → Bool
  | [] => false
  | .env (.reader _) w _ :: h =>
      match w.head with
      | some .signalInitialized => true
      | _ => fired h
  | _ :: h => fired h

/-- What call `i`, which is parked for the signal, is owed. -/
inductive Parked (w : DapClient) (i : Nat) : Bool → Prop
  | waiting (hs : w.initWaiter = some i) (he : w.initRx i = .empty) :
      Parked w i false
  | woken (hr : (w.initRx i).recv.isSome) : Parked w i true

/-- Whatever the history says, a waiting call is in the slot with nothing
sent, or resolved. -/
theorem Parked.waits {w : DapClient} {i : Nat} {x : Bool}
    (hp : Parked w i x) :
    w.initWaiter = some i ∧ w.initRx i = .empty ∨
      (w.initRx i).recv.isSome := by
  cases hp with
  | waiting hs he => exact .inl ⟨hs, he⟩
  | woken hr => exact .inr hr

/-- The signal: it has fired when the history says so, and then nobody
waits for it. -/
structure SignalInv (w : DapClient) (φ : Nat → CallPhase)
    (h : ClientHistory) : Prop where
  fired : w.initFired = DebugMcp.fired h
  clear : w.initFired = true → w.initWaiter = none
  parked : ∀ i, (φ i).parked = true → Parked w i (signalled i h)

/-- An unsent or sent channel that is sent to or closed is resolved. -/
theorem Oneshot.recv_send {α : Type} (o : Oneshot α) (a : α)
    (ho : o = .empty ∨ o.recv.isSome) : (o.send a).recv.isSome := by
  rcases ho with rfl | ho
  · rfl
  · cases o with
    | empty | dropped => cases ho
    | _ => rfl

theorem Oneshot.recv_close {α : Type} (o : Oneshot α)
    (ho : o = .empty ∨ o.recv.isSome) : o.close.recv.isSome := by
  rcases ho with rfl | ho
  · rfl
  · cases o with
    | empty | dropped => cases ho
    | _ => rfl

namespace SignalInv

variable {w w' : DapClient} {φ φ' : Nat → CallPhase} {h : ClientHistory}
  {ev : ClientEvent} {i : Nat}

/-- A step off the signal, after which no more callers are parked. -/
theorem quiet (hI : SignalInv w φ h) (hs : SameSignal w w')
    (hf : DebugMcp.fired (ev :: h) = DebugMcp.fired h)
    (hw : ∀ j, signalled j (ev :: h) = signalled j h)
    (hφ : ∀ j, (φ' j).parked = true → (φ j).parked = true) :
    SignalInv w' φ' (ev :: h) where
  fired := by
    rw [hs.fired, hf]
    exact hI.fired
  clear := by
    rw [hs.fired, hs.waiter]
    exact hI.clear
  parked j hj := by
    rw [hw]
    cases hsg : signalled j h with
    | false =>
        have hx := hI.parked j (hφ j hj)
        rw [hsg] at hx
        cases hx with
        | waiting hwt he =>
            exact .waiting (hs.waiter.trans hwt) (by rw [hs.initRx, he])
    | true =>
        have hx := hI.parked j (hφ j hj)
        rw [hsg] at hx
        cases hx with
        | woken hr => exact .woken (by rw [hs.initRx]; exact hr)

/-- A caller is parked. -/
theorem park {rest : List PlanStep} {sv : Option (Int × ChanId)}
    {ar : Bool} (hI : SignalInv w φ h)
    (hfalse : w.initFired = false) :
    SignalInv (w.parkInitialized i)
      (Function.update φ i (.active (.initialized :: rest) .parked sv ar))
      (.act i .pollInitialized false w (w.parkInitialized i) :: h) := by
  refine ⟨hI.fired, fun hf => ?_, fun j hj => ?_⟩
  · cases hfalse.symm.trans hf
  · by_cases hij : j = i
    · subst hij
      have hs : signalled j (.act j .pollInitialized false w
          (w.parkInitialized j) :: h) = false := by
        show (if j = j then false else true) = false
        rw [if_pos rfl]
      rw [hs]
      exact .waiting rfl (Function.update_self ..)
    · rw [Function.update_of_ne hij] at hj
      have hs : signalled j (.act i .pollInitialized false w
          (w.parkInitialized i) :: h) = true := by
        show (if i = j then false else true) = true
        rw [if_neg fun e => hij e.symm]
      rw [hs]
      refine .woken ?_
      -- The waiter it replaces is woken; any other was woken before.
      have hx := (hI.parked j hj).waits
      unfold DapClient.parkInitialized
      dsimp only
      rw [Function.update_of_ne hij]
      cases hw : w.initWaiter with
      | none =>
          rcases hx with ⟨hs, -⟩ | hx
          · cases hw.symm.trans hs
          · exact hx
      | some l =>
          dsimp only
          by_cases hl : j = l
          · subst hl
            rw [Function.update_self]
            exact Oneshot.recv_close _ (hx.imp_left (·.2))
          · rw [Function.update_of_ne hl]
            rcases hx with ⟨hs, -⟩ | hx
            · exact absurd (Option.some.inj (hs.symm.trans hw)) hl
            · exact hx

/-- The signal fires. -/
theorem fire {k : Nat} {rest : List ReaderOp} (hI : SignalInv w φ h)
    (hr : w.reader = .signalInitialized :: rest)
    (he : w.readerStep k rest .signalInitialized = some w') :
    SignalInv w' φ (.env (.reader k) w w' :: h) := by
  have hh := DapClient.head_of_reader hr
  have hf : DebugMcp.fired (.env (.reader k) w w' :: h) = true := by
    show (match w.head with
      | some .signalInitialized => true | _ => DebugMcp.fired h) = true
    rw [hh]
  have hs : ∀ j, signalled j (.env (.reader k) w w' :: h) = true := by
    intro j
    show (match w.head with
      | some .signalInitialized => true | _ => signalled j h) = true
    rw [hh]
  cases he
  refine ⟨hf.symm, fun _ => rfl, fun j hj => ?_⟩
  rw [hs]
  refine .woken ?_
  have hx := (hI.parked j hj).waits
  dsimp only
  cases hw : w.initWaiter with
  | none =>
      rcases hx with ⟨hs, -⟩ | hx
      · cases hw.symm.trans hs
      · exact hx
  | some l =>
      dsimp only
      by_cases hl : j = l
      · subst hl
        rw [Function.update_self]
        exact Oneshot.recv_send _ _ (hx.imp_left (·.2))
      · rw [Function.update_of_ne hl]
        rcases hx with ⟨hs, -⟩ | hx
        · exact absurd (Option.some.inj (hs.symm.trans hw)) hl
        · exact hx

end SignalInv

/-- Off the signal, no caller parks. -/
theorem PlanNext.off_signal {p p' : CallPhase} {β : Type}
    {op : ClientOp β} {b : β} (hq : PlanNext p op b p')
    (hop : op.onSignal = false) :
    (p'.parked = true → p.parked = true) ∧ op.parks b = false := by
  cases hq with
  | ready | park => cases hop
  | _ => exact ⟨nofun, rfl⟩

/-- The signal's invariant is kept by every step. -/
theorem signalInv : Inductive clientMachine PlanNext (fun _ _ => True)
    SignalInv where
  act := by
    intro w w' φ h i β op a b q' hI hr hq _
    have hr : w.run i op a = some (b, w') := hr
    have hmoved : (q'.parked = true → (φ i).parked = true) → ∀ j,
        (Function.update φ i q' j).parked = true →
          (φ j).parked = true := by
      intro hq' j hj
      by_cases hij : j = i
      · subst hij
        rw [Function.update_self] at hj
        exact hq' hj
      · rw [Function.update_of_ne hij] at hj
        exact hj
    cases hop : op.onSignal with
    | false =>
        obtain ⟨hpk, hno⟩ := hq.off_signal hop
        refine hI.quiet (DapClient.run_off_signal hr hop) rfl
          (fun j => ?_) (hmoved hpk)
        show (if op.parks b then if i = j then false else true
          else signalled j h) = signalled j h
        rw [hno]
        rfl
    | true =>
        generalize hp : φ i = p at hq
        cases hq with
        | ready rest sv ar =>
            rcases DapClient.run_pollInitialized_world hr with
              ⟨-, -, rfl⟩ | ⟨h, -⟩
            · exact hI.quiet ⟨rfl, rfl, rfl⟩ rfl (fun _ => rfl)
                (hmoved nofun)
            · cases h
        | park rest sv ar =>
            rcases DapClient.run_pollInitialized_world hr with
              ⟨h, -⟩ | ⟨-, hf, rfl⟩
            · cases h
            · exact hI.park hf
        | _ => cases hop
  env := by
    intro w w' φ h e hI he _
    have he : w.envMove e = some w' := he
    cases e with
    | reader k =>
        obtain ⟨op, rest, hw, hs⟩ := DapClient.envMove_reader he
        have hh := DapClient.head_of_reader hw
        cases hop : op.onSignal with
        | false =>
            have hf := DapClient.readerStep_frame hw hs
            refine hI.quiet (hf.signal hop) ?_ (fun j => ?_) fun _ => id
            · show (match w.head with
                | some .signalInitialized => true | _ => fired h) = fired h
              rw [hh]
              cases op <;> first | rfl | cases hop
            · show (match w.head with
                | some .signalInitialized => true
                | _ => signalled j h) = signalled j h
              rw [hh]
              cases op <;> first | rfl | cases hop
        | true =>
            cases op with
            | signalInitialized => exact hI.fire hw hs
            | _ => cases hop
    | frame m =>
        obtain ⟨-, -, rfl⟩ := DapClient.envMove_frame he
        exact hI.quiet ⟨rfl, rfl, rfl⟩ rfl (fun _ => rfl) fun _ => id
    | eof =>
        obtain ⟨-, -, rfl⟩ := DapClient.envMove_eof he
        exact hI.quiet ⟨rfl, rfl, rfl⟩ rfl (fun _ => rfl) fun _ => id

-- ============================================================ waiting

/-- The numbers and channels of the requests a caller has written and
not been answered. -/
def CallPhase.written : CallPhase → List (Int × ChanId)
  | active _ (.awaiting n c) sv _ => (n, c) :: sv.toList
  | active _ _ sv _ => sv.toList
  | _ => []

/-- A written request is open. -/
theorem CallPhase.written_opens {p : CallPhase} {x : Int × ChanId}
    (hx : x ∈ p.written) : x ∈ p.opens := by
  cases p with
  | active plan st sv ar =>
      cases st with
      | registered m d => exact List.mem_cons_of_mem _ hx
      | _ => exact hx
  | _ => cases hx

/-- Is a receiver unresolved? -/
def Oneshot.pending {α : Type} (o : Oneshot α) : Bool := o.recv.isNone

/-- Does an operation of call `i` wait for something that has not
happened? -/
def DapClient.suspends (w : DapClient) (i : Nat) {β : Type} :
    ClientOp β → Bool
  | .recv c => (w.chans c).pending
  | .recvInitialized => (w.initRx i).pending
  | .selectBoth c parked =>
      (w.chans c).pending && parked && (w.initRx i).pending
  | .recvStop => (w.stopRx i).pending
  | _ => false

/-- A suspended operation goes on only if its caller is dropped. -/
theorem DapClient.run_suspends {w w' : DapClient} {i : Nat} {β : Type}
    {op : ClientOp β} {b : β} {a : Reply}
    (hs : w.suspends i op = true) (hr : w.run i op a = some (b, w')) :
    ∃ r, a = .cancel r := by
  have hnone : ∀ {α : Type} {o : Oneshot α}, o.pending = true →
      o.recv = none := fun h => Option.isNone_iff_eq_none.mp h
  cases op with
  | recv c | recvInitialized | recvStop =>
      cases a with
      | sync =>
          obtain ⟨r, hc, -⟩ := Option.map_eq_some_iff.mp hr
          cases (hnone hs).symm.trans hc
      | cancel r => exact ⟨r, rfl⟩
      | _ => cases hr
  | selectBoth c p =>
      obtain ⟨hs, hi⟩ := Bool.and_eq_true_iff.mp hs
      obtain ⟨hc, hp⟩ := Bool.and_eq_true_iff.mp hs
      subst hp
      cases a with
      | sync =>
          obtain ⟨r, he, -⟩ := Option.map_eq_some_iff.mp hr
          cases (hnone hc).symm.trans he
      | other =>
          obtain ⟨r, he, -⟩ := Option.map_eq_some_iff.mp hr
          cases (hnone hi).symm.trans he
      | cancel r => exact ⟨r, rfl⟩
      | fail _ _ => cases hr
  | _ => cases hs

/-- Does call `i` wait for something that has not happened? -/
def waiting (s : Pool ClientOp LldbResult DapClient) (i : Nat) : Bool :=
  match s.prog i with
  | some (.act op _) => s.world.suspends i op
  | _ => false

/-- A caller at an await is in a phase of that await. -/
def CallPhase.Awaits (p : CallPhase) {β : Type} : ClientOp β → Prop
  | .recv c => ∃ n, (n, c) ∈ p.written
  | .recvInitialized =>
      ∃ rest sv ar, p = .active (.initialized :: rest) .parked sv ar
  | .selectBoth _ _ => False
  | .recvStop => ∃ sv, p = .active [.stop] .idle sv true
  | _ => True

theorem PlanNext.awaits {p p' : CallPhase} {β : Type} {op : ClientOp β}
    {b : β} (hq : PlanNext p op b p') : p.Awaits op := by
  cases hq with
  | answer q check rest sv ar n c r | refuse q check rest sv ar n c r
  | drop q check rest sv ar n c => exact ⟨n, List.mem_cons_self ..⟩
  | response check rest ar n c r | responseFail check rest ar n c r =>
      exact ⟨n, List.mem_cons_self ..⟩
  | stopped sv r | stopDrop sv => exact ⟨sv, rfl⟩
  | fired rest sv ar | unpark rest sv ar => exact ⟨rest, sv, ar, rfl⟩
  | _ => trivial

/-- A call that waits is at an await, in a phase of that await. -/
theorem waiting_awaits {R : CallPhase → LldbResult → Prop}
    {s : Pool ClientOp LldbResult DapClient} {i : Nat} {p : CallPhase}
    (hobey : ∀ q, s.prog i = some q → Obeys PlanNext R q p)
    (hw : waiting s i = true) : ∃ (β : Type) (op : ClientOp β),
      s.world.suspends i op = true ∧ p.Awaits op := by
  unfold waiting at hw
  split at hw
  · next β op k hp =>
      have hb : Nonempty β := by
        cases op with
        | recv c | recvInitialized | recvStop | selectBoth c q =>
            exact ⟨none⟩
        | _ => cases hw
      obtain ⟨b⟩ := hb
      obtain ⟨p', hq, -⟩ := hobey _ hp b
      exact ⟨β, op, hw, hq.awaits⟩
  · cases hw

-- =============================================================== runs

/-- A plan registers its stop waiter at most once. -/
theorem LldbCall.registers_once (c : LldbCall) :
    registrations c.plan ≤ 1 := by
  cases c with
  | launch stderr spec =>
      have hfiles : ∀ p : List PlanStep, registrations
          (flushPlan stderr spec.sourceBreakpoints ++ p)
          = registrations p := by
        intro p
        unfold registrations
        rw [List.countP_append, List.countP_eq_zero.mpr, Nat.zero_add]
        intro s hs
        obtain ⟨f, -, rfl⟩ := List.mem_map.mp hs
        exact Bool.false_ne_true
      have hfuns : ∀ p : List PlanStep, registrations
          (functionPlan stderr spec.functionBreakpoints ++ p)
          = registrations p := by
        intro p
        unfold functionPlan
        split <;> rfl
      show registrations (flushPlan stderr spec.sourceBreakpoints
        ++ (functionPlan stderr spec.functionBreakpoints
          ++ (_ :: launchTailPlan stderr spec.stopOnEntry))) ≤ 1
      rw [hfiles, hfuns]
      unfold launchTailPlan
      split
      · exact Nat.le_refl _
      · exact Nat.zero_le _
  | send q | waitInitialized | absent => exact Nat.zero_le _
  | awaitStop | attach stderr spec | resume q => exact Nat.le_refl _

/-- What is known of a state a run of callers reaches. -/
structure CallerInv (calls : Nat → LldbCall) (w : DapClient)
    (φ : Nat → CallPhase) (h : ClientHistory) : Prop where
  entry : EntryInv w φ h
  stop : StopInv w φ h
  signal : SignalInv w φ h
  plan : ∀ i, (φ i).plan <:+ (calls i).plan

/-- The invariants of the three kinds of receiver are one. -/
theorem callerInv (calls : Nat → LldbCall) :
    Inductive clientMachine PlanNext (fun _ _ => True)
      (CallerInv calls) where
  act h hr hq hok := ⟨entryInv.act h.entry hr hq hok,
    stopInv.act h.stop hr hq hok, signalInv.act h.signal hr hq hok,
    (planSuffix calls).act (h := []) h.plan hr hq hok⟩
  env h he hok := ⟨entryInv.env h.entry he hok,
    stopInv.env h.stop he hok, signalInv.env h.signal he hok,
    (planSuffix calls).env (h := []) h.plan he hok⟩

/-- They hold at the start. -/
theorem CallerInv.start (calls : Nat → LldbCall) :
    CallerInv calls .new (fun i => (calls i).phase₀) [] where
  entry := by
    exact ⟨nofun, .nil, nofun, fun _ => .nil, pendingInv_new, nofun, nofun,
      nofun⟩
  stop := ⟨fun _ hop => absurd hop List.not_mem_nil,
    fun i => (calls i).registers_once,
    fun i _ => ⟨rfl, nofun, nofun⟩, nofun⟩
  signal := ⟨rfl, nofun, nofun⟩
  plan _ := List.suffix_refl _

end DebugMcp
