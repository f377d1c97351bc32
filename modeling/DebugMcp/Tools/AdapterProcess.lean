/-
The adapter's process, from its spawn on.

The lldb factory spawns the adapter without `kill_on_drop`. Its child
handle goes into the backend, where only `disconnect` takes it, once its
request is past; its stdin goes into the client's shared half, of which
the read-loop task holds a reference for as long as it reads. Dropping
the backend therefore ends neither: the read loop keeps stdin open, and
reads until the adapter it keeps alive closes its stdout.

# Result

`adapters_torn_down`: in every run in which each removal of a backend
from the slot finds the child handle taken, or the adapter gone by
itself, or its read loop ended and nobody else holding the backend, an
adapter whose remover has returned is killed or its stdin is closed.
`orphan_runs` is the converse: a backend removed with its child handle
in it, its read loop reading and no other `disconnect` holding it leaves
an adapter that runs on until it ends by itself. `failed_launch_leaks`
and `silent_adapter_leaks` are two such removals.
-/
import DebugMcp.Tools.History

namespace DebugMcp

open Conc

-- ============================================================ adapters

/-- An adapter the lldb factory spawned: is the child handle still in
the backend, is the process running, and is the read-loop task, which
holds the client's shared half and stdin with it? -/
structure Adapter where
  child : Bool
  running : Bool
  reading : Bool
  deriving DecidableEq

namespace Adapter

/-- What `connect` leaves: handle in the backend, read loop spawned. -/
def spawned : Adapter := ⟨true, true, true⟩

/-- `LldbBackend::disconnect` under the handler's bound; `past` when the
await of the DisconnectRequest ended before the bound. Past it, the child
handle is taken and killed without another await. -/
def disconnect (a : Adapter) (past : Bool) : Adapter :=
  if past && a.child then { a with child := false, running := false }
  else a

/-- A child handle is taken only to kill the process. -/
theorem disconnect_killed (a : Adapter) (past : Bool)
    (h : a.child = false → a.running = false)
    (hc : (a.disconnect past).child = false) :
    (a.disconnect past).running = false := by
  unfold disconnect at hc ⊢
  split
  · rfl
  · next hpast =>
      rw [if_neg hpast] at hc
      exact h hc

/-- A disconnect leaves an ended process and an ended read loop. -/
theorem disconnect_ended (a : Adapter) (past : Bool) :
    (a.running = false → (a.disconnect past).running = false) ∧
      (a.disconnect past).reading = a.reading := by
  unfold disconnect
  split
  · exact ⟨fun _ => rfl, rfl⟩
  · exact ⟨id, rfl⟩

/-- The process ends by itself. -/
def exit (a : Adapter) : Adapter := { a with running := false }

/-- The read loop reads the end of the stream, or an error. -/
def endStream (a : Adapter) : Adapter := { a with reading := false }

end Adapter

/-- The factory that spawns adapters. -/
def lldb : String := "lldb"

/-- The tool server and the adapters of the backends it was handed. -/
structure AdapterServer where
  server : ToolServer
  adapters : BackendId → Option Adapter

/-- What the environment does on its own. -/
inductive AdapterMove
  | pump (e : EnvMove)
  | exits (b : BackendId)
  | streamEnds (b : BackendId)

namespace AdapterServer

/-- A fresh server. -/
def new : AdapterServer := ⟨.new, fun _ => none⟩

/-- Change an adapter. -/
def update (w : AdapterServer) (b : BackendId) (f : Adapter → Adapter) :
    BackendId → Option Adapter :=
  Function.update w.adapters b ((w.adapters b).map f)

/-- The adapters after an operation: a connect spawns one, a backend's
disconnect may kill one, and nothing else concerns them; the drop of a
backend does not. -/
def adaptersAfter (w : AdapterServer) (past : Bool) :
    {β : Type} → ToolOp β → β → BackendId → Option Adapter
  | _, .inr (.connect f), .ok b =>
      if f = lldb then Function.update w.adapters b (some .spawned)
      else w.adapters
  | _, .inr (.disconnect b _), () => w.update b (·.disconnect past)
  | _, _, _ => w.adapters

/-- One operation of a handler. -/
def run {β : Type} (op : ToolOp β) (a : Answer × Bool)
    (w : AdapterServer) : Option (β × AdapterServer) :=
  (w.server.run op a.1).map fun r =>
    (r.1, ⟨r.2, w.adaptersAfter a.2 op r.1⟩)

/-- An environment move. -/
def envMove : AdapterMove → AdapterServer → Option AdapterServer
  | .pump e, w => (w.server.envMove e).map fun server => { w with server }
  | .exits b, w => some { w with adapters := w.update b Adapter.exit }
  | .streamEnds b, w =>
      some { w with adapters := w.update b Adapter.endStream }

end AdapterServer

/-- The tool server with its adapters, as a machine. The answer's second
part is for a backend's disconnect: did its request get past in time? -/
def adapterMachine :
    Machine ToolOp (Answer × Bool) AdapterMove AdapterServer where
  run _ op a w := w.run op a
  env := AdapterServer.envMove

/-- An event of the server with its adapters. -/
abbrev AdapterEvent := Event ToolOp AdapterMove AdapterServer

/-- A history of these. -/
abbrev AdapterHistory := List AdapterEvent

/-- The pool of some calls over a fresh server. -/
def adapterPool (host : Host) (calls : Nat → Call) :
    Pool ToolOp ToolOutcome AdapterServer where
  world := .new
  prog i := some ((calls i).prog host)

-- =========================================================== histories

/-- Does the event remove backend `b` from the slot? -/
def removes (b : BackendId) (ev : AdapterEvent) : Bool :=
  decide (ev.pre.server.backend = some b) &&
    decide (ev.post.server.backend ≠ some b)

/-- The call that removed backend `b` from the slot. -/
def remover (b : BackendId) : AdapterHistory → Option Nat
  | [] => none
  | ev :: h => if removes b ev then ev.who else remover b h

/-- The call an event hands a reference to a backend, and which. -/
def handedTo : AdapterEvent → Option (Nat × BackendId)
  | .act i (.inr (.connect _)) (.ok b) _ _ => some (i, b)
  | .act i (.inr .currentBackend) (some b) _ _ => some (i, b)
  | .act i (.inr .takeSlot) (some b) _ _ => some (i, b)
  | _ => none

/-- The calls that were handed a reference to backend `b`. -/
def holders (b : BackendId) : AdapterHistory → List Nat
  | [] => []
  | ev :: h => holders b h ++
      (((handedTo ev).filter fun r => r.2 == b).map Prod.fst).toList

-- ======================================================== the condition

/-- A removal finds the child handle taken, the adapter gone by itself,
or its read loop ended and the backend held by its remover only. -/
def StepsTornDown (h : AdapterHistory) (ev : AdapterEvent) : Prop :=
  ∀ b ∈ ev.pre.server.backend, removes b ev = true →
    ∀ a ∈ ev.pre.adapters b, a.child = false ∨ a.running = false ∨
      (a.reading = false ∧ ∀ j ∈ holders b h, ev.who = some j)

instance (h : AdapterHistory) (ev : AdapterEvent) :
    Decidable (StepsTornDown h ev) :=
  inferInstanceAs (Decidable (∀ b ∈ ev.pre.server.backend,
    removes b ev = true → ∀ a ∈ ev.pre.adapters b, a.child = false ∨
      a.running = false ∨
      (a.reading = false ∧ ∀ j ∈ holders b h, ev.who = some j)))

/-- Once its remover has returned, an adapter is killed, or its stdin
closed: the read loop has ended, and so has every call that was handed
the backend. -/
def TornDown (h : AdapterHistory)
    (s : Pool ToolOp ToolOutcome AdapterServer) : Prop :=
  ∀ b i, remover b h = some i → (s.returned i).isSome →
    ∀ a ∈ s.world.adapters b, a.running = false ∨
      (a.reading = false ∧ ∀ j ∈ holders b h, (s.returned j).isSome)

-- =========================================================== protocol

/-- Is the call `disconnect`? -/
def Call.disconnects : Call → Bool
  | .disconnect _ => true
  | _ => false

/-- Where a call is, for the adapters: a connect handler between being
handed a backend and installing it, or a `disconnect` handler, which
may have read the slot. -/
inductive TearPhase
  | other
  | holding (b : BackendId)
  | closing
  | asked (b : BackendId)

/-- Is the phase one of a `disconnect`? -/
def TearPhase.closes : TearPhase → Bool
  | closing | asked _ => true
  | _ => false

/-- Does the operation connect nothing, install nothing and disconnect
nothing? -/
def ServerOp.isPlain {β : Type} : ServerOp β → Bool
  | .connect _ => false
  | .setSlot _ => false
  | .disconnect _ _ => false
  | _ => true

@[inherit_doc ServerOp.isPlain]
def ToolOp.isPlain {β : Type} : ToolOp β → Bool
  | .inl _ => true
  | .inr op => op.isPlain

/-- What a call may do to backends: install the one it was handed, and
disconnect the one it found. -/
inductive TearNext : ⦃β : Type⦄ → TearPhase → ToolOp β → β →
    TearPhase → Prop
  | plain {β : Type} (op : ToolOp β) (h : op.isPlain = true) (x : β) :
      TearNext .other op x .other
  | closing {β : Type} (op : ToolOp β) (h : op.isPlain = true) (x : β) :
      TearNext .closing op x .closing
  | connectOk (f : String) (b : BackendId) :
      TearNext .other (.inr (.connect f)) (.ok b) (.holding b)
  | connectErr (f : String) (e : BackendError) :
      TearNext .other (.inr (.connect f)) (.error e) .other
  | install (b : BackendId) :
      TearNext (.holding b) (.inr (.setSlot b)) () .other
  | ask (b : BackendId) :
      TearNext .closing (.inr .currentBackend) (some b) (.asked b)
  | disconnect (b : BackendId) (t : Bool) :
      TearNext (.asked b) (.inr (.disconnect b t)) () .closing

section

variable {β : Type} {op : ToolOp β} {x : β}

/-- Where a connect handler is, for the adapters. -/
def ConnPhase.tear : ConnPhase → TearPhase
  | connected b => .holding b
  | _ => .other

/-- A connect handler installs the backend it was handed. -/
theorem ConnNext.tear {q q' : ConnPhase} (h : ConnNext q op x q') :
    TearNext q.tear op x q'.tear := by
  cases h with
  | connectOk f b => exact .connectOk f b
  | connectErr f e => exact .connectErr f e
  | install b => exact .install b
  | handshakeOk b op h o | handshakeErr b op h o =>
      exact .plain _ (by cases h <;> rfl) _
  | handshakeCancel b op h => exact .plain _ (by cases h <;> rfl) _
  | settle op h x => exact .plain _ (by cases h <;> rfl) _
  | _ => exact .plain _ rfl _

/-- A resume is plain. -/
theorem ResNext.tear {q q' : ResPhase} (h : ResNext q op x q') :
    TearNext .other op x .other := by
  cases h with
  | cancelled g op h => exact .plain _ (by cases h <;> rfl) _
  | err g op h e => exact .plain _ (by cases h <;> rfl) _
  | stop g op h info => exact .plain _ (by cases h <;> rfl) _
  | exit g op h code => exact .plain _ (by cases h <;> rfl) _
  | terminate g op h => exact .plain _ (by cases h <;> rfl) _
  | _ => exact .plain _ rfl _

/-- A breakpoint handler is plain. -/
theorem BpNext.tear {q q' : BpPhase} (h : BpNext q op x q') :
    TearNext .other op x .other := by
  cases h <;> exact .plain _ rfl _

end

/-- The phase a call starts in, for the adapters. -/
def Call.tear₀ (c : Call) : TearPhase :=
  if c.disconnects then .closing else .other

/-- A section of `disconnect` on the side. -/
private theorem closing_bind {β α : Type} {op : ToolOp β}
    {k : β → ToolProg α} (h : op.isPlain = true)
    (hk : ∀ x, Obeys TearNext Any (k x) .closing) :
    Obeys TearNext Any (Prog.perform op >>= k) .closing :=
  fun x => ⟨_, .closing op h x, hk x⟩

/-- `disconnect` disconnects the backend it found in the slot. -/
theorem handleDisconnect_tear (args : Args) :
    Obeys TearNext Any (handleDisconnect args) .closing := by
  have htail : ∀ outcome : ToolOutcome, Obeys TearNext Any
      (dropBackendBounded >>= fun _ => reset >>= fun _ =>
        (pure outcome : ToolProg ToolOutcome)) .closing := by
    intro outcome
    refine closing_bind rfl fun b => closing_bind rfl fun _ => ?_
    cases b with
    | some b =>
        exact closing_bind rfl fun _ => closing_bind rfl fun _ =>
          closing_bind rfl fun _ => trivial
    | none =>
        exact closing_bind rfl fun _ => closing_bind rfl fun _ => trivial
  refine closing_bind rfl fun r => ?_
  cases r with
  | error e => trivial
  | ok u =>
      intro b
      cases b with
      | some b =>
          exact ⟨_, .ask b, fun _ => ⟨_, .disconnect b _, htail _⟩⟩
      | none => exact ⟨_, .closing _ rfl _, htail _⟩

/-- Every call installs and disconnects in order. -/
theorem Call.tear (host : Host) (c : Call) :
    Obeys TearNext Any (c.prog host) c.tear₀ := by
  have hconn : ∀ {p : ToolProg ToolOutcome},
      Obeys ConnNext Any p .start → Obeys TearNext Any p .other :=
    fun h => Obeys.embed (f := ConnPhase.tear) (q := .start)
      ConnNext.tear (fun _ _ _ => trivial) h
  have hres : ∀ {p : ToolProg ToolOutcome},
      Obeys ResNext Any p .start → Obeys TearNext Any p .other :=
    fun h => Obeys.embed (f := fun _ => TearPhase.other) ResNext.tear
      (fun _ _ _ => trivial) h
  have hbp : ∀ {p : ToolProg ToolOutcome},
      Obeys BpNext Committed p .start → Obeys TearNext Any p .other :=
    fun h => Obeys.embed (f := fun _ => TearPhase.other) BpNext.tear
      (fun _ _ _ => trivial) h
  cases c with
  | launch args => exact hconn (handleLaunch_obeys _ _ args)
  | attach args => exact hconn (handleAttach_obeys _ args)
  | openCrashDump args => exact hconn (handleOpenCrashDump_obeys _ args)
  | attachKernel args => exact hconn (handleAttachKernel_obeys _ args)
  | disconnect args => exact handleDisconnect_tear args
  | «continue» args | stepOver args | stepInto args | stepOut args =>
      exact hres (resume_obeys args _ _ _)
  | pause =>
      exact handlePause_stays (fun _ _ => .plain _ rfl _)
        (fun _ => .plain _ rfl _) (fun _ _ => .plain _ rfl _)
        fun _ => trivial
  | setBreakpoint args => exact hbp (handleSetBreakpoint_obeys args)
  | setFunctionBreakpoint args =>
      exact hbp (handleSetFunctionBreakpoint_obeys args)
  | removeBreakpoint args => exact hbp (handleRemoveBreakpoint_obeys args)
  | listBreakpoints =>
      exact handleListBreakpoints_stays (fun _ => .plain _ rfl _)
        fun _ => trivial
  | readOutput =>
      exact handleReadOutput_stays (fun _ _ => .plain _ rfl _)
        (fun _ => .plain _ rfl _) fun _ => trivial

-- =============================================================== steps

/-- What a call's step does to the slot, to the next backend and to the
adapters. -/
inductive TearStep (w w' : AdapterServer) : TearPhase → TearPhase → Prop
  | plain (q : TearPhase) (hq : q = .other ∨ q = .closing)
      (hnext : w'.server.nextBackend = w.server.nextBackend)
      (hslot : w'.server.backend = w.server.backend ∨
        w'.server.backend = none)
      (had : w'.adapters = w.adapters) : TearStep w w' q q
  | connect
      (hnext : w'.server.nextBackend = w.server.nextBackend + 1)
      (hslot : w'.server.backend = w.server.backend)
      (had : w'.adapters = Function.update w.adapters
        w.server.nextBackend (some .spawned) ∨
        w'.adapters = w.adapters) :
      TearStep w w' .other (.holding w.server.nextBackend)
  | install (b : BackendId)
      (hnext : w'.server.nextBackend = w.server.nextBackend)
      (hslot : w'.server.backend = some b)
      (had : w'.adapters = w.adapters) :
      TearStep w w' (.holding b) .other
  | ask (b : BackendId) (hslot : w.server.backend = some b)
      (hw : w' = w) : TearStep w w' .closing (.asked b)
  | disconnect (b : BackendId) (past : Bool)
      (hserver : w'.server = w.server)
      (had : w'.adapters = w.update b (·.disconnect past)) :
      TearStep w w' (.asked b) .closing

/-- An event is of a step of call `i` from `w` to `w'`. -/
structure StepEvent (i : Nat) (w w' : AdapterServer) (ev : AdapterEvent) :
    Prop where
  who : ev.who = some i
  pre : ev.pre = w
  post : ev.post = w'
  handed : ∀ j b, handedTo ev = some (j, b) →
    j = i ∧ (w.server.backend = some b ∨ b = w.server.nextBackend)

section

variable {β : Type} {op : ToolOp β} {a : Answer × Bool} {x : β}
  {q q' : TearPhase} {w w' : AdapterServer} {i : Nat} {b : BackendId}
  {h : AdapterHistory} {ev : AdapterEvent}

/-- A step of the server with its adapters is one of the server. -/
theorem AdapterServer.run_eq (hr : w.run op a = some (x, w')) :
    w.server.run op a.1 = some (x, w'.server) ∧
      w'.adapters = w.adaptersAfter a.2 op x := by
  obtain ⟨⟨y, server⟩, hs, hx⟩ := Option.map_eq_some_iff.mp hr
  cases hx
  exact ⟨hs, rfl⟩

/-- A plain operation hands out nothing and installs nothing. -/
theorem ToolServer.run_plain {s s' : ToolServer} {c : Answer}
    (hr : s.run op c = some (x, s')) (hp : op.isPlain = true) :
    s'.nextBackend = s.nextBackend ∧
      (s'.backend = s.backend ∨ s'.backend = none) := by
  cases op with
  | inl op =>
      rw [(ToolServer.run_inl hr).2]
      exact ⟨rfl, .inl rfl⟩
  | inr op =>
      have hr : s.runServer op c = some (x, s') := hr
      cases op with
      | connect | setSlot | disconnect => cases hp
      | clearSlot | takeSlot =>
          cases hr
          exact ⟨rfl, .inr rfl⟩
      | currentBackend | setName | spawnEventPump | dropBackend =>
          cases hr
          exact ⟨rfl, .inl rfl⟩
      | _ =>
          rw [map_pair_snd hr]
          exact ⟨rfl, .inl rfl⟩

/-- A plain operation concerns no adapter. -/
theorem AdapterServer.adaptersAfter_plain (hp : op.isPlain = true)
    (past : Bool) : w.adaptersAfter past op x = w.adapters := by
  cases op with
  | inl op => rfl
  | inr op =>
      cases op with
      | connect | disconnect => cases hp
      | _ => rfl

/-- Every step of a call is one of the five. -/
theorem TearNext.step (hq : TearNext q op x q')
    (hr : w.run op a = some (x, w')) : TearStep w w' q q' := by
  obtain ⟨hs, had⟩ := AdapterServer.run_eq hr
  obtain ⟨server', adapters'⟩ := w'
  dsimp only at hs had
  cases hq with
  | plain op hp x =>
      obtain ⟨hn, hb⟩ := ToolServer.run_plain hs hp
      exact .plain _ (.inl rfl) hn hb
        (had.trans (AdapterServer.adaptersAfter_plain hp _))
  | closing op hp x =>
      obtain ⟨hn, hb⟩ := ToolServer.run_plain hs hp
      exact .plain _ (.inr rfl) hn hb
        (had.trans (AdapterServer.adaptersAfter_plain hp _))
  | connectOk f b =>
      obtain ⟨r, -, hx⟩ := Option.map_eq_some_iff.mp hs
      cases r with
      | error e => cases hx
      | ok u =>
          cases hx
          refine .connect rfl rfl ?_
          rw [had]
          by_cases hf : f = lldb
          · exact .inl (if_pos hf)
          · exact .inr (if_neg hf)
  | connectErr f e =>
      obtain ⟨r, -, hx⟩ := Option.map_eq_some_iff.mp hs
      cases r with
      | ok u => cases hx
      | error e' =>
          cases hx
          exact .plain _ (.inl rfl) rfl (.inl rfl) had
  | install b =>
      cases hs
      exact .install b rfl rfl had
  | ask b =>
      obtain ⟨hb, hw⟩ := Prod.mk.inj (Option.some.inj hs)
      subst hw
      exact .ask b hb (congrArg _ had)
  | disconnect b t =>
      cases hs
      exact .disconnect b a.2 rfl had

/-- The event of a call's step. -/
theorem stepEvent (hr : w.run op a = some (x, w')) :
    StepEvent i w w' (.act i op x w w') := by
  refine ⟨rfl, rfl, rfl, fun j b hh => ?_⟩
  obtain ⟨hs, -⟩ := AdapterServer.run_eq hr
  obtain ⟨server', adapters'⟩ := w'
  dsimp only at hs
  cases op with
  | inl op => cases hh
  | inr op =>
      cases op with
      | connect f =>
          obtain ⟨r, -, hx⟩ := Option.map_eq_some_iff.mp hs
          cases r with
          | error e =>
              cases hx
              cases hh
          | ok u =>
              cases hx
              cases hh
              exact ⟨rfl, .inr rfl⟩
      | currentBackend | takeSlot =>
          obtain ⟨hb, -⟩ := Prod.mk.inj (Option.some.inj hs)
          cases x with
          | none => cases hh
          | some c =>
              cases hh
              exact ⟨rfl, .inl hb⟩
      | _ => cases hh

end

-- ======================================================= the invariant

/-- Backend `b` is or was in the slot. -/
def Slotted (w : AdapterServer) (h : AdapterHistory) (b : BackendId) :
    Prop :=
  w.server.backend = some b ∨ (remover b h).isSome

/-- A backend is installed once, by the one call that was handed it, and
a child handle is taken only to kill. -/
structure PlacedInv (w : AdapterServer) (φ : Nat → TearPhase)
    (h : AdapterHistory) : Prop where
  placed_lt : ∀ b, Slotted w h b → b < w.server.nextBackend
  holding_lt : ∀ i b, φ i = .holding b → b < w.server.nextBackend
  holding_out : ∀ i b, φ i = .holding b → ¬ Slotted w h b
  unique : ∀ i j b, φ i = .holding b → φ j = .holding b → i = j
  removed_out : ∀ b, (remover b h).isSome → w.server.backend ≠ some b
  killed : ∀ b, ∀ a ∈ w.adapters b, a.child = false → a.running = false

section

variable {q q' : TearPhase} {w w' : AdapterServer} {i : Nat}
  {b : BackendId} {φ : Nat → TearPhase} {h : AdapterHistory}
  {ev : AdapterEvent}

/-- What is in the slot was there, or is installed. -/
theorem TearStep.slot (hs : TearStep w w' q q')
    (hb : w'.server.backend = some b) :
    w.server.backend = some b ∨ q = .holding b := by
  cases hs with
  | plain q hq hnext hslot had =>
      rcases hslot with hslot | hslot
      · exact .inl (hslot.symm.trans hb)
      · cases hslot.symm.trans hb
  | connect hnext hslot had => exact .inl (hslot.symm.trans hb)
  | install c hnext hslot had =>
      cases hslot.symm.trans hb
      exact .inr rfl
  | ask c hslot hw => exact .inl (hw ▸ hb)
  | disconnect c past hserver had => exact .inl (hserver ▸ hb)

/-- Backends are handed out in ascending order. -/
theorem TearStep.next_le (hs : TearStep w w' q q') :
    w.server.nextBackend ≤ w'.server.nextBackend := by
  cases hs with
  | plain q hq hnext hslot had => exact hnext.ge
  | connect hnext hslot had => omega
  | install c hnext hslot had => exact hnext.ge
  | ask c hslot hw => exact hw ▸ Nat.le_refl _
  | disconnect c past hserver had => exact hserver ▸ Nat.le_refl _

/-- A handler comes to hold the next backend, with nothing before. -/
theorem TearStep.holding (hs : TearStep w w' q (.holding b)) :
    q = .other ∧ b = w.server.nextBackend ∧
      w'.server.nextBackend = w.server.nextBackend + 1 := by
  cases hs with
  | plain q hq => rcases hq with hq | hq <;> cases hq
  | connect hnext hslot had => exact ⟨rfl, rfl, hnext⟩

/-- An adapter is as it was, newly spawned, or disconnected. -/
theorem TearStep.adapter {a' : Adapter} (hs : TearStep w w' q q')
    (ha : a' ∈ w'.adapters b) :
    (a' = .spawned ∧ b = w.server.nextBackend) ∨
    (∃ a ∈ w.adapters b, a' = a) ∨
    (∃ a past, a ∈ w.adapters b ∧ q = .asked b ∧
      a' = a.disconnect past) := by
  cases hs with
  | plain q hq hnext hslot had => exact .inr (.inl ⟨a', had ▸ ha, rfl⟩)
  | connect hnext hslot had =>
      rcases had with had | had
      · rw [had] at ha
        by_cases hb : b = w.server.nextBackend
        · subst hb
          rw [Function.update_self] at ha
          cases ha
          exact .inl ⟨rfl, rfl⟩
        · rw [Function.update_of_ne hb] at ha
          exact .inr (.inl ⟨a', ha, rfl⟩)
      · exact .inr (.inl ⟨a', had ▸ ha, rfl⟩)
  | install c hnext hslot had => exact .inr (.inl ⟨a', had ▸ ha, rfl⟩)
  | ask c hslot hw => exact .inr (.inl ⟨a', hw ▸ ha, rfl⟩)
  | disconnect c past hserver had =>
      rw [had, AdapterServer.update] at ha
      by_cases hb : b = c
      · subst hb
        rw [Function.update_self, Option.mem_map] at ha
        obtain ⟨a, ha, rfl⟩ := ha
        exact .inr (.inr ⟨a, past, ha, rfl, rfl⟩)
      · rw [Function.update_of_ne hb] at ha
        exact .inr (.inl ⟨a', ha, rfl⟩)

/-- What the environment leaves: the slot, the next backend, and of an
adapter the child handle; an adapter that ended stays ended. -/
theorem AdapterServer.env_frame {e : AdapterMove}
    (he : w.envMove e = some w') :
    w'.server.backend = w.server.backend ∧
    w'.server.nextBackend = w.server.nextBackend ∧
    ∀ b, ∀ a' ∈ w'.adapters b, ∃ a ∈ w.adapters b, a'.child = a.child ∧
      (a.running = false → a'.running = false) ∧
      (a.reading = false → a'.reading = false) := by
  have hupdate : ∀ (c : BackendId) (f : Adapter → Adapter),
      (∀ a, (f a).child = a.child ∧
        (a.running = false → (f a).running = false) ∧
        (a.reading = false → (f a).reading = false)) →
      ∀ b, ∀ a' ∈ w.update c f b, ∃ a ∈ w.adapters b,
        a'.child = a.child ∧ (a.running = false → a'.running = false) ∧
        (a.reading = false → a'.reading = false) := by
    intro c f hf b a' ha
    unfold AdapterServer.update at ha
    by_cases hb : b = c
    · subst hb
      rw [Function.update_self, Option.mem_map] at ha
      obtain ⟨a, ha, rfl⟩ := ha
      exact ⟨a, ha, hf a⟩
    · rw [Function.update_of_ne hb] at ha
      exact ⟨a', ha, rfl, id, id⟩
  cases e with
  | pump e =>
      obtain ⟨server', hs, rfl⟩ := Option.map_eq_some_iff.mp he
      exact ⟨backend_env hs, nextBackend_env hs,
        fun b a ha => ⟨a, ha, rfl, id, id⟩⟩
  | exits c =>
      cases he
      exact ⟨rfl, rfl, hupdate c _ fun a => ⟨rfl, fun _ => rfl, id⟩⟩
  | streamEnds c =>
      cases he
      exact ⟨rfl, rfl, hupdate c _ fun a => ⟨rfl, id, fun _ => rfl⟩⟩

/-- What is placed was, or is installed. -/
theorem StepEvent.placed (he : StepEvent i w w' ev)
    (hs : TearStep w w' q q') (hp : Slotted w' (ev :: h) b) :
    Slotted w h b ∨ q = .holding b := by
  rcases hp with hb | hr
  · exact (hs.slot hb).imp_left .inl
  · rw [remover] at hr
    split at hr
    · next hrem =>
        rw [removes, Bool.and_eq_true, decide_eq_true_eq, he.pre] at hrem
        exact .inl (.inl hrem.1)
    · exact .inl (.inr hr)

/-- A placed backend is not handed out again, nor one being held. -/
theorem PlacedInv.step (hI : PlacedInv w φ h)
    (hs : TearStep w w' (φ i) q') (he : StepEvent i w w' ev) :
    PlacedInv w' (Function.update φ i q') (ev :: h) := by
  have hplaced : ∀ {b}, Slotted w' (ev :: h) b →
      Slotted w h b ∨ φ i = .holding b := fun hp => he.placed hs hp
  have hfresh : ∀ {k b}, q' = .holding b → φ k ≠ .holding b := by
    intro k b hi hk
    subst hi
    exact absurd (hI.holding_lt k b hk) (hs.holding.2.1 ▸ Nat.lt_irrefl _)
  refine ⟨fun b hp => ?_, fun j b hj => ?_, fun j b hj hp => ?_,
    fun j k b hj hk => ?_, fun b hr hb => ?_, fun b a' ha hc => ?_⟩
  · refine Nat.lt_of_lt_of_le ?_ hs.next_le
    rcases hplaced hp with hp | hh
    · exact hI.placed_lt b hp
    · exact hI.holding_lt i b hh
  · by_cases hji : j = i
    · subst hji
      rw [Function.update_self] at hj
      subst hj
      obtain ⟨-, hb, hnext⟩ := hs.holding
      rw [hb, hnext]
      exact Nat.lt_succ_self _
    · rw [Function.update_of_ne hji] at hj
      exact Nat.lt_of_lt_of_le (hI.holding_lt j b hj) hs.next_le
  · by_cases hji : j = i
    · subst hji
      rw [Function.update_self] at hj
      subst hj
      obtain ⟨hq, hb, -⟩ := hs.holding
      rcases hplaced hp with hp | hh
      · exact absurd (hI.placed_lt b hp) (hb ▸ Nat.lt_irrefl _)
      · cases hq.symm.trans hh
    · rw [Function.update_of_ne hji] at hj
      rcases hplaced hp with hp | hh
      · exact hI.holding_out j b hj hp
      · exact hji (hI.unique j i b hj hh)
  · by_cases hji : j = i
    · subst hji
      by_contra hjk
      rw [Function.update_self] at hj
      rw [Function.update_of_ne fun e => hjk e.symm] at hk
      exact hfresh hj hk
    · by_cases hki : k = i
      · subst hki
        rw [Function.update_self] at hk
        rw [Function.update_of_ne hji] at hj
        exact (hfresh hk hj).elim
      · rw [Function.update_of_ne hji] at hj
        rw [Function.update_of_ne hki] at hk
        exact hI.unique j k b hj hk
  · rw [remover] at hr
    split at hr
    · next hrem =>
        rw [removes, Bool.and_eq_true, decide_eq_true_eq,
          decide_eq_true_eq, he.post] at hrem
        exact hrem.2 hb
    · rcases hs.slot hb with hb | hh
      · exact hI.removed_out b hr hb
      · exact hI.holding_out i b hh (.inr hr)
  · rcases hs.adapter ha with ⟨rfl, -⟩ | ⟨a, hold, rfl⟩ |
      ⟨a, past, hold, -, rfl⟩
    · cases hc
    · exact hI.killed b _ hold hc
    · exact a.disconnect_killed past (hI.killed b a hold) hc

/-- A move that leaves the slot removes nothing from it. -/
theorem remover_env {e : AdapterMove}
    (hslot : w'.server.backend = w.server.backend) :
    remover b (.env e w w' :: h) = remover b h := by
  have hf : removes b (.env e w w') = false := by
    show (decide (w.server.backend = some b) &&
      decide (w'.server.backend ≠ some b)) = false
    rw [hslot]
    by_cases hb : w.server.backend = some b <;> simp [hb]
  rw [remover, hf, if_neg Bool.false_ne_true]

/-- Foreign moves leave what is placed and held. -/
theorem PlacedInv.env {e : AdapterMove} (hI : PlacedInv w φ h)
    (he : w.envMove e = some w') :
    PlacedInv w' φ (.env e w w' :: h) := by
  obtain ⟨hslot, hnext, had⟩ := AdapterServer.env_frame he
  have hrem : ∀ b, remover b (.env e w w' :: h) = remover b h :=
    fun _ => remover_env hslot
  have hplaced : ∀ {b}, Slotted w' (.env e w w' :: h) b → Slotted w h b := by
    intro b hp
    unfold Slotted at hp
    rw [hslot, hrem] at hp
    exact hp
  refine ⟨fun b hp => ?_, fun j b hj => ?_,
    fun j b hj hp => hI.holding_out j b hj (hplaced hp), hI.unique,
    fun b hr => ?_, fun b a' ha hc => ?_⟩
  · rw [hnext]
    exact hI.placed_lt b (hplaced hp)
  · rw [hnext]
    exact hI.holding_lt j b hj
  · rw [hslot]
    rw [hrem] at hr
    exact hI.removed_out b hr
  · obtain ⟨a, ha, hch, hrun, -⟩ := had b a' ha
    exact hrun (hI.killed b a ha (hch.symm.trans hc))

theorem placedInv_inductive
    {ok : AdapterHistory → AdapterEvent → Prop} :
    Inductive adapterMachine TearNext ok PlacedInv where
  act := by
    intro w w' φ h i β op a x q' hI hr hq _
    exact hI.step (hq.step hr) (stepEvent hr)
  env := by
    intro w w' φ h e hI he _
    exact hI.env he

/-- Nobody is handed a backend after its removal. -/
theorem StepEvent.holders (he : StepEvent i w w' ev) {j : Nat}
    (hj : j ∈ holders b (ev :: h)) : j ∈ holders b h ∨
      j = i ∧ (w.server.backend = some b ∨ b = w.server.nextBackend) := by
  rw [DebugMcp.holders, List.mem_append] at hj
  refine hj.imp_right fun hj => ?_
  obtain ⟨⟨k, c⟩, hk, rfl⟩ :=
    Option.map_eq_some_iff.mp (Option.mem_toList.mp hj)
  obtain ⟨hhand, hc⟩ := Option.filter_eq_some_iff.mp hk
  cases eq_of_beq hc
  exact he.handed k c hhand

/-- Once removed, an adapter is killed, or its read loop has ended and
only its remover was handed the backend. -/
def RemovedInv (w : AdapterServer) (_ : Nat → TearPhase)
    (h : AdapterHistory) : Prop :=
  ∀ b i, remover b h = some i → ∀ a ∈ w.adapters b, a.running = false ∨
    (a.reading = false ∧ ∀ j ∈ holders b h, j = i)

/-- A removal under the condition. -/
theorem PlacedInv.removal {a : Adapter} (hI : PlacedInv w φ h)
    (he : StepEvent i w w' ev) (hok : StepsTornDown h ev)
    (hb : w.server.backend = some b) (hrem : removes b ev = true)
    (ha : a ∈ w.adapters b) : a.running = false ∨
      (a.reading = false ∧ ∀ j ∈ holders b (ev :: h), j = i) := by
  have hpre : ev.pre = w := he.pre
  rcases hok b (hpre ▸ hb) hrem a (hpre ▸ ha) with hc | hr | ⟨hr, hj⟩
  · exact .inl (hI.killed b a ha hc)
  · exact .inl hr
  · refine .inr ⟨hr, fun j hmem => ?_⟩
    rcases he.holders hmem with hmem | ⟨rfl, -⟩
    · exact (Option.some.inj (he.who.symm.trans (hj j hmem))).symm
    · rfl

theorem removedInv_over :
    InductiveOver adapterMachine TearNext StepsTornDown PlacedInv
      RemovedInv where
  act := by
    intro w w' φ h i β op a x q' hI hJ hr hq hok b j hrem a' ha
    have he : StepEvent i w w' (.act i op x w w') := stepEvent hr
    have hs := hq.step hr
    have hplaced : b < w.server.nextBackend := by
      refine hI.placed_lt b ?_
      rw [remover] at hrem
      split at hrem
      · next hremoves =>
          rw [removes, Bool.and_eq_true, decide_eq_true_eq] at hremoves
          exact .inl hremoves.1
      · exact .inr (Option.isSome_of_eq_some hrem)
    -- what the removal, or the past one, left of the adapter
    have hold : ∀ a ∈ w.adapters b, a.running = false ∨
        (a.reading = false ∧
          ∀ k ∈ holders b (.act i op x w w' :: h), k = j) := by
      intro a ha
      rw [remover] at hrem
      split at hrem
      · next hremoves =>
          cases hrem
          have hslot := hremoves
          rw [removes, Bool.and_eq_true, decide_eq_true_eq] at hslot
          exact hI.removal he hok hslot.1 hremoves ha
      · have hout := hI.removed_out b (Option.isSome_of_eq_some hrem)
        refine (hJ b j hrem a ha).imp_right fun ⟨hr, hk⟩ =>
          ⟨hr, fun k hmem => ?_⟩
        rcases he.holders hmem with hmem | ⟨-, hb | hb⟩
        · exact hk k hmem
        · exact absurd hb hout
        · exact absurd hplaced (hb ▸ Nat.lt_irrefl _)
    rcases hs.adapter ha with ⟨-, hb⟩ | ⟨a, hmem, rfl⟩ |
      ⟨a, past, hmem, -, rfl⟩
    · exact absurd hplaced (hb ▸ Nat.lt_irrefl _)
    · exact hold _ hmem
    · obtain ⟨hrun, hread⟩ := a.disconnect_ended past
      exact (hold a hmem).imp hrun fun ⟨hr, hk⟩ => ⟨hread.trans hr, hk⟩
  env := by
    intro w w' φ h e hI hJ he _ b j hrem a' ha
    obtain ⟨hslot, -, had⟩ := AdapterServer.env_frame he
    rw [remover_env hslot] at hrem
    obtain ⟨a, hmem, -, hrun, hread⟩ := had b a' ha
    refine (hJ b j hrem a hmem).imp hrun fun ⟨hr, hk⟩ => ⟨hread hr, ?_⟩
    rw [show holders b (.env e w w' :: h) = holders b h from
      List.append_nil _]
    exact hk

end

-- ============================================================ the result

/-- Nothing is placed or held at the start. -/
theorem placedInv_new (calls : Nat → Call) :
    PlacedInv .new (fun i => (calls i).tear₀) [] := by
  have hstart : ∀ i b, (calls i).tear₀ ≠ .holding b := by
    intro i b
    unfold Call.tear₀
    cases (calls i).disconnects <;> exact nofun
  refine ⟨fun b hp => ?_, fun i b hi => (hstart i b hi).elim,
    fun i b hi => (hstart i b hi).elim,
    fun i j b hi => (hstart i b hi).elim, nofun, nofun⟩
  rcases hp with hp | hp <;> cases hp

/-- In a run whose removals meet the condition, an adapter whose remover
has returned is killed or its stdin is closed. -/
theorem adapters_torn_down (host : Host) (calls : Nat → Call)
    {h : AdapterHistory} {s : Pool ToolOp ToolOutcome AdapterServer}
    (hr : RunIf adapterMachine StepsTornDown (adapterPool host calls) h s) :
    TornDown h s := by
  obtain ⟨φ, ⟨hI, hJ⟩, -⟩ := hr.invariant
    (placedInv_inductive.over removedInv_over)
    (fun i p hp => Option.some.inj hp ▸ (calls i).tear host)
    ⟨placedInv_new calls, nofun⟩
  intro b i hrem hret a ha
  refine (hJ b i hrem a ha).imp_right fun ⟨hread, hj⟩ => ⟨hread, ?_⟩
  intro j hmem
  rw [hj j hmem]
  exact hret

/-- An attach and a `disconnect`. -/
def adapterCalls : Nat → Call
  | 0 => .attach ⟨[("pid", .num 7)]⟩
  | 1 => .disconnect ⟨[]⟩
  | _ => .readOutput

/-- A decision for the server, with every disconnect past in time. -/
def inTime : Action Answer EnvMove → Action (Answer × Bool) AdapterMove
  | .step i a => .step i (a, true)
  | .env e => .env (.pump e)

/-- The attach, then the `disconnect`; `past` when the adapter answers
its request in time. -/
def teardownSteps (past : Bool) :
    List (Action (Answer × Bool) AdapterMove) :=
  (attachSteps 0 ++ sync 1 2).map inTime ++ [.step 1 (.sync, past)]
    ++ (sync 1 5).map inTime

/-- An adapter that answers the DisconnectRequest is killed. -/
theorem disconnected_adapter_killed :
    ∃ h s, Run adapterMachine (adapterPool lldbHost adapterCalls) h s ∧
      remover 0 h = some 1 ∧ (s.returned 1).isSome ∧
      s.world.adapters 0 = some ⟨false, false, true⟩ ∧ TornDown h s := by
  obtain ⟨h, s, hr, hm, hrem, hret, had⟩ := exec_witness adapterMachine
    (adapterPool lldbHost adapterCalls) (teardownSteps true)
    (fun h s => Meets StepsTornDown h ∧ remover 0 h = some 1 ∧
      (s.returned 1).isSome ∧
      s.world.adapters 0 = some ⟨false, false, true⟩)
    (by decide +kernel)
  exact ⟨h, s, hr, hrem, hret, had,
    adapters_torn_down _ _ (.ofMeets hr hm)⟩

-- ============================================================== orphans

/-- Does the adapter of backend `b` end by itself, or its stream? -/
def ends (b : BackendId) : AdapterEvent → Bool
  | .env (.exits c) _ _ => c == b
  | .env (.streamEnds c) _ _ => c == b
  | _ => false

/-- Was backend `b` removed with its child handle in it, its adapter
running and its read loop reading, while no `disconnect` but the
remover had been handed it, and has the adapter not ended since? -/
def orphaned (calls : Nat → Call) (b : BackendId) :
    AdapterHistory → Bool
  | [] => false
  | ev :: h =>
      if removes b ev then
        decide (ev.pre.adapters b = some .spawned) &&
          (holders b h).all fun j =>
            ev.who == some j || !(calls j).disconnects
      else orphaned calls b h && !ends b ev

/-- Only a `disconnect` asks for a backend, once it was handed it, and
nobody asks for an orphan. -/
structure OrphanInv (calls : Nat → Call) (w : AdapterServer)
    (φ : Nat → TearPhase) (h : AdapterHistory) : Prop where
  closes : ∀ i, (φ i).closes = true → (calls i).disconnects = true
  asked : ∀ i b, φ i = .asked b → i ∈ holders b h
  orphan : ∀ b, orphaned calls b h = true →
    w.adapters b = some .spawned ∧ (remover b h).isSome ∧
      ∀ i, φ i ≠ .asked b

section

variable {calls : Nat → Call} {q q' : TearPhase} {w w' : AdapterServer}
  {i : Nat} {b : BackendId} {φ : Nat → TearPhase} {h : AdapterHistory}
  {ev : AdapterEvent}

/-- A `disconnect` stays one. -/
theorem TearStep.closes (hs : TearStep w w' q q')
    (hq : q'.closes = true) : q.closes = true := by
  cases hs with
  | plain q => exact hq
  | connect | install => cases hq
  | ask | disconnect => rfl

/-- The step of a removal changes no adapter and asks for none. -/
theorem StepEvent.removes_keeps (he : StepEvent i w w' ev)
    (hs : TearStep w w' q q') (hrem : removes b ev = true) :
    w'.adapters = w.adapters ∧ ∀ c, q' ≠ .asked c := by
  rw [removes, Bool.and_eq_true, decide_eq_true_eq, decide_eq_true_eq,
    he.pre, he.post] at hrem
  obtain ⟨hb, hb'⟩ := hrem
  cases hs with
  | plain q hq hnext hslot had =>
      refine ⟨had, fun c hc => ?_⟩
      rcases hq with hq | hq <;> cases hq.symm.trans hc
  | connect hnext hslot had => exact absurd (hslot.trans hb) hb'
  | install c hnext hslot had => exact ⟨had, nofun⟩
  | ask c hslot hw => exact absurd (hw ▸ hb) hb'
  | disconnect c past hserver had => exact absurd (hserver ▸ hb) hb'

/-- A step keeps an adapter that is neither new nor asked for. -/
theorem TearStep.adapter_eq (hs : TearStep w w' q q')
    (hb : b ≠ w.server.nextBackend) (hq : q ≠ .asked b) :
    w'.adapters b = w.adapters b := by
  cases hs with
  | plain q hq hnext hslot had => rw [had]
  | connect hnext hslot had =>
      rcases had with had | had
      · rw [had, Function.update_of_ne hb]
      · rw [had]
  | install c hnext hslot had => rw [had]
  | ask c hslot hw => rw [hw]
  | disconnect c past hserver had =>
      have hbc : b ≠ c := fun e => hq (congrArg TearPhase.asked e.symm)
      rw [had, AdapterServer.update, Function.update_of_ne hbc]

/-- An orphan is left alone by every step. -/
theorem OrphanInv.step (hI : PlacedInv w φ h)
    (hJ : OrphanInv calls w φ h) (hs : TearStep w w' (φ i) q')
    (he : StepEvent i w w' ev)
    (hask : ∀ b, q' = .asked b → i ∈ holders b (ev :: h)) :
    OrphanInv calls w' (Function.update φ i q') (ev :: h) := by
  refine ⟨fun j hj => ?_, fun j b hj => ?_, fun b ho => ?_⟩
  · by_cases hji : j = i
    · subst hji
      rw [Function.update_self] at hj
      exact hJ.closes j (hs.closes hj)
    · rw [Function.update_of_ne hji] at hj
      exact hJ.closes j hj
  · by_cases hji : j = i
    · subst hji
      rw [Function.update_self] at hj
      exact hask b hj
    · rw [Function.update_of_ne hji] at hj
      exact List.mem_append_left _ (hJ.asked j b hj)
  · rw [orphaned] at ho
    rw [remover]
    by_cases hrem : removes b ev = true
    · rw [if_pos hrem, Bool.and_eq_true, decide_eq_true_eq, he.pre,
        List.all_eq_true] at ho
      rw [if_pos hrem, he.who]
      obtain ⟨had, hnot⟩ := he.removes_keeps hs hrem
      refine ⟨had ▸ ho.1, rfl, fun j hj => ?_⟩
      by_cases hji : j = i
      · subst hji
        rw [Function.update_self] at hj
        exact hnot b hj
      · rw [Function.update_of_ne hji] at hj
        have hmem := ho.2 j (hJ.asked j b hj)
        rw [hJ.closes j (by rw [hj]; rfl), Bool.not_true, Bool.or_false,
          beq_iff_eq, he.who] at hmem
        exact hji (Option.some.inj hmem).symm
    · rw [if_neg hrem, Bool.and_eq_true] at ho
      rw [if_neg hrem]
      obtain ⟨had, hsome, hnot⟩ := hJ.orphan b ho.1
      have hlt := hI.placed_lt b (.inr hsome)
      refine ⟨(hs.adapter_eq hlt.ne (hnot i)).trans had, hsome,
        fun j hj => ?_⟩
      by_cases hji : j = i
      · subst hji
        rw [Function.update_self] at hj
        subst hj
        have hout := hI.removed_out b hsome
        generalize φ j = q at hs
        cases hs with
        | plain q hq => rcases hq with hq | hq <;> cases hq
        | ask c hslot hw => exact hout hslot
      · rw [Function.update_of_ne hji] at hj
        exact hnot j hj

theorem orphanInv_over {ok : AdapterHistory → AdapterEvent → Prop} :
    InductiveOver adapterMachine TearNext ok PlacedInv
      (OrphanInv calls) where
  act := by
    intro w w' φ h i β op a x q' hI hJ hr hq _
    refine hJ.step hI (hq.step hr) (stepEvent hr) fun b hb => ?_
    subst hb
    generalize φ i = q at hq
    cases hq with
    | ask b =>
        refine List.mem_append_right _ (Option.mem_toList.mpr ?_)
        simp [handedTo]
  env := by
    intro w w' φ h e hI hJ he _
    have hslot := (AdapterServer.env_frame he).1
    refine ⟨hJ.closes, fun j b hj => ?_, fun b ho => ?_⟩
    · exact List.mem_append_left _ (hJ.asked j b hj)
    · rw [remover_env hslot]
      have hrem : removes b (.env e w w') = false := by
        show (decide (w.server.backend = some b) &&
          decide (w'.server.backend ≠ some b)) = false
        rw [hslot]
        by_cases hb : w.server.backend = some b <;> simp [hb]
      rw [orphaned, hrem, if_neg Bool.false_ne_true, Bool.and_eq_true,
        Bool.not_eq_true'] at ho
      obtain ⟨had, hsome, hnot⟩ := hJ.orphan b ho.1
      refine ⟨?_, hsome, hnot⟩
      cases e with
      | pump e =>
          obtain ⟨server', -, rfl⟩ := Option.map_eq_some_iff.mp he
          exact had
      | exits c | streamEnds c =>
          cases he
          have hbc : b ≠ c := fun e => by simp [ends, e] at ho
          exact (Function.update_of_ne hbc _ _).trans had

end

theorem orphanInv_new (calls : Nat → Call) :
    OrphanInv calls .new (fun i => (calls i).tear₀) [] := by
  refine ⟨fun i hi => ?_, fun i b hi => ?_, nofun⟩
  · unfold Call.tear₀ at hi
    cases hc : (calls i).disconnects with
    | true => rfl
    | false =>
        rw [hc] at hi
        cases hi
  · unfold Call.tear₀ at hi
    cases hc : (calls i).disconnects <;> rw [hc] at hi <;> cases hi

/-- The process of an orphan runs on, its stdin held by the read loop,
until it ends by itself. -/
theorem orphan_runs (host : Host) (calls : Nat → Call)
    {h : AdapterHistory} {s : Pool ToolOp ToolOutcome AdapterServer}
    (hr : Run adapterMachine (adapterPool host calls) h s)
    {b : BackendId} (ho : orphaned calls b h = true) :
    s.world.adapters b = some .spawned ∧
      s.world.server.backend ≠ some b := by
  obtain ⟨φ, ⟨hI, hJ⟩, -⟩ := hr.invariant
    (placedInv_inductive.over orphanInv_over)
    (fun i p hp => Option.some.inj hp ▸ (calls i).tear host)
    ⟨placedInv_new calls, orphanInv_new calls⟩
  obtain ⟨had, hsome, -⟩ := hJ.orphan b ho
  exact ⟨had, hI.removed_out b hsome⟩

/-- A launch, and readers. -/
def failingCalls : Nat → Call
  | 0 => .launch ⟨[("program", .str "a.out")]⟩
  | _ => .readOutput

def failingSteps : List (Action Answer EnvMove) :=
  launchSteps 0 ++ [.step 0 (.launch (some (.error .closed)))] ++ sync 0 4

/-- A launch whose handshake fails returns with the slot empty and the
adapter running, its stdin held by the read loop, and no call that would
kill it: no call is a `disconnect`. -/
theorem failed_launch_leaks :
    ∃ h s, Run adapterMachine (adapterPool lldbHost failingCalls) h s ∧
      remover 0 h = some 0 ∧ (s.returned 0).isSome ∧
      s.world.server.backend = none ∧
      s.world.adapters 0 = some .spawned ∧
      orphaned failingCalls 0 h = true ∧ ¬ TornDown h s := by
  obtain ⟨h, s, hr, hrem, hret, hslot, had, ho⟩ :=
    exec_witness adapterMachine (adapterPool lldbHost failingCalls)
    (failingSteps.map inTime)
    (fun h s => remover 0 h = some 0 ∧ (s.returned 0).isSome ∧
      s.world.server.backend = none ∧
      s.world.adapters 0 = some .spawned ∧
      orphaned failingCalls 0 h = true)
    (by decide +kernel)
  refine ⟨h, s, hr, hrem, hret, hslot, had, ho, fun ht => ?_⟩
  rcases ht 0 0 hrem hret _ had with hrun | ⟨hread, -⟩
  · cases hrun
  · cases hread

/-- An adapter that never answers the DisconnectRequest is left
running. -/
theorem silent_adapter_leaks :
    ∃ h s, Run adapterMachine (adapterPool lldbHost adapterCalls) h s ∧
      remover 0 h = some 1 ∧ (s.returned 1).isSome ∧
      s.world.server.backend = none ∧
      orphaned adapterCalls 0 h = true := by
  obtain ⟨h, s, hr, hend⟩ := exec_witness adapterMachine
    (adapterPool lldbHost adapterCalls) (teardownSteps false)
    (fun h s => remover 0 h = some 1 ∧ (s.returned 1).isSome ∧
      s.world.server.backend = none ∧
      orphaned adapterCalls 0 h = true)
    (by decide +kernel)
  exact ⟨h, s, hr, hend⟩

end DebugMcp
