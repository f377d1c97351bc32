/-
The tool server: the session, the connected backend's slot, and the
atomic operations a tool handler is made of.

One operation is one lock section or one await. A backend is a name: its
calls are awaits whose answers the environment chooses, so every theorem
about this machine holds for every backend. An await that the handler
races against the request's cancellation token answers `none` when the
token wins; the handlers race no other await, and a handler task is
never dropped, so these are the only cancellations.

# Environment

- `connect` hands out a fresh backend or an error.
- A spawned event pump delivers output and termination events at any
  time, each under its own lock section.
-/
import DebugMcp.Json
import DebugMcp.Lib.Pool
import DebugMcp.Session.Manager

namespace DebugMcp

open Conc

-- ============================================================ registry

/-- The registered backend factories, the per-OS default, and the value
of `DEBUG_BACKEND`. -/
structure Registry where
  factories : List String
  defaultName : String
  envValue : Option String

namespace Registry

/-- The registered names, sorted, joined by commas. -/
def commaList (r : Registry) : String :=
  String.intercalate ", " (r.factories.mergeSort (· ≤ ·))

/-- Resolve a factory: explicit request, then the environment, then the
default; an empty name counts as absent. -/
def select (r : Registry) (requested : Option String) :
    Except String String :=
  let requested := requested.filter fun s => !s.isEmpty
  let envValue := r.envValue.filter fun s => !s.isEmpty
  let name := (requested.or envValue).getD r.defaultName
  if name ∈ r.factories then .ok name
  else .error s!"unknown backend '{name}'; available: {r.commaList}"

end Registry

-- ========================================================== operations

/-- A connected backend's identity (the shared pointer). -/
abbrev BackendId := Nat

/-- The operations of a handler on the server and on backends. An answer
of the form `Option _` is an await raced against cancellation. -/
inductive ServerOp : Type → Type
  | connect (factory : String) :
      ServerOp (Except BackendError BackendId)
  | currentBackend : ServerOp (Option BackendId)
  | setSlot (b : BackendId) : ServerOp Unit
  | clearSlot : ServerOp Unit
  | takeSlot : ServerOp (Option BackendId)
  | setName (name : Option String) : ServerOp Unit
  | spawnEventPump (b : BackendId) (generation : UInt64) : ServerOp Unit
  | debuggerPid (b : BackendId) : ServerOp (Option Int)
  | launch (b : BackendId) (spec : LaunchSpec) :
      ServerOp (Option (Except BackendError LaunchOutcome))
  | attach (b : BackendId) (spec : AttachSpec) :
      ServerOp (Option (Except BackendError AttachOutcome))
  | openDump (b : BackendId) (path : String) :
      ServerOp (Option (Except BackendError DumpOutcome))
  | attachKernel (b : BackendId) (connection : String) :
      ServerOp (Option (Except BackendError AttachOutcome))
  | cont (b : BackendId) (threadId : Int) :
      ServerOp (Option (Except BackendError StopOutcome))
  | step (b : BackendId) (kind : StepKind) (threadId : Int)
      (gran : Option Granularity) :
      ServerOp (Option (Except BackendError StopOutcome))
  | pause (b : BackendId) : ServerOp (Except BackendError Unit)
  | disconnect (b : BackendId) (terminate : Bool) : ServerOp Unit
  | dropBackend (b : BackendId) : ServerOp Unit
  | setSourceBreakpoints (b : BackendId) (file : String)
      (bps : List SourceBp) :
      ServerOp (Except BackendError (List BreakpointResult))
  | setFunctionBreakpoints (b : BackendId) (bps : List FunctionBp) :
      ServerOp (Except BackendError (List BreakpointResult))

/-- A handler's operations: the session's lock sections and the
server's. -/
abbrev ToolOp := OpSum SessionOp ServerOp

/-- A handler, or a part of one. -/
abbrev ToolProg := Prog ToolOp

/-- A lock section of the session, as a program. -/
def session {β : Type} (op : SessionOp β) : ToolProg β :=
  Prog.perform (.inl op)

/-- An operation of the server, as a program. -/
def server {β : Type} (op : ServerOp β) : ToolProg β :=
  Prog.perform (.inr op)

-- =============================================================== world

/-- What handlers share: the session, the backend slot with the name
recorded beside it, how many backends were handed out, and the event
pumps, each with the generation it was spawned under. -/
structure ToolServer where
  session : SessionManager
  backend : Option BackendId
  activeBackendName : Option String
  nextBackend : Nat
  pumps : List (BackendId × UInt64)
  deriving DecidableEq

/-- A server over a fresh session. -/
def ToolServer.new : ToolServer where
  session := .new
  backend := none
  activeBackendName := none
  nextBackend := 0
  pumps := []

/-- The environment's answer to an operation; the operations that answer
by themselves ignore it. -/
inductive Answer
  | sync
  | connect (r : Except BackendError Unit)
  | pid (p : Option Int)
  | launch (r : Option (Except BackendError LaunchOutcome))
  | attach (r : Option (Except BackendError AttachOutcome))
  | dump (r : Option (Except BackendError DumpOutcome))
  | stop (r : Option (Except BackendError StopOutcome))
  | pause (r : Except BackendError Unit)
  | results (r : Except BackendError (List BreakpointResult))

namespace Answer

/-- The answer of a connect. -/
def connect? : Answer → Option (Except BackendError Unit)
  | .connect r => some r
  | _ => none

/-- The answer of a pid query. -/
def pid? : Answer → Option (Option Int)
  | .pid p => some p
  | _ => none

/-- The answer of a raced launch. -/
def launch? : Answer →
    Option (Option (Except BackendError LaunchOutcome))
  | .launch r => some r
  | _ => none

/-- The answer of a raced attach. -/
def attach? : Answer →
    Option (Option (Except BackendError AttachOutcome))
  | .attach r => some r
  | _ => none

/-- The answer of a raced dump load. -/
def dump? : Answer → Option (Option (Except BackendError DumpOutcome))
  | .dump r => some r
  | _ => none

/-- The answer of a raced resume. -/
def stop? : Answer → Option (Option (Except BackendError StopOutcome))
  | .stop r => some r
  | _ => none

/-- The answer of a pause. -/
def pause? : Answer → Option (Except BackendError Unit)
  | .pause r => some r
  | _ => none

/-- The answer of a breakpoint request. -/
def results? : Answer →
    Option (Except BackendError (List BreakpointResult))
  | .results r => some r
  | _ => none

end Answer

/-- What the environment does on its own: the `k`-th spawned pump
delivers an event. -/
inductive EnvMove
  | pump (k : Nat) (ev : BackendEvent)

namespace ToolServer

/-- A lock section of the session. -/
def runSession {β : Type} (op : SessionOp β) (w : ToolServer) :
    β × ToolServer :=
  let (b, session) := op.run w.session
  (b, { w with session })

/-- A connect: a fresh backend, or the factory's error. -/
def connect (r : Except BackendError Unit) (w : ToolServer) :
    Except BackendError BackendId × ToolServer :=
  match r with
  | .ok () => (.ok w.nextBackend, { w with nextBackend := w.nextBackend + 1 })
  | .error e => (.error e, w)

/-- An operation of the server. -/
def runServer {β : Type} (op : ServerOp β) (a : Answer)
    (w : ToolServer) : Option (β × ToolServer) :=
  match op with
  | .connect _ => a.connect?.map w.connect
  | .currentBackend => some (w.backend, w)
  | .setSlot b => some ((), { w with backend := some b })
  | .clearSlot => some ((), { w with backend := none })
  | .takeSlot => some (w.backend, { w with backend := none })
  | .setName n => some ((), { w with activeBackendName := n })
  | .spawnEventPump b g =>
      some ((), { w with pumps := w.pumps ++ [(b, g)] })
  | .debuggerPid _ => a.pid?.map (·, w)
  | .launch _ _ => a.launch?.map (·, w)
  | .attach _ _ => a.attach?.map (·, w)
  | .openDump _ _ => a.dump?.map (·, w)
  | .attachKernel _ _ => a.attach?.map (·, w)
  | .cont _ _ => a.stop?.map (·, w)
  | .step _ _ _ _ => a.stop?.map (·, w)
  | .pause _ => a.pause?.map (·, w)
  | .disconnect _ _ => some ((), w)
  | .dropBackend _ => some ((), w)
  | .setSourceBreakpoints _ _ _ => a.results?.map (·, w)
  | .setFunctionBreakpoints _ _ => a.results?.map (·, w)

/-- An event drained by a pump spawned under `generation`. -/
def pumpEvent (generation : UInt64) (w : ToolServer) :
    BackendEvent → ToolServer
  | .output category text =>
      { w with session := w.session.appendOutput category text }
  | .terminated code =>
      { w with
        session := (w.session.terminateIfGeneration generation code).2 }

/-- An environment move. -/
def envMove : EnvMove → ToolServer → Option ToolServer
  | .pump k ev, w => w.pumps[k]?.map fun p => w.pumpEvent p.2 ev

/-- One operation of a handler. -/
def run {β : Type} (op : ToolOp β) (a : Answer) (w : ToolServer) :
    Option (β × ToolServer) :=
  match op with
  | .inl op => some (w.runSession op)
  | .inr op => w.runServer op a

end ToolServer

/-- The tool server as a machine. -/
def toolMachine : Machine ToolOp Answer EnvMove ToolServer where
  run _ op a w := w.run op a
  env := ToolServer.envMove

-- ==================================================== slot and session

/-- `SessionManager::reset`: two lock sections, one after the other. -/
def reset : ToolProg Unit := do
  session .resetInner
  let _ ← session .drainOutput

/-- `set_backend`: the slot, then the name. -/
def setBackend (b : BackendId) (name : String) : ToolProg Unit := do
  server (.setSlot b)
  server (.setName (some name))

/-- `clear_backend`: the slot, then the name. -/
def clearBackend : ToolProg Unit := do
  server .clearSlot
  server (.setName none)

end DebugMcp
