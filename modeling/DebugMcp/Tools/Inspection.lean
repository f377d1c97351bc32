/-
The inspection handlers: `backtrace`, `variables` and `evaluate`.

A client names a frame by its index, the backend by an id. The session
keeps a table from the ones to the others, filled whole by a `backtrace`
and, when an index is not in it, by `resolve_frame_id` itself; a stop
does not clear it.

The handlers run over the operations of the other tools and those of
`InspectOp`. No handler changes the session between two fetches of one
flattening, so these are one operation, whose answer is what the backend
answers each reference.
-/
import DebugMcp.Tools.Calls
import DebugMcp.Tools.Flatten

namespace DebugMcp

open Conc

-- ================================================================ types

/-- A stack frame. -/
structure Frame where
  index : Int
  id : Int
  name : String
  sourcePath : Option String
  line : Int
  instructionPointer : Option String
  deriving DecidableEq

/-- A variable scope. -/
structure Scope where
  name : String
  variablesReference : Int
  deriving DecidableEq

/-- The result of an evaluation. -/
structure EvalResult where
  result : String
  ty : String
  variablesReference : Int
  deriving DecidableEq

/-- What is evaluated: an expression in a frame, or a debugger
command. -/
inductive EvalMode
  | expression | repl
  deriving DecidableEq

/-- The frame table: frame index to frame id. -/
abbrev FrameMapping := AList fun _ : Int => Int

/-- `set_frame_mapping`. -/
def SessionManager.setFrameMapping (s : SessionManager)
    (mapping : FrameMapping) : SessionManager :=
  { s with inner := { s.inner with frameMapping := mapping } }

/-- The table of a stack. -/
def frameMappingOf (frames : List Frame) : FrameMapping :=
  frames.foldl (fun m f => m.insert f.index f.id) ∅

-- =========================================================== operations

/-- The operations of the inspection handlers beside those of the other
tools. -/
inductive InspectOp : Type → Type
  | frameMapping : InspectOp FrameMapping
  | setFrameMapping (mapping : FrameMapping) : InspectOp Unit
  | stackTrace (b : BackendId) (threadId start levels : Int) :
      InspectOp (Except BackendError (List Frame × Int))
  | scopes (b : BackendId) (frameId : Int) :
      InspectOp (Except BackendError (List Scope))
  | fetch (b : BackendId) : InspectOp VariableFetcher
  | evaluate (b : BackendId) (expr : String) (frameId : Option Int)
      (mode : EvalMode) : InspectOp (Except BackendError EvalResult)

/-- All the operations. -/
abbrev AnyOp := OpSum ToolOp InspectOp

/-- An inspection handler, or a part of one. -/
abbrev InspectProg := Prog AnyOp

/-- A part the other tools have too. -/
def shared {α : Type} (p : ToolProg α) : InspectProg α :=
  p.interp fun op => Prog.perform (.inl op)

/-- An operation of the inspection handlers, as a program. -/
def inspect {β : Type} (op : InspectOp β) : InspectProg β :=
  Prog.perform (.inr op)

-- ============================================================== machine

/-- The environment's answer to an operation. -/
inductive InspectAnswer
  | tool (a : Answer)
  | stackTrace (r : Except BackendError (List Frame × Int))
  | scopes (r : Except BackendError (List Scope))
  | fetch (f : VariableFetcher)
  | evaluate (r : Except BackendError EvalResult)

namespace InspectAnswer

/-- The answer to an operation of the other tools. -/
def toAnswer : InspectAnswer → Answer
  | .tool a => a
  | _ => .sync

/-- The answer of a `stackTrace`. -/
def stackTrace? : InspectAnswer →
    Option (Except BackendError (List Frame × Int))
  | .stackTrace r => some r
  | _ => none

/-- The answer of a `scopes`. -/
def scopes? : InspectAnswer → Option (Except BackendError (List Scope))
  | .scopes r => some r
  | _ => none

/-- The answers of one flattening. -/
def fetch? : InspectAnswer → Option VariableFetcher
  | .fetch f => some f
  | _ => none

/-- The answer of an `evaluate`. -/
def evaluate? : InspectAnswer → Option (Except BackendError EvalResult)
  | .evaluate r => some r
  | _ => none

end InspectAnswer

/-- An operation of the inspection handlers. -/
def ToolServer.runInspect {β : Type} (op : InspectOp β)
    (a : InspectAnswer) (w : ToolServer) : Option (β × ToolServer) :=
  match op with
  | .frameMapping => some (w.session.inner.frameMapping, w)
  | .setFrameMapping mapping =>
      some ((), { w with session := w.session.setFrameMapping mapping })
  | .stackTrace _ _ _ _ => a.stackTrace?.map (·, w)
  | .scopes _ _ => a.scopes?.map (·, w)
  | .fetch _ => a.fetch?.map (·, w)
  | .evaluate _ _ _ _ => a.evaluate?.map (·, w)

/-- One operation of a handler. -/
def ToolServer.runAny {β : Type} (op : AnyOp β) (a : InspectAnswer)
    (w : ToolServer) : Option (β × ToolServer) :=
  match op with
  | .inl op => w.run op a.toAnswer
  | .inr op => w.runInspect op a

/-- The tool server, with the inspection tools. -/
def inspectMachine : Machine AnyOp InspectAnswer EnvMove ToolServer where
  run _ op a w := w.runAny op a
  env := ToolServer.envMove

-- =============================================================== frames

/-- `get_f64`. -/
def Args.getF64 (args : Args) (key : String) : Option Rat :=
  (args.getRaw key).bind Json.asF64

/-- The frame a call is about; the innermost by default. -/
def frameIndexArg (args : Args) : Int :=
  ((args.getF64 "frame_index").map f64ToI64).getD 0

/-- `resolve_frame_id`. -/
def resolveFrameId (b : BackendId) (frameIndex : Int) :
    InspectProg (Except String Int) := do
  let mapping ← inspect .frameMapping
  match mapping.lookup frameIndex with
  | some frameId => return .ok frameId
  | none =>
  let last ← shared (session .lastStopped)
  let threadId := (last.map StopInfo.threadId).getD 1
  match ← inspect (.stackTrace b threadId 0 20) with
  | .error e => return .error (mapImplicitError e)
  | .ok (frames, _) =>
  inspect (.setFrameMapping (frameMappingOf frames))
  match (frameMappingOf frames).lookup frameIndex with
  | some frameId => return .ok frameId
  | none =>
      return .error (s!"frame index {frameIndex} out of range "
        ++ s!"(stack has {frames.length} frames)")

-- ============================================================= backtrace

/-- A frame of the response; an empty path or address is left out. -/
def Frame.toJson (f : Frame) : Json :=
  let entry := ((RespBuilder.new.set "index" (.int f.index)).set
    "name" (.str f.name)).set "id" (.int f.id)
  let entry := match f.sourcePath.filter fun p => !p.isEmpty with
    | some path => (entry.set "file" (.str path)).set "line" (.int f.line)
    | none => entry
  (entry.setOpt "address"
    ((f.instructionPointer.filter fun ip => !ip.isEmpty).map
      Json.str)).build

/-- `resolve_backtrace_thread_id`, which is `resolve_thread_id`. -/
def resolveBacktraceThreadId (args : Args) :
    ToolProg (Except String Int) :=
  resolveThreadId args

/-- The number of frames asked for. -/
def levelsArg (args : Args) : Int :=
  match args.getF64 "levels" with
  | some l => if l > 0 then f64ToI64 l else 20
  | none => 20

/-- `backtrace`. -/
def handleBacktrace (args : Args) : InspectProg ToolOutcome := do
  match ← shared (session (.checkState [.stopped])) with
  | .error e => return .error e
  | .ok () =>
  match ← shared (resolveBacktraceThreadId args) with
  | .error e => return .error e
  | .ok threadId =>
  let levels := levelsArg args
  match ← shared (server .currentBackend) with
  | none => return .error OpError.stackTrace.requestFailed
  | some b =>
  match ← inspect (.stackTrace b threadId 0 levels) with
  | .error e => return .error (OpError.stackTrace.render e)
  | .ok (frames, totalFrames) =>
  inspect (.setFrameMapping (frameMappingOf frames))
  return (((RespBuilder.new.set "frames"
    (.arr (frames.map Frame.toJson))).set
    "total_frames" (.int totalFrames)).set
    "thread_id" (.int threadId)).intoOutcome

-- ============================================================= variables

/-- A flat variable of the response; an empty type, `false` and zero are
left out. -/
def FlatVariable.toJson (v : FlatVariable) : Json :=
  (((((RespBuilder.new.set "name" (.str v.name)).set
    "value" (.str v.value)).setIf
    (!v.ty.isEmpty) "type" (.str v.ty)).setIf
    v.hasChildren "has_children" (.bool v.hasChildren)).setIf
    (v.childrenCount != 0) "children_count"
    (.int v.childrenCount)).build

/-- The 100-variable hard cap. -/
def variableCap : Nat := 100

/-- The scope asked for: `local` when none or an empty one is. -/
def scopeArg (args : Args) : String :=
  let s := args.getString "scope" ""
  if s.isEmpty then "local" else s

/-- The depth to flatten to. -/
def depthArg (args : Args) (scope : String) : Int :=
  let depth := if scope = "global" then 1 else 2
  match args.getF64 "depth" with
  | some d => if d ≥ 0 then f64ToI64 d else depth
  | none => depth

section

-- `str::to_lowercase`
variable (toLowercase : String → String)

/-- `scope_matches`. -/
def scopeMatches (requested name : String) : Bool :=
  let lower := toLowercase name
  if requested = "local" then lower == "locals" || lower == "local"
  else if requested = "global" then lower == "globals" || lower == "global"
  else if requested = "register" then
    lower == "registers" || lower == "register"
  else false

/-- `variables`. -/
def handleVariables (args : Args) : InspectProg ToolOutcome := do
  match ← shared (session (.checkState [.stopped])) with
  | .error e => return .error e
  | .ok () =>
  let frameIndex := frameIndexArg args
  let scope := scopeArg args
  let depth := depthArg args scope
  let filter := args.getString "filter" ""
  match ← shared (server .currentBackend) with
  | none => return .error "failed to resolve frame: connection closed"
  | some b =>
  match ← resolveFrameId b frameIndex with
  | .error e => return .error s!"failed to resolve frame: {e}"
  | .ok frameId =>
  match ← inspect (.scopes b frameId) with
  | .error e => return .error (OpError.scopes.render e)
  | .ok scopes =>
  match scopes.find? fun s => scopeMatches toLowercase scope s.name with
  | none =>
      return .error s!"scope '{scope}' not found in frame {frameIndex}"
  | some target =>
  let fetch ← inspect (.fetch b)
  match flattenVariables toLowercase fetch target.variablesReference depth
      variableCap filter with
  | .error e =>
      return .error ("failed to fetch variables: "
        ++ OpError.«variables».render e)
  | .ok (vars, truncated) =>
      return ((((RespBuilder.new.set "variables"
        (.arr (vars.map FlatVariable.toJson))).set
        "count" (.int vars.length)).set
        "scope" (.str scope)).set
        "truncated" (.bool truncated)).intoOutcome

end

-- ============================================================== evaluate

/-- `evaluate`. -/
def handleEvaluate (args : Args) : InspectProg ToolOutcome := do
  match ← shared (session (.checkState [.stopped])) with
  | .error e => return .error e
  | .ok () =>
  match args.requireString "expression" with
  | .error e => return .error e
  | .ok expression =>
  let frameIndex := frameIndexArg args
  match ← shared (server .currentBackend) with
  | none => return .error "failed to resolve frame: connection closed"
  | some b =>
  match ← resolveFrameId b frameIndex with
  | .error e => return .error s!"failed to resolve frame: {e}"
  | .ok frameId =>
  match ← inspect (.evaluate b expression (some frameId) .expression) with
  | .error e => return .error (OpError.evaluate.render e)
  | .ok result =>
      let builder := (RespBuilder.new.set "result" (.str result.result)).set
        "type" (.str result.ty)
      if result.variablesReference > 0 then
        return ((builder.set "has_children" (.bool true)).set
          "variables_reference"
          (.int result.variablesReference)).intoOutcome
      else return builder.intoOutcome

-- ================================================================= calls

/-- A call of a tool, inspection tools included. -/
inductive InspectCall
  | tool (c : Call)
  | backtrace (args : Args)
  | «variables» (args : Args)
  | evaluate (args : Args)

namespace InspectCall

/-- The handler of a call. -/
def prog (host : Host) (toLowercase : String → String) :
    InspectCall → InspectProg ToolOutcome
  | tool c => shared (c.prog host)
  | backtrace args => handleBacktrace args
  | «variables» args => handleVariables toLowercase args
  | evaluate args => handleEvaluate args

/-- The frame index a call resolves. -/
def frameIndex : InspectCall → Option Int
  | «variables» args | evaluate args => some (frameIndexArg args)
  | _ => none

/-- Is the call a `backtrace`? -/
def isBacktrace : InspectCall → Bool
  | backtrace _ => true
  | _ => false

end InspectCall

end DebugMcp
