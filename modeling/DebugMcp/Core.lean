/-
The neutral, debugger-agnostic vocabulary: the data that crosses the
seam between the tool layer and a backend, and the one error type a
backend returns.

Payloads are opaque: a stop's `reason` is a free-form string, an id is
whatever integer the debugger assigned. Nothing is computed with the
64-bit integers here, so they are `Int`; where the code casts into them
(`Json.lean`) the saturation is explicit.

Of the inspection payloads only those that more than one module reads are
here; the others stand with the tools that read them.
-/

namespace DebugMcp

-- ============================================================ requests

/-- Step granularity. -/
inductive Granularity
  | line | instruction
  deriving DecidableEq

/-- Which execution step to perform. -/
inductive StepKind
  | over | into | out
  deriving DecidableEq

/-- Source-line breakpoint request. -/
structure SourceBp where
  line : Int
  condition : String
  deriving DecidableEq

/-- Function breakpoint request. -/
structure FunctionBp where
  name : String
  condition : String
  deriving DecidableEq

/-- Everything `launch` needs, the flushed pending breakpoints
included. -/
structure LaunchSpec where
  program : String
  args : List String
  cwd : Option String
  env : List (String × String)
  stopOnEntry : Bool
  sourceBreakpoints : List (String × List SourceBp)
  functionBreakpoints : List FunctionBp
  deriving DecidableEq

/-- Everything `attach` needs; `pid` takes precedence. -/
structure AttachSpec where
  pid : Option Int
  waitFor : Option String
  deriving DecidableEq

-- ============================================================ outcomes

/-- A stopped-event snapshot. -/
structure StopInfo where
  reason : String
  threadId : Int
  description : String
  hitBreakpointIds : List Int
  deriving DecidableEq

/-- Outcome of an operation that resumes the target. -/
inductive StopOutcome
  | stopped (info : StopInfo)
  | exited (code : Option Int)
  | terminated
  deriving DecidableEq

/-- Outcome of `launch`; `running` is the launch without a stop on
entry. -/
inductive LaunchOutcome
  | stopped (info : StopInfo)
  | running
  | exited (code : Option Int)
  deriving DecidableEq

/-- Outcome of `attach`, which always waits for its first stop. -/
inductive AttachOutcome
  | stopped (info : StopInfo)
  | exited (code : Option Int)
  | terminated
  deriving DecidableEq

/-- Result of setting one breakpoint. `rejected`: the backend declined
to register it, so it must not be tracked. -/
structure BreakpointResult where
  id : Int
  verified : Bool
  line : Int
  message : String
  rejected : Bool
  deriving DecidableEq

/-- A thread. -/
structure ThreadInfo where
  id : Int
  name : String
  deriving DecidableEq

/-- An instruction. -/
structure Instruction where
  address : String
  instruction : String
  bytes : String
  symbol : String
  sourcePath : Option String
  line : Int
  deriving DecidableEq

/-- Outcome of opening a crash dump. -/
structure DumpOutcome where
  stop : Option StopInfo
  crashLocation : Option String
  deriving DecidableEq

/-- An asynchronous backend event, drained by the session's pump. -/
inductive BackendEvent
  | output (category text : String)
  | terminated (code : Option Int)
  deriving DecidableEq

/-- Is the event an output? -/
def BackendEvent.isOutput : BackendEvent → Bool
  | output _ _ => true
  | terminated _ => false

-- ============================================================== errors

/-- A backend operation failure: one constructor per cause. -/
inductive BackendError
  | detect (m : String)
  | spawn (m : String)
  | send (m : String)
  | protocol (ty : String)
  | dap (message : String)
  | closed
  | timeout
  | unsupported (tool : String)
  deriving DecidableEq

/-- The error's `Display` rendering. -/
def BackendError.display : BackendError → String
  | .detect m => s!"failed to detect debugger: {m}"
  | .spawn m => s!"failed to spawn debugger: {m}"
  | .send m => s!"failed to send request: {m}"
  | .protocol ty => s!"unexpected response type: {ty}"
  | .dap message => s!"debugger error: {message}"
  | .closed => "connection closed"
  | .timeout => "operation timed out"
  | .unsupported tool => s!"{tool} is not supported by the active backend"

end DebugMcp
