/-
The requests the lldb backend sends, with their `arguments`.

A member is left out exactly where the source leaves it out: an empty
breakpoint condition, every empty or false launch and attach argument
but `program`. The command lists of the launch and attach arguments are
never populated by the tool layer and are omitted here.
-/
import DebugMcp.Dap.Client

namespace DebugMcp

/-- The JSON object of the given members. -/
def jsonObject (members : List (String × Json)) : Json :=
  .obj (members.foldl (fun m kv => JsonMap.insert m kv.1 kv.2) [])

/-- A member that is present under a condition. -/
def member (present : Bool) (key : String) (v : Json) :
    List (String × Json) :=
  if present then [(key, v)] else []

-- =========================================================== arguments

/-- lldb-dap launch arguments. -/
structure LldbLaunchArgs where
  program : String
  args : List String
  cwd : String
  env : List (String × String)
  stopOnEntry : Bool

/-- `LldbLaunchArgs::new`, of a launch spec. -/
def LldbLaunchArgs.new (spec : LaunchSpec) : LldbLaunchArgs where
  program := spec.program
  args := spec.args
  cwd := spec.cwd.getD ""
  env := spec.env
  stopOnEntry := spec.stopOnEntry

/-- `launch_args_to_value`. -/
def LldbLaunchArgs.toValue (a : LldbLaunchArgs) : Json :=
  jsonObject ([("program", .str a.program)]
    ++ member (!a.args.isEmpty) "args" (.arr (a.args.map .str))
    ++ member (!a.cwd.isEmpty) "cwd" (.str a.cwd)
    ++ member (!a.env.isEmpty) "env"
      (jsonObject (a.env.map fun kv => (kv.1, .str kv.2)))
    ++ member a.stopOnEntry "stopOnEntry" (.bool true))

/-- lldb-dap attach arguments. -/
structure LldbAttachArgs where
  pid : Int
  program : String
  waitFor : Bool
  stopOnEntry : Bool

/-- `LldbAttachArgs::new`: a positive pid, else a program to wait
for. -/
def LldbAttachArgs.new (spec : AttachSpec) : LldbAttachArgs :=
  match spec.pid.filter (0 < ·) with
  | some pid => { pid, program := "", waitFor := false, stopOnEntry := true }
  | none =>
      { pid := 0, program := spec.waitFor.getD "", waitFor := true,
        stopOnEntry := true }

/-- `attach_args_to_value`. -/
def LldbAttachArgs.toValue (a : LldbAttachArgs) : Json :=
  jsonObject (member (a.pid != 0) "pid" (.int a.pid)
    ++ member (!a.program.isEmpty) "program" (.str a.program)
    ++ member a.waitFor "waitFor" (.bool true)
    ++ member a.stopOnEntry "stopOnEntry" (.bool true))

-- ============================================================ requests

namespace Requests

/-- `initialize`. -/
def initializeRequest : DapRequest :=
  .new "initialize" (jsonObject [
    ("clientID", .str "lldb-debug-mcp"),
    ("adapterID", .str "lldb-dap"),
    ("pathFormat", .str "path"),
    ("linesStartAt1", .bool true),
    ("columnsStartAt1", .bool true),
    ("supportsVariableType", .bool true),
    ("supportsRunInTerminalRequest", .bool false)])

/-- `launch`, with its argument object. -/
def launch (args : Json) : DapRequest := .new "launch" args

/-- `attach`, with its argument object. -/
def attach (args : Json) : DapRequest := .new "attach" args

/-- One breakpoint of a list; an empty condition is left out. -/
def breakpoint (key : String) (v : Json) (condition : String) : Json :=
  jsonObject ((key, v)
    :: member (!condition.isEmpty) "condition" (.str condition))

/-- `setBreakpoints` for one file, with its full list. -/
def setBreakpoints (file : String) (bps : List SourceBp) : DapRequest :=
  .new "setBreakpoints" (jsonObject [
    ("source", jsonObject [("path", .str file)]),
    ("breakpoints", .arr (bps.map fun b =>
      breakpoint "line" (.int b.line) b.condition))])

/-- `setFunctionBreakpoints`, with the full list. -/
def setFunctionBreakpoints (bps : List FunctionBp) : DapRequest :=
  .new "setFunctionBreakpoints" (jsonObject [
    ("breakpoints", .arr (bps.map fun b =>
      breakpoint "name" (.str b.name) b.condition))])

/-- `setExceptionBreakpoints`, with no filters. -/
def setExceptionBreakpoints : DapRequest :=
  .new "setExceptionBreakpoints" (jsonObject [("filters", .arr [])])

/-- `configurationDone`. -/
def configurationDone : DapRequest := .new "configurationDone" none

/-- `continue`. -/
def cont (threadId : Int) : DapRequest :=
  .new "continue" (jsonObject [("threadId", .int threadId)])

/-- `next`, `stepIn` or `stepOut`. -/
def step (command : String) (threadId : Int)
    (granularity : Option String) : DapRequest :=
  .new command (jsonObject (("threadId", .int threadId)
    :: member granularity.isSome "granularity"
      (.str (granularity.getD ""))))

/-- `pause`, of all threads. -/
def pause : DapRequest :=
  .new "pause" (jsonObject [("threadId", .int 0)])

/-- `threads`. -/
def threads : DapRequest := .new "threads" none

/-- `stackTrace`. -/
def stackTrace (threadId start levels : Int) : DapRequest :=
  .new "stackTrace" (jsonObject [
    ("threadId", .int threadId),
    ("startFrame", .int start),
    ("levels", .int levels)])

/-- `scopes`. -/
def scopes (frameId : Int) : DapRequest :=
  .new "scopes" (jsonObject [("frameId", .int frameId)])

/-- `variables`. -/
def variablesOf (variablesReference : Int) : DapRequest :=
  .new "variables" (jsonObject [
    ("variablesReference", .int variablesReference)])

/-- `evaluate`; the frame is left out where there is none. -/
def evaluate (expression : String) (frameId : Option Int)
    (context : String) : DapRequest :=
  .new "evaluate" (jsonObject ([("expression", .str expression)]
    ++ member frameId.isSome "frameId" (.int (frameId.getD 0))
    ++ [("context", .str context)]))

/-- `readMemory`. -/
def readMemory (address : String) (count : Int) : DapRequest :=
  .new "readMemory" (jsonObject [
    ("memoryReference", .str address),
    ("count", .int count)])

/-- `disassemble`. -/
def disassemble (address : String) (count : Int) : DapRequest :=
  .new "disassemble" (jsonObject [
    ("memoryReference", .str address),
    ("instructionCount", .int count)])

/-- `disconnect`. -/
def disconnect (terminate : Bool) : DapRequest :=
  .new "disconnect" (jsonObject [("terminateDebuggee", .bool terminate)])

end Requests

end DebugMcp
