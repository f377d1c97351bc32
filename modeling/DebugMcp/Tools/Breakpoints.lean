/-
The breakpoint handlers: `set_breakpoint`, `set_function_breakpoint`,
`remove_breakpoint`, `list_breakpoints`.

In the idle state a breakpoint is buffered. In the stopped state a
handler reads the tracked list, sends the proposed list across an await,
and commits its own element only after the backend accepted it.
-/
import DebugMcp.Tools.Errors
import DebugMcp.Tools.Server

namespace DebugMcp

open Conc

/-- The result `set_breakpoint` records: the first on the requested
line, else the last. -/
def matchedResult (results : List BreakpointResult) (line : Int) :
    Option BreakpointResult :=
  (results.find? fun bp => bp.line == line).or results.getLast?

/-- `set_breakpoint` in the stopped state. -/
def setBreakpointStopped (file : String) (line : Int)
    (condition : String) : ToolProg ToolOutcome := do
  match ← server .currentBackend with
  | none => return .error OpError.setBreakpoints.requestFailed
  | some b =>
  let bps ← session (.sourceBreakpointsForFile file)
  match ← server (.setSourceBreakpoints b file
      (bps ++ [⟨line, condition⟩])) with
  | .error e => return .error (OpError.setBreakpoints.render e)
  | .ok results =>
  match matchedResult results line with
  | none =>
      return .error "setBreakpoints response contained no breakpoints"
  | some bp =>
  session (.addSourceBreakpoint file line condition)
  session (.addBreakpointResponse
    { id := bp.id, ty := .source, file, line := bp.line, function := ""
      condition, verified := bp.verified })
  return (((((RespBuilder.new.set "breakpoint_id" (.int bp.id)).set
    "verified" (.bool bp.verified)).set "file" (.str file)).set
    "line" (.int bp.line)).setIf (!bp.message.isEmpty) "message"
    (.str bp.message)).intoOutcome

/-- `set_breakpoint`. -/
def handleSetBreakpoint (args : Args) : ToolProg ToolOutcome := do
  match ← session (.checkState [.idle, .stopped]) with
  | .error e => return .error e
  | .ok () =>
  match args.requireString "file" with
  | .error e => return .error e
  | .ok file =>
  match args.requirePositiveInt "line" with
  | .error e => return .error e
  | .ok line =>
  let condition := args.getString "condition" ""
  if (← session .state) = .idle then
    session (.addPendingSourceBreakpoint file line condition)
    return (((((RespBuilder.new.set "status" (.str "pending")).set
      "file" (.str file)).set "line" (.int line)).set
      "condition" (.str condition)).set "message"
      (.str "Breakpoint will be set when program is launched")).intoOutcome
  else
    setBreakpointStopped file line condition

/-- The response of a set function breakpoint; the message is
synthesized when the backend gave none. -/
def functionResponse (name : String) (id : Int) (verified : Bool)
    (message : String) : ToolOutcome :=
  let message :=
    if !message.isEmpty then message
    else if verified then s!"Breakpoint set on function '{name}'"
    else s!"Breakpoint on function '{name}' pending verification"
  ((((RespBuilder.new.set "breakpoint_id" (.int id)).set
    "verified" (.bool verified)).set "function" (.str name)).set
    "message" (.str message)).intoOutcome

/-- `set_function_breakpoint` in the stopped state: the last result is
the new breakpoint's; a rejected one is not tracked. -/
def setFunctionBreakpointStopped (name condition : String) :
    ToolProg ToolOutcome := do
  match ← server .currentBackend with
  | none => return .error OpError.setFunctionBreakpoints.requestFailed
  | some b =>
  let bps ← session .allFunctionBreakpoints
  match ← server (.setFunctionBreakpoints b
      (bps ++ [⟨name, condition⟩])) with
  | .error e => return .error (OpError.setFunctionBreakpoints.render e)
  | .ok results =>
  match results.getLast? with
  | none =>
      session (.addFunctionBreakpoint name condition)
      return functionResponse name 0 false ""
  | some bp =>
      if bp.rejected then
        return .error bp.message
      else
        session (.addFunctionBreakpoint name condition)
        session (.addBreakpointResponse
          { id := bp.id, ty := .function, file := "", line := 0
            function := name, condition, verified := bp.verified })
        return functionResponse name bp.id bp.verified bp.message

/-- `set_function_breakpoint`. -/
def handleSetFunctionBreakpoint (args : Args) :
    ToolProg ToolOutcome := do
  match ← session (.checkState [.idle, .stopped]) with
  | .error e => return .error e
  | .ok () =>
  match args.requireString "name" with
  | .error e => return .error e
  | .ok name =>
  let condition := args.getString "condition" ""
  if (← session .state) = .idle then
    session (.addPendingFunctionBreakpoint name condition)
    return ((((RespBuilder.new.set "status" (.str "pending")).set
      "function" (.str name)).set "condition" (.str condition)).set
      "message" (.str ("Function breakpoint will be set when "
        ++ "program is launched"))).intoOutcome
  else
    setFunctionBreakpointStopped name condition

/-- The missing-backend text of `remove_breakpoint`. -/
def removeSendError (wasFunction : Bool) : String :=
  if wasFunction then OpError.setFunctionBreakpoints.requestFailed
  else OpError.setBreakpoints.requestFailed

/-- The commit of a removal, after the backend accepted the remaining
list. -/
def commitRemoval (id : Int) : ToolProg ToolOutcome := do
  match ← session (.removeBreakpointById id) with
  | .error e => return .error s!"failed to remove breakpoint: {e}"
  | .ok _ =>
      return ((RespBuilder.new.set "removed" (.bool true)).set
        "breakpoint_id" (.int id)).intoOutcome

/-- `remove_breakpoint`, after the id is read: peek at the metadata,
send the remaining list, commit. -/
def removeBreakpoint (id : Int) : ToolProg ToolOutcome := do
  match ← session (.breakpointInfo id) with
  | none =>
      return .error
        s!"failed to remove breakpoint: breakpoint ID {id} not found"
  | some info =>
  let wasFunction := info.ty == .function
  match ← server .currentBackend with
  | none => return .error (removeSendError wasFunction)
  | some b =>
  if wasFunction then
    let current ← session .allFunctionBreakpoints
    match ← server (.setFunctionBreakpoints b
        (SessionManager.eraseName info.function current)) with
    | .error e => return .error (OpError.setFunctionBreakpoints.render e)
    | .ok _ => commitRemoval id
  else
    let current ← session (.sourceBreakpointsForFile info.file)
    match ← server (.setSourceBreakpoints b info.file
        (SessionManager.eraseLine info.line current)) with
    | .error e => return .error (OpError.setBreakpoints.render e)
    | .ok _ => commitRemoval id

/-- `remove_breakpoint`. -/
def handleRemoveBreakpoint (args : Args) : ToolProg ToolOutcome := do
  match ← session (.checkState [.stopped]) with
  | .error e => return .error e
  | .ok () =>
  match args.requireInt "breakpoint_id" with
  | .error e => return .error e
  | .ok id => removeBreakpoint id

/-- One entry of `list_breakpoints`. -/
def breakpointEntry (bp : BreakpointInfo) : Json :=
  ((((((RespBuilder.new.set "id" (.int bp.id)).set
    "type" (.str bp.ty.name)).set "verified" (.bool bp.verified)).setIf
    (!bp.file.isEmpty) "file" (.str bp.file)).setIf
    (decide (0 < bp.line)) "line" (.int bp.line)).setIf
    (!bp.function.isEmpty) "function" (.str bp.function)).setIf
    (!bp.condition.isEmpty) "condition" (.str bp.condition) |>.build

/-- `list_breakpoints`: every tracked entry, ascending by id. -/
def handleListBreakpoints : ToolProg ToolOutcome := do
  let breakpoints ← session .listBreakpoints
  let items := breakpoints.map breakpointEntry
  return ((RespBuilder.new.set "breakpoints" (.arr items)).set
    "count" (.int items.length)).intoOutcome

end DebugMcp
