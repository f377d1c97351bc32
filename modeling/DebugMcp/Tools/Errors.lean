/-
The texts a tool handler renders a backend error into.

A call site has three templates (`OpError`): the send failure, the
wrong response type, the unsuccessful response. The backend phrases its
own message as `"<op> request failed: <e>"` or `"<op> failed: <msg>"`;
`render` recognises which and says it again under the call site's verbs.
-/
import DebugMcp.Core

namespace DebugMcp

-- ========================================================= text search

/-- The rest after the first occurrence of `sep`, on characters. -/
def afterFirst (sep : List Char) : List Char → Option (List Char)
  | [] => if sep.isEmpty then some [] else none
  | c :: cs =>
      if sep.isPrefixOf (c :: cs) then some ((c :: cs).drop sep.length)
      else afterFirst sep cs

/-- The rest after the first occurrence of `sep`. -/
def stripAfter (s sep : String) : Option String :=
  (afterFirst sep.toList s.toList).map String.ofList

/-- `split_once(':')`: what stands before and after the first colon. -/
def splitOnceColon (s : String) : Option (String × String) :=
  (stripAfter s ":").map fun rest =>
    (String.ofList (s.toList.takeWhile (· ≠ ':')), rest)

-- =========================================================== templates

/-- The three error templates of one call site. -/
structure OpError where
  requestFailed : String
  unexpected : String
  failed : String

namespace OpError

/-- Say a backend's message again under this call site's verbs. -/
def renderDap (op : OpError) (message : String) : String :=
  match stripAfter message " request failed: " with
  | some inner => op.requestFailed ++ inner
  | none =>
      match stripAfter message " failed: " with
      | some inner => op.failed ++ inner
      | none => message

/-- Render a backend error at this call site. -/
def render (op : OpError) : BackendError → String
  | .send inner => op.requestFailed ++ inner
  | .closed => op.requestFailed ++ "connection closed"
  | .timeout => op.requestFailed ++ "operation timed out"
  | .detect m => op.requestFailed ++ m
  | .spawn m => op.requestFailed ++ m
  | .dap message => op.renderDap message
  | .protocol ty => op.unexpected ++ (stripAfter ty ":").getD ty
  | .unsupported tool =>
      op.requestFailed ++ (BackendError.unsupported tool).display

/-- `continue`. -/
def «continue» : OpError where
  requestFailed := "continue request failed: "
  unexpected := "unexpected continue response type: "
  failed := "continue failed: "

/-- `step_over`. -/
def stepOver : OpError where
  requestFailed := "step over request failed: "
  unexpected := "unexpected step over response type: "
  failed := "step over failed: "

/-- `step_into`. -/
def stepInto : OpError where
  requestFailed := "step into request failed: "
  unexpected := "unexpected step into response type: "
  failed := "step into failed: "

/-- `step_out`. -/
def stepOut : OpError where
  requestFailed := "step out request failed: "
  unexpected := "unexpected step out response type: "
  failed := "step out failed: "

/-- `pause`. -/
def pause : OpError where
  requestFailed := "pause request failed: "
  unexpected := "unexpected pause response type: "
  failed := "pause failed: "

/-- `set_breakpoint` and the source path of `remove_breakpoint`. -/
def setBreakpoints : OpError where
  requestFailed := "setBreakpoints request failed: "
  unexpected := "unexpected setBreakpoints response type: "
  failed := "setBreakpoints failed: "

/-- `set_function_breakpoint` and the function path of
`remove_breakpoint`; the middle template names no verb. -/
def setFunctionBreakpoints : OpError where
  requestFailed := "setFunctionBreakpoints request failed: "
  unexpected := "unexpected response type: "
  failed := "setFunctionBreakpoints failed: "

/-- `backtrace`, and the current instruction of `disassemble`. -/
def stackTrace : OpError where
  requestFailed := "stackTrace request failed: "
  unexpected := "unexpected stackTrace response type: "
  failed := "stackTrace failed: "

/-- `threads`. -/
def threads : OpError where
  requestFailed := "threads request failed: "
  unexpected := "unexpected threads response type: "
  failed := "threads failed: "

/-- `variables`: the `scopes` request. -/
def scopes : OpError where
  requestFailed := "scopes request failed: "
  unexpected := "unexpected scopes response type: "
  failed := "scopes failed: "

/-- `evaluate`. -/
def evaluate : OpError where
  requestFailed := "evaluate request failed: "
  unexpected := "unexpected evaluate response type: "
  failed := "evaluate failed: "

/-- `read_memory`. -/
def readMemory : OpError where
  requestFailed := "readMemory request failed: "
  unexpected := "unexpected readMemory response type: "
  failed := "readMemory failed: "

/-- `disassemble`. -/
def disassemble : OpError where
  requestFailed := "disassemble request failed: "
  unexpected := "unexpected disassemble response type: "
  failed := "disassemble failed: "

/-- `run_command`, whose verbs are not those of the `evaluate` the backend
issues. -/
def runCommand : OpError where
  requestFailed := "run_command request failed: "
  unexpected := "unexpected evaluate response type: "
  failed := "command failed: "

/-- `variables`: a refused response has the words of a send failure. -/
def «variables» : OpError where
  requestFailed := "variables request failed: "
  unexpected := "unexpected variables response type: "
  failed := "variables request failed: "

/-- The call sites. -/
def sites : List OpError :=
  [«continue», stepOver, stepInto, stepOut, pause, setBreakpoints,
    setFunctionBreakpoints, stackTrace, threads, scopes, evaluate,
    readMemory, disassemble, runCommand, «variables»]

/-- The implicit `stackTrace` of a frame lookup, no call site of its
own. -/
def implicitStackTrace : OpError where
  requestFailed := "implicit stackTrace request failed: "
  unexpected := "unexpected stackTrace response type: "
  failed := "implicit stackTrace failed: "

end OpError

/-- `map_implicit_error`, which is `render` with verbs of its own. -/
def mapImplicitError : BackendError → String :=
  OpError.implicitStackTrace.render

end DebugMcp
