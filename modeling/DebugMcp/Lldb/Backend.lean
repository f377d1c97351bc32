/-
The lldb backend: its operations as programs over the DAP client.

`runLaunch`, `runAttach` and `resumeAndWait` are the source's, one
operation per lock section and per await, in the source's order. A
future dropped at an await drops its stop waiter's receiver, if it holds
one; that destructor is written out, through `release`.

The text of the captured stderr is a parameter: an operation reads it at
most once, at its first refused response, and ends there.
-/
import DebugMcp.Lldb.Requests

namespace DebugMcp

open Conc

-- ============================================================= messages

/-- `response_type_label`. -/
def responseTypeLabel (resp : Response) : String :=
  s!"response:{resp.command}"

/-- `message_type_label`. -/
def messageTypeLabel : DapMessage → String
  | .response resp => responseTypeLabel resp
  | .event _ => "event"
  | .other env =>
      match env.event, env.command with
      | some event, _ => s!"event:{event}"
      | none, some command => s!"{env.ty}:{command}"
      | none, none => env.ty

/-- `diagnostic`: the adapter's message, else the captured stderr, else
a literal. -/
def diagnostic (stderr dapMessage : String) : String :=
  if !dapMessage.isEmpty then dapMessage
  else if !stderr.isEmpty then stderr
  else "no error message provided by lldb-dap"

/-- `check_response`, for the request verb `op`. -/
def checkResponse (stderr op : String) :
    DapMessage → Except BackendError Response
  | .response resp =>
      if resp.success then .ok resp
      else .error (.dap s!"{op} failed: {diagnostic stderr resp.message}")
  | other => .error (.protocol s!"{op}:{messageTypeLabel other}")

/-- The check of one file's `setBreakpoints` in the launch flush. -/
def checkFlushed (stderr file : String) :
    DapMessage → Except BackendError Unit
  | .response resp =>
      if resp.command = "setBreakpoints" then
        if resp.success then .ok ()
        else .error (.dap (s!"setBreakpoints failed for {file}: "
          ++ diagnostic stderr resp.message))
      else .error (.protocol (responseTypeLabel resp))
  | other => .error (.protocol (messageTypeLabel other))

/-- An error under a handshake prefix. -/
def dapErr (what : String) (e : BackendError) : BackendError :=
  .dap s!"{what}: {e.display}"

-- =========================================================== operations

section

variable {α : Type}

/-- What an operation gives: `none` when its future was dropped. -/
abbrev OpResult (α : Type) := Option (Except BackendError α)

/-- Drop the stop waiter's receiver, if the operation holds one. -/
def release (armed : Bool) : ClientProg Unit :=
  if armed then client .dropStop else pure ()

/-- Send `request`, map a failure to `err`, check the response and go
on; `armed` says that a stop waiter is held. -/
def sendThen (armed : Bool) (request : DapRequest)
    (err : BackendError → BackendError)
    (check : DapMessage → Except BackendError Unit)
    (next : ClientProg (OpResult α)) : ClientProg (OpResult α) := do
  match ← send request with
  | none =>
      release armed
      return none
  | some (.error e) =>
      release armed
      return some (.error (err e))
  | some (.ok m) =>
  match check m with
  | .error e =>
      release armed
      return some (.error e)
  | .ok () => next

/-- A response that is not looked at. -/
def unchecked (_ : DapMessage) : Except BackendError Unit := .ok ()

/-- A response whose body is not looked at. -/
def checked (stderr op : String) (m : DapMessage) :
    Except BackendError Unit :=
  (checkResponse stderr op m).map fun _ => ()

/-- `initialize`, then the rest. -/
def initializeThen (stderr : String)
    (next : ClientProg (OpResult α)) : ClientProg (OpResult α) :=
  sendThen false Requests.initializeRequest
    (dapErr "initialize request failed") (checked stderr "initialize") next

/-- Send the launch or attach request without waiting for its response,
and await the initialized signal. -/
def sendAsyncThen (op : String) (request : DapRequest)
    (next : ChanId → ClientProg (OpResult α)) :
    ClientProg (OpResult α) := do
  match ← sendAsync request with
  | none => return none
  | some (.error e) =>
      return some (.error (dapErr s!"{op} request failed" e))
  | some (.ok rx) =>
  match ← waitInitialized with
  | none => return none
  | some () => next rx

/-- Await the deferred response and check it. -/
def awaitResponseThen (stderr op : String) (armed : Bool)
    (rx : ChanId) (next : ClientProg (OpResult α)) :
    ClientProg (OpResult α) := do
  match ← client (.recv rx) with
  | none =>
      release armed
      return none
  | some (.error ()) =>
      release armed
      return some (.error .closed)
  | some (.ok (.error e)) =>
      release armed
      return some (.error (dapErr s!"{op} request failed" e))
  | some (.ok (.ok m)) =>
  match checkResponse stderr op m with
  | .error e =>
      release armed
      return some (.error e)
  | .ok _ => next

/-- Await the stop waiter; a dropped sender is mapped by `closed`. -/
def awaitStop (outcome : StopOutcome → α) (closed : α) :
    ClientProg (OpResult α) := do
  match ← client .recvStop with
  | none =>
      client .dropStop
      return none
  | some (.ok o) => return some (.ok (outcome o))
  | some (.error ()) => return some (.ok closed)

end

/-- The launch outcome of a stop; a termination counts as an exit. -/
def launchOutcome : StopOutcome → LaunchOutcome
  | .stopped info => .stopped info
  | .exited code => .exited code
  | .terminated => .exited none

/-- The attach outcome of a stop. -/
def attachOutcome : StopOutcome → AttachOutcome
  | .stopped info => .stopped info
  | .exited code => .exited code
  | .terminated => .terminated

section

variable {α : Type}

/-- The flush of the pending source breakpoints, one file after the
other. -/
def flushFiles (stderr : String) :
    List (String × List SourceBp) → ClientProg (OpResult α) →
      ClientProg (OpResult α)
  | [], next => next
  | (file, bps) :: rest, next =>
      sendThen false (Requests.setBreakpoints file bps)
        (dapErr s!"setBreakpoints failed for {file}")
        (checkFlushed stderr file) (flushFiles stderr rest next)

/-- The flush of the pending function breakpoints, when there are
any. -/
def flushFunctions (stderr : String) (bps : List FunctionBp)
    (next : ClientProg (OpResult α)) : ClientProg (OpResult α) :=
  if bps.isEmpty then next
  else sendThen false (Requests.setFunctionBreakpoints bps)
    (dapErr "setFunctionBreakpoints failed")
    (checked stderr "setFunctionBreakpoints") next

/-- `setExceptionBreakpoints`, then the rest. -/
def exceptionBreakpointsThen (next : ClientProg (OpResult α)) :
    ClientProg (OpResult α) :=
  sendThen false Requests.setExceptionBreakpoints
    (dapErr "setExceptionBreakpoints failed") unchecked next

/-- `configurationDone`, then the rest. -/
def configurationDoneThen (armed : Bool)
    (next : ClientProg (OpResult α)) : ClientProg (OpResult α) :=
  sendThen armed Requests.configurationDone
    (dapErr "configurationDone failed") unchecked next

end

/-- The end of a launch: with `stop_on_entry` the stop waiter is
registered before `configurationDone`. -/
def launchTail (stderr : String) (stopOnEntry : Bool) (rx : ChanId) :
    ClientProg (OpResult LaunchOutcome) :=
  if stopOnEntry then do
    client .registerStop
    configurationDoneThen true
      (awaitResponseThen stderr "launch" true rx
        (awaitStop launchOutcome (.exited none)))
  else
    configurationDoneThen false
      (awaitResponseThen stderr "launch" false rx
        (return some (.ok .running)))

/-- `run_launch`. -/
def runLaunch (stderr : String) (spec : LaunchSpec) :
    ClientProg (OpResult LaunchOutcome) :=
  initializeThen stderr <|
  sendAsyncThen "launch"
    (Requests.launch (LldbLaunchArgs.new spec).toValue)
    fun rx =>
  flushFiles stderr spec.sourceBreakpoints <|
  flushFunctions stderr spec.functionBreakpoints <|
  exceptionBreakpointsThen <|
  launchTail stderr spec.stopOnEntry rx

/-- The end of an attach: the stop waiter is registered after the attach
response. -/
def attachTail : ClientProg (OpResult AttachOutcome) := do
  client .registerStop
  awaitStop attachOutcome .terminated

/-- `run_attach`. -/
def runAttach (stderr : String) (spec : AttachSpec) :
    ClientProg (OpResult AttachOutcome) :=
  initializeThen stderr <|
  sendAsyncThen "attach"
    (Requests.attach (LldbAttachArgs.new spec).toValue)
    fun rx =>
  exceptionBreakpointsThen <|
  configurationDoneThen false <|
  awaitResponseThen stderr "attach" false rx attachTail

/-- The text a send error carries. -/
def resumeError (e : BackendError) : BackendError := .send e.display

/-- `resume_and_wait`: register, send, await the next outcome. The
response is not looked at. -/
def resumeAndWait (request : DapRequest) :
    ClientProg (OpResult StopOutcome) := do
  client .registerStop
  sendThen true request resumeError unchecked
    (awaitStop id .terminated)

/-- `step_command`. -/
def stepCommand : StepKind → String
  | .over => "next"
  | .into => "stepIn"
  | .out => "stepOut"

/-- `granularity_str`. -/
def granularityStr : Granularity → String
  | .line => "line"
  | .instruction => "instruction"

/-- `cont`. -/
def lldbCont (threadId : Int) : ClientProg (OpResult StopOutcome) :=
  resumeAndWait (Requests.cont threadId)

/-- `step`; `step_out` never carries a granularity. -/
def lldbStep (kind : StepKind) (threadId : Int)
    (gran : Option Granularity) : ClientProg (OpResult StopOutcome) :=
  let gran := match kind with
    | .out => none
    | _ => gran.map granularityStr
  resumeAndWait (Requests.step (stepCommand kind) threadId gran)

end DebugMcp
