/-
The execution handlers: `continue`, `step_over`, `step_into`,
`step_out`, `pause`, and `read_output`.

The four resume tools are one handler, `resume`, with the tool's backend
call, error templates and timeout text as parameters, as in the source.
-/
import DebugMcp.Tools.Errors
import DebugMcp.Tools.Server

namespace DebugMcp

open Conc

-- ============================================================= output

/-- The concatenated text of the entries whose category satisfies
`p`. -/
def bucket (p : String → Bool) (entries : List OutputEntry) : String :=
  String.join ((entries.filter fun e => p e.category).map
    OutputEntry.text)

/-- `format_output_entries`: the entries grouped by category, every
category but `stdout` and `stderr` going to `console`. -/
def formatOutputEntries (entries : List OutputEntry) : JsonMap :=
  if entries.isEmpty then
    ((RespBuilder.new.set "output" (.str "")).set "count" (.int 0)).map
  else
    let stdout := bucket (· == "stdout") entries
    let stderr := bucket (· == "stderr") entries
    let console := bucket (fun c => c != "stdout" && c != "stderr") entries
    ((((RespBuilder.new.set "count" (.int entries.length)).setIf
      (!stdout.isEmpty) "stdout" (.str stdout)).setIf
      (!stderr.isEmpty) "stderr" (.str stderr)).setIf
      (!console.isEmpty) "console" (.str console)).map

/-- Merge the formatted output into a response. -/
def mergeOutput (builder : RespBuilder) (entries : List OutputEntry) :
    RespBuilder :=
  (formatOutputEntries entries).foldl (fun b kv => b.set kv.1 kv.2)
    builder

/-- The base `stopped` response. -/
def stoppedResponse (info : StopInfo) : RespBuilder :=
  ((((RespBuilder.new.set "status" (.str "stopped")).set
    "reason" (.str info.reason)).set
    "thread_id" (.int info.threadId)).set
    "description" (.str info.description)).setIf
    (!info.hitBreakpointIds.isEmpty) "hit_breakpoint_ids"
    (.arr (info.hitBreakpointIds.map Json.int))

-- ============================================================= resume

/-- Which resume a handler performs. -/
inductive Resume
  | continue
  | step (kind : StepKind)
  deriving DecidableEq

/-- The error returned for a resume of a crash-dump session. -/
def dumpNoContinue : String := "cannot continue a crash-dump session"

/-- The optional `granularity` argument. -/
def parseGranularity (args : Args) : Option Granularity :=
  let g := args.getString "granularity" ""
  if g = "line" then some .line
  else if g = "instruction" then some .instruction
  else none

/-- The thread to resume: the explicit argument, else the thread of the
last stop, else 1. -/
def resolveThreadId (args : Args) : ToolProg (Except String Int) := do
  match args.explicitPositiveThreadId with
  | .error e => return .error e
  | .ok (some tid) => return .ok tid
  | .ok none =>
      let last ← session .lastStopped
      return .ok ((last.map StopInfo.threadId).getD 1)

/-- The backend call of a resume, raced against cancellation. -/
def runBackend (b : BackendId) (resume : Resume) (threadId : Int)
    (granularity : Option Granularity) :
    ToolProg (Option (Except BackendError StopOutcome)) :=
  match resume with
  | .continue => server (.cont b threadId)
  | .step kind => server (.step b kind threadId granularity)

/-- Apply an outcome: the state write is guarded by the generation, the
last stop is cached when the write applied, the drain is
unconditional. -/
def handleStopResult (outcome : StopOutcome) (generation : UInt64) :
    ToolProg ToolOutcome := do
  match outcome with
  | .stopped info =>
      let applied ← session (.setStateIfGeneration generation .stopped)
      if applied then session (.setLastStopped info)
      let entries ← session .drainOutput
      return (mergeOutput (stoppedResponse info) entries).intoOutcome
  | .exited code =>
      let _ ← session (.terminateIfGeneration generation code)
      let entries ← session .drainOutput
      return (mergeOutput ((RespBuilder.new.set "status"
        (.str "exited")).setOpt "exit_code" (code.map Json.int))
        entries).intoOutcome
  | .terminated =>
      let _ ← session (.setStateIfGeneration generation .terminated)
      return ((RespBuilder.new.set "status" (.str "terminated")).set
        "message" (.str "Debug session ended")).intoOutcome

/-- The resume handler: guard stopped, reject a dump, resolve the
thread, snapshot the generation, set running, race the backend call. On
cancellation the state is left running; on an error it reverts to
stopped. -/
def resume (args : Args) (kind : Resume) (opErr : OpError)
    (timeoutMsg : String) : ToolProg ToolOutcome := do
  match ← session (.checkState [.stopped]) with
  | .error e => return .error e
  | .ok () =>
  if ← session .isDump then
    return .error dumpNoContinue
  else
  match ← resolveThreadId args with
  | .error e => return .error e
  | .ok threadId =>
  match ← server .currentBackend with
  | none => return .error opErr.requestFailed
  | some b =>
  let generation ← session .generation
  session (.setState .running)
  let granularity := match kind with
    | .continue => none
    | .step _ => parseGranularity args
  match ← runBackend b kind threadId granularity with
  | none => return .error timeoutMsg
  | some (.ok outcome) => handleStopResult outcome generation
  | some (.error e) =>
      session (.setState .stopped)
      return .error (opErr.render e)

/-- `continue`. -/
def handleContinue (args : Args) : ToolProg ToolOutcome :=
  resume args .continue OpError.continue
    "continue timed out; process still running, use 'pause' to stop it"

/-- `step_over`. -/
def handleStepOver (args : Args) : ToolProg ToolOutcome :=
  resume args (.step .over) OpError.stepOver
    "step over timed out; process still running, use 'pause' to stop it"

/-- `step_into`. -/
def handleStepInto (args : Args) : ToolProg ToolOutcome :=
  resume args (.step .into) OpError.stepInto
    "step into timed out; process still running, use 'pause' to stop it"

/-- `step_out`. -/
def handleStepOut (args : Args) : ToolProg ToolOutcome :=
  resume args (.step .out) OpError.stepOut
    "step out timed out; process still running, use 'pause' to stop it"

/-- `pause`: guard running, ask the backend, change no state. -/
def handlePause : ToolProg ToolOutcome := do
  match ← session (.checkState [.running]) with
  | .error e => return .error e
  | .ok () =>
  match ← server .currentBackend with
  | none => return .error OpError.pause.requestFailed
  | some b =>
  match ← server (.pause b) with
  | .error e => return .error (OpError.pause.render e)
  | .ok () =>
      return ((RespBuilder.new.set "status"
        (.str "pause_requested")).set "message"
        (.str ("Pause request sent. The running continue/step "
          ++ "operation will return when the process stops."))).intoOutcome

/-- `read_output`: guard non-idle, drain. -/
def handleReadOutput : ToolProg ToolOutcome := do
  match ← session
      (.checkState [.configuring, .stopped, .running, .terminated]) with
  | .error e => return .error e
  | .ok () =>
  let entries ← session .drainOutput
  return .json (.obj (formatOutputEntries entries))

end DebugMcp
