/-
The lifecycle handlers: `launch`, `attach`, `open_crash_dump`,
`attach_kernel` and `disconnect`.

Each is the source's handler, one operation per lock section and per
await, in the source's order. The four connect handlers share one
section word for word (select a factory, connect, install the backend,
spawn the pump); it is `connectSection`, with the two texts in which
they differ as parameters. Note the two teardown orders: a failed select
or connect resets and then clears the slot, `cleanup_after_cancel`
clears the slot and then resets.
-/
import DebugMcp.Tools.Errors
import DebugMcp.Tools.Server

namespace DebugMcp

open Conc

-- =============================================================== errors

/-- An empty `backend` argument counts as unset. -/
def backendSelect (backend : String) : Option String :=
  if backend.isEmpty then none else some backend

/-- The text of a failed connect, by the selected factory's name. -/
def connectError (backend : String) : BackendError → String
  | .detect m =>
      if backend = "lldb" then s!"failed to find lldb-dap: {m}"
      else if backend = "windbg" then
        s!"Debugging Tools for Windows not found: {m}"
      else s!"failed to find {backend}: {m}"
  | .spawn m =>
      if backend = "lldb" then s!"failed to spawn lldb-dap: {m}"
      else if backend = "windbg" then s!"failed to initialize DbgEng: {m}"
      else s!"failed to spawn {backend}: {m}"
  | other => other.display

/-- The text of a failed handshake; the backend already phrased a `dap`
error, and stamped a `protocol` one `"<op>:<label>"`. -/
def handshakeError : BackendError → String
  | .dap message => message
  | .protocol ty =>
      match splitOnceColon ty with
      | some (op, label) => s!"unexpected {op} response type: {label}"
      | none => s!"unexpected response type: {ty}"
  | .closed => "connection closed"
  | other => other.display

/-- The text of a verb whose backend is not registered. -/
def notAvailable (tool : String) : String :=
  s!"{tool} is not available: the windbg backend is not registered on "
    ++ "this platform"

/-- The text of a verb the backend does not implement. -/
def unsupported (tool backend : String) : String :=
  s!"{tool} is not supported by the {backend} backend"

-- ============================================================= teardown

/-- Cleanup after a cancelled or failed connect: drop the backend, then
reset. -/
def cleanupAfterCancel : ToolProg Unit := do
  clearBackend
  reset

/-- Take the backend out of the slot and drop it; the drop is awaited,
for at most five seconds. -/
def dropBackendBounded : ToolProg Unit := do
  let backend ← server .takeSlot
  server (.setName none)
  match backend with
  | some b => server (.dropBackend b)
  | none => pure ()

-- ============================================================== connect

/-- The connect section of the four connect handlers: resolve the
factory, connect, install the backend, spawn the event pump. A failure
resets the session and then clears the slot. -/
def connectSection (registry : Registry) (requested : Option String)
    (unknown : String → String) :
    ToolProg (Except ToolOutcome (String × BackendId)) := do
  match registry.select requested with
  | .error e =>
      reset
      clearBackend
      return .error (.error (unknown e))
  | .ok factory =>
      match ← server (.connect factory) with
      | .error e =>
          reset
          clearBackend
          return .error (.error (connectError factory e))
      | .ok b =>
          setBackend b factory
          let generation ← session .generation
          server (.spawnEventPump b generation)
          return .ok (factory, b)

/-- The response of a connect that stopped. -/
def stoppedConnect (status : String) (key : String) (label : Json)
    (pid : Option Int) (info : StopInfo) : ToolOutcome :=
  ((((((RespBuilder.new.set "status" (.str status)).set key label).setOpt
    "pid" (pid.map Json.int)).set "state" (.str "stopped")).set
    "stop_reason" (.str info.reason)).set
    "stopped_thread_id" (.int info.threadId)).intoOutcome

/-- Record a pid when there is one. -/
def recordPid (pid : Option Int) : ToolProg Unit :=
  match pid with
  | some pid => session (.setPid pid)
  | none => pure ()

/-- The end of `launch`, after a successful handshake: record program
and pid, then map the outcome. -/
def launchSettled (program : String) (b : BackendId)
    (outcome : LaunchOutcome) : ToolProg ToolOutcome := do
  session (.setProgram program)
  recordPid (← server (.debuggerPid b))
  let pid ← session .pid
  match outcome with
  | .stopped info =>
      session (.setState .stopped)
      session (.setLastStopped info)
      return stoppedConnect "launched" "program" (.str program) (some pid)
        info
  | .running =>
      session (.setState .running)
      return ((((RespBuilder.new.set "status" (.str "launched")).set
        "program" (.str program)).set "pid" (.int pid)).set
        "state" (.str "running")).intoOutcome
  | .exited _ =>
      session (.setState .terminated)
      return .text "Program exited during launch"

/-- `launch`, after the arguments are read: `spec` lacks only the
pending breakpoints, which are flushed here. -/
def launchConfigured (registry : Registry) (backend : String)
    (spec : LaunchSpec) : ToolProg ToolOutcome := do
  session (.setState .configuring)
  let (sourceMap, functionBps) ← session .flushPendingBreakpoints
  let spec := { spec with
    sourceBreakpoints := sourceMap, functionBreakpoints := functionBps }
  match ← connectSection registry (backendSelect backend) id with
  | .error outcome => return outcome
  | .ok (_, b) =>
  match ← server (.launch b spec) with
  | none =>
      cleanupAfterCancel
      return .error (if spec.stopOnEntry then
        "timed out waiting for stop on entry: context canceled"
        else "launch timed out: context canceled")
  | some (.error e) =>
      cleanupAfterCancel
      return .error (handshakeError e)
  | some (.ok outcome) => launchSettled spec.program b outcome

/-- `launch`: guard idle, read the arguments, run the rest. -/
def handleLaunch (registry : Registry) (text : JsonText) (args : Args) :
    ToolProg ToolOutcome := do
  match ← session (.checkState [.idle]) with
  | .error e => return .error e
  | .ok () =>
  match args.requireString "program" with
  | .error e => return .error e
  | .ok program =>
  match args.parseJsonArray text "args" with
  | .error e => return .error e
  | .ok programArgs =>
  let cwd := args.getString "cwd" ""
  match args.parseJsonObject text "env" with
  | .error e => return .error e
  | .ok env =>
  let stopOnEntry := args.getBool "stop_on_entry" true
  let backend := args.getString "backend" ""
  launchConfigured registry backend
    { program, args := programArgs
      cwd := if cwd.isEmpty then none else some cwd
      env, stopOnEntry
      sourceBreakpoints := [], functionBreakpoints := [] }

/-- Does `launch` refuse the arguments? -/
def refusesLaunch (text : JsonText) (args : Args) : Bool :=
  match args.requireString "program", args.parseJsonArray text "args",
    args.parseJsonObject text "env" with
  | .ok _, .ok _, .ok _ => false
  | _, _, _ => true

/-- The target of an attach: `pid` wins over `wait_for`, one of them is
required. Also the program label and the explicit pid. -/
def attachTarget (args : Args) :
    Except String (AttachSpec × String × Option Int) :=
  match (args.getRaw "pid").filter (fun v => !v.isNull) with
  | some v =>
      match v.asF64 with
      | none => .error "'pid' must be a number"
      | some f =>
          let pid := f64ToI64 f
          if pid ≤ 0 then .error "'pid' must be a positive integer"
          else .ok (⟨some pid, none⟩, s!"pid:{pid}", some pid)
  | none =>
      match (args.getRaw "wait_for").filter (fun v => !v.isNull) with
      | some raw =>
          let name := (raw.asStr).getD ""
          if name.isEmpty then
            .error "'wait_for' must be a non-empty string"
          else .ok (⟨none, some name⟩, name, none)
      | none => .error "either 'pid' or 'wait_for' must be provided"

/-- The end of `attach`: the supplied pid wins over the debugger's. -/
def attachSettled (programLabel : String) (explicitPid : Option Int)
    (b : BackendId) (outcome : AttachOutcome) :
    ToolProg ToolOutcome := do
  session (.setProgram programLabel)
  match explicitPid with
  | some pid => session (.setPid pid)
  | none => recordPid (← server (.debuggerPid b))
  let pid ← session .pid
  match outcome with
  | .stopped info =>
      session (.setState .stopped)
      session (.setLastStopped info)
      return stoppedConnect "attached" "program" (.str programLabel)
        (some pid) info
  | .exited _ | .terminated =>
      session (.setState .terminated)
      return .text "Process exited during attach"

/-- `attach`, after the arguments are read. -/
def attachConfigured (registry : Registry) (backend : String)
    (spec : AttachSpec) (programLabel : String)
    (explicitPid : Option Int) : ToolProg ToolOutcome := do
  session (.setState .configuring)
  match ← connectSection registry (backendSelect backend) id with
  | .error outcome => return outcome
  | .ok (_, b) =>
  match ← server (.attach b spec) with
  | none =>
      cleanupAfterCancel
      return .error
        "timed out waiting for stop on entry: context canceled"
  | some (.error e) =>
      cleanupAfterCancel
      return .error (handshakeError e)
  | some (.ok outcome) =>
      attachSettled programLabel explicitPid b outcome

/-- `attach`: guard idle, read the target, run the rest. -/
def handleAttach (registry : Registry) (args : Args) :
    ToolProg ToolOutcome := do
  match ← session (.checkState [.idle]) with
  | .error e => return .error e
  | .ok () =>
  match attachTarget args with
  | .error e => return .error e
  | .ok (spec, programLabel, explicitPid) =>
  attachConfigured registry (args.getString "backend" "") spec
    programLabel explicitPid

/-- The backend the two crash and kernel verbs force. -/
def windbg : String := "windbg"

/-- The end of `open_crash_dump`: a dump is stopped and cannot be
resumed; it may have no stop of its own. -/
def dumpSettled (dumpPath : String) (outcome : DumpOutcome) :
    ToolProg ToolOutcome := do
  session (.setState .stopped)
  session (.setDump true)
  let builder := (RespBuilder.new.set "status" (.str "dump_loaded")).set
    "program" (.str dumpPath)
  let location := outcome.crashLocation.map Json.str
  match outcome.stop with
  | some info =>
      session (.setLastStopped info)
      return (((builder.set "stop_reason" (.str info.reason)).set
        "stopped_thread_id" (.int info.threadId)).setOpt
        "crash_location" location).intoOutcome
  | none => return (builder.setOpt "crash_location" location).intoOutcome

/-- `open_crash_dump`, after the arguments are read. -/
def openCrashDumpConfigured (registry : Registry) (dumpPath : String) :
    ToolProg ToolOutcome := do
  session (.setState .configuring)
  match ← connectSection registry (some windbg)
      (fun _ => notAvailable "open_crash_dump") with
  | .error outcome => return outcome
  | .ok (factory, b) =>
  match ← server (.openDump b dumpPath) with
  | none =>
      cleanupAfterCancel
      return .error "open_crash_dump timed out: context canceled"
  | some (.error (.unsupported tool)) =>
      cleanupAfterCancel
      return .error (unsupported tool factory)
  | some (.error e) =>
      cleanupAfterCancel
      return .error s!"open_crash_dump request failed: {e.display}"
  | some (.ok outcome) => dumpSettled dumpPath outcome

/-- `open_crash_dump`: guard idle, require the path, run the rest. -/
def handleOpenCrashDump (registry : Registry) (args : Args) :
    ToolProg ToolOutcome := do
  match ← session (.checkState [.idle]) with
  | .error e => return .error e
  | .ok () =>
  match args.requireString "dump_path" with
  | .error e => return .error e
  | .ok dumpPath => openCrashDumpConfigured registry dumpPath

/-- The end of `attach_kernel`. -/
def kernelSettled (connectionStr : String) (outcome : AttachOutcome) :
    ToolProg ToolOutcome := do
  match outcome with
  | .stopped info =>
      session (.setState .stopped)
      session (.setLastStopped info)
      return stoppedConnect "kernel_attached" "connection"
        (.str connectionStr) none info
  | .exited _ | .terminated =>
      session (.setState .terminated)
      return .text "Kernel session ended during attach"

/-- `attach_kernel`, after the arguments are read. -/
def attachKernelConfigured (registry : Registry)
    (connectionStr : String) : ToolProg ToolOutcome := do
  session (.setState .configuring)
  match ← connectSection registry (some windbg)
      (fun _ => notAvailable "attach_kernel") with
  | .error outcome => return outcome
  | .ok (factory, b) =>
  match ← server (.attachKernel b connectionStr) with
  | none =>
      cleanupAfterCancel
      return .error "attach_kernel timed out: context canceled"
  | some (.error (.unsupported tool)) =>
      cleanupAfterCancel
      return .error (unsupported tool factory)
  | some (.error e) =>
      cleanupAfterCancel
      return .error s!"attach_kernel request failed: {e.display}"
  | some (.ok outcome) => kernelSettled connectionStr outcome

/-- `attach_kernel`: guard idle, require a KDNET connection string, run
the rest. -/
def handleAttachKernel (registry : Registry) (args : Args) :
    ToolProg ToolOutcome := do
  match ← session (.checkState [.idle]) with
  | .error e => return .error e
  | .ok () =>
  match args.requireString "connection" with
  | .error e => return .error e
  | .ok connectionStr =>
  if connectionStr.startsWith "net:" then
    attachKernelConfigured registry connectionStr
  else
    return .error ("'connection' must be a KDNET connection string "
      ++ "starting with 'net:'")

-- =========================================================== disconnect

/-- `disconnect`: guard non-idle, best-effort disconnect of the backend
(bounded, errors ignored), drop the backend, reset. -/
def handleDisconnect (args : Args) : ToolProg ToolOutcome := do
  match ← session
      (.checkState [.configuring, .stopped, .running, .terminated]) with
  | .error e => return .error e
  | .ok () =>
  let terminate := args.getBool "terminate" true
  match ← server .currentBackend with
  | some b => server (.disconnect b terminate)
  | none => pure ()
  dropBackendBounded
  reset
  return (RespBuilder.new.set "status" (.str "disconnected")).intoOutcome

end DebugMcp
