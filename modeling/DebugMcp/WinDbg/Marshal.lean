/-
The WinDbg backend over the engine thread, with everything that crosses
the channel.

`EngineCmd` is the whole of the source's, with the data each command
carries and replies. A command that looks at the target does what
`WinDbg/Inspect.lean` says; of one that runs the target, changes it or
replaces it the outcome and the engine it leaves are the environment's to
say. (The insides of `go`, `step` and `break_in`, and the interrupt flag,
which only they read, are in `WinDbg/EngineThread.lean`.)

The backend's own state is its breakpoint table and the target's pid,
each behind a mutex that is held for one operation.
-/
import DebugMcp.Lib.RpcCalls
import DebugMcp.WinDbg.Inspect

namespace DebugMcp.Marshal

open Conc

-- ============================================================ commands

/-- One marshaled engine operation. -/
inductive EngineCmd
  | launch (req : LaunchReq)
  | attachPid (pid : UInt32)
  | detach (terminate : Bool)
  | go (timeoutMs : UInt32)
  | step (kind : StepKind)
  | breakIn
  | setBreakpoint (loc : BpLoc) (condition : String)
  | removeBreakpoint (id : Int)
  | listBreakpoints
  | threads
  | stackTrace (threadId max : Int)
  | locals (frameIndex : Int)
  | evaluate (expr : String)
  | readMemory (address : UInt64) (size : Nat)
  | disassemble (address : UInt64) (count : Int)
  | execute (command : String)
  | modules
  | currentSourceLocation
  | openDump (path : String)
  | attachKernel (connection : String)
  | analyze
  deriving DecidableEq

namespace EngineCmd

/-- What a command's reply carries. -/
def Value : EngineCmd → Type
  | launch _ | attachPid _ | step _ | breakIn | attachKernel _ =>
      StopOutcome
  | detach _ | removeBreakpoint _ => Unit
  | go _ => Option StopOutcome
  | setBreakpoint _ _ => BreakpointResult
  | listBreakpoints => List BreakpointResult
  | threads => List ThreadInfo
  | stackTrace _ _ => List Frame
  | locals _ => List Variable
  | evaluate _ => EvalResult
  | readMemory _ _ => MemoryRead
  | disassemble _ _ => List Instruction
  | execute _ | analyze => String
  | modules => List ModuleInfo
  | currentSourceLocation => Option (String × Int)
  | openDump _ => DumpOutcome

/-- A command's reply. -/
abbrev Reply (cmd : EngineCmd) : Type := Except EngineError cmd.Value

/-- Does the command look at the target, and at nothing that looking may
change? The symbols a module list reports are loaded by other looks. -/
def looks : EngineCmd → Bool
  | threads | stackTrace _ _ | locals _ | readMemory _ _
  | disassemble _ _ | currentSourceLocation => true
  | _ => false

end EngineCmd

-- ============================================================= dispatch

/-- What a command meets outside the engine. -/
inductive Meets (τ : Type)
  | looks
  | lists (modules : Except String (List ModuleAnswer))
  | does (cmd : EngineCmd) (reply : cmd.Reply) (after : DbgEngine τ)

section

variable {τ : Type} (api : DbgApi τ)

/-- `dispatch`: the command's reply, and the engine it leaves; `none`
where what it meets is another command's, or the command panics. -/
def dispatch (cmd : EngineCmd) (a : Meets τ) (e : DbgEngine τ) :
    Option (cmd.Reply × DbgEngine τ) :=
  match cmd, a with
  | .threads, .looks => some (e.threads api, e)
  | .stackTrace threadId max, .looks => some (e.stackTrace api threadId max)
  | .locals frameIndex, .looks => some (e.locals api frameIndex)
  | .readMemory address size, .looks =>
      some (e.readMemory api address size, e)
  | .disassemble address count, .looks =>
      (e.disassemble api address count).map fun is => (.ok is, e)
  | .currentSourceLocation, .looks =>
      some (e.currentSourceLocation api, e)
  | .modules, .lists answers => some (DebugMcp.modules answers, e)
  | cmd, .does cmd' reply after =>
      if cmd.looks then none
      else if h : cmd' = cmd then some (h ▸ reply, after) else none
  | _, _ => none

/-- The engine behind its thread. -/
def engineService : Service EngineCmd (Meets τ) (DbgEngine τ) where
  Value := EngineCmd.Reply
  exec := dispatch api

end

-- ========================================================== the backend

/-- The backend's own state. -/
structure BackendLocal where
  breakpoints : BreakpointTable
  targetPid : Option Int

/-- The backend's operations on it, and `resolve_wait_for`'s polling of
the process list. -/
inductive LocalOp : Type → Type
  | forFile (file : String) : LocalOp (BpMap UInt32)
  | functions : LocalOp (BpMap String)
  | commitFile (file : String) (newMap : BpMap UInt32) : LocalOp Unit
  | commitFunctions (newMap : BpMap String) : LocalOp Unit
  | trackLine (file : String) (line : UInt32)
      (result : BreakpointResult) : LocalOp Unit
  | trackName (name : String) (result : BreakpointResult) : LocalOp Unit
  | setTargetPid (pid : Option Int) : LocalOp Unit
  | targetPid : LocalOp (Option Int)
  | waitFor (name : String) :
      LocalOp (Option (Except BackendError UInt32))

/-- The environment's part in them. -/
inductive LocalAnswer
  | sync
  | waited (r : Option (Except BackendError UInt32))

namespace BackendLocal

/-- The table with a file's map, or without the file. -/
def commitFile (file : String) (newMap : BpMap UInt32)
    (s : BackendLocal) : BackendLocal :=
  { s with breakpoints := { s.breakpoints with
      source := if newMap.keys.isEmpty then s.breakpoints.source.erase file
        else s.breakpoints.source.insert file newMap } }

/-- One operation. -/
def run {β : Type} (op : LocalOp β) (a : LocalAnswer)
    (s : BackendLocal) : Option (β × BackendLocal) :=
  match op, a with
  | .forFile file, .sync => some (s.breakpoints.forFile file, s)
  | .functions, .sync => some (s.breakpoints.function, s)
  | .commitFile file newMap, .sync => some ((), s.commitFile file newMap)
  | .commitFunctions newMap, .sync => some ((), { s with
      breakpoints := { s.breakpoints with function := newMap } })
  | .trackLine file line result, .sync => some ((), { s with
      breakpoints := { s.breakpoints with
        source := s.breakpoints.source.insert file
          ((s.breakpoints.forFile file).insert line result) } })
  | .trackName name result, .sync => some ((), { s with
      breakpoints := { s.breakpoints with
        function := s.breakpoints.function.insert name result } })
  | .setTargetPid pid, .sync => some ((), { s with targetPid := pid })
  | .targetPid, .sync => some (s.targetPid, s)
  | .waitFor _, .waited r => some (r, s)
  | _, _ => none

end BackendLocal

/-- It as a machine, which does nothing on its own. -/
def localMachine : Machine LocalOp LocalAnswer Empty BackendLocal where
  run _ op a s := s.run op a
  env e _ := nomatch e

/-- The operations of a backend call. -/
abbrev BackendOp := OpSum (RpcOp EngineCmd.Reply) LocalOp

/-- A backend call, or a part of one. -/
abbrev BackendProg := Prog BackendOp

/-- `CMD_BUFFER`, the bound of the command channel. -/
def cmdBuffer : Nat := 8

/-- A service of the commands beside the backend's own state. -/
abbrev backendMachine {ι σ : Type} (exec : (cmd : EngineCmd) → ι → σ →
    Option (cmd.Reply × σ)) :=
  (rpcMachine (⟨EngineCmd.Reply, exec⟩ : Service EngineCmd ι σ)
    cmdBuffer).beside localMachine

/-- An operation on the backend's own state, as a program. -/
def own {β : Type} (op : LocalOp β) : BackendProg β :=
  Prog.perform (.inr op)

/-- `call`: the command is sent, and its reply awaited. -/
def call (cmd : EngineCmd) :
    BackendProg (Option (Except BackendError cmd.Value)) := do
  match ← Prog.perform (.inl (.send cmd)) with
  | none => return none
  | some (.error ()) => return some (.error .closed)
  | some (.ok ticket) =>
  match ← Prog.perform (.inl (.recv cmd ticket)) with
  | none => return none
  | some (.error ()) => return some (.error .closed)
  | some (.ok (.error err)) => return some (.error (mapEngineErr err))
  | some (.ok (.ok v)) => return some (.ok v)

/-- What a caller is told of a command's reply. -/
def told {cmd : EngineCmd} :
    Except Unit cmd.Reply → Except BackendError cmd.Value
  | .error () => .error .closed
  | .ok (.error err) => .error (mapEngineErr err)
  | .ok (.ok v) => .ok v

theorem call_eq (cmd : EngineCmd) :
    call cmd = ask cmd >>= fun r => Prog.ret (r.map told) := by
  unfold call ask
  rw [Prog.bind_assoc]
  congr 1
  funext b
  match b with
  | none => rfl
  | some (.error ()) => rfl
  | some (.ok t) =>
      show Prog.perform _ >>= _ = Prog.perform _ >>= _
      congr 1
      funext r
      match r with
      | none => rfl
      | some (.error ()) => rfl
      | some (.ok (.error err)) => rfl
      | some (.ok (.ok v)) => rfl

-- ========================================================= breakpoints

/-- `remove_engine_breakpoint`. -/
def removeEngineBreakpoint (id : Int) :
    BackendProg (Option (Except BackendError Unit)) :=
  if id ≤ 0 then return some (.ok ())
  else do
    match ← call (.removeBreakpoint id) with
    | none => return none
    | some (.ok ()) => return some (.ok ())
    | some (.error .closed) => return some (.error .closed)
    | some (.error _) => return some (.ok ())

section

variable {κ : Type} [DecidableEq κ]

/-- The setters' loop over the requests. -/
def placeAll (locOf : κ → BpLoc) (prior : BpMap κ) :
    List (Want κ) → BpMap κ → BackendProg
      (Option (Except BackendError (List BreakpointResult × BpMap κ)))
  | [], newMap => return some (.ok ([], newMap))
  | .refuse result :: wants, newMap => do
      match ← placeAll locOf prior wants newMap with
      | none => return none
      | some (.error err) => return some (.error err)
      | some (.ok (results, newMap)) =>
          return some (.ok (result :: results, newMap))
  | .place key condition unverifiedLine :: wants, newMap =>
      match prior.lookup key with
      | some existing => do
          match ← placeAll locOf prior wants
            (newMap.insert key existing) with
          | none => return none
          | some (.error err) => return some (.error err)
          | some (.ok (results, newMap)) =>
              return some (.ok (existing :: results, newMap))
      | none => do
          match ← call (.setBreakpoint (locOf key) condition) with
          | none => return none
          | some outcome =>
          match bpResultOrContinue outcome unverifiedLine with
          | .error err => return some (.error err)
          | .ok result =>
          let newMap := if result.verified then newMap.insert key result
            else newMap
          match ← placeAll locOf prior wants newMap with
          | none => return none
          | some (.error err) => return some (.error err)
          | some (.ok (results, newMap)) =>
              return some (.ok (result :: results, newMap))

/-- The setters' removal pass. -/
def removeStale (desired : List κ) :
    List (Sigma fun _ : κ => BreakpointResult) →
      BackendProg (Option (Except BackendError Unit))
  | [] => return some (.ok ())
  | ⟨key, old⟩ :: rest =>
      if key ∈ desired then removeStale desired rest
      else do
        match ← removeEngineBreakpoint old.id with
        | none => return none
        | some (.error err) => return some (.error err)
        | some (.ok ()) => removeStale desired rest

end

/-- `set_source_breakpoints`: the new map is committed whatever the
removal pass says. -/
def setSourceBreakpoints (file : String) (bps : List SourceBp) :
    BackendProg (Option (Except BackendError (List BreakpointResult))) := do
  let prior ← own (.forFile file)
  let wants := bps.map (sourceWant file)
  match ← placeAll (.fileLine file) prior wants ∅ with
  | none => return none
  | some (.error err) => return some (.error err)
  | some (.ok (results, newMap)) =>
  match ← removeStale (wants.filterMap Want.key?) prior.entries with
  | none => return none
  | some removed =>
  own (.commitFile file newMap)
  match removed with
  | .error err => return some (.error err)
  | .ok () => return some (.ok results)

/-- `set_function_breakpoints`. -/
def setFunctionBreakpoints (bps : List FunctionBp) :
    BackendProg (Option (Except BackendError (List BreakpointResult))) := do
  let prior ← own .functions
  let wants := bps.map functionWant
  match ← placeAll .function prior wants ∅ with
  | none => return none
  | some (.error err) => return some (.error err)
  | some (.ok (results, newMap)) =>
  match ← removeStale (wants.filterMap Want.key?) prior.entries with
  | none => return none
  | some removed =>
  own (.commitFunctions newMap)
  match removed with
  | .error err => return some (.error err)
  | .ok () => return some (.ok results)

-- =========================================================== lifecycle

/-- The launch flush of one file's breakpoints. -/
def flushSource (file : String) : List SourceBp → BackendProg (Option Unit)
  | [] => return some ()
  | bp :: bps =>
      match tryLine bp.line with
      | none => flushSource file bps
      | some line => do
          match ← call (.setBreakpoint (.fileLine file line) bp.condition)
            with
          | none => return none
          | some (.error _) => flushSource file bps
          | some (.ok result) =>
              if result.verified then
                own (.trackLine file line result)
                flushSource file bps
              else flushSource file bps

/-- The launch flush of every file's. -/
def flushFiles : List (String × List SourceBp) → BackendProg (Option Unit)
  | [] => return some ()
  | (file, bps) :: files => do
      match ← flushSource file bps with
      | none => return none
      | some () => flushFiles files

/-- The launch flush of the function breakpoints. -/
def flushFunction : List FunctionBp → BackendProg (Option Unit)
  | [] => return some ()
  | bp :: bps =>
      if isBareAddressName bp.name then flushFunction bps
      else do
        match ← call (.setBreakpoint (.function bp.name) bp.condition) with
        | none => return none
        | some (.error _) => flushFunction bps
        | some (.ok result) =>
            if result.verified then
              own (.trackName bp.name result)
              flushFunction bps
            else flushFunction bps

/-- `launch`. -/
def launch (spec : LaunchSpec) :
    BackendProg (Option (Except BackendError LaunchOutcome)) := do
  match ← call (.launch { program := spec.program, args := spec.args,
                          cwd := spec.cwd }) with
  | none => return none
  | some (.error err) => return some (.error err)
  | some (.ok (.stopped info)) =>
      match ← flushFiles spec.sourceBreakpoints with
      | none => return none
      | some () =>
      match ← flushFunction spec.functionBreakpoints with
      | none => return none
      | some () => return some (.ok (stopToLaunch (.stopped info)))
  | some (.ok outcome) => return some (.ok (stopToLaunch outcome))

/-- `stop_to_attach`. -/
def stopToAttach : StopOutcome → AttachOutcome
  | .stopped info => .stopped info
  | .exited code => .exited code
  | .terminated => .terminated

/-- A call whose outcome is the first stop of an attach. -/
def callAttach (cmd : EngineCmd) (h : cmd.Value = StopOutcome) :
    BackendProg (Option (Except BackendError AttachOutcome)) := do
  match ← call cmd with
  | none => return none
  | some (.error err) => return some (.error err)
  | some (.ok outcome) => return some (.ok (stopToAttach (h ▸ outcome)))

/-- `attach`, once the pid is known. -/
def attachPid (pid : UInt32) :
    BackendProg (Option (Except BackendError AttachOutcome)) := do
  own (.setTargetPid (some pid.toNat))
  callAttach (.attachPid pid) rfl

/-- `attach`. -/
def attach (spec : AttachSpec) :
    BackendProg (Option (Except BackendError AttachOutcome)) :=
  match spec.pid, spec.waitFor with
  | some pid, _ =>
      match tryLine pid with
      | some pid => attachPid pid
      | none => return some (.error (.dap
          s!"attach: pid {pid} is out of range"))
  | none, some name => do
      match ← own (.waitFor name) with
      | none => return none
      | some (.error err) => return some (.error err)
      | some (.ok pid) => attachPid pid
  | none, none => return some (.error (.dap
      "attach: neither pid nor wait_for was supplied"))

/-- `disconnect`; the flag apart. -/
def disconnect (terminate : Bool) : BackendProg (Option Unit) := do
  match ← call (.detach terminate) with
  | none => return none
  | some _ => return some ()

/-- `open_dump`. -/
def openDump (path : String) :
    BackendProg (Option (Except BackendError DumpOutcome)) :=
  call (.openDump path)

/-- `attach_kernel`. -/
def attachKernel (connection : String) :
    BackendProg (Option (Except BackendError AttachOutcome)) :=
  callAttach (.attachKernel connection) rfl

-- =========================================================== execution

/-- `cont`: the budget is `u32::MAX` milliseconds. -/
def cont : BackendProg (Option (Except BackendError StopOutcome)) := do
  match ← call (.go 0xFFFFFFFF) with
  | none => return none
  | some (.error err) => return some (.error err)
  | some (.ok (some stop)) => return some (.ok stop)
  | some (.ok none) => call .breakIn

/-- `step`. -/
def step (kind : StepKind) :
    BackendProg (Option (Except BackendError StopOutcome)) :=
  call (.step kind)

-- ========================================================== inspection

/-- `i64::saturating_add`, of numbers that are not negative. -/
def saturatingAdd (a b : Int) : Int := min (a + b) (2 ^ 63 - 1)

/-- `threads`. -/
def threads : BackendProg (Option (Except BackendError (List ThreadInfo))) :=
  call .threads

/-- The frames asked of the engine for a window. -/
def fetchMax (start levels : Int) : Int :=
  if levels > 0 then saturatingAdd (max start 0) levels else 1024

/-- The window's frames, with how many were fetched. -/
def window (start : Int) (frames : List Frame) : List Frame × Int :=
  (frames.drop (max start 0).toNat, frames.length)

/-- `stack_trace`. -/
def stackTrace (threadId start levels : Int) :
    BackendProg (Option (Except BackendError (List Frame × Int))) := do
  match ← call (.stackTrace threadId (fetchMax start levels)) with
  | none => return none
  | some (.error err) => return some (.error err)
  | some (.ok frames) => return some (.ok (window start frames))

/-- `scopes`: the reference encodes the frame. -/
def scopes (frameId : Int) : List Scope :=
  [⟨"Locals", saturatingAdd frameId 1⟩]

/-- `MAX_FRAME_REFERENCE`. -/
def maxFrameReference : Int := 2 ^ 20

/-- The frame a reference encodes. -/
def referencedFrame (variablesReference : Int) : Option Int :=
  if variablesReference ≤ 0 ∨ variablesReference > maxFrameReference then
    none
  else some (variablesReference - 1)

/-- `variables`. -/
def «variables» (variablesReference : Int) :
    BackendProg (Option (Except BackendError (List Variable))) :=
  match referencedFrame variablesReference with
  | none => return some (.ok [])
  | some frameIndex => call (.locals frameIndex)

/-- `evaluate`; the frame is ignored. -/
def evaluate (expr : String) (mode : EvalMode) :
    BackendProg (Option (Except BackendError EvalResult)) :=
  match mode with
  | .expression => call (.evaluate expr)
  | .repl => do
      match ← call (.execute expr) with
      | none => return none
      | some (.error err) => return some (.error err)
      | some (.ok output) => return some (.ok ⟨output, "", 0⟩)

/-- `read_memory`. -/
def readMemory (address : String) (count : Int) :
    BackendProg (Option (Except BackendError MemoryRead)) :=
  match parseAddress address.toList with
  | .error err => return some (.error err)
  | .ok parsed => call (.readMemory parsed (max count 0).toNat)

/-- `disassemble`. -/
def disassemble (address : String) (count : Int) :
    BackendProg (Option (Except BackendError (List Instruction))) :=
  match parseAddress address.toList with
  | .error err => return some (.error err)
  | .ok parsed => call (.disassemble parsed count)

/-- `modules`. -/
def loadedModules :
    BackendProg (Option (Except BackendError (List ModuleInfo))) :=
  call .modules

/-- `analyze`. -/
def analyze : BackendProg (Option (Except BackendError String)) :=
  call .analyze

-- =============================================================== calls

/-- A call of the backend. -/
inductive BackendCall
  | launch (spec : LaunchSpec)
  | attach (spec : AttachSpec)
  | disconnect (terminate : Bool)
  | setSourceBreakpoints (file : String) (bps : List SourceBp)
  | setFunctionBreakpoints (bps : List FunctionBp)
  | cont
  | step (kind : StepKind)
  | threads
  | stackTrace (threadId start levels : Int)
  | «variables» (variablesReference : Int)
  | evaluate (expr : String) (mode : EvalMode)
  | readMemory (address : String) (count : Int)
  | disassemble (address : String) (count : Int)
  | modules
  | openDump (path : String)
  | attachKernel (connection : String)
  | analyze

namespace BackendCall

/-- What it returns. -/
def Outcome : BackendCall → Type
  | launch _ => Except BackendError LaunchOutcome
  | attach _ | attachKernel _ => Except BackendError AttachOutcome
  | disconnect _ => Unit
  | setSourceBreakpoints _ _ | setFunctionBreakpoints _ =>
      Except BackendError (List BreakpointResult)
  | cont | step _ => Except BackendError StopOutcome
  | threads => Except BackendError (List ThreadInfo)
  | stackTrace _ _ _ => Except BackendError (List Frame × Int)
  | «variables» _ => Except BackendError (List Variable)
  | evaluate _ _ => Except BackendError EvalResult
  | readMemory _ _ => Except BackendError MemoryRead
  | disassemble _ _ => Except BackendError (List Instruction)
  | modules => Except BackendError (List ModuleInfo)
  | openDump _ => Except BackendError DumpOutcome
  | analyze => Except BackendError String

/-- What it runs; nothing is returned where its caller was dropped. -/
def text : (call : BackendCall) → BackendProg (Option call.Outcome)
  | launch spec => Marshal.launch spec
  | attach spec => Marshal.attach spec
  | disconnect terminate => Marshal.disconnect terminate
  | setSourceBreakpoints file bps => Marshal.setSourceBreakpoints file bps
  | setFunctionBreakpoints bps => Marshal.setFunctionBreakpoints bps
  | cont => Marshal.cont
  | step kind => Marshal.step kind
  | threads => Marshal.threads
  | stackTrace threadId start levels =>
      Marshal.stackTrace threadId start levels
  | «variables» reference => Marshal.variables reference
  | evaluate expr mode => Marshal.evaluate expr mode
  | readMemory address count => Marshal.readMemory address count
  | disassemble address count => Marshal.disassemble address count
  | modules => loadedModules
  | openDump path => Marshal.openDump path
  | attachKernel connection => Marshal.attachKernel connection
  | analyze => Marshal.analyze

end BackendCall

/-- A call, with what it returned. -/
abbrev Returned := Σ call : BackendCall, call.Outcome

/-- A call that says which it is. -/
def BackendCall.prog (call : BackendCall) : BackendProg (Option Returned) :=
  do return (← call.text).map (⟨call, ·⟩)

-- ================================================================ texts

/-- Was the caller not dropped at the operation? -/
def LocalOp.kept ⦃β : Type⦄ : LocalOp β → β → Bool
  | .waitFor _, r => r.isSome
  | _, _ => true

/-- The call uses the engine thread through its commands alone, and
returns nothing where its caller is dropped. -/
abbrev GoesByText {α : Type} (p : BackendProg (Option α)) : Prop :=
  Asks LocalOp.kept p

theorem call_asks (cmd : EngineCmd) : GoesByText (call cmd) := by
  rw [call_eq]
  exact (Asks.one cmd).bind (fun r => .ret _) rfl

/-- A command whose result a call goes on with. -/
theorem call_andThen {α : Type} {cmd : EngineCmd}
    {f : Option (Except BackendError cmd.Value) → BackendProg (Option α)}
    (hf : ∀ r, GoesByText (f (some r))) (hdrop : f none = .ret none) :
    GoesByText (call cmd >>= f) :=
  (call_asks cmd).bind hf hdrop

theorem removeEngineBreakpoint_asks (id : Int) :
    GoesByText (removeEngineBreakpoint id) := by
  unfold removeEngineBreakpoint
  split
  · exact .ret _
  · refine call_andThen (fun r => ?_) rfl
    cases r with
    | ok u => exact .ret _
    | error err => cases err <;> exact .ret _

section

variable {κ : Type} [DecidableEq κ]

theorem placeAll_asks (locOf : κ → BpLoc) (prior : BpMap κ)
    (wants : List (Want κ)) (newMap : BpMap κ) :
    GoesByText (placeAll locOf prior wants newMap) := by
  induction wants generalizing newMap with
  | nil => exact .ret _
  | cons want wants ih =>
      cases want with
      | refuse result =>
          refine (ih newMap).bind (fun r => ?_) rfl
          cases r <;> exact .ret _
      | place key condition unverifiedLine =>
          unfold placeAll
          split
          · refine (ih _).bind (fun r => ?_) rfl
            cases r <;> exact .ret _
          · refine call_andThen (fun r => ?_) rfl
            dsimp only
            split
            · exact .ret _
            · refine (ih _).bind (fun r => ?_) rfl
              cases r <;> exact .ret _

theorem removeStale_asks (desired : List κ)
    (prior : List (Sigma fun _ : κ => BreakpointResult)) :
    GoesByText (removeStale desired prior) := by
  induction prior with
  | nil => exact .ret _
  | cons entry rest ih =>
      obtain ⟨key, old⟩ := entry
      unfold removeStale
      split
      · exact ih
      · refine (removeEngineBreakpoint_asks old.id).bind (fun r => ?_) rfl
        cases r with
        | ok u => exact ih
        | error err => exact .ret _

end

theorem setSourceBreakpoints_asks (file : String) (bps : List SourceBp) :
    GoesByText (setSourceBreakpoints file bps) := by
  refine .perform (fun _ => rfl) fun prior => ?_
  refine (placeAll_asks ..).bind (fun r => ?_) rfl
  cases r with
  | error err => exact .ret _
  | ok r =>
      refine (removeStale_asks ..).bind (fun removed => ?_) rfl
      refine .perform (fun _ => rfl) fun _ => ?_
      cases removed <;> exact .ret _

theorem setFunctionBreakpoints_asks (bps : List FunctionBp) :
    GoesByText (setFunctionBreakpoints bps) := by
  refine .perform (fun _ => rfl) fun prior => ?_
  refine (placeAll_asks ..).bind (fun r => ?_) rfl
  cases r with
  | error err => exact .ret _
  | ok r =>
      refine (removeStale_asks ..).bind (fun removed => ?_) rfl
      refine .perform (fun _ => rfl) fun _ => ?_
      cases removed <;> exact .ret _

theorem flushSource_asks (file : String) (bps : List SourceBp) :
    GoesByText (flushSource file bps) := by
  induction bps with
  | nil => exact .ret _
  | cons bp bps ih =>
      unfold flushSource
      split
      · exact ih
      · refine call_andThen (fun r => ?_) rfl
        cases r with
        | error err => exact ih
        | ok result =>
            dsimp only
            split
            · exact .perform (fun _ => rfl) fun _ => ih
            · exact ih

theorem flushFiles_asks (files : List (String × List SourceBp)) :
    GoesByText (flushFiles files) := by
  induction files with
  | nil => exact .ret _
  | cons entry files ih =>
      obtain ⟨file, bps⟩ := entry
      exact (flushSource_asks file bps).bind (fun _ => ih) rfl

theorem flushFunction_asks (bps : List FunctionBp) :
    GoesByText (flushFunction bps) := by
  induction bps with
  | nil => exact .ret _
  | cons bp bps ih =>
      unfold flushFunction
      split
      · exact ih
      · refine call_andThen (fun r => ?_) rfl
        cases r with
        | error err => exact ih
        | ok result =>
            dsimp only
            split
            · exact .perform (fun _ => rfl) fun _ => ih
            · exact ih

theorem launch_asks (spec : LaunchSpec) : GoesByText (launch spec) := by
  refine call_andThen (fun r => ?_) rfl
  match r with
  | .error err => exact .ret _
  | .ok (.stopped info) =>
      refine (flushFiles_asks _).bind (fun _ => ?_) rfl
      refine (flushFunction_asks _).bind (fun _ => ?_) rfl
      exact .ret _
  | .ok (.exited code) => exact .ret _
  | .ok .terminated => exact .ret _

theorem callAttach_asks (cmd : EngineCmd) (h : cmd.Value = StopOutcome) :
    GoesByText (callAttach cmd h) := by
  refine call_andThen (fun r => ?_) rfl
  cases r <;> exact .ret _

theorem attachPid_asks (pid : UInt32) : GoesByText (attachPid pid) :=
  .perform (fun _ => rfl) fun _ => callAttach_asks _ _

theorem attach_asks (spec : AttachSpec) : GoesByText (attach spec) := by
  unfold attach
  split
  · split
    · exact attachPid_asks _
    · exact .ret _
  · refine .own (fun r hr => ?_) fun r hr => ?_
    · match r, hr with
      | some (.error err), _ => exact .ret _
      | some (.ok pid), _ => exact attachPid_asks pid
    · match r, hr with
      | none, _ => rfl
  · exact .ret _

theorem disconnect_asks (terminate : Bool) :
    GoesByText (disconnect terminate) :=
  call_andThen (fun _ => .ret _) rfl

theorem cont_asks : GoesByText cont := by
  refine call_andThen (fun r => ?_) rfl
  match r with
  | .error err => exact .ret _
  | .ok (some stop) => exact .ret _
  | .ok none => exact call_asks .breakIn

theorem stackTrace_asks (threadId start levels : Int) :
    GoesByText (stackTrace threadId start levels) := by
  refine call_andThen (fun r => ?_) rfl
  cases r <;> exact .ret _

theorem variables_asks (reference : Int) :
    GoesByText («variables» reference) := by
  unfold «variables»
  split
  · exact .ret _
  · exact call_asks _

theorem evaluate_asks (expr : String) (mode : EvalMode) :
    GoesByText (evaluate expr mode) := by
  cases mode with
  | expression => exact call_asks _
  | repl =>
      refine call_andThen (fun r => ?_) rfl
      cases r <;> exact .ret _

theorem readMemory_asks (address : String) (count : Int) :
    GoesByText (readMemory address count) := by
  unfold readMemory
  split
  · exact .ret _
  · exact call_asks _

theorem disassemble_asks (address : String) (count : Int) :
    GoesByText (disassemble address count) := by
  unfold disassemble
  split
  · exact .ret _
  · exact call_asks _

/-- Every call goes by its text. -/
theorem BackendCall.asks (call : BackendCall) : GoesByText call.prog := by
  refine Asks.bind ?_ (fun r => .ret _) rfl
  cases call with
  | launch spec => exact launch_asks spec
  | attach spec => exact attach_asks spec
  | disconnect terminate => exact disconnect_asks terminate
  | setSourceBreakpoints file bps =>
      exact setSourceBreakpoints_asks file bps
  | setFunctionBreakpoints bps => exact setFunctionBreakpoints_asks bps
  | cont => exact cont_asks
  | stackTrace threadId start levels => exact stackTrace_asks ..
  | «variables» reference => exact variables_asks reference
  | evaluate expr mode => exact evaluate_asks expr mode
  | readMemory address count => exact readMemory_asks address count
  | disassemble address count => exact disassemble_asks address count
  | attachKernel connection => exact callAttach_asks _ rfl
  | step _ | threads | modules | openDump _ | analyze =>
      exact call_asks _

/-- The backend's own operations can always be answered. -/
theorem local_answers {β : Type} (op : LocalOp β) (i : Nat)
    (s : BackendLocal) :
    ∃ a b s', localMachine.run i op a s = some (b, s') ∧
      LocalOp.kept op b = true := by
  cases op with
  | waitFor name =>
      exact ⟨.waited (some (.error .closed)), _, s, rfl, rfl⟩
  | _ => exact ⟨.sync, _, _, rfl, rfl⟩

end DebugMcp.Marshal
