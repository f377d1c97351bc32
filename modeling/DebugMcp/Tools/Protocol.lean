/-
The protocols the handlers obey, and the calls a pool is made of.

A handler's protocol is its text with the data it does not act on
forgotten: the order of its lock sections and awaits, the branch each
answer selects, and the values it carries from one section to a later
one (a generation snapshot, the list it read, the backend it connected).
One theorem per handler says that the handler obeys its protocol; every
proof about interleavings starts from these and never opens a handler
again.

# Phases

`ConnPhase` is the common shape of the four connect handlers,
`DiscPhase` that of `disconnect`, `ResPhase` that of the four resume
tools, `BpPhase` that of the three breakpoint-changing tools. `pause`
and `list_breakpoints` touch nothing another handler reads, and
`read_output` only the output buffer.
-/
import DebugMcp.Tools.Breakpoints
import DebugMcp.Tools.Execution
import DebugMcp.Tools.Lifecycle

namespace DebugMcp

open Conc

-- ============================================================ connects

/-- Where a connect handler is. -/
inductive ConnPhase
  | start
  | guarded
  | configuring
  /-- Select or connect failed: reset, then clear. -/
  | failing
  | failReset
  | failDrained
  | failCleared
  /-- The factory handed out a backend. -/
  | connected (b : BackendId)
  | installed (b : BackendId)
  | stamped (b : BackendId) (generation : UInt64)
  | handshaking (b : BackendId)
  | settling
  /-- The handshake failed or was cancelled: clear, then reset. -/
  | cancelling
  | cancelCleared
  | cancelReset
  | done
  deriving DecidableEq

/-- The handshake await of a connect handler. -/
inductive Handshake : ⦃γ : Type⦄ → BackendId →
    ServerOp (Option (Except BackendError γ)) → Prop
  | launch (b : BackendId) (spec : LaunchSpec) :
      Handshake b (.launch b spec)
  | attach (b : BackendId) (spec : AttachSpec) :
      Handshake b (.attach b spec)
  | openDump (b : BackendId) (path : String) :
      Handshake b (.openDump b path)
  | attachKernel (b : BackendId) (connection : String) :
      Handshake b (.attachKernel b connection)

/-- The sections a connect handler may run once its handshake
succeeded. -/
inductive Settle : ⦃β : Type⦄ → ToolOp β → Prop
  | setProgram (p : String) : Settle (.inl (.setProgram p))
  | debuggerPid (b : BackendId) : Settle (.inr (.debuggerPid b))
  | setPid (p : Int) : Settle (.inl (.setPid p))
  | pid : Settle (.inl .pid)
  | setState (st : State) (h : st ≠ .idle) (h' : st ≠ .configuring) :
      Settle (.inl (.setState st))
  | setDump : Settle (.inl (.setDump true))
  | setLastStopped (info : StopInfo) :
      Settle (.inl (.setLastStopped info))

/-- The protocol of a connect handler. -/
inductive ConnNext : ⦃β : Type⦄ → ConnPhase → ToolOp β → β →
    ConnPhase → Prop
  | guardOk : ConnNext .start (.inl (.checkState [.idle])) (.ok ())
      .guarded
  | guardErr (e : String) :
      ConnNext .start (.inl (.checkState [.idle])) (.error e) .done
  | configure :
      ConnNext .guarded (.inl (.setState .configuring)) () .configuring
  | flush (r : List (String × List SourceBp) × List FunctionBp) :
      ConnNext .configuring (.inl .flushPendingBreakpoints) r
        .configuring
  | selectFail :
      ConnNext .configuring (.inl .resetInner) () .failReset
  | connectErr (f : String) (e : BackendError) :
      ConnNext .configuring (.inr (.connect f)) (.error e) .failing
  | failReset : ConnNext .failing (.inl .resetInner) () .failReset
  | failDrain (es : List OutputEntry) :
      ConnNext .failReset (.inl .drainOutput) es .failDrained
  | failClear :
      ConnNext .failDrained (.inr .clearSlot) () .failCleared
  | failName :
      ConnNext .failCleared (.inr (.setName none)) () .done
  | connectOk (f : String) (b : BackendId) :
      ConnNext .configuring (.inr (.connect f)) (.ok b) (.connected b)
  | install (b : BackendId) :
      ConnNext (.connected b) (.inr (.setSlot b)) () (.installed b)
  | name (b : BackendId) (f : String) :
      ConnNext (.installed b) (.inr (.setName (some f))) ()
        (.installed b)
  | stamp (b : BackendId) (g : UInt64) :
      ConnNext (.installed b) (.inl .generation) g (.stamped b g)
  | spawn (b : BackendId) (g : UInt64) :
      ConnNext (.stamped b g) (.inr (.spawnEventPump b g)) ()
        (.handshaking b)
  | handshakeOk {γ : Type} (b : BackendId)
      (op : ServerOp (Option (Except BackendError γ)))
      (h : Handshake b op) (o : γ) :
      ConnNext (.handshaking b) (.inr op) (some (.ok o)) .settling
  | handshakeErr {γ : Type} (b : BackendId)
      (op : ServerOp (Option (Except BackendError γ)))
      (h : Handshake b op) (e : BackendError) :
      ConnNext (.handshaking b) (.inr op) (some (.error e)) .cancelling
  | handshakeCancel {γ : Type} (b : BackendId)
      (op : ServerOp (Option (Except BackendError γ)))
      (h : Handshake b op) :
      ConnNext (.handshaking b) (.inr op) none .cancelling
  | cancelClear :
      ConnNext .cancelling (.inr .clearSlot) () .cancelCleared
  | cancelName :
      ConnNext .cancelCleared (.inr (.setName none)) () .cancelCleared
  | cancelReset :
      ConnNext .cancelCleared (.inl .resetInner) () .cancelReset
  | cancelDrain (es : List OutputEntry) :
      ConnNext .cancelReset (.inl .drainOutput) es .done
  | settle {β : Type} (op : ToolOp β) (h : Settle op) (x : β) :
      ConnNext .settling op x .settling

-- ========================================================== disconnect

/-- Where a disconnect handler is. -/
inductive DiscPhase
  | start | guarded | taken | wiped | done
  deriving DecidableEq

/-- The protocol of `disconnect`. -/
inductive DiscNext : ⦃β : Type⦄ → DiscPhase → ToolOp β → β →
    DiscPhase → Prop
  | guardOk : DiscNext .start (.inl (.checkState
      [.configuring, .stopped, .running, .terminated])) (.ok ()) .guarded
  | guardErr (e : String) : DiscNext .start (.inl (.checkState
      [.configuring, .stopped, .running, .terminated])) (.error e) .done
  | current (b : Option BackendId) :
      DiscNext .guarded (.inr .currentBackend) b .guarded
  | disconnect (b : BackendId) (t : Bool) :
      DiscNext .guarded (.inr (.disconnect b t)) () .guarded
  | take (b : Option BackendId) :
      DiscNext .guarded (.inr .takeSlot) b .taken
  | name : DiscNext .taken (.inr (.setName none)) () .taken
  | drop (b : BackendId) :
      DiscNext .taken (.inr (.dropBackend b)) () .taken
  | reset : DiscNext .taken (.inl .resetInner) () .wiped
  | drain (es : List OutputEntry) :
      DiscNext .wiped (.inl .drainOutput) es .done

-- ============================================================= resumes

/-- Where a resume handler is; `g` is its generation snapshot. -/
inductive ResPhase
  | start
  | guarded
  | snapped (g : UInt64)
  | running (g : UInt64)
  | stopped (g : UInt64) (info : StopInfo)
  | caching (info : StopInfo)
  | exited (g : UInt64)
  | terminated (g : UInt64)
  | draining
  | failed
  | done
  deriving DecidableEq

/-- The backend await of a resume handler. -/
inductive ResumeCall :
    ServerOp (Option (Except BackendError StopOutcome)) → Prop
  | cont (b : BackendId) (tid : Int) : ResumeCall (.cont b tid)
  | step (b : BackendId) (k : StepKind) (tid : Int)
      (gran : Option Granularity) : ResumeCall (.step b k tid gran)

/-- The protocol of the four resume tools. -/
inductive ResNext : ⦃β : Type⦄ → ResPhase → ToolOp β → β →
    ResPhase → Prop
  | guardOk : ResNext .start (.inl (.checkState [.stopped])) (.ok ())
      .guarded
  | guardErr (e : String) :
      ResNext .start (.inl (.checkState [.stopped])) (.error e) .done
  | isDump (d : Bool) : ResNext .guarded (.inl .isDump) d .guarded
  | lastStopped (i : Option StopInfo) :
      ResNext .guarded (.inl .lastStopped) i .guarded
  | current (b : Option BackendId) :
      ResNext .guarded (.inr .currentBackend) b .guarded
  | snapshot (g : UInt64) :
      ResNext .guarded (.inl .generation) g (.snapped g)
  | run (g : UInt64) :
      ResNext (.snapped g) (.inl (.setState .running)) () (.running g)
  | cancelled (g : UInt64)
      (op : ServerOp (Option (Except BackendError StopOutcome)))
      (h : ResumeCall op) : ResNext (.running g) (.inr op) none .done
  | err (g : UInt64)
      (op : ServerOp (Option (Except BackendError StopOutcome)))
      (h : ResumeCall op) (e : BackendError) :
      ResNext (.running g) (.inr op) (some (.error e)) .failed
  | stop (g : UInt64)
      (op : ServerOp (Option (Except BackendError StopOutcome)))
      (h : ResumeCall op) (info : StopInfo) :
      ResNext (.running g) (.inr op) (some (.ok (.stopped info)))
        (.stopped g info)
  | exit (g : UInt64)
      (op : ServerOp (Option (Except BackendError StopOutcome)))
      (h : ResumeCall op) (code : Option Int) :
      ResNext (.running g) (.inr op) (some (.ok (.exited code)))
        (.exited g)
  | terminate (g : UInt64)
      (op : ServerOp (Option (Except BackendError StopOutcome)))
      (h : ResumeCall op) :
      ResNext (.running g) (.inr op) (some (.ok .terminated))
        (.terminated g)
  | revert : ResNext .failed (.inl (.setState .stopped)) () .done
  | applied (g : UInt64) (info : StopInfo) :
      ResNext (.stopped g info)
        (.inl (.setStateIfGeneration g .stopped)) true (.caching info)
  | skipped (g : UInt64) (info : StopInfo) :
      ResNext (.stopped g info)
        (.inl (.setStateIfGeneration g .stopped)) false .draining
  | cache (info : StopInfo) :
      ResNext (.caching info) (.inl (.setLastStopped info)) () .draining
  | exitWrite (g : UInt64) (code : Option Int) (a : Bool) :
      ResNext (.exited g) (.inl (.terminateIfGeneration g code)) a
        .draining
  | terminateWrite (g : UInt64) (a : Bool) :
      ResNext (.terminated g)
        (.inl (.setStateIfGeneration g .terminated)) a .done
  | drain (es : List OutputEntry) :
      ResNext .draining (.inl .drainOutput) es .done

-- ========================================================= breakpoints

/-- The entry `set_breakpoint` records for a result. -/
def BreakpointResult.sourceEntry (r : BreakpointResult) (file : String)
    (bp : SourceBp) : BreakpointInfo where
  id := r.id
  ty := .source
  file
  line := r.line
  function := ""
  condition := bp.condition
  verified := r.verified

/-- The entry `set_function_breakpoint` records for a result. -/
def BreakpointResult.functionEntry (r : BreakpointResult)
    (bp : FunctionBp) : BreakpointInfo where
  id := r.id
  ty := .function
  file := ""
  line := 0
  function := bp.name
  condition := bp.condition
  verified := r.verified

/-- Where a breakpoint-changing handler is, with the list it read and
what it has still to commit. -/
inductive BpPhase
  | start
  | guarded
  | ready (b : BackendId)
  | readFile (b : BackendId) (file : String) (current : List SourceBp)
  | addFile (file : String) (bp : SourceBp) (info : BreakpointInfo)
  | readNames (b : BackendId) (current : List FunctionBp)
  | addName (bp : FunctionBp) (info : Option BreakpointInfo)
  | added (info : BreakpointInfo)
  | peeked (id : Int) (info : BreakpointInfo)
  | peekedReady (id : Int) (info : BreakpointInfo) (b : BackendId)
  | cutFile (id : Int) (info : BreakpointInfo) (b : BackendId)
      (current : List SourceBp)
  | cutNames (id : Int) (info : BreakpointInfo) (b : BackendId)
      (current : List FunctionBp)
  | removing (id : Int) (info : BreakpointInfo)
  | done
  deriving DecidableEq

/-- Has the handler still to commit an acknowledged change? -/
def BpPhase.committing : BpPhase → Bool
  | .addFile _ _ _ | .addName _ _ | .added _ | .removing _ _ => true
  | _ => false

/-- The protocol of `set_breakpoint`, `set_function_breakpoint` and
`remove_breakpoint`. -/
inductive BpNext : ⦃β : Type⦄ → BpPhase → ToolOp β → β → BpPhase →
    Prop
  | guardOk (allowed : List State) :
      BpNext .start (.inl (.checkState allowed)) (.ok ()) .guarded
  | guardErr (allowed : List State) (e : String) :
      BpNext .start (.inl (.checkState allowed)) (.error e) .done
  | state (st : State) : BpNext .guarded (.inl .state) st .guarded
  | pendFile (f : String) (l : Int) (c : String) :
      BpNext .guarded (.inl (.addPendingSourceBreakpoint f l c)) () .done
  | pendName (n c : String) :
      BpNext .guarded (.inl (.addPendingFunctionBreakpoint n c)) () .done
  | current (b : BackendId) :
      BpNext .guarded (.inr .currentBackend) (some b) (.ready b)
  | noBackend : BpNext .guarded (.inr .currentBackend) none .done
  | readFile (b : BackendId) (f : String) (bps : List SourceBp) :
      BpNext (.ready b) (.inl (.sourceBreakpointsForFile f)) bps
        (.readFile b f bps)
  | sendFile (b : BackendId) (f : String) (bps : List SourceBp)
      (bp : SourceBp) (r : BreakpointResult)
      (rs : List BreakpointResult)
      (h : matchedResult rs bp.line = some r) :
      BpNext (.readFile b f bps)
        (.inr (.setSourceBreakpoints b f (bps ++ [bp]))) (.ok rs)
        (.addFile f bp (r.sourceEntry f bp))
  | sendFileEmpty (b : BackendId) (f : String) (bps : List SourceBp)
      (bp : SourceBp) :
      BpNext (.readFile b f bps)
        (.inr (.setSourceBreakpoints b f (bps ++ [bp]))) (.ok []) .done
  | sendFileErr (b : BackendId) (f : String) (bps : List SourceBp)
      (bp : SourceBp) (e : BackendError) :
      BpNext (.readFile b f bps)
        (.inr (.setSourceBreakpoints b f (bps ++ [bp]))) (.error e) .done
  | addFile (f : String) (bp : SourceBp) (info : BreakpointInfo) :
      BpNext (.addFile f bp info)
        (.inl (.addSourceBreakpoint f bp.line bp.condition)) ()
        (.added info)
  | readNames (b : BackendId) (bps : List FunctionBp) :
      BpNext (.ready b) (.inl .allFunctionBreakpoints) bps
        (.readNames b bps)
  | sendNames (b : BackendId) (bps : List FunctionBp)
      (bp : FunctionBp) (rs : List BreakpointResult)
      (h : ∀ r ∈ rs.getLast?, r.rejected = false) :
      BpNext (.readNames b bps)
        (.inr (.setFunctionBreakpoints b (bps ++ [bp]))) (.ok rs)
        (.addName bp (rs.getLast?.map (·.functionEntry bp)))
  | sendNamesRejected (b : BackendId) (bps : List FunctionBp)
      (bp : FunctionBp) (rs : List BreakpointResult)
      (h : ∃ r ∈ rs.getLast?, r.rejected = true) :
      BpNext (.readNames b bps)
        (.inr (.setFunctionBreakpoints b (bps ++ [bp]))) (.ok rs) .done
  | sendNamesErr (b : BackendId) (bps : List FunctionBp)
      (bp : FunctionBp) (e : BackendError) :
      BpNext (.readNames b bps)
        (.inr (.setFunctionBreakpoints b (bps ++ [bp]))) (.error e) .done
  | addName (bp : FunctionBp) (info : BreakpointInfo) :
      BpNext (.addName bp (some info))
        (.inl (.addFunctionBreakpoint bp.name bp.condition)) ()
        (.added info)
  | addNameOnly (bp : FunctionBp) :
      BpNext (.addName bp none)
        (.inl (.addFunctionBreakpoint bp.name bp.condition)) () .done
  | record (info : BreakpointInfo) :
      BpNext (.added info) (.inl (.addBreakpointResponse info)) () .done
  | peek (id : Int) (info : BreakpointInfo) :
      BpNext .guarded (.inl (.breakpointInfo id)) (some info)
        (.peeked id info)
  | peekNone (id : Int) :
      BpNext .guarded (.inl (.breakpointInfo id)) none .done
  | peekedCurrent (id : Int) (info : BreakpointInfo) (b : BackendId) :
      BpNext (.peeked id info) (.inr .currentBackend) (some b)
        (.peekedReady id info b)
  | peekedNoBackend (id : Int) (info : BreakpointInfo) :
      BpNext (.peeked id info) (.inr .currentBackend) none .done
  | cutFile (id : Int) (info : BreakpointInfo) (b : BackendId)
      (bps : List SourceBp) (h : info.ty = .source) :
      BpNext (.peekedReady id info b)
        (.inl (.sourceBreakpointsForFile info.file)) bps
        (.cutFile id info b bps)
  | cutNames (id : Int) (info : BreakpointInfo) (b : BackendId)
      (bps : List FunctionBp) (h : info.ty = .function) :
      BpNext (.peekedReady id info b) (.inl .allFunctionBreakpoints) bps
        (.cutNames id info b bps)
  | sendCutFile (id : Int) (info : BreakpointInfo) (b : BackendId)
      (bps : List SourceBp) (rs : List BreakpointResult) :
      BpNext (.cutFile id info b bps)
        (.inr (.setSourceBreakpoints b info.file
          (SessionManager.eraseLine info.line bps))) (.ok rs)
        (.removing id info)
  | sendCutFileErr (id : Int) (info : BreakpointInfo) (b : BackendId)
      (bps : List SourceBp) (e : BackendError) :
      BpNext (.cutFile id info b bps)
        (.inr (.setSourceBreakpoints b info.file
          (SessionManager.eraseLine info.line bps))) (.error e) .done
  | sendCutNames (id : Int) (info : BreakpointInfo) (b : BackendId)
      (bps : List FunctionBp) (rs : List BreakpointResult) :
      BpNext (.cutNames id info b bps)
        (.inr (.setFunctionBreakpoints b
          (SessionManager.eraseName info.function bps))) (.ok rs)
        (.removing id info)
  | sendCutNamesErr (id : Int) (info : BreakpointInfo) (b : BackendId)
      (bps : List FunctionBp) (e : BackendError) :
      BpNext (.cutNames id info b bps)
        (.inr (.setFunctionBreakpoints b
          (SessionManager.eraseName info.function bps))) (.error e) .done
  | remove (id : Int) (info : BreakpointInfo)
      (r : Except String (String × Bool)) :
      BpNext (.removing id info) (.inl (.removeBreakpointById id)) r
        .done

-- =========================================================== all calls

/-- Where a call is. -/
inductive Phase
  | conn (q : ConnPhase)
  | disc (q : DiscPhase)
  | res (q : ResPhase)
  | bp (q : BpPhase)
  | other
  deriving DecidableEq

/-- The protocol of a call. -/
inductive ToolNext : ⦃β : Type⦄ → Phase → ToolOp β → β → Phase → Prop
  | conn {β : Type} {q q' : ConnPhase} {op : ToolOp β} {x : β}
      (h : ConnNext q op x q') : ToolNext (.conn q) op x (.conn q')
  | disc {β : Type} {q q' : DiscPhase} {op : ToolOp β} {x : β}
      (h : DiscNext q op x q') : ToolNext (.disc q) op x (.disc q')
  | res {β : Type} {q q' : ResPhase} {op : ToolOp β} {x : β}
      (h : ResNext q op x q') : ToolNext (.res q) op x (.res q')
  | bp {β : Type} {q q' : BpPhase} {op : ToolOp β} {x : β}
      (h : BpNext q op x q') : ToolNext (.bp q) op x (.bp q')
  | otherGuard (allowed : List State) (r : Except String Unit) :
      ToolNext .other (.inl (.checkState allowed)) r .other
  | otherCurrent (b : Option BackendId) :
      ToolNext .other (.inr .currentBackend) b .other
  | otherPause (b : BackendId) (r : Except BackendError Unit) :
      ToolNext .other (.inr (.pause b)) r .other
  | otherDrain (es : List OutputEntry) :
      ToolNext .other (.inl .drainOutput) es .other
  | otherList (r : List BreakpointInfo) :
      ToolNext .other (.inl .listBreakpoints) r .other

end DebugMcp
