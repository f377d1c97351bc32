/-
The session manager: one record behind a reader-writer lock, and the
output buffer behind its own.

Every method that takes a lock once is one atomic step, and `SessionOp`
lists them: an operation is a lock section, so an interleaving of
handlers is an interleaving of `SessionOp`s. `reset` takes two locks one
after the other and is therefore two operations, `resetInner` and the
output drain.

# Representation

- `generation` is a `u64` with wrapping addition.
- The hash maps are association lists with unique keys. Iteration order
  is unspecified in the source; nothing here depends on it.
- A tracked breakpoint's kind is stored in the source as one of the
  strings `"source"` and `"function"`; here it is the enumeration of the
  two, and `BreakpointType.name` is the string.
-/
import DebugMcp.Core
import DebugMcp.Session.Output
import Mathlib.Data.List.AList
import Mathlib.Data.List.Sort

namespace DebugMcp

-- ================================================================ state

/-- The state of a debug session. -/
inductive State
  | idle | configuring | stopped | running | terminated
  deriving DecidableEq

/-- The lowercase rendering. -/
def State.display : State → String
  | idle => "idle"
  | configuring => "configuring"
  | stopped => "stopped"
  | running => "running"
  | terminated => "terminated"

/-- What a tracked breakpoint is on; selects the removal rule. -/
inductive BreakpointType
  | source | function
  deriving DecidableEq

/-- The string the source stores. -/
def BreakpointType.name : BreakpointType → String
  | source => "source"
  | function => "function"

/-- Metadata about a resolved breakpoint, keyed by its
debugger-assigned id. -/
structure BreakpointInfo where
  id : Int
  ty : BreakpointType
  file : String
  line : Int
  function : String
  condition : String
  verified : Bool
  deriving DecidableEq

/-- The active or pending source breakpoints, per file. -/
abbrev SourceMap := AList fun _ : String => List SourceBp

namespace SourceMap

/-- The list for one file, empty when there is none. -/
def forFile (m : SourceMap) (file : String) : List SourceBp :=
  (m.lookup file).getD []

/-- `entry(file).or_default()` and an update of the list. -/
def modify (m : SourceMap) (file : String)
    (f : List SourceBp → List SourceBp) : SourceMap :=
  m.insert file (f (m.forFile file))

@[simp] theorem forFile_empty (file : String) :
    forFile ∅ file = [] := rfl

@[simp] theorem forFile_modify_self (m : SourceMap) (file : String)
    (f : List SourceBp → List SourceBp) :
    (m.modify file f).forFile file = f (m.forFile file) := by
  simp [modify, forFile]

theorem forFile_modify_ne (m : SourceMap) {file file' : String}
    (f : List SourceBp → List SourceBp) (h : file' ≠ file) :
    (m.modify file f).forFile file' = m.forFile file' := by
  simp [modify, forFile, AList.lookup_insert_ne h]

end SourceMap

-- ============================================================== manager

/-- Everything behind the session's reader-writer lock. -/
structure Inner where
  state : State
  generation : UInt64
  program : String
  pid : Int
  exitCode : Option Int
  lastStopped : Option StopInfo
  isDump : Bool
  frameMapping : AList fun _ : Int => Int
  sourceBps : SourceMap
  functionBps : List FunctionBp
  bpResponses : AList fun _ : Int => BreakpointInfo
  pendingSourceBps : SourceMap
  pendingFunctionBps : List FunctionBp
  deriving DecidableEq

/-- A fresh session record. -/
def Inner.new : Inner where
  state := .idle
  generation := 0
  program := ""
  pid := 0
  exitCode := none
  lastStopped := none
  isDump := false
  frameMapping := ∅
  sourceBps := ∅
  functionBps := []
  bpResponses := ∅
  pendingSourceBps := ∅
  pendingFunctionBps := []

/-- The session: the locked record and the output buffer. -/
structure SessionManager where
  inner : Inner
  output : OutputBuffer
  deriving DecidableEq

namespace SessionManager

variable (s : SessionManager)

/-- A session in the idle state. -/
def new : SessionManager := ⟨.new, .new⟩

/-- Unconditionally set the session state. -/
def setState (st : State) : SessionManager :=
  { s with inner := { s.inner with state := st } }

/-- Apply a transition only while `generation` is the current epoch;
returns whether it was applied. -/
def setStateIfGeneration (generation : UInt64) (st : State) :
    Bool × SessionManager :=
  if s.inner.generation ≠ generation then (false, s)
  else (true, s.setState st)

/-- The state guard: the exact error for the current state when it is
not allowed. -/
def checkState (allowed : List State) : Except String Unit :=
  let current := s.inner.state
  if current ∈ allowed then .ok ()
  else
    match current with
    | .idle =>
        .error "no debug session active. Use 'launch' or 'attach' first."
    | .running => .error "process is running. Use 'pause' first."
    | _ =>
        let names := String.intercalate ", " (allowed.map State.display)
        .error (s!"invalid state: {current.display}, "
          ++ s!"expected one of: {names}")

/-- The first half of `reset`: clear the record under its lock, return
to idle and bump the generation. -/
def resetInner : SessionManager :=
  { s with
    inner := { Inner.new with generation := s.inner.generation + 1 } }

/-- The second half of `reset`, and every other drain. -/
def drainOutput : List OutputEntry × SessionManager :=
  let (entries, output) := s.output.drain
  (entries, { s with output })

/-- Append one output chunk (the event pump). -/
def appendOutput (category text : String) : SessionManager :=
  { s with output := s.output.append category text }

/-- Record the program label. -/
def setProgram (program : String) : SessionManager :=
  { s with inner := { s.inner with program } }

/-- Record the pid. -/
def setPid (pid : Int) : SessionManager :=
  { s with inner := { s.inner with pid } }

/-- Mark whether the session is a crash dump. -/
def setDump (isDump : Bool) : SessionManager :=
  { s with inner := { s.inner with isDump } }

/-- Cache the most recent stop. -/
def setLastStopped (info : StopInfo) : SessionManager :=
  { s with inner := { s.inner with lastStopped := some info } }

/-- Record the exit code and the terminated state, only while
`generation` is the current epoch; returns whether it was applied. -/
def terminateIfGeneration (generation : UInt64) (code : Option Int) :
    Bool × SessionManager :=
  if s.inner.generation ≠ generation then (false, s)
  else
    (true,
      { s with inner := { s.inner with
          exitCode := code.or s.inner.exitCode
          state := .terminated } })

/-- A guarded state write of another epoch changes nothing. -/
theorem setStateIfGeneration_of_ne {g : UInt64} (st : State)
    (h : s.inner.generation ≠ g) :
    s.setStateIfGeneration g st = (false, s) := if_pos h

/-- A guarded termination of another epoch changes nothing. -/
theorem terminateIfGeneration_of_ne {g : UInt64} (code : Option Int)
    (h : s.inner.generation ≠ g) :
    s.terminateIfGeneration g code = (false, s) := if_pos h

/-- Draining a clear buffer changes nothing. -/
theorem drainOutput_of_isClear (h : s.output.isClear = true) :
    s.drainOutput = ([], s) := by
  rw [drainOutput, OutputBuffer.drain_of_isClear h]

-- ========================================================= breakpoints

/-- Append a source breakpoint to the file's active list. -/
def addSourceBreakpoint (file : String) (line : Int)
    (condition : String) : SessionManager :=
  { s with inner := { s.inner with
      sourceBps := s.inner.sourceBps.modify file
        (· ++ [⟨line, condition⟩]) } }

/-- Append a function breakpoint to the active list. -/
def addFunctionBreakpoint (name condition : String) : SessionManager :=
  { s with inner := { s.inner with
      functionBps := s.inner.functionBps ++ [⟨name, condition⟩] } }

/-- Store resolved breakpoint metadata under its id. -/
def addBreakpointResponse (info : BreakpointInfo) : SessionManager :=
  { s with inner := { s.inner with
      bpResponses := s.inner.bpResponses.insert info.id info } }

/-- The tracked metadata for `id`. -/
def breakpointInfo (id : Int) : Option BreakpointInfo :=
  s.inner.bpResponses.lookup id

/-- Drop the first source breakpoint on `line`: removal matches by line
only. -/
def eraseLine (line : Int) (bps : List SourceBp) : List SourceBp :=
  bps.eraseP fun bp => bp.line == line

/-- Drop the first function breakpoint named `name`. -/
def eraseName (name : String) (bps : List FunctionBp) :
    List FunctionBp :=
  bps.eraseP fun bp => bp.name == name

/-- Remove a tracked breakpoint by id: its request from the active list
(a file with no list is left alone), then its metadata. Returns the file
and whether it was on a function. -/
def removeBreakpointById (id : Int) :
    Except String (String × Bool) × SessionManager :=
  match s.inner.bpResponses.lookup id with
  | none => (.error s!"breakpoint ID {id} not found", s)
  | some info =>
      let bpResponses := s.inner.bpResponses.erase id
      match info.ty with
      | .source =>
          let sourceBps :=
            match s.inner.sourceBps.lookup info.file with
            | none => s.inner.sourceBps
            | some bps =>
                s.inner.sourceBps.insert info.file
                  (eraseLine info.line bps)
          (.ok (info.file, false),
            { s with inner := { s.inner with sourceBps, bpResponses } })
      | .function =>
          let functionBps := eraseName info.function s.inner.functionBps
          (.ok ("", true),
            { s with inner := { s.inner with functionBps, bpResponses } })

/-- All tracked metadata, ascending by id. -/
def listBreakpoints : List BreakpointInfo :=
  (s.inner.bpResponses.entries.map Sigma.snd).mergeSort
    fun a b => a.id ≤ b.id

/-- The active source breakpoints of a file. -/
def sourceBreakpointsForFile (file : String) : List SourceBp :=
  s.inner.sourceBps.forFile file

/-- Buffer a source breakpoint for the next launch. -/
def addPendingSourceBreakpoint (file : String) (line : Int)
    (condition : String) : SessionManager :=
  { s with inner := { s.inner with
      pendingSourceBps := s.inner.pendingSourceBps.modify file
        (· ++ [⟨line, condition⟩]) } }

/-- Buffer a function breakpoint for the next launch. -/
def addPendingFunctionBreakpoint (name condition : String) :
    SessionManager :=
  { s with inner := { s.inner with
      pendingFunctionBps :=
        s.inner.pendingFunctionBps ++ [⟨name, condition⟩] } }

/-- Extend the active map by a list of pending files. -/
def extendFiles (m : SourceMap) :
    List (String × List SourceBp) → SourceMap
  | [] => m
  | (file, bps) :: rest => extendFiles (m.modify file (· ++ bps)) rest

/-- Move the pending breakpoints into the active tracking and return
them for the launch. -/
def flushPendingBreakpoints :
    (List (String × List SourceBp) × List FunctionBp) × SessionManager :=
  let sourceFiles :=
    s.inner.pendingSourceBps.entries.map fun e => (e.1, e.2)
  let funcBps := s.inner.pendingFunctionBps
  ((sourceFiles, funcBps),
    { s with inner := { s.inner with
        pendingSourceBps := ∅
        pendingFunctionBps := []
        sourceBps := extendFiles s.inner.sourceBps sourceFiles
        functionBps := s.inner.functionBps ++ funcBps } })

end SessionManager

-- ======================================================= lock sections

/-- One lock section of the session. -/
inductive SessionOp : Type → Type
  | checkState (allowed : List State) : SessionOp (Except String Unit)
  | state : SessionOp State
  | setState (st : State) : SessionOp Unit
  | setStateIfGeneration (generation : UInt64) (st : State) :
      SessionOp Bool
  | generation : SessionOp UInt64
  | resetInner : SessionOp Unit
  | drainOutput : SessionOp (List OutputEntry)
  | setProgram (program : String) : SessionOp Unit
  | pid : SessionOp Int
  | setPid (pid : Int) : SessionOp Unit
  | isDump : SessionOp Bool
  | setDump (isDump : Bool) : SessionOp Unit
  | terminateIfGeneration (generation : UInt64) (code : Option Int) :
      SessionOp Bool
  | lastStopped : SessionOp (Option StopInfo)
  | setLastStopped (info : StopInfo) : SessionOp Unit
  | addSourceBreakpoint (file : String) (line : Int)
      (condition : String) : SessionOp Unit
  | addFunctionBreakpoint (name condition : String) : SessionOp Unit
  | addBreakpointResponse (info : BreakpointInfo) : SessionOp Unit
  | breakpointInfo (id : Int) : SessionOp (Option BreakpointInfo)
  | removeBreakpointById (id : Int) :
      SessionOp (Except String (String × Bool))
  | listBreakpoints : SessionOp (List BreakpointInfo)
  | sourceBreakpointsForFile (file : String) :
      SessionOp (List SourceBp)
  | allFunctionBreakpoints : SessionOp (List FunctionBp)
  | addPendingSourceBreakpoint (file : String) (line : Int)
      (condition : String) : SessionOp Unit
  | addPendingFunctionBreakpoint (name condition : String) :
      SessionOp Unit
  | flushPendingBreakpoints :
      SessionOp (List (String × List SourceBp) × List FunctionBp)

/-- What a lock section answers and leaves. -/
def SessionOp.run : {β : Type} → SessionOp β → SessionManager →
    β × SessionManager
  | _, .checkState allowed, s => (s.checkState allowed, s)
  | _, .state, s => (s.inner.state, s)
  | _, .setState st, s => ((), s.setState st)
  | _, .setStateIfGeneration g st, s => s.setStateIfGeneration g st
  | _, .generation, s => (s.inner.generation, s)
  | _, .resetInner, s => ((), s.resetInner)
  | _, .drainOutput, s => s.drainOutput
  | _, .setProgram p, s => ((), s.setProgram p)
  | _, .pid, s => (s.inner.pid, s)
  | _, .setPid p, s => ((), s.setPid p)
  | _, .isDump, s => (s.inner.isDump, s)
  | _, .setDump d, s => ((), s.setDump d)
  | _, .terminateIfGeneration g code, s => s.terminateIfGeneration g code
  | _, .lastStopped, s => (s.inner.lastStopped, s)
  | _, .setLastStopped info, s => ((), s.setLastStopped info)
  | _, .addSourceBreakpoint f l c, s => ((), s.addSourceBreakpoint f l c)
  | _, .addFunctionBreakpoint n c, s => ((), s.addFunctionBreakpoint n c)
  | _, .addBreakpointResponse info, s =>
      ((), s.addBreakpointResponse info)
  | _, .breakpointInfo id, s => (s.breakpointInfo id, s)
  | _, .removeBreakpointById id, s => s.removeBreakpointById id
  | _, .listBreakpoints, s => (s.listBreakpoints, s)
  | _, .sourceBreakpointsForFile f, s => (s.sourceBreakpointsForFile f, s)
  | _, .allFunctionBreakpoints, s => (s.inner.functionBps, s)
  | _, .addPendingSourceBreakpoint f l c, s =>
      ((), s.addPendingSourceBreakpoint f l c)
  | _, .addPendingFunctionBreakpoint n c, s =>
      ((), s.addPendingFunctionBreakpoint n c)
  | _, .flushPendingBreakpoints, s => s.flushPendingBreakpoints

end DebugMcp
