/-
The WinDbg backend's breakpoints: what it asks the engine for, and the
table it keeps of what it was given.

The engine is a third-party component. `EngineModel` is what it answers,
as a function of everything it was asked before. What may be expected of
it is not part of the model: that the id of a new breakpoint is fresh
among those there are (`Fresh`), that a set that fails leaves no
breakpoint behind (`SetsWhole`), and that a breakpoint there is can be
removed (`Removes`) are each assumed where a result needs it.

`DbgEng` is the engine's state as far as breakpoints go, with the
conditions kept beside it, and `callSetBreakpoint` and
`callRemoveBreakpoint` are `WinDbgBackend::call` with those commands.

The source and the function setter are the same loop over their requests
and the same removal pass, `placeAll` and `removeStale`, at different
keys. The launch flush is a loop of its own: it looks nothing up.
-/
import DebugMcp.Core
import DebugMcp.Dap.Framing
import Mathlib.Data.List.AList

namespace DebugMcp

-- ============================================================== engine

/-- Where a breakpoint should be placed. -/
inductive BpLoc
  | address (addr : UInt64)
  | fileLine (file : String) (line : UInt32)
  | function (name : String)
  deriving DecidableEq

/-- A minimal launch request. -/
structure LaunchReq where
  program : String
  args : List String
  cwd : Option String
  deriving DecidableEq

/-- What the engine thread answers a command: a value, an engine error,
or nothing, because it is gone. -/
inductive EngineReply (α : Type)
  | ok (a : α)
  | failed (message : String)
  | closed

/-- The engine and its thread: the breakpoints there are, every location
it was asked for, newest first, with the id it gave, and
`breakpoint_conditions`. -/
structure DbgEng where
  live : List (Int × BpLoc)
  asked : List (BpLoc × Option Int)
  conditions : AList fun _ : Int => String
  gone : Bool
  deriving DecidableEq

/-- An engine with no breakpoints. -/
def DbgEng.new : DbgEng where
  live := []
  asked := []
  conditions := ∅
  gone := false

/-- A new breakpoint stores its condition, if it has one. -/
def DbgEng.stored (w : DbgEng) (id : Int) (condition : String) :
    AList fun _ : Int => String :=
  if condition.isEmpty then w.conditions
  else w.conditions.insert id condition

/-- What the engine answers, and the breakpoint that a set which fails
after it was added leaves behind, if it does. -/
structure EngineModel where
  launch : LaunchReq → EngineReply StopOutcome
  setBreakpoint : DbgEng → BpLoc → String → EngineReply Int
  leaves : DbgEng → BpLoc → String → Option Int
  removeBreakpoint : DbgEng → Int → EngineReply Unit

namespace EngineModel

/-- The breakpoint that is left behind, at the location it was meant
for. -/
def left (e : EngineModel) (w : DbgEng) (loc : BpLoc) (condition : String) :
    List (Int × BpLoc) :=
  (e.leaves w loc condition).toList.map (·, loc)

/-- The id of a new breakpoint is none that there is. -/
class Fresh (e : EngineModel) : Prop where
  fresh : ∀ {w loc condition id}, e.setBreakpoint w loc condition = .ok id →
    0 ≤ id ∧ id ∉ w.live.map Prod.fst

/-- A set that fails leaves no breakpoint behind. -/
class SetsWhole (e : EngineModel) : Prop where
  whole : ∀ w loc condition, e.leaves w loc condition = none

/-- A breakpoint there is can be removed. -/
class Removes (e : EngineModel) : Prop where
  removes : ∀ {w id m}, id ∈ w.live.map Prod.fst →
    e.removeBreakpoint w id ≠ .failed m

@[simp] theorem left_eq_nil (e : EngineModel) [e.SetsWhole] (w : DbgEng)
    (loc : BpLoc) (condition : String) : e.left w loc condition = [] := by
  rw [left, SetsWhole.whole]
  rfl

/-- What is left behind is where it was asked for. -/
theorem mem_left {e : EngineModel} {w : DbgEng} {loc : BpLoc}
    {condition : String} {x : Int × BpLoc}
    (h : x ∈ e.left w loc condition) : x.2 = loc := by
  obtain ⟨id, -, rfl⟩ := List.mem_map.mp h
  rfl

end EngineModel

/-- The line an engine result carries. -/
def BpLoc.line : BpLoc → Int
  | fileLine _ line => line.toNat
  | _ => 0

section

variable (e : EngineModel)

/-- `call`, with `SetBreakpoint`. -/
def callSetBreakpoint (loc : BpLoc) (condition : String) (w : DbgEng) :
    Except BackendError BreakpointResult × DbgEng :=
  if w.gone then (.error .closed, w)
  else
    match e.setBreakpoint w loc condition with
    | .ok id =>
        (.ok { id, verified := true, line := loc.line, message := "",
               rejected := false },
          { w with
            live := (id, loc) :: w.live
            asked := (loc, some id) :: w.asked
            conditions := w.stored id condition })
    | .failed message =>
        (.error (.dap message), { w with
          live := e.left w loc condition ++ w.live
          asked := (loc, none) :: w.asked })
    | .closed =>
        (.error .closed,
          { w with asked := (loc, none) :: w.asked, gone := true })

/-- `call`, with `RemoveBreakpoint`; one that fails found no breakpoint,
and changes nothing. -/
def callRemoveBreakpoint (id : Int) (w : DbgEng) :
    Except BackendError Unit × DbgEng :=
  if w.gone then (.error .closed, w)
  else
    match e.removeBreakpoint w id with
    | .ok () =>
        (.ok (), { w with
          live := w.live.filter fun x => x.1 ≠ id
          conditions := w.conditions.erase id })
    | .failed message => (.error (.dap message), w)
    | .closed => (.error .closed, { w with gone := true })

/-- `remove_engine_breakpoint`: an id that is not positive is skipped,
and only a transport failure is passed on. -/
def removeEngineBreakpoint (id : Int) (w : DbgEng) :
    Except BackendError Unit × DbgEng :=
  if id ≤ 0 then (.ok (), w)
  else
    match callRemoveBreakpoint e id w with
    | (.ok (), w) => (.ok (), w)
    | (.error .closed, w) => (.error .closed, w)
    | (.error _, w) => (.ok (), w)

/-- `bp_result_or_continue`. -/
def bpResultOrContinue (outcome : Except BackendError BreakpointResult)
    (unverifiedLine : Int) : Except BackendError BreakpointResult :=
  match outcome with
  | .ok result => .ok result
  | .error .closed => .error .closed
  | .error other => .ok
      { id := 0, verified := false, line := unverifiedLine,
        message := other.display, rejected := false }

-- ============================================================= requests

/-- `u32::try_from`, of a requested line. -/
def tryLine (line : Int) : Option UInt32 :=
  if 0 ≤ line ∧ line < 2 ^ 32 then some (UInt32.ofNat line.toNat) else none

/-- `is_bare_address_name`. -/
def isBareAddressName (name : String) : Bool :=
  let trimmed := name.toList.dropWhile isWhitespace
  "0x".toList.isPrefixOf trimmed || "0X".toList.isPrefixOf trimmed

/-- `ADDRESS_BP_GUIDANCE`. -/
def addressBpGuidance : String :=
  "address breakpoints are not ASLR-stable when set via "
    ++ "set_function_breakpoint under WinDbg (they would be misplaced on "
    ++ "relaunch); use run_command(\"bp <addr>\") for an address "
    ++ "breakpoint instead"

/-- A request as its setter takes it: refused with a result of its own,
or wanted at a key. -/
inductive Want (κ : Type)
  | refuse (result : BreakpointResult)
  | place (key : κ) (condition : String) (unverifiedLine : Int)
  deriving DecidableEq

/-- The key a request is wanted at. -/
def Want.key? {κ : Type} : Want κ → Option κ
  | refuse _ => none
  | place key _ _ => some key

/-- A source request: a line outside `u32` is no line. -/
def sourceWant (file : String) (bp : SourceBp) : Want UInt32 :=
  match tryLine bp.line with
  | some line => .place line bp.condition bp.line
  | none => .refuse
      { id := 0, verified := false, line := bp.line, rejected := false,
        message := s!"{file}:{bp.line}: line out of range" }

/-- A function request: an address is rejected. -/
def functionWant (bp : FunctionBp) : Want String :=
  if isBareAddressName bp.name then .refuse
    { id := 0, verified := false, line := 0, message := addressBpGuidance,
      rejected := true }
  else .place bp.name bp.condition 0

-- =============================================================== loops

/-- A category's part of the table. -/
abbrev BpMap (κ : Type) := AList fun _ : κ => BreakpointResult

/-- The setters' loop over the requests, with the new map so far: a
tracked key is reused, any other is set, and a result that is not
verified is not tracked. -/
def placeAll {κ : Type} [DecidableEq κ] (locOf : κ → BpLoc)
    (prior : BpMap κ) :
    List (Want κ) → BpMap κ → DbgEng →
      Except BackendError (List BreakpointResult × BpMap κ) × DbgEng
  | [], newMap, w => (.ok ([], newMap), w)
  | .refuse result :: wants, newMap, w =>
      match placeAll locOf prior wants newMap w with
      | (.ok (results, newMap), w) => (.ok (result :: results, newMap), w)
      | (.error err, w) => (.error err, w)
  | .place key condition unverifiedLine :: wants, newMap, w =>
      match prior.lookup key with
      | some existing =>
          match placeAll locOf prior wants (newMap.insert key existing) w
            with
          | (.ok (results, newMap), w) =>
              (.ok (existing :: results, newMap), w)
          | (.error err, w) => (.error err, w)
      | none =>
          let (outcome, w) := callSetBreakpoint e (locOf key) condition w
          match bpResultOrContinue outcome unverifiedLine with
          | .error err => (.error err, w)
          | .ok result =>
              let newMap := if result.verified
                then newMap.insert key result else newMap
              match placeAll locOf prior wants newMap w with
              | (.ok (results, newMap), w) =>
                  (.ok (result :: results, newMap), w)
              | (.error err, w) => (.error err, w)

/-- The setters' removal pass over the tracked entries: those no longer
desired. -/
def removeStale {κ : Type} [DecidableEq κ] (desired : List κ) :
    List (Sigma fun _ : κ => BreakpointResult) → DbgEng →
      Except BackendError Unit × DbgEng
  | [], w => (.ok (), w)
  | ⟨key, old⟩ :: rest, w =>
      if key ∈ desired then removeStale desired rest w
      else
        match removeEngineBreakpoint e old.id w with
        | (.ok (), w) => removeStale desired rest w
        | (.error err, w) => (.error err, w)

-- ============================================================== backend

/-- `BreakpointTable`. -/
structure BreakpointTable where
  source : AList fun _ : String => BpMap UInt32
  function : BpMap String
  deriving DecidableEq

/-- The backend's breakpoints: the engine's, and its table of them. -/
structure WinDbg where
  engine : DbgEng
  breakpoints : BreakpointTable
  deriving DecidableEq

/-- A backend with nothing set. -/
def WinDbg.new : WinDbg where
  engine := .new
  breakpoints := ⟨∅, ∅⟩

/-- The tracked entries of one file. -/
def BreakpointTable.forFile (t : BreakpointTable) (file : String) :
    BpMap UInt32 :=
  (t.source.lookup file).getD ∅

/-- `set_source_breakpoints`. -/
def setSourceBreakpoints (file : String) (bps : List SourceBp)
    (s : WinDbg) :
    Except BackendError (List BreakpointResult) × WinDbg :=
  let prior := s.breakpoints.forFile file
  let wants := bps.map (sourceWant file)
  match placeAll e (.fileLine file) prior wants ∅ s.engine with
  | (.error err, w) => (.error err, { s with engine := w })
  | (.ok (results, newMap), w) =>
      let (removed, w) :=
        removeStale e (wants.filterMap Want.key?) prior.entries w
      let source := if newMap.keys.isEmpty
        then s.breakpoints.source.erase file
        else s.breakpoints.source.insert file newMap
      let s := { s with
        engine := w, breakpoints := { s.breakpoints with source } }
      match removed with
      | .error err => (.error err, s)
      | .ok () => (.ok results, s)

/-- `set_function_breakpoints`. -/
def setFunctionBreakpoints (bps : List FunctionBp) (s : WinDbg) :
    Except BackendError (List BreakpointResult) × WinDbg :=
  let prior := s.breakpoints.function
  let wants := bps.map functionWant
  match placeAll e .function prior wants ∅ s.engine with
  | (.error err, w) => (.error err, { s with engine := w })
  | (.ok (results, newMap), w) =>
      let (removed, w) :=
        removeStale e (wants.filterMap Want.key?) prior.entries w
      let s := { s with
        engine := w
        breakpoints := { s.breakpoints with function := newMap } }
      match removed with
      | .error err => (.error err, s)
      | .ok () => (.ok results, s)

/-- The launch flush of one file's breakpoints: one that fails is
skipped. -/
def flushSource (file : String) : List SourceBp → WinDbg → WinDbg
  | [], s => s
  | bp :: bps, s =>
      match tryLine bp.line with
      | none => flushSource file bps s
      | some line =>
          let (result, w) :=
            callSetBreakpoint e (.fileLine file line) bp.condition s.engine
          let s := { s with engine := w }
          match result with
          | .ok result =>
              flushSource file bps
                (if result.verified then
                  { s with breakpoints := { s.breakpoints with
                      source := s.breakpoints.source.insert file
                        ((s.breakpoints.forFile file).insert line
                          result) } }
                else s)
          | .error _ => flushSource file bps s

/-- The launch flush of the function breakpoints. -/
def flushFunction : List FunctionBp → WinDbg → WinDbg
  | [], s => s
  | bp :: bps, s =>
      if isBareAddressName bp.name then flushFunction bps s
      else
        let (result, w) :=
          callSetBreakpoint e (.function bp.name) bp.condition s.engine
        let s := { s with engine := w }
        match result with
        | .ok result =>
            flushFunction bps
              (if result.verified then
                { s with breakpoints := { s.breakpoints with
                    function := s.breakpoints.function.insert bp.name
                      result } }
              else s)
        | .error _ => flushFunction bps s

/-- The outcome of a WinDbg launch: it always stops at the loader
break. -/
def stopToLaunch : StopOutcome → LaunchOutcome
  | .stopped info => .stopped info
  | .exited code => .exited code
  | .terminated => .exited none

/-- `launch`: a stop flushes the pending breakpoints. -/
def winDbgLaunch (spec : LaunchSpec) (s : WinDbg) :
    Except BackendError LaunchOutcome × WinDbg :=
  if s.engine.gone then (.error .closed, s)
  else
  let s := { s with engine := { s.engine with conditions := ∅ } }
  match e.launch { program := spec.program, args := spec.args,
                        cwd := spec.cwd } with
  | .closed =>
      (.error .closed, { s with engine := { s.engine with gone := true } })
  | .failed message => (.error (.dap message), s)
  | .ok (.stopped info) =>
      let s := spec.sourceBreakpoints.foldl
        (fun s (file, bps) => flushSource e file bps s) s
      (.ok (stopToLaunch (.stopped info)),
        flushFunction e spec.functionBreakpoints s)
  | .ok outcome => (.ok (stopToLaunch outcome), s)

end

end DebugMcp
