/-
The engine's waits: `wait_for_event` with its conditional re-loop, the
event callbacks that run during a wait, and `go`, `step` and `break_in`
on top of it.

What DbgEng does is a script. A `Wait` is one call of `wait_for_event`: a
list of slices, one for each call of `WaitForEvent` it may make, with the
events that were told to the callbacks in each, how it ended, and what
DbgEng answers to what the code asks then. A script that is used up means
that nothing more happens.

`Trace` is not in the source: it is what has happened, for the
statements.
-/
import DebugMcp.Core
import Mathlib.Data.List.AList

namespace DebugMcp

-- ============================================================== errors

/-- A DbgEng failure: a COM call, or the engine's own refusal. -/
inductive EngineError
  | com (context : String) (detail : String)
  | engine (message : String)
  deriving DecidableEq

/-- The error's `Display` rendering; `detail` is the code and the
message of the system. -/
def EngineError.display : EngineError → String
  | com context detail => s!"{context} failed: {detail}"
  | engine message => message

/-- `map_engine_err`. -/
def mapEngineErr (err : EngineError) : BackendError := .dap err.display

/-- The error of a resume of a dump session. -/
def dumpSession : EngineError :=
  .engine "cannot continue a crash-dump session"

-- =========================================================== callbacks

/-- What DbgEng tells the event callbacks; `other` is an event of a kind
that they record nothing of, like the completion of a step. -/
inductive DebugEvent
  | breakpoint (id : UInt32) (offset : UInt64)
  | exception (firstChance : Bool) (code : UInt32) (address : UInt64)
  | exitProcess (code : UInt32)
  | other
  deriving DecidableEq

/-- A number in upper-case hexadecimal, of at least `width` digits. -/
def hexUpper (width n : Nat) : String :=
  String.ofList (List.leftpad width '0'
    ((Nat.toDigits 16 n).map Char.toUpper))

/-- What the callbacks record as the stop reason. -/
def DebugEvent.reason? : DebugEvent → Option String
  | breakpoint id offset =>
      some ("Breakpoint " ++ toString id ++ " hit at 0x"
        ++ hexUpper 0 offset.toNat)
  | exception firstChance code address =>
      some ((if firstChance then "First-chance" else "Second-chance")
        ++ " exception 0x" ++ hexUpper 8 code.toNat ++ " at 0x"
        ++ hexUpper 0 address.toNat)
  | exitProcess code => some ("Process exited with code " ++ toString code)
  | other => none

/-- `CallbackState`, without the output. -/
structure CallbackState where
  lastBreakpointId : Option UInt32
  lastBreakpointOffset : Option UInt64
  lastExceptionCode : Option UInt32
  lastExceptionAddress : Option UInt64
  lastExitCode : Option UInt32
  lastStopReason : String
  deriving DecidableEq

/-- `CallbackState::new`. -/
def CallbackState.new : CallbackState where
  lastBreakpointId := none
  lastBreakpointOffset := none
  lastExceptionCode := none
  lastExceptionAddress := none
  lastExitCode := none
  lastStopReason := ""

/-- The callbacks `Breakpoint`, `Exception` and `ExitProcess`. -/
def CallbackState.record (st : CallbackState) (ev : DebugEvent) :
    CallbackState :=
  let st := { st with
    lastStopReason := ev.reason?.getD st.lastStopReason }
  match ev with
  | .breakpoint id offset => { st with
      lastBreakpointId := some id, lastBreakpointOffset := some offset }
  | .exception _ code address => { st with
      lastExceptionCode := some code
      lastExceptionAddress := some address }
  | .exitProcess code => { st with lastExitCode := some code }
  | .other => st

-- ============================================================== engine

/-- The execution statuses. -/
inductive ExecStatus
  | go | goHandled | goNotHandled | stepOver | stepInto | stepBranch
  | broke | noDebuggee | residual
  deriving DecidableEq

/-- Does the status say that the target runs on? -/
def ExecStatus.resumed : ExecStatus → Bool
  | go | goHandled | goNotHandled | stepOver | stepInto | stepBranch =>
      true
  | _ => false

/-- How the target was set going. -/
inductive Resumption
  | status (s : ExecStatus)
  | gu
  deriving DecidableEq

/-- What has happened: the events told to the callbacks and the
resumptions, newest first; the event that ended the last wait, if one
did; whether the operation entered the break loop. -/
structure Trace where
  told : List DebugEvent
  resumptions : List Resumption
  ended : Option DebugEvent
  paused : Bool
  deriving DecidableEq

/-- The engine. -/
structure Engine where
  callbacks : CallbackState
  breakpointConditions : AList fun _ : UInt32 => String
  isDump : Bool
  trace : Trace

/-- An engine nothing has happened to. -/
def Engine.new : Engine where
  callbacks := .new
  breakpointConditions := ∅
  isDump := false
  trace := ⟨[], [], none, false⟩

-- ============================================================== script

/-- What `Evaluate` makes of an expression: an error, a part of it only,
or a value. -/
inductive Evaluated
  | failed
  | partly
  | value (v : UInt64)
  deriving DecidableEq

/-- DbgEng's answers after an event: the execution status, whether
`GetLastEventInformation` succeeds, what a condition evaluates to,
whether the target can be resumed, the current thread. -/
structure EventInfo where
  status : Except String ExecStatus
  lastEventOk : Bool
  evaluate : String → Evaluated
  resume : Except String Unit
  threadId : Option UInt32

/-- The answers when nothing fails, in thread 7; a condition evaluates to
`v`. -/
def EventInfo.healthy (status : ExecStatus) (v : UInt64) : EventInfo where
  status := .ok status
  lastEventOk := true
  evaluate := fun _ => .value v
  resume := .ok ()
  threadId := some 7

/-- How a call of `WaitForEvent` ends. -/
inductive SliceEnd
  | timedOut
  | failed (detail : String)
  | event (ev : DebugEvent) (info : EventInfo)

/-- A call of `WaitForEvent`: the events the target ran on after, and how
it ended. -/
structure Slice where
  passed : List DebugEvent
  finish : SliceEnd

/-- A call of `wait_for_event`; `query` is the failure of its query for
the control interface, if it fails. -/
structure Wait where
  query : Option String
  slices : List Slice

/-- What a wait gives. -/
inductive WaitResult
  | event (o : StopOutcome)
  | timedOut
  deriving DecidableEq

-- ================================================================ wait

/-- `condition_expr`. -/
def conditionExpr (condition : String) : String :=
  "@@c++( (" ++ condition ++ ") ? 1 : 0 )"

namespace Engine

variable (e : Engine)

/-- The callbacks are told an event. -/
def tell (ev : DebugEvent) : Engine := { e with
  callbacks := e.callbacks.record ev
  trace := { e.trace with told := ev :: e.trace.told } }

/-- The target is set going. -/
def resumeWith (r : Resumption) : Engine := { e with
  trace := { e.trace with resumptions := r :: e.trace.resumptions } }

/-- A wait is over. -/
def endWait (ended : Option DebugEvent) : Engine :=
  { e with trace := { e.trace with ended } }

/-- `breakpoint_condition_met`: what cannot be evaluated is not met. -/
def breakpointConditionMet (evaluate : String → Evaluated)
    (id : UInt32) : Bool :=
  match e.breakpointConditions.lookup id with
  | none => true
  | some condition =>
      let expr := conditionExpr condition
      if '\x00' ∈ expr.toList then false
      else match evaluate expr with
        | .failed | .partly => false
        | .value v => v != 0

/-- `build_stop_outcome`. -/
def buildStopOutcome (status : ExecStatus) (threadId : Option UInt32) :
    StopOutcome :=
  if e.callbacks.lastExitCode.isSome || status = .noDebuggee then
    .exited (e.callbacks.lastExitCode.map fun c => c.toNat)
  else .stopped
    { reason := e.callbacks.lastStopReason
      threadId := (threadId.map fun t => (t.toNat : Int)).getD 0
      description := ""
      hitBreakpointIds := (e.callbacks.lastBreakpointId.map fun id =>
        [(id.toNat : Int)]).getD [] }

/-- Is the event a hit of a breakpoint that `wait_for_event` skips? -/
def skips (ev : DebugEvent) (info : EventInfo) : Bool :=
  match ev with
  | .breakpoint id _ =>
      info.lastEventOk && !e.breakpointConditionMet info.evaluate id
  | _ => false

/-- `wait_for_event`, after its query. -/
def waitSlices : List Slice → Engine → Except EngineError WaitResult × Engine
  | [], e => (.ok .timedOut, e.endWait none)
  | slice :: rest, e =>
      let e := slice.passed.foldl tell e
      match slice.finish with
      | .timedOut => (.ok .timedOut, e.endWait none)
      | .failed detail =>
          (.error (.com "WaitForEvent" detail), e.endWait none)
      | .event ev info =>
          let e := e.tell ev
          match info.status with
          | .error detail =>
              (.error (.com "GetExecutionStatus" detail), e.endWait none)
          | .ok status =>
              if status.resumed then waitSlices rest e
              else if status = .broke && !e.breakpointConditions.keys.isEmpty
                  && e.skips ev info then
                match info.resume with
                | .error detail =>
                    (.error (.com "SetExecutionStatus(GO)" detail),
                      e.endWait none)
                | .ok () => waitSlices rest (e.resumeWith (.status .go))
              else (.ok (.event (e.buildStopOutcome status info.threadId)),
                e.endWait (some ev))

/-- `wait_for_event`. -/
def waitForEvent (w : Wait) (e : Engine) :
    Except EngineError WaitResult × Engine :=
  match w.query with
  | some detail =>
      (.error (.com "QueryInterface(IDebugControl)" detail), e.endWait none)
  | none => waitSlices w.slices e

end Engine

-- ============================================================ stepping

/-- How a step of this kind sets the target going. -/
def StepKind.resumption : StepKind → Resumption
  | .over => .status .stepOver
  | .into => .status .stepInto
  | .out => .gu

/-- The call that sets it going. -/
def StepKind.context : StepKind → String
  | .over => "SetExecutionStatus(STEP_OVER)"
  | .into => "SetExecutionStatus(STEP_INTO)"
  | .out => "Execute(gu)"

/-- `with_reason`. -/
def withReason (outcome : StopOutcome) (reason : String) : StopOutcome :=
  match outcome with
  | .stopped info => .stopped { info with reason }
  | other => other

/-- The reason the break loop gives a stop. -/
def paused (o : StopOutcome) : StopOutcome :=
  withReason o "Execution paused"

/-- A round of the break loop: the wait, the status, and the interrupt
that is issued again. -/
structure Round where
  wait : Wait
  status : Except String ExecStatus
  threadId : Option UInt32
  interrupt : Except String Unit

/-- A poll of `go`'s loop: has the deadline passed, was the flag set, and
the wait. -/
structure Poll where
  deadline : Bool
  flag : Bool
  wait : Wait

namespace Engine

/-- `step`; `start` is the answer to the call that sets the target
going. -/
def step (kind : StepKind) (start : Except String Unit) (w : Wait)
    (e : Engine) : Except EngineError StopOutcome × Engine :=
  if e.isDump then (.error dumpSession, e)
  else match start with
  | .error detail => (.error (.com kind.context detail), e)
  | .ok () =>
      match waitForEvent w (e.resumeWith kind.resumption) with
      | (.ok (.event o), e) => (.ok o, e)
      | (.ok .timedOut, e) => (.error (.engine "step: timed out"), e)
      | (.error err, e) => (.error err, e)

/-- The rounds of the break loop. -/
def breakRounds : List Round → Engine → Except EngineError StopOutcome × Engine
  | [], e => (.error (.engine "break: timed out"), e)
  | round :: rest, e =>
      match waitForEvent round.wait e with
      | (.error err, e) => (.error err, e)
      | (.ok (.event o), e) => (.ok (paused o), e)
      | (.ok .timedOut, e) =>
          match round.status with
          | .error detail => (.error (.com "GetExecutionStatus" detail), e)
          | .ok status =>
              if status = .broke || status = .noDebuggee then
                (.ok (paused (e.buildStopOutcome status round.threadId)), e)
              else match round.interrupt with
                | .error detail =>
                    (.error (.com "SetInterrupt(ACTIVE)" detail), e)
                | .ok () => breakRounds rest e

/-- `break_loop`, of at most 50 rounds. -/
def breakLoop (interrupt : Except String Unit) (rounds : List Round)
    (e : Engine) : Except EngineError StopOutcome × Engine :=
  let e := { e with trace := { e.trace with paused := true } }
  match interrupt with
  | .error detail => (.error (.com "SetInterrupt(ACTIVE)" detail), e)
  | .ok () => breakRounds (rounds.take 50) e

/-- `break_in`. -/
def breakIn (interrupt : Except String Unit) (rounds : List Round)
    (e : Engine) : Except EngineError StopOutcome × Engine :=
  if e.isDump then (.error dumpSession, e)
  else breakLoop interrupt rounds e

/-- `go`'s loop: an outcome, or nothing when it is left without. -/
def goLoop : List Poll → Engine →
    Except EngineError (Option StopOutcome) × Engine
  | [], e => (.ok none, e)
  | poll :: rest, e =>
      if poll.deadline || poll.flag then (.ok none, e)
      else match waitForEvent poll.wait e with
        | (.error err, e) => (.error err, e)
        | (.ok (.event o), e) => (.ok (some o), e)
        | (.ok .timedOut, e) => goLoop rest e

/-- `go`; `flag` is the flag after the loop. -/
def go (start : Except String Unit) (polls : List Poll) (flag : Bool)
    (interrupt : Except String Unit) (rounds : List Round) (e : Engine) :
    Except EngineError (Option StopOutcome) × Engine :=
  if e.isDump then (.error dumpSession, e)
  else match start with
  | .error detail => (.error (.com "SetExecutionStatus(GO)" detail), e)
  | .ok () =>
      match goLoop polls (e.resumeWith (.status .go)) with
      | (.error err, e) => (.error err, e)
      | (.ok (some o), e) => (.ok (some o), e)
      | (.ok none, e) =>
          if flag then
            match breakLoop interrupt rounds e with
            | (.ok o, e) => (.ok (some o), e)
            | (.error err, e) => (.error err, e)
          else (.ok none, e)

end Engine

end DebugMcp
