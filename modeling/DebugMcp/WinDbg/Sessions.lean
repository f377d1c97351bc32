/-
The engine's sessions: how one is begun and ended, and what a start that
fails leaves behind.

`launch`, `attach_pid`, `open_dump` and `attach_kernel` are chains of
DbgEng calls of which any may fail. Two things must not outlive a failed
one: DbgEng's option to break in at the first event, because a `go` that
still finds it set does not go, and the session itself. `start_clean_iff`
says exactly when a start that fails leaves neither. The four do not
agree: `attach_kernel` takes the option back where it cannot attach, and
ends its session where the wait fails; `launch` and `attach_pid` do
neither.

The engine keeps one bit of its own about the session, that it is a dump.
`sessions_agree` is that over a whole life of an engine this is what
DbgEng was last told: no operation sets a dump going, and a dump is ended
as one.
-/
import DebugMcp.Lib.Fallible
import DebugMcp.WinDbg.EngineBps
import DebugMcp.WinDbg.LaunchLine

namespace DebugMcp

open Fallible

-- ================================================================= state

/-- What DbgEng was bound to. -/
inductive SessionKind
  | live
  | dump
  | kernel
  deriving DecidableEq

/-- The flags of `EndSession`. -/
inductive EndFlag
  | passive
  | activeTerminate
  | activeDetach
  deriving DecidableEq

/-- The engine, with what DbgEng was told. -/
structure EngineSession where
  engine : Engine
  extensionsLoaded : Bool
  /-- The session DbgEng has begun and was not told to end. -/
  begun : Option SessionKind
  /-- Is `DEBUG_ENGOPT_INITIAL_BREAK` set? -/
  initialBreak : Bool
  /-- The ends DbgEng was asked for, with what it was bound to then, newest
  first. -/
  ends : List (EndFlag × Option SessionKind)

/-- `create`. -/
def EngineSession.new : EngineSession where
  engine := .new
  extensionsLoaded := false
  begun := none
  initialBreak := false
  ends := []

/-- What DbgEng answers to the calls of one operation. -/
structure SessionAnswers where
  getExecutionStatus : Except String ExecStatus
  addEngineOptions : Except String Unit
  removeEngineOptions : Except String Unit
  createProcess2 : String × Option String → Except String Unit
  attachProcess : UInt32 → Except String Unit
  attachKernel : String → Except String Unit
  openDumpFile : String → Except String Unit
  endSession : EndFlag → Except String Unit
  wait : Wait
  /-- `current_source_location().ok().flatten()`. -/
  currentSourceLocation : Option (String × Int)

/-- An operation of the engine. -/
abbrev LifecycleCall (α : Type) := Comp EngineError EngineSession α

-- ================================================================= calls

section

variable (d : SessionAnswers)

/-- An operation on the engine alone. -/
def onEngine {α : Type} (f : Engine → Except EngineError α × Engine) :
    LifecycleCall α := fun s =>
  ((f s.engine).1, { s with engine := (f s.engine).2 })

/-- `breakpoint_conditions.clear()`. -/
def clearConditions : LifecycleCall Unit :=
  update fun s => { s with
    engine := { s.engine with breakpointConditions := ∅ } }

/-- `is_dump = b`. -/
def setDump (b : Bool) : LifecycleCall Unit :=
  update fun s => { s with engine := { s.engine with isDump := b } }

/-- `AddEngineOptions(DEBUG_ENGOPT_INITIAL_BREAK)`. -/
def addInitialBreak : LifecycleCall Unit :=
  attempt (EngineError.op "AddEngineOptions(INITIAL_BREAK)"
    d.addEngineOptions) fun _ s => { s with initialBreak := true }

/-- `RemoveEngineOptions(DEBUG_ENGOPT_INITIAL_BREAK)`. -/
def removeInitialBreak : LifecycleCall Unit :=
  attempt (EngineError.op "RemoveEngineOptions(INITIAL_BREAK)"
    d.removeEngineOptions) fun _ s => { s with initialBreak := false }

/-- The call that begins a session. -/
def beginSession (context : String) (answer : Except String Unit)
    (kind : SessionKind) : LifecycleCall Unit :=
  attempt (EngineError.op context answer) fun _ s =>
    { s with begun := some kind }

/-- `EndSession`. -/
def endSession (flag : EndFlag) : LifecycleCall Unit := do
  update fun s => { s with ends := (flag, s.begun) :: s.ends }
  attempt (EngineError.op "EndSession" (d.endSession flag)) fun _ s =>
    { s with begun := none }

/-- `wait_for_event`. -/
def waitForSession : LifecycleCall WaitResult :=
  onEngine (Engine.waitForEvent d.wait)

-- ============================================================ operations

/-- The event a wait was for. -/
def WaitResult.outcome (timedOut : String) :
    WaitResult → Except EngineError StopOutcome
  | event o => .ok o
  | WaitResult.timedOut => .error (.engine timedOut)

/-- How `launch` and `attach_pid` wait for the break they asked for: the
option is taken back whatever comes of the wait, and the wait's failure
is told before the option's. -/
def firstBreak (timedOut : String) : LifecycleCall StopOutcome := do
  let wait ← result (waitForSession d)
  let removed ← result (removeInitialBreak d)
  let outcome ← lift wait
  lift removed
  lift (outcome.outcome timedOut)

/-- `launch`; the forced load of the main module's symbols, whose failure
is ignored, is left out. -/
def EngineSession.launch (req : LaunchReq) : LifecycleCall StopOutcome := do
  clearConditions
  addInitialBreak d
  let texts ← lift (createProcessTexts req)
  beginSession "CreateProcess2" (d.createProcess2 texts) .live
  let outcome ← firstBreak d
    "launch: timed out waiting for the initial breakpoint"
  return withReason outcome "Initial breakpoint"

/-- `attach_pid`; the debug privilege, which it asks for and can do
without, is left out. -/
def EngineSession.attachPid (pid : UInt32) : LifecycleCall StopOutcome := do
  clearConditions
  addInitialBreak d
  beginSession "AttachProcess" (d.attachProcess pid) .live
  firstBreak d "attach: timed out waiting for the initial break"

/-- The flag a session is ended with. -/
def endFlag (isDump terminate : Bool) : EndFlag :=
  if isDump then .passive
  else if terminate then .activeTerminate
  else .activeDetach

/-- `detach`. -/
def EngineSession.detach (terminate : Bool) : LifecycleCall Unit := fun s =>
  (do
    endSession d (endFlag s.engine.isDump terminate)
    setDump false
    update fun s => { s with extensionsLoaded := false }
    clearConditions : LifecycleCall Unit) s

/-- `open_dump`'s guard. -/
def noSession (status : ExecStatus) : Except EngineError Unit :=
  if status = .noDebuggee then .ok ()
  else .error (.engine "open_dump: a session is already active")

/-- What `open_dump` returns of its wait. -/
def dumpOutcome : WaitResult → Except EngineError DumpOutcome
  | .event o => .ok
      { stop :=
          match o with
          | .stopped info => some info
          | _ => none
        crashLocation := d.currentSourceLocation.map fun (file, line) =>
          s!"{file}:{line}" }
  | .timedOut => .error (.engine "open_dump: timed out loading dump")

/-- `open_dump`. -/
def EngineSession.openDump (path : String) : LifecycleCall DumpOutcome := do
  let status ← lift (EngineError.op "GetExecutionStatus"
    d.getExecutionStatus)
  lift (noSession status)
  let path ← lift (cString
    "open_dump: dump path contains an interior NUL byte" path)
  beginSession "OpenDumpFile" (d.openDumpFile path) .dump
  setDump true
  let wait ← waitForSession d
  lift (dumpOutcome d wait)

/-- How `attach_kernel` waits for the break it asked for: where the wait
fails, the session is ended. -/
def kernelBreak : LifecycleCall StopOutcome := do
  let wait ← result (waitForSession d)
  let removed ← result (removeInitialBreak d)
  match wait with
  | .error err =>
      let _ ← result (endSession d .activeDetach)
      setDump false
      lift (.error err)
  | .ok outcome =>
      lift removed
      lift (outcome.outcome
        "attach_kernel: kernel wait returned without an event")

/-- `attach_kernel`. -/
def EngineSession.attachKernel (connection : String) :
    LifecycleCall StopOutcome := do
  clearConditions
  let connection ← lift (cString
    "attach_kernel: connection string contains an interior NUL byte"
    connection)
  addInitialBreak d
  match ← result (beginSession "AttachKernel"
      (d.attachKernel connection) .kernel) with
  | .error err =>
      let _ ← result (removeInitialBreak d)
      lift (.error err)
  | .ok () =>
      setDump false
      kernelBreak d

end

-- ================================================================== runs

/-- An operation, with what it needs of the script. -/
inductive LifecycleOp
  | launch (req : LaunchReq)
  | attachPid (pid : UInt32)
  | openDump (path : String)
  | attachKernel (connection : String)
  | detach (terminate : Bool)
  | go (start : Except String Unit) (polls : List Poll) (flag : Bool)
      (interrupt : Except String Unit) (rounds : List Round)
  | step (kind : StepKind) (start : Except String Unit)
  | breakIn (interrupt : Except String Unit) (rounds : List Round)

/-- What it does; what it returns is left out. -/
def LifecycleOp.run (d : SessionAnswers) : LifecycleOp → LifecycleCall Unit
  | launch req => do let _ ← EngineSession.launch d req
  | attachPid pid => do let _ ← EngineSession.attachPid d pid
  | openDump path => do let _ ← EngineSession.openDump d path
  | attachKernel connection => do
      let _ ← EngineSession.attachKernel d connection
  | detach terminate => EngineSession.detach d terminate
  | go start polls flag interrupt rounds => do
      let _ ← onEngine (Engine.go start polls flag interrupt rounds)
  | step kind start => do let _ ← onEngine (Engine.step kind start d.wait)
  | breakIn interrupt rounds => do
      let _ ← onEngine (Engine.breakIn interrupt rounds)

/-- Does it set the target going, or interrupt it? -/
def LifecycleOp.resumes : LifecycleOp → Bool
  | go .. | step .. | breakIn .. => true
  | _ => false

/-- The states of an engine's life in which `allowed` holds of every
operation before it is run. -/
inductive LifecycleRun
    (allowed : EngineSession → SessionAnswers → LifecycleOp → Prop) :
    EngineSession → Prop
  | new : LifecycleRun allowed .new
  | op {s : EngineSession} (hs : LifecycleRun allowed s) (d : SessionAnswers)
      (op : LifecycleOp) (h : allowed s d op) :
      LifecycleRun allowed (op.run d s).2

/-- What holds of a new engine and is kept by every operation allowed
holds all its life. -/
theorem LifecycleRun.invariant {I : EngineSession → Prop}
    {allowed : EngineSession → SessionAnswers → LifecycleOp → Prop}
    (hnew : I .new)
    (hop : ∀ s d op, allowed s d op → I s → I (op.run d s).2)
    {s : EngineSession} (hs : LifecycleRun allowed s) : I s := by
  induction hs with
  | new => exact hnew
  | op hs d op h ih => exact hop _ d op h ih

-- ============================================================== the dump

namespace Engine

/-- Telling events does not make a dump of a session. -/
@[simp] theorem foldl_tell_isDump (evs : List DebugEvent) (e : Engine) :
    (evs.foldl tell e).isDump = e.isDump := by
  induction evs generalizing e with
  | nil => rfl
  | cons ev evs ih => exact ih (e.tell ev)

/-- Nor does a wait. -/
theorem waitSlices_isDump (slices : List Slice) (e : Engine) :
    (waitSlices slices e).2.isDump = e.isDump := by
  induction slices generalizing e with
  | nil => rfl
  | cons slice rest ih =>
      have htold := foldl_tell_isDump slice.passed e
      unfold waitSlices
      generalize slice.passed.foldl tell e = e₁ at htold ⊢
      cases slice.finish with
      | timedOut => exact htold
      | failed detail => exact htold
      | event ev info =>
          dsimp only
          cases info.status with
          | error detail => exact htold
          | ok status =>
              dsimp only
              split_ifs
              · exact (ih _).trans htold
              · cases info.resume with
                | error detail => exact htold
                | ok u => exact (ih _).trans htold
              · exact htold

@[simp] theorem waitForEvent_isDump (w : Wait) (e : Engine) :
    (waitForEvent w e).2.isDump = e.isDump := by
  unfold waitForEvent
  cases w.query with
  | some detail => rfl
  | none => exact waitSlices_isDump w.slices e

theorem breakRounds_isDump (rounds : List Round) (e : Engine) :
    (breakRounds rounds e).2.isDump = e.isDump := by
  induction rounds generalizing e with
  | nil => rfl
  | cons round rest ih =>
      have hwait := waitForEvent_isDump round.wait e
      unfold breakRounds
      generalize waitForEvent round.wait e = r at hwait ⊢
      obtain ⟨outcome, e₁⟩ := r
      cases outcome with
      | error err => exact hwait
      | ok outcome =>
          cases outcome with
          | event o => exact hwait
          | timedOut =>
              dsimp only
              cases round.status with
              | error detail => exact hwait
              | ok status =>
                  dsimp only
                  split
                  · exact hwait
                  · cases round.interrupt with
                    | error detail => exact hwait
                    | ok u => exact (ih e₁).trans hwait

theorem breakLoop_isDump (interrupt : Except String Unit)
    (rounds : List Round) (e : Engine) :
    (breakLoop interrupt rounds e).2.isDump = e.isDump := by
  unfold breakLoop
  cases interrupt with
  | error detail => rfl
  | ok u => exact breakRounds_isDump _ _

theorem goLoop_isDump (polls : List Poll) (e : Engine) :
    (goLoop polls e).2.isDump = e.isDump := by
  induction polls generalizing e with
  | nil => rfl
  | cons poll rest ih =>
      have hwait := waitForEvent_isDump poll.wait e
      unfold goLoop
      split
      · rfl
      · generalize waitForEvent poll.wait e = r at hwait ⊢
        obtain ⟨outcome, e₁⟩ := r
        cases outcome with
        | error err => exact hwait
        | ok outcome =>
            cases outcome with
            | event o => exact hwait
            | timedOut => exact (ih e₁).trans hwait

/-- A resume does not change what the session is. -/
theorem go_isDump (start : Except String Unit) (polls : List Poll)
    (flag : Bool) (interrupt : Except String Unit) (rounds : List Round)
    (e : Engine) :
    (go start polls flag interrupt rounds e).2.isDump = e.isDump := by
  unfold go
  split
  · rfl
  · cases start with
    | error detail => rfl
    | ok u =>
        have hloop := goLoop_isDump polls (e.resumeWith (.status .go))
        dsimp only
        generalize goLoop polls (e.resumeWith (.status .go)) = r at hloop ⊢
        obtain ⟨outcome, e₁⟩ := r
        cases outcome with
        | error err => exact hloop
        | ok outcome =>
            cases outcome with
            | some o => exact hloop
            | none =>
                have hbreak := breakLoop_isDump interrupt rounds e₁
                dsimp only
                generalize breakLoop interrupt rounds e₁ = r at hbreak ⊢
                obtain ⟨o, e₂⟩ := r
                cases flag with
                | false => exact hloop
                | true => cases o <;> exact hbreak.trans hloop

theorem step_isDump (kind : StepKind) (start : Except String Unit)
    (w : Wait) (e : Engine) :
    (step kind start w e).2.isDump = e.isDump := by
  unfold step
  split
  · rfl
  · cases start with
    | error detail => rfl
    | ok u =>
        have hwait := waitForEvent_isDump w (e.resumeWith kind.resumption)
        dsimp only
        generalize waitForEvent w (e.resumeWith kind.resumption) = r
          at hwait ⊢
        obtain ⟨outcome, e₁⟩ := r
        cases outcome with
        | error err => exact hwait
        | ok outcome => cases outcome <;> exact hwait

theorem breakIn_isDump (interrupt : Except String Unit)
    (rounds : List Round) (e : Engine) :
    (breakIn interrupt rounds e).2.isDump = e.isDump := by
  unfold breakIn
  split
  · rfl
  · exact breakLoop_isDump interrupt rounds e

end Engine

-- ================================================================= parts

/-- What `breakpoint_conditions.clear()` leaves. -/
def EngineSession.cleared (s : EngineSession) : EngineSession :=
  { s with engine := { s.engine with breakpointConditions := ∅ } }

section

variable {d : SessionAnswers} {s : EngineSession}

@[simp] theorem clearConditions_apply :
    clearConditions s = (.ok (), s.cleared) := rfl

@[simp] theorem cleared_isDump : s.cleared.engine.isDump = s.engine.isDump :=
  rfl

@[simp] theorem cleared_begun : s.cleared.begun = s.begun := rfl

@[simp] theorem cleared_initialBreak :
    s.cleared.initialBreak = s.initialBreak := rfl

@[simp] theorem cleared_ends : s.cleared.ends = s.ends := rfl

@[simp] theorem setDump_apply (b : Bool) : setDump b s = (.ok (),
    { s with engine := { s.engine with isDump := b } }) := rfl

/-- A wait only changes the engine. -/
theorem waitForSession_state : (waitForSession d s).2
    = { s with engine := (Engine.waitForEvent d.wait s.engine).2 } := rfl

/-- The option is taken back, or is not. -/
theorem removeInitialBreak_state : (removeInitialBreak d s).2
    = { s with initialBreak :=
        s.initialBreak && decide (d.removeEngineOptions ≠ .ok ()) } := by
  unfold removeInitialBreak
  cases d.removeEngineOptions with
  | ok u => simp [attempt, EngineError.op, Except.mapError]
  | error detail => simp [attempt, EngineError.op, Except.mapError]

/-- The session is ended, or is not; that it was to be is noted. -/
theorem endSession_state (flag : EndFlag) : (endSession d flag s).2
    = { s with
        begun := if d.endSession flag = .ok () then none else s.begun
        ends := (flag, s.begun) :: s.ends } := by
  unfold endSession
  cases d.endSession flag with
  | ok u => simp [attempt, EngineError.op, Except.mapError]
  | error detail => simp [attempt, EngineError.op, Except.mapError]

/-- What is left by a wait for the first break. -/
theorem firstBreak_state (timedOut : String) :
    (firstBreak d timedOut s).2
      = (removeInitialBreak d (waitForSession d s).2).2 := by
  simp only [firstBreak, result, bind_apply, next_ok]
  generalize waitForSession d s = wait
  obtain ⟨outcome, s₁⟩ := wait
  generalize removeInitialBreak d s₁ = removed
  obtain ⟨removed, s₂⟩ := removed
  cases outcome with
  | error err => rfl
  | ok outcome =>
      cases removed with
      | error err => rfl
      | ok u => rfl

/-- What is left where the wait for a kernel does not fail. -/
theorem kernelBreak_state {outcome : WaitResult}
    (h : (waitForSession d s).1 = .ok outcome) :
    (kernelBreak d s).2
      = (removeInitialBreak d (waitForSession d s).2).2 := by
  simp only [kernelBreak, bind_apply, result_apply, next_ok, h]
  generalize removeInitialBreak d (waitForSession d s).2 = removed
  obtain ⟨removed, s'⟩ := removed
  cases removed with
  | error err => rfl
  | ok u => rfl

/-- And where it fails. -/
theorem kernelBreak_failed {err : EngineError}
    (h : (waitForSession d s).1 = .error err) :
    (kernelBreak d s).2 = (setDump false (endSession d .activeDetach
      (removeInitialBreak d (waitForSession d s).2).2).2).2 := by
  simp only [kernelBreak, bind_apply, result_apply, next_ok, h]
  rfl

-- ================================================================ starts

/-- What `launch` and `attach_pid` leave; `begins` says whether DbgEng
begins the session. -/
inductive StartsLive (d : SessionAnswers) (s : EngineSession)
    (begins : Prop) : EngineSession → Prop
  | refused (h : d.addEngineOptions ≠ .ok ()) :
      StartsLive d s begins s.cleared
  | notBegun (h : d.addEngineOptions = .ok ()) (hb : ¬ begins) :
      StartsLive d s begins { s.cleared with initialBreak := true }
  | begun (h : d.addEngineOptions = .ok ()) (hb : begins) (m : String) :
      StartsLive d s begins (firstBreak d m { s.cleared with
        initialBreak := true, begun := some .live }).2

/-- Does DbgEng create the process of a launch? -/
def SessionAnswers.Creates (d : SessionAnswers) (req : LaunchReq) : Prop :=
  ∃ texts, createProcessTexts req = .ok texts ∧
    d.createProcess2 texts = .ok ()

@[simp] theorem op_of_ok {α : Type} (context : String) (a : α) :
    EngineError.op context (.ok a) = .ok a := rfl

@[simp] theorem op_of_error {α : Type} (context detail : String) :
    (EngineError.op context (.error detail) : Except EngineError α)
      = .error (.com context detail) := rfl

theorem launch_starts (req : LaunchReq) :
    StartsLive d s (d.Creates req) (EngineSession.launch d req s).2 := by
  unfold EngineSession.launch addInitialBreak
  cases hadd : d.addEngineOptions with
  | error detail => exact .refused (by simp [hadd])
  | ok u =>
      cases htexts : createProcessTexts req with
      | error err =>
          refine .notBegun hadd ?_
          rintro ⟨texts, hx, -⟩
          rw [htexts] at hx
          cases hx
      | ok texts =>
          simp only [bind_apply, clearConditions_apply, next_ok, op_of_ok,
            attempt_ok, lift_apply, beginSession]
          cases hcreate : d.createProcess2 texts with
          | error detail =>
              refine .notBegun hadd ?_
              rintro ⟨texts', hx, hc⟩
              rw [htexts] at hx
              cases hx
              rw [hcreate] at hc
              cases hc
          | ok u =>
              simp only [op_of_ok, attempt_ok, next_ok, bind_apply,
                next_pure_state]
              exact .begun hadd ⟨texts, htexts, hcreate⟩ _

theorem attachPid_starts (pid : UInt32) :
    StartsLive d s (d.attachProcess pid = .ok ())
      (EngineSession.attachPid d pid s).2 := by
  unfold EngineSession.attachPid addInitialBreak
  cases hadd : d.addEngineOptions with
  | error detail => exact .refused (by simp [hadd])
  | ok u =>
      simp only [bind_apply, clearConditions_apply, next_ok, op_of_ok,
        attempt_ok, beginSession]
      cases hattach : d.attachProcess pid with
      | error detail => exact .notBegun hadd (by simp)
      | ok u =>
          rw [op_of_ok, attempt_ok, next_ok]
          exact .begun hadd rfl _

/-- Does DbgEng open the dump? -/
def SessionAnswers.Opens (d : SessionAnswers) (path : String) : Prop :=
  d.getExecutionStatus = .ok .noDebuggee ∧ '\x00' ∉ path.toList ∧
    d.openDumpFile path = .ok ()

/-- What `open_dump` leaves. -/
inductive OpensDump (d : SessionAnswers) (s : EngineSession)
    (path : String) : EngineSession → Prop
  | refused (h : ¬ d.Opens path) : OpensDump d s path s
  | opened (h : d.Opens path) : OpensDump d s path
      (waitForSession d { s with
        begun := some .dump, engine := { s.engine with isDump := true } }).2

theorem noSession_ok {status : ExecStatus} :
    noSession status = .ok () ↔ status = .noDebuggee := by
  unfold noSession
  split
  · simp_all
  · simp_all

theorem openDump_opens (path : String) :
    OpensDump d s path (EngineSession.openDump d path s).2 := by
  unfold EngineSession.openDump
  cases hstatus : d.getExecutionStatus with
  | error detail =>
      refine .refused fun h => ?_
      have hs := h.1
      rw [hstatus] at hs
      cases hs
  | ok status =>
      simp only [bind_apply, lift_apply, op_of_ok, next_ok]
      cases hguard : noSession status with
      | error err =>
          refine .refused fun h => ?_
          have hs := h.1
          rw [hstatus] at hs
          cases hs
          cases hguard
      | ok u =>
          have hs := noSession_ok.mp hguard
          subst hs
          unfold cString
          split
          case isTrue hnul =>
            exact .refused fun h => h.2.1 hnul
          case isFalse hnul =>
            simp only [bind_apply, lift_apply, next_ok, beginSession]
            cases hopen : d.openDumpFile path with
            | error detail =>
                refine .refused fun h => ?_
                have ho := h.2.2
                rw [hopen] at ho
                cases ho
            | ok u =>
                simp only [op_of_ok, attempt_ok, next_ok, bind_apply,
                  setDump_apply, next_lift_state]
                exact .opened ⟨hstatus, hnul, hopen⟩

/-- The state `attach_kernel` waits in. -/
def EngineSession.onKernel (s : EngineSession) : EngineSession :=
  { s.cleared with
    initialBreak := true, begun := some .kernel
    engine := { s.cleared.engine with isDump := false } }

/-- Does DbgEng attach to the kernel? -/
def SessionAnswers.Attaches (d : SessionAnswers) (connection : String) :
    Prop :=
  '\x00' ∉ connection.toList ∧ d.addEngineOptions = .ok () ∧
    d.attachKernel connection = .ok ()

/-- Does the wait of `attach_kernel` fail? -/
def SessionAnswers.KernelWaitFails (d : SessionAnswers)
    (s : EngineSession) : Prop :=
  ∃ err, (waitForSession d s.onKernel).1 = .error err

/-- What `attach_kernel` leaves. -/
inductive AttachesKernel (d : SessionAnswers) (s : EngineSession)
    (connection : String) : EngineSession → Prop
  | refused (h : '\x00' ∈ connection.toList ∨ d.addEngineOptions ≠ .ok ()) :
      AttachesKernel d s connection s.cleared
  | notBegun (hnul : '\x00' ∉ connection.toList)
      (hadd : d.addEngineOptions = .ok ())
      (hattach : d.attachKernel connection ≠ .ok ()) :
      AttachesKernel d s connection
        (removeInitialBreak d { s.cleared with initialBreak := true }).2
  | begun (h : d.Attaches connection) (hwait : ¬ d.KernelWaitFails s) :
      AttachesKernel d s connection
        (removeInitialBreak d (waitForSession d s.onKernel).2).2
  | ended (h : d.Attaches connection) (hwait : d.KernelWaitFails s) :
      AttachesKernel d s connection
        (setDump false (endSession d .activeDetach
          (removeInitialBreak d (waitForSession d s.onKernel).2).2).2).2

theorem attachKernel_attaches (connection : String) :
    AttachesKernel d s connection
      (EngineSession.attachKernel d connection s).2 := by
  unfold EngineSession.attachKernel cString addInitialBreak
  simp only [bind_apply, clearConditions_apply, next_ok, lift_apply]
  split
  case isTrue hnul => exact .refused (.inl hnul)
  case isFalse hnul =>
    simp only [next_ok, bind_apply]
    cases hadd : d.addEngineOptions with
    | error detail => exact .refused (.inr (by simp [hadd]))
    | ok u =>
        simp only [op_of_ok, attempt_ok, next_ok, bind_apply, beginSession,
          result_apply]
        cases hattach : d.attachKernel connection with
        | error detail =>
            exact .notBegun hnul hadd (by simp [hattach])
        | ok u =>
            have h : d.Attaches connection := ⟨hnul, hadd, hattach⟩
            simp only [op_of_ok, attempt_ok, bind_apply, setDump_apply,
              next_ok]
            show AttachesKernel d s connection (kernelBreak d s.onKernel).2
            cases hwait : (waitForSession d s.onKernel).1 with
            | error err =>
                rw [kernelBreak_failed hwait]
                exact .ended h ⟨err, hwait⟩
            | ok outcome =>
                rw [kernelBreak_state hwait]
                apply AttachesKernel.begun h
                simp [SessionAnswers.KernelWaitFails, hwait]

/-- What `detach` leaves where `EndSession` succeeds. -/
def EngineSession.ended (s : EngineSession) (flag : EndFlag) :
    EngineSession where
  engine := { s.cleared.engine with isDump := false }
  extensionsLoaded := false
  begun := none
  initialBreak := s.initialBreak
  ends := (flag, s.begun) :: s.ends

theorem detach_ok {terminate : Bool}
    (h : d.endSession (endFlag s.engine.isDump terminate) = .ok ()) :
    (EngineSession.detach d terminate s).2
      = s.ended (endFlag s.engine.isDump terminate) := by
  simp only [EngineSession.detach, endSession, bind_apply, update_apply,
    next_ok, h, op_of_ok, attempt_ok, setDump_apply]
  rfl

theorem detach_failed {terminate : Bool} {detail : String}
    (h : d.endSession (endFlag s.engine.isDump terminate)
      = .error detail) :
    (EngineSession.detach d terminate s).2 = { s with
      ends := (endFlag s.engine.isDump terminate, s.begun) :: s.ends } := by
  simp only [EngineSession.detach, endSession, bind_apply, update_apply,
    next_ok, h, op_of_error, attempt_error, next_error]

/-- A resume only changes the engine, and not what its session is. -/
theorem resumes_state {op : LifecycleOp} (h : op.resumes = true) :
    ∃ e : Engine, (op.run d s).2 = { s with engine := e } ∧
      e.isDump = s.engine.isDump := by
  cases op with
  | go start polls flag interrupt rounds =>
      refine ⟨_, ?_, Engine.go_isDump start polls flag interrupt rounds _⟩
      simp only [LifecycleOp.run, bind_apply, next_pure_state]
      rfl
  | step kind start =>
      refine ⟨_, ?_, Engine.step_isDump kind start d.wait _⟩
      simp only [LifecycleOp.run, bind_apply, next_pure_state]
      rfl
  | breakIn interrupt rounds =>
      refine ⟨_, ?_, Engine.breakIn_isDump interrupt rounds _⟩
      simp only [LifecycleOp.run, bind_apply, next_pure_state]
      rfl
  | launch | attachPid | openDump | attachKernel | detach => cases h

/-- A dump is not resumed. -/
theorem resumes_dump {op : LifecycleOp} (h : op.resumes = true)
    (hdump : s.engine.isDump = true) :
    op.run d s = (.error dumpSession, s) := by
  cases op with
  | go start polls flag interrupt rounds =>
      simp [LifecycleOp.run, onEngine, Engine.go, hdump]
  | step kind start =>
      simp [LifecycleOp.run, onEngine, Engine.step, hdump]
  | breakIn interrupt rounds =>
      simp [LifecycleOp.run, onEngine, Engine.breakIn, hdump]
  | launch | attachPid | openDump | attachKernel | detach => cases h

-- ============================================================= agreement

/-- The engine's bit is what DbgEng was told: of the session, and of each
one it was told to end. -/
structure EngineSession.Agrees (s : EngineSession) : Prop where
  kind : s.engine.isDump = true ↔ s.begun = some .dump
  ends : ∀ x ∈ s.ends, x.1 = .passive ↔ x.2 = some .dump

theorem agrees_new : EngineSession.new.Agrees where
  kind := by simp [EngineSession.new, Engine.new]
  ends := by simp [EngineSession.new]

theorem endFlag_passive {isDump terminate : Bool} :
    endFlag isDump terminate = .passive ↔ isDump = true := by
  cases isDump <;> cases terminate <;> decide

namespace EngineSession.Agrees

theorem wait (h : s.Agrees) : (waitForSession d s).2.Agrees where
  kind := by
    rw [waitForSession_state, Engine.waitForEvent_isDump]
    exact h.kind
  ends := h.ends

theorem removed (h : s.Agrees) : (removeInitialBreak d s).2.Agrees := by
  rw [removeInitialBreak_state]
  exact ⟨h.kind, h.ends⟩

theorem firstBreak (h : s.Agrees) (m : String) :
    (firstBreak d m s).2.Agrees := by
  rw [firstBreak_state]
  exact h.wait.removed

/-- A live start, over anything but a dump. -/
theorem startsLive {begins : Prop} {t : EngineSession} (h : s.Agrees)
    (hlive : s.begun ≠ some .dump) (ht : StartsLive d s begins t) :
    t.Agrees := by
  cases ht with
  | refused _ => exact ⟨h.kind, h.ends⟩
  | notBegun _ _ => exact ⟨h.kind, h.ends⟩
  | begun _ _ m =>
      apply firstBreak
      refine ⟨?_, h.ends⟩
      have hdump : s.engine.isDump ≠ true := fun hd => hlive (h.kind.mp hd)
      simp [hdump]

theorem opensDump {path : String} {t : EngineSession} (h : s.Agrees)
    (ht : OpensDump d s path t) : t.Agrees := by
  cases ht with
  | refused _ => exact h
  | opened _ =>
      apply wait
      exact ⟨by simp, h.ends⟩

theorem onKernel (h : s.Agrees) : s.onKernel.Agrees where
  kind := by simp [EngineSession.onKernel]
  ends := h.ends

/-- A kernel's session is ended as a live one. -/
theorem endKernel (h : s.Agrees) (hkernel : s.begun = some .kernel) :
    (setDump false (endSession d .activeDetach s).2).2.Agrees := by
  rw [endSession_state, hkernel]
  constructor
  · by_cases hend : d.endSession .activeDetach = .ok ()
    · simp [hend]
    · simp [hend]
  · intro x hx
    rcases List.mem_cons.mp hx with rfl | hx
    · simp
    · exact h.ends x hx

theorem attachesKernel {connection : String} {t : EngineSession}
    (h : s.Agrees) (ht : AttachesKernel d s connection t) : t.Agrees := by
  cases ht with
  | refused _ => exact ⟨h.kind, h.ends⟩
  | notBegun _ _ _ => exact removed ⟨h.kind, h.ends⟩
  | begun _ _ => exact h.onKernel.wait.removed
  | ended _ _ =>
      apply endKernel h.onKernel.wait.removed
      rw [removeInitialBreak_state, waitForSession_state]
      rfl

theorem detach (h : s.Agrees) (terminate : Bool) :
    (EngineSession.detach d terminate s).2.Agrees := by
  have hends : ∀ x ∈ (endFlag s.engine.isDump terminate, s.begun) :: s.ends,
      x.1 = .passive ↔ x.2 = some .dump := by
    intro x hx
    rcases List.mem_cons.mp hx with rfl | hx
    · exact endFlag_passive.trans h.kind
    · exact h.ends x hx
  cases hend : d.endSession (endFlag s.engine.isDump terminate) with
  | ok u =>
      rw [detach_ok hend]
      exact ⟨by simp [EngineSession.ended], hends⟩
  | error detail =>
      rw [detach_failed hend]
      exact ⟨h.kind, hends⟩

theorem resumes {op : LifecycleOp} (h : s.Agrees)
    (hop : op.resumes = true) : (op.run d s).2.Agrees := by
  obtain ⟨e, hs, he⟩ := resumes_state (d := d) (s := s) hop
  rw [hs]
  exact ⟨by rw [he]; exact h.kind, h.ends⟩

end EngineSession.Agrees

/-- `launch` and `attach_pid` are not for an engine with a dump; the
backend's engines are given one session each. -/
def LifecycleOp.Fresh (s : EngineSession) : LifecycleOp → Prop
  | launch _ | attachPid _ => s.begun ≠ some .dump
  | _ => True

theorem agrees_run {op : LifecycleOp} (hop : op.Fresh s) (h : s.Agrees) :
    (op.run d s).2.Agrees := by
  cases op with
  | launch req =>
      simp only [LifecycleOp.run, bind_apply, next_pure_state]
      exact h.startsLive hop (launch_starts req)
  | attachPid pid =>
      simp only [LifecycleOp.run, bind_apply, next_pure_state]
      exact h.startsLive hop (attachPid_starts pid)
  | openDump path =>
      simp only [LifecycleOp.run, bind_apply, next_pure_state]
      exact h.opensDump (openDump_opens path)
  | attachKernel connection =>
      simp only [LifecycleOp.run, bind_apply, next_pure_state]
      exact h.attachesKernel (attachKernel_attaches connection)
  | detach terminate => exact h.detach terminate
  | go start polls flag interrupt rounds => exact h.resumes rfl
  | step kind start => exact h.resumes rfl
  | breakIn interrupt rounds => exact h.resumes rfl

end

/-- Whatever DbgEng answers and whichever operations fail, the engine
takes its session for a dump exactly when DbgEng's is one, each session
was ended as what it was, and a dump is never set going: the resume is
refused and nothing is changed. -/
theorem sessions_agree {s : EngineSession}
    (hs : LifecycleRun (fun s _ op => op.Fresh s) s) :
    (s.engine.isDump = true ↔ s.begun = some .dump) ∧
    (∀ x ∈ s.ends, x.1 = .passive ↔ x.2 = some .dump) ∧
    ∀ (d : SessionAnswers) (op : LifecycleOp), op.resumes = true →
      s.begun = some .dump → op.run d s = (.error dumpSession, s) := by
  have h : s.Agrees := hs.invariant agrees_new
    fun s d op hop => agrees_run (d := d) hop
  refine ⟨h.kind, h.ends, ?_⟩
  intro d op hop hdump
  exact resumes_dump hop (h.kind.mpr hdump)

/-- A DbgEng that does all it is asked to, except to end a session. -/
def SessionAnswers.holding : SessionAnswers where
  getExecutionStatus := .ok .noDebuggee
  addEngineOptions := .ok ()
  removeEngineOptions := .ok ()
  createProcess2 := fun _ => .ok ()
  attachProcess := fun _ => .ok ()
  attachKernel := fun _ => .ok ()
  openDumpFile := fun _ => .ok ()
  endSession := fun _ => .error "0x8000FFFF"
  wait := ⟨none, [⟨[], .event .other (.healthy .broke 0)⟩]⟩
  currentSourceLocation := none

/-- A dump that is opened after a launch that found no debugger, and could
not be ended. -/
def heldDump : EngineSession :=
  (LifecycleOp.run .holding (.detach true)
    (LifecycleOp.run .holding (.openDump "crash.dmp")
      (LifecycleOp.run { SessionAnswers.holding with
        addEngineOptions := .error "0x8000FFFF" }
        (.attachPid 7) .new).2).2).2

theorem held_dump_agrees :
    heldDump.begun = some .dump ∧ heldDump.ends = [(.passive, some .dump)] ∧
    LifecycleOp.run .holding (.step .over (.ok ())) heldDump
      = (.error dumpSession, heldDump) := by
  have hs : LifecycleRun (fun s _ op => op.Fresh s) heldDump := by
    refine .op (.op (.op .new _ (.attachPid 7) ?_) _ (.openDump _) ?_) _
      (.detach true) ?_
    · show EngineSession.new.begun ≠ some .dump
      decide
    · trivial
    · trivial
  have hdump : heldDump.begun = some .dump := by decide +kernel
  refine ⟨hdump, by decide +kernel, ?_⟩
  exact (sessions_agree hs).2.2 .holding _ rfl hdump

-- ================================================================ residue

/-- Does the operation leave the option set? `launch` and `attach_pid`
take it back only once the session has begun. -/
def LifecycleOp.LeavesBreak (d : SessionAnswers) : LifecycleOp → Prop
  | launch req => d.addEngineOptions = .ok () ∧
      (d.Creates req → d.removeEngineOptions ≠ .ok ())
  | attachPid pid => d.addEngineOptions = .ok () ∧
      (d.attachProcess pid = .ok () → d.removeEngineOptions ≠ .ok ())
  | attachKernel connection => '\x00' ∉ connection.toList ∧
      d.addEngineOptions = .ok () ∧ d.removeEngineOptions ≠ .ok ()
  | _ => False

/-- Does it leave a session begun? That of a kernel is ended where the
wait fails. -/
def LifecycleOp.LeavesSession (d : SessionAnswers) (s : EngineSession) :
    LifecycleOp → Prop
  | launch req => d.addEngineOptions = .ok () ∧ d.Creates req
  | attachPid pid =>
      d.addEngineOptions = .ok () ∧ d.attachProcess pid = .ok ()
  | openDump path => d.Opens path
  | attachKernel connection => d.Attaches connection ∧
      (d.KernelWaitFails s → d.endSession .activeDetach ≠ .ok ())
  | _ => False

section

variable {d : SessionAnswers} {s : EngineSession}

theorem startsLive_leaves {begins : Prop} {t : EngineSession}
    (ht : StartsLive d s begins t) (hopt : s.initialBreak = false)
    (hnone : s.begun = none) :
    (t.initialBreak = true ↔ d.addEngineOptions = .ok () ∧
      (begins → d.removeEngineOptions ≠ .ok ())) ∧
    (t.begun ≠ none ↔ d.addEngineOptions = .ok () ∧ begins) := by
  cases ht with
  | refused hadd => simp [hadd, hopt, hnone]
  | notBegun hadd hb => simp [hadd, hb, hnone]
  | begun hadd hb m =>
      rw [firstBreak_state, removeInitialBreak_state, waitForSession_state]
      simp [hadd, hb]

theorem opensDump_leaves {path : String} {t : EngineSession}
    (ht : OpensDump d s path t) (hopt : s.initialBreak = false)
    (hnone : s.begun = none) :
    t.initialBreak = false ∧ (t.begun ≠ none ↔ d.Opens path) := by
  cases ht with
  | refused h => simp [h, hopt, hnone]
  | opened h =>
      rw [waitForSession_state]
      simp [h, hopt]

theorem attachesKernel_leaves {connection : String} {t : EngineSession}
    (ht : AttachesKernel d s connection t) (hopt : s.initialBreak = false)
    (hnone : s.begun = none) :
    (t.initialBreak = true ↔ '\x00' ∉ connection.toList ∧
      d.addEngineOptions = .ok () ∧ d.removeEngineOptions ≠ .ok ()) ∧
    (t.begun ≠ none ↔ d.Attaches connection ∧
      (d.KernelWaitFails s → d.endSession .activeDetach ≠ .ok ())) := by
  cases ht with
  | refused h =>
      have hno : ¬ d.Attaches connection := by
        intro hatt
        rcases h with h | h
        · exact hatt.1 h
        · exact h hatt.2.1
      simp only [cleared_initialBreak, cleared_begun, hopt, hnone, hno]
      have hbreak : ¬ ('\x00' ∉ connection.toList ∧
          d.addEngineOptions = .ok () ∧ d.removeEngineOptions ≠ .ok ()) := by
        intro hatt
        rcases h with h | h
        · exact hatt.1 h
        · exact h hatt.2.1
      simp [hbreak]
  | notBegun hnul hadd hattach =>
      rw [removeInitialBreak_state]
      simp [SessionAnswers.Attaches, hnul, hadd, hattach, hnone]
  | begun h hwait =>
      rw [removeInitialBreak_state, waitForSession_state]
      simp [h, hwait, h.1, h.2.1, EngineSession.onKernel]
  | ended h hwait =>
      rw [endSession_state, removeInitialBreak_state, waitForSession_state]
      simp [h, hwait, h.1, h.2.1, EngineSession.onKernel]

theorem resumes_leaves {op : LifecycleOp} (h : op.resumes = true)
    (hopt : s.initialBreak = false) (hnone : s.begun = none) :
    ((op.run d s).2.initialBreak = true ↔ op.LeavesBreak d) ∧
    ((op.run d s).2.begun ≠ none ↔ op.LeavesSession d s) := by
  obtain ⟨e, hs, -⟩ := resumes_state (d := d) (s := s) h
  rw [hs]
  cases op with
  | go | step | breakIn =>
      simp [hopt, hnone, LifecycleOp.LeavesBreak, LifecycleOp.LeavesSession]
  | launch | attachPid | openDump | attachKernel | detach => cases h

/-- What a start leaves on an engine that had nothing, whether it succeeds
or not: DbgEng's option to break in exactly where `LeavesBreak` says so,
and a session where `LeavesSession` does. -/
theorem start_clean_iff (d : SessionAnswers) (op : LifecycleOp)
    (s : EngineSession) (hopt : s.initialBreak = false)
    (hnone : s.begun = none) :
    ((op.run d s).2.initialBreak = true ↔ op.LeavesBreak d) ∧
    ((op.run d s).2.begun ≠ none ↔ op.LeavesSession d s) := by
  cases op with
  | launch req =>
      simp only [LifecycleOp.run, bind_apply, next_pure_state]
      exact startsLive_leaves (launch_starts req) hopt hnone
  | attachPid pid =>
      simp only [LifecycleOp.run, bind_apply, next_pure_state]
      exact startsLive_leaves (attachPid_starts pid) hopt hnone
  | openDump path =>
      simp only [LifecycleOp.run, bind_apply, next_pure_state]
      have h := opensDump_leaves (openDump_opens (d := d) path) hopt hnone
      exact ⟨by simp [h.1, LifecycleOp.LeavesBreak], h.2⟩
  | attachKernel connection =>
      simp only [LifecycleOp.run, bind_apply, next_pure_state]
      exact attachesKernel_leaves (attachKernel_attaches connection) hopt
        hnone
  | detach terminate =>
      cases hend : d.endSession (endFlag s.engine.isDump terminate) with
      | ok u =>
          show (((EngineSession.detach d terminate s).2.initialBreak = true ↔
            False) ∧ ((EngineSession.detach d terminate s).2.begun ≠ none ↔
            False))
          rw [detach_ok hend]
          simp [EngineSession.ended, hopt]
      | error detail =>
          show (((EngineSession.detach d terminate s).2.initialBreak = true ↔
            False) ∧ ((EngineSession.detach d terminate s).2.begun ≠ none ↔
            False))
          rw [detach_failed hend]
          simp [hopt, hnone]
  | go start polls flag interrupt rounds =>
      exact resumes_leaves rfl hopt hnone
  | step kind start => exact resumes_leaves rfl hopt hnone
  | breakIn interrupt rounds => exact resumes_leaves rfl hopt hnone

end

/-- A process that could not be created and a kernel that could not be
attached to: only the launch leaves the option set. -/
theorem failed_starts_leave :
    (LifecycleOp.run { SessionAnswers.holding with
        createProcess2 := fun _ => .error "0x80070002" }
      (.launch ⟨"app.exe", [], none⟩) .new).2.initialBreak = true ∧
    ¬ (LifecycleOp.run { SessionAnswers.holding with
        attachKernel := fun _ => .error "0x80070057" }
      (.attachKernel "net:port=50000,key=1.2.3.4") .new).2.initialBreak
        = true := by
  constructor
  · refine (start_clean_iff _ _ _ rfl rfl).1.mpr ⟨rfl, ?_⟩
    rintro ⟨_, _, h⟩
    cases h
  · intro h
    exact ((start_clean_iff _ _ _ rfl rfl).1.mp h).2.2 rfl

end DebugMcp
