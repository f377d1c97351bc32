/-
The plans the client's callers follow.

A caller is a list of steps: send a request and check its response, send
one whose response is collected later, await the initialized signal,
register the stop waiter, await it. `PlanNext` is the protocol of such a
list, with everything that can happen on the way: a failed write, a
refused response, a future dropped at any await. Each operation of the
backend obeys the protocol of its plan (`LldbCall.obeys`), and the
plans are where launch and attach differ: one registers its stop waiter
before `configurationDone`, the other after its deferred response.
-/
import DebugMcp.Dap.Pending
import DebugMcp.Lldb.Backend

namespace DebugMcp

open Conc

-- =============================================================== plans

/-- One step of a caller. -/
inductive PlanStep
  /-- Send, await the response and check it. -/
  | request (q : DapRequest) (check : DapMessage → Except BackendError Unit)
  /-- Send; the response is collected later. -/
  | deferred (q : DapRequest)
  | initialized
  | register
  /-- Await the deferred response and check it. -/
  | response (check : DapMessage → Except BackendError Unit)
  | stop

/-- The request a step sends. -/
def PlanStep.request? : PlanStep → Option DapRequest
  | request q _ | deferred q => some q
  | _ => none

/-- Where a caller is within its step, with the number and the channel
of the request it sends. -/
inductive Stage
  | idle
  | numbered (n : Int)
  | registered (n : Int) (c : ChanId)
  | awaiting (n : Int) (c : ChanId)
  | parked

/-- Where a caller is: `saved` is the deferred request's number and
channel, `armed` says that it holds a stop waiter's receiver. -/
inductive CallPhase
  | active (plan : List PlanStep) (stage : Stage)
      (saved : Option (Int × ChanId)) (armed : Bool)
  /-- It failed and has its entry still to remove. -/
  | removing (n : Int) (armed : Bool)
  | failing (armed : Bool)
  | got (r : Except Unit StopOutcome)

/-- Does what a caller received let it go on? -/
def passes (check : DapMessage → Except BackendError Unit) :
    Except Unit PendingResult → Bool
  | .ok (.ok m) => (check m).isOk
  | _ => false

/-- The protocol of a plan. -/
inductive PlanNext : ⦃β : Type⦄ → CallPhase → ClientOp β → β →
    CallPhase → Prop
  | number (s : PlanStep) (q : DapRequest) (hs : s.request? = some q)
      (rest : List PlanStep) (sv : Option (Int × ChanId)) (ar : Bool)
      (n : Int) :
      PlanNext (.active (s :: rest) .idle sv ar) .nextSeq n
        (.active (s :: rest) (.numbered n) sv ar)
  | register (s : PlanStep) (rest : List PlanStep)
      (sv : Option (Int × ChanId)) (ar : Bool) (n : Int) (c : ChanId) :
      PlanNext (.active (s :: rest) (.numbered n) sv ar)
        (.registerPending n) c
        (.active (s :: rest) (.registered n c) sv ar)
  | write (q : DapRequest) (check : DapMessage → Except BackendError Unit)
      (rest : List PlanStep) (sv : Option (Int × ChanId)) (ar : Bool)
      (n : Int) (c : ChanId) :
      PlanNext (.active (.request q check :: rest) (.registered n c) sv ar)
        (.writeRequest (q.setSeq n)) .ok
        (.active (.request q check :: rest) (.awaiting n c) sv ar)
  | writeDeferred (q : DapRequest) (rest : List PlanStep) (ar : Bool)
      (n : Int) (c : ChanId) :
      PlanNext (.active (.deferred q :: rest) (.registered n c) none ar)
        (.writeRequest (q.setSeq n)) .ok
        (.active rest .idle (some (n, c)) ar)
  | writeFail (s : PlanStep) (q : DapRequest) (hs : s.request? = some q)
      (rest : List PlanStep) (sv : Option (Int × ChanId)) (ar : Bool)
      (n : Int) (c : ChanId) (x : Written) (hx : x ≠ .ok) :
      PlanNext (.active (s :: rest) (.registered n c) sv ar)
        (.writeRequest (q.setSeq n)) x (.removing n ar)
  | writeDropped (q : DapRequest) (rest : List PlanStep)
      (sv : Option (Int × ChanId)) (ar : Bool) (n : Int) (c : ChanId)
      (reached : Bool) :
      PlanNext (.active (.deferred q :: rest) (.registered n c) sv ar)
        (.writeRequest (q.setSeq n)) (.cancelled reached) (.failing ar)
  | answer (q : DapRequest)
      (check : DapMessage → Except BackendError Unit)
      (rest : List PlanStep) (sv : Option (Int × ChanId)) (ar : Bool)
      (n : Int) (c : ChanId) (r : Except Unit PendingResult)
      (hr : passes check r = true) :
      PlanNext (.active (.request q check :: rest) (.awaiting n c) sv ar)
        (.recv c) (some r) (.active rest .idle sv ar)
  | refuse (q : DapRequest)
      (check : DapMessage → Except BackendError Unit)
      (rest : List PlanStep) (sv : Option (Int × ChanId)) (ar : Bool)
      (n : Int) (c : ChanId) (r : Except Unit PendingResult)
      (hr : passes check r = false) :
      PlanNext (.active (.request q check :: rest) (.awaiting n c) sv ar)
        (.recv c) (some r) (.failing ar)
  | drop (q : DapRequest) (check : DapMessage → Except BackendError Unit)
      (rest : List PlanStep) (sv : Option (Int × ChanId)) (ar : Bool)
      (n : Int) (c : ChanId) :
      PlanNext (.active (.request q check :: rest) (.awaiting n c) sv ar)
        (.recv c) none (.removing n ar)
  | remove (n : Int) (ar : Bool) :
      PlanNext (.removing n ar) (.removePending n) () (.failing ar)
  | release : PlanNext (.failing true) .dropStop () (.failing false)
  | ready (rest : List PlanStep) (sv : Option (Int × ChanId))
      (ar : Bool) :
      PlanNext (.active (.initialized :: rest) .idle sv ar)
        .pollInitialized true (.active rest .idle sv ar)
  | park (rest : List PlanStep) (sv : Option (Int × ChanId))
      (ar : Bool) :
      PlanNext (.active (.initialized :: rest) .idle sv ar)
        .pollInitialized false
        (.active (.initialized :: rest) .parked sv ar)
  | fired (rest : List PlanStep) (sv : Option (Int × ChanId))
      (ar : Bool) :
      PlanNext (.active (.initialized :: rest) .parked sv ar)
        .recvInitialized (some ()) (.active rest .idle sv ar)
  | unpark (rest : List PlanStep) (sv : Option (Int × ChanId))
      (ar : Bool) :
      PlanNext (.active (.initialized :: rest) .parked sv ar)
        .recvInitialized none (.failing ar)
  | registerStop (rest : List PlanStep) (sv : Option (Int × ChanId))
      (ar : Bool) :
      PlanNext (.active (.register :: rest) .idle sv ar) .registerStop ()
        (.active rest .idle sv true)
  | response (check : DapMessage → Except BackendError Unit)
      (rest : List PlanStep) (ar : Bool) (n : Int) (c : ChanId)
      (r : Except Unit PendingResult) (hr : passes check r = true) :
      PlanNext (.active (.response check :: rest) .idle (some (n, c)) ar)
        (.recv c) (some r) (.active rest .idle none ar)
  | responseFail (check : DapMessage → Except BackendError Unit)
      (rest : List PlanStep) (ar : Bool) (n : Int) (c : ChanId)
      (r : Option (Except Unit PendingResult))
      (hr : ∀ x, r = some x → passes check x = false) :
      PlanNext (.active (.response check :: rest) .idle (some (n, c)) ar)
        (.recv c) r (.failing ar)
  | stopped (sv : Option (Int × ChanId)) (r : Except Unit StopOutcome) :
      PlanNext (.active [.stop] .idle sv true) .recvStop (some r) (.got r)
  | stopDrop (sv : Option (Int × ChanId)) :
      PlanNext (.active [.stop] .idle sv true) .recvStop none
        (.failing true)

-- ============================================================= endings

/-- How an operation ends: failed or dropped with nothing held, with the
outcome `f` reads off its stop waiter, or with `plain` at the end of a
plan that awaits no stop. -/
inductive Ends {α : Type} (f : Except Unit StopOutcome → α)
    (plain : Option α) : CallPhase → OpResult α → Prop
  | failed (x : OpResult α) (hx : ∀ a, x ≠ some (.ok a)) :
      Ends f plain (.failing false) x
  | got (r : Except Unit StopOutcome) :
      Ends f plain (.got r) (some (.ok (f r)))
  | plain (a : α) (ha : plain = some a) (ar : Bool) :
      Ends f plain (.active [] .idle none ar) (some (.ok a))

/-- The outcome read off a stop waiter; a dropped sender gives
`closed`. -/
def stopOr {α : Type} (outcome : StopOutcome → α) (closed : α) :
    Except Unit StopOutcome → α
  | .ok o => outcome o
  | .error () => closed

section

variable {α : Type} {f : Except Unit StopOutcome → α} {plain : Option α}
  {next : ClientProg (OpResult α)} {rest : List PlanStep}
  {sv : Option (Int × ChanId)} {ar : Bool}
  {check : DapMessage → Except BackendError Unit} {q : DapRequest}

/-- A failed operation drops its receiver and returns. -/
theorem release_obeys (x : OpResult α) (hx : ∀ a, x ≠ some (.ok a)) :
    Obeys PlanNext (Ends f plain)
      (release ar >>= fun _ => (pure x : ClientProg (OpResult α)))
      (.failing ar) := by
  cases ar with
  | true => exact fun _ => ⟨_, .release, .failed x hx⟩
  | false => exact .failed x hx

/-- A request, its check and the rest. -/
theorem sendThen_obeys (err : BackendError → BackendError)
    (h : Obeys PlanNext (Ends f plain) next (.active rest .idle sv ar)) :
    Obeys PlanNext (Ends f plain) (sendThen ar q err check next)
      (.active (.request q check :: rest) .idle sv ar) := by
  intro n
  refine ⟨_, .number _ q rfl rest sv ar n, fun c =>
    ⟨_, .register _ rest sv ar n c, fun x => ?_⟩⟩
  cases x with
  | failed reached e =>
      exact ⟨_, .writeFail _ q rfl rest sv ar n c _ nofun, fun _ =>
        ⟨_, .remove n ar, release_obeys _ nofun⟩⟩
  | cancelled reached =>
      exact ⟨_, .writeFail _ q rfl rest sv ar n c _ nofun, fun _ =>
        ⟨_, .remove n ar, release_obeys _ nofun⟩⟩
  | ok =>
      refine ⟨_, .write q check rest sv ar n c, fun r => ?_⟩
      rcases r with _ | closed | e | m
      · exact ⟨_, .drop q check rest sv ar n c, fun _ =>
          ⟨_, .remove n ar, release_obeys _ nofun⟩⟩
      · exact ⟨_, .refuse q check rest sv ar n c _ rfl,
          release_obeys _ nofun⟩
      · exact ⟨_, .refuse q check rest sv ar n c _ rfl,
          release_obeys _ nofun⟩
      · simp only [Prog.bind, pendingResult, Prog.pure_eq]
        cases hm : check m with
        | error e =>
            refine ⟨_, .refuse q check rest sv ar n c _ ?_,
              release_obeys _ nofun⟩
            simp only [passes, hm, Except.isOk, Except.toBool]
        | ok u =>
            refine ⟨_, .answer q check rest sv ar n c _ ?_, h⟩
            simp only [passes, hm, Except.isOk, Except.toBool]

/-- A deferred request, the signal and the rest. -/
theorem sendAsyncThen_obeys (op : String)
    {k : ChanId → ClientProg (OpResult α)}
    (h : ∀ n c, Obeys PlanNext (Ends f plain) (k c)
      (.active rest .idle (some (n, c)) false)) :
    Obeys PlanNext (Ends f plain) (sendAsyncThen op q k)
      (.active (.deferred q :: .initialized :: rest) .idle none false) := by
  intro n
  refine ⟨_, .number _ q rfl _ none false n, fun c =>
    ⟨_, .register _ _ none false n c, fun x => ?_⟩⟩
  cases x with
  | failed reached e =>
      exact ⟨_, .writeFail _ q rfl _ none false n c _ nofun, fun _ =>
        ⟨_, .remove n false, .failed _ nofun⟩⟩
  | cancelled reached =>
      exact ⟨_, .writeDropped q _ none false n c reached,
        .failed _ nofun⟩
  | ok =>
      refine ⟨_, .writeDeferred q _ false n c, fun b => ?_⟩
      cases b with
      | true => exact ⟨_, .ready rest _ false, h n c⟩
      | false =>
          refine ⟨_, .park rest _ false, fun x => ?_⟩
          cases x with
          | none => exact ⟨_, .unpark rest _ false, .failed _ nofun⟩
          | some u => exact ⟨_, .fired rest _ false, h n c⟩

/-- The deferred response, its check and the rest. -/
theorem awaitResponseThen_obeys (stderr op : String) (n : Int)
    (c : ChanId)
    (h : Obeys PlanNext (Ends f plain) next (.active rest .idle none ar)) :
    Obeys PlanNext (Ends f plain)
      (awaitResponseThen stderr op ar c next)
      (.active (.response (checked stderr op) :: rest) .idle
        (some (n, c)) ar) := by
  intro r
  rcases r with _ | closed | e | m
  · exact ⟨_, .responseFail _ rest ar n c _ nofun,
      release_obeys _ nofun⟩
  · refine ⟨_, .responseFail _ rest ar n c _ fun x hx => ?_,
      release_obeys _ nofun⟩
    cases hx
    rfl
  · refine ⟨_, .responseFail _ rest ar n c _ fun x hx => ?_,
      release_obeys _ nofun⟩
    cases hx
    rfl
  · simp only [Prog.bind, Prog.pure_eq]
    cases hm : checkResponse stderr op m with
    | error e =>
        refine ⟨_, .responseFail _ rest ar n c _ fun x hx => ?_,
          release_obeys _ nofun⟩
        cases hx
        simp only [passes, checked, hm, Except.map, Except.isOk,
          Except.toBool]
    | ok resp =>
        refine ⟨_, .response _ rest ar n c _ ?_, h⟩
        simp only [passes, checked, hm, Except.map, Except.isOk,
          Except.toBool]

/-- The stop waiter's await ends the operation. -/
theorem awaitStop_obeys (outcome : StopOutcome → α) (closed : α) :
    Obeys PlanNext (Ends (stopOr outcome closed) plain)
      (awaitStop outcome closed) (.active [.stop] .idle sv true) := by
  intro r
  match r with
  | none =>
      exact ⟨_, .stopDrop _, fun _ => ⟨_, .release, .failed _ nofun⟩⟩
  | some (.ok o) => exact ⟨_, .stopped _ _, .got (.ok o)⟩
  | some (.error ()) => exact ⟨_, .stopped _ _, .got (.error ())⟩

end

-- ========================================================== the plans

/-- The flush of the pending source breakpoints. -/
def flushPlan (stderr : String) (files : List (String × List SourceBp)) :
    List PlanStep :=
  files.map fun f => .request (Requests.setBreakpoints f.1 f.2)
    (checkFlushed stderr f.1)

/-- The flush of the pending function breakpoints. -/
def functionPlan (stderr : String) (bps : List FunctionBp) :
    List PlanStep :=
  if bps.isEmpty then []
  else [.request (Requests.setFunctionBreakpoints bps)
    (checked stderr "setFunctionBreakpoints")]

/-- The end of a launch, from the registration on. -/
def launchTailPlan (stderr : String) (stopOnEntry : Bool) :
    List PlanStep :=
  if stopOnEntry then
    [.register, .request Requests.configurationDone unchecked,
      .response (checked stderr "launch"), .stop]
  else
    [.request Requests.configurationDone unchecked,
      .response (checked stderr "launch")]

/-- The plan of `run_launch`. -/
def launchPlan (stderr : String) (spec : LaunchSpec) : List PlanStep :=
  .request Requests.initializeRequest (checked stderr "initialize")
    :: .deferred (Requests.launch (LldbLaunchArgs.new spec).toValue)
    :: .initialized
    :: (flushPlan stderr spec.sourceBreakpoints
      ++ (functionPlan stderr spec.functionBreakpoints
      ++ (.request Requests.setExceptionBreakpoints unchecked
        :: launchTailPlan stderr spec.stopOnEntry)))

/-- The plan of `run_attach`. -/
def attachPlan (stderr : String) (spec : AttachSpec) : List PlanStep :=
  [.request Requests.initializeRequest (checked stderr "initialize"),
    .deferred (Requests.attach (LldbAttachArgs.new spec).toValue),
    .initialized,
    .request Requests.setExceptionBreakpoints unchecked,
    .request Requests.configurationDone unchecked,
    .response (checked stderr "attach"), .register, .stop]

/-- The plan of `resume_and_wait`. -/
def resumePlan (q : DapRequest) : List PlanStep :=
  [.register, .request q unchecked, .stop]

section

variable {α : Type} {f : Except Unit StopOutcome → α} {plain : Option α}
  {next : ClientProg (OpResult α)} {rest : List PlanStep}
  {sv : Option (Int × ChanId)}

theorem flushFiles_obeys (stderr : String)
    (files : List (String × List SourceBp))
    (h : Obeys PlanNext (Ends f plain) next
      (.active rest .idle sv false)) :
    Obeys PlanNext (Ends f plain) (flushFiles stderr files next)
      (.active (flushPlan stderr files ++ rest) .idle sv false) := by
  induction files with
  | nil => exact h
  | cons file files ih => exact sendThen_obeys _ ih

theorem flushFunctions_obeys (stderr : String) (bps : List FunctionBp)
    (h : Obeys PlanNext (Ends f plain) next
      (.active rest .idle sv false)) :
    Obeys PlanNext (Ends f plain) (flushFunctions stderr bps next)
      (.active (functionPlan stderr bps ++ rest) .idle sv false) := by
  unfold flushFunctions functionPlan
  split
  · exact h
  · exact sendThen_obeys _ h

end

/-- What a launch that awaits no stop gives. -/
def launchPlain (spec : LaunchSpec) : Option LaunchOutcome :=
  if spec.stopOnEntry then none else some .running

theorem runLaunch_obeys (stderr : String) (spec : LaunchSpec) :
    Obeys PlanNext
      (Ends (stopOr launchOutcome (.exited none)) (launchPlain spec))
      (runLaunch stderr spec)
      (.active (launchPlan stderr spec) .idle none false) := by
  refine sendThen_obeys _ (sendAsyncThen_obeys "launch" fun n c => ?_)
  refine flushFiles_obeys stderr _ (flushFunctions_obeys stderr _ ?_)
  refine sendThen_obeys _ ?_
  unfold launchTail launchTailPlan launchPlain
  cases spec.stopOnEntry with
  | true =>
      exact fun _ => ⟨_, .registerStop _ _ false, sendThen_obeys _
        (awaitResponseThen_obeys stderr "launch" n c
          (awaitStop_obeys launchOutcome (.exited none)))⟩
  | false =>
      have hrun : Ends (stopOr launchOutcome (.exited none))
          (some LaunchOutcome.running) (.active [] .idle none false)
          (some (.ok .running)) := .plain LaunchOutcome.running rfl false
      exact sendThen_obeys _
        (awaitResponseThen_obeys stderr "launch" n c hrun)

theorem runAttach_obeys (stderr : String) (spec : AttachSpec) :
    Obeys PlanNext (Ends (stopOr attachOutcome .terminated) none)
      (runAttach stderr spec)
      (.active (attachPlan stderr spec) .idle none false) := by
  refine sendThen_obeys _ (sendAsyncThen_obeys "attach" fun n c => ?_)
  refine sendThen_obeys _ (sendThen_obeys _
    (awaitResponseThen_obeys stderr "attach" n c ?_))
  exact fun _ => ⟨_, .registerStop _ _ false,
    awaitStop_obeys attachOutcome .terminated⟩

theorem resumeAndWait_obeys (q : DapRequest) :
    Obeys PlanNext (Ends (stopOr id .terminated) none) (resumeAndWait q)
      (.active (resumePlan q) .idle none false) :=
  fun _ => ⟨_, .registerStop _ _ false, sendThen_obeys _
    (awaitStop_obeys id .terminated)⟩

-- =============================================================== calls

/-- A caller of the client: the client's own operations and the
backend's. -/
inductive LldbCall
  | send (q : DapRequest)
  | waitInitialized
  | awaitStop
  | launch (stderr : String) (spec : LaunchSpec)
  | attach (stderr : String) (spec : AttachSpec)
  | resume (q : DapRequest)
  /-- There is no such caller. -/
  | absent

/-- What a caller returns. -/
inductive LldbResult
  | absent
  | response (r : Option PendingResult)
  | initialized (r : Option Unit)
  | stop (r : OpResult StopOutcome)
  | launch (r : OpResult LaunchOutcome)
  | attach (r : OpResult AttachOutcome)

namespace LldbCall

/-- A caller's program. -/
def prog : LldbCall → ClientProg LldbResult
  | send q => do return .response (← DebugMcp.send q)
  | waitInitialized => do return .initialized (← DebugMcp.waitInitialized)
  | awaitStop => do
      client .registerStop
      return .stop (← DebugMcp.awaitStop id .terminated)
  | launch stderr spec => do return .launch (← runLaunch stderr spec)
  | attach stderr spec => do return .attach (← runAttach stderr spec)
  | resume q => do return .stop (← resumeAndWait q)
  | absent => return .absent

/-- A caller's plan. -/
def plan : LldbCall → List PlanStep
  | send q => [.request q unchecked]
  | waitInitialized => [.initialized]
  | awaitStop => [.register, .stop]
  | launch stderr spec => launchPlan stderr spec
  | attach stderr spec => attachPlan stderr spec
  | resume q => resumePlan q
  | absent => []

/-- The phase a caller starts in. -/
def phase₀ (c : LldbCall) : CallPhase := .active c.plan .idle none false

/-- What is known of a caller that has returned. -/
def Returns : LldbCall → CallPhase → LldbResult → Prop
  | launch _ spec, p, x => ∃ y, x = .launch y ∧
      Ends (stopOr launchOutcome (.exited none)) (launchPlain spec) p y
  | attach _ _, p, x => ∃ y, x = .attach y ∧
      Ends (stopOr attachOutcome .terminated) none p y
  | resume _, p, x => ∃ y, x = .stop y ∧
      Ends (stopOr id .terminated) none p y
  | _, _, _ => True

/-- A lone `send` obeys the protocol of its plan. -/
private theorem send_obeys_plan (q : DapRequest) :
    Obeys PlanNext (fun _ _ => True) (DebugMcp.send q)
      (.active [.request q unchecked] .idle none false) := by
  intro n
  refine ⟨_, .number _ q rfl _ none false n, fun c =>
    ⟨_, .register _ _ none false n c, fun x => ?_⟩⟩
  cases x with
  | failed reached e =>
      exact ⟨_, .writeFail _ q rfl _ none false n c _ nofun, fun _ =>
        ⟨_, .remove n false, trivial⟩⟩
  | cancelled reached =>
      exact ⟨_, .writeFail _ q rfl _ none false n c _ nofun, fun _ =>
        ⟨_, .remove n false, trivial⟩⟩
  | ok =>
      refine ⟨_, .write q unchecked _ none false n c, fun r => ?_⟩
      cases r with
      | none =>
          exact ⟨_, .drop q unchecked _ none false n c, fun _ =>
            ⟨_, .remove n false, trivial⟩⟩
      | some r =>
          cases hr : passes unchecked r with
          | true => exact ⟨_, .answer q _ _ none false n c r hr, trivial⟩
          | false => exact ⟨_, .refuse q _ _ none false n c r hr, trivial⟩

/-- `wait_initialized` obeys the protocol of its plan. -/
private theorem waitInitialized_obeys :
    Obeys PlanNext (fun _ _ => True) DebugMcp.waitInitialized
      (.active [.initialized] .idle none false) := by
  intro b
  cases b with
  | true => exact ⟨_, .ready [] none false, trivial⟩
  | false =>
      refine ⟨_, .park [] none false, fun x => ?_⟩
      cases x with
      | none => exact ⟨_, .unpark [] none false, trivial⟩
      | some u => exact ⟨_, .fired [] none false, trivial⟩

/-- Every caller obeys the protocol of its plan. -/
theorem obeys (c : LldbCall) :
    Obeys PlanNext c.Returns c.prog c.phase₀ := by
  cases c with
  | send q => exact (send_obeys_plan q).bind fun _ _ _ => trivial
  | waitInitialized =>
      exact waitInitialized_obeys.bind fun _ _ _ => trivial
  | awaitStop =>
      have hstop : Obeys PlanNext (Ends (stopOr id .terminated) none)
          (DebugMcp.awaitStop id .terminated)
          (.active [.stop] .idle none true) :=
        awaitStop_obeys id .terminated
      exact fun _ => ⟨_, .registerStop _ none false,
        hstop.bind fun _ _ _ => trivial⟩
  | launch stderr spec =>
      exact (runLaunch_obeys stderr spec).bind fun _ y h => ⟨y, rfl, h⟩
  | attach stderr spec =>
      exact (runAttach_obeys stderr spec).bind fun _ y h => ⟨y, rfl, h⟩
  | resume q =>
      exact (resumeAndWait_obeys q).bind fun _ y h => ⟨y, rfl, h⟩
  | absent => trivial

end LldbCall

/-- A client with every caller about to start. -/
def lldbPool (calls : Nat → LldbCall) :
    Pool ClientOp LldbResult DapClient where
  world := .new
  prog i := some (calls i).prog

end DebugMcp
