/-
The engine thread: its command channel, the commands that run the
target, and the interrupt flag.

The thread takes one command after the other and answers each over the
one-shot channel its caller holds. A call has at most one command out at
a time, so a command and its reply channel are named by the call. The
thread is the machine's environment: what DbgEng answers, and how long it
takes, is not the caller's to choose. `EnginePc` is where in `go`, `step`
or `break_in` the thread is; a step of it is one call of DbgEng, one
access to the flag, or one access to a channel.

`wait_for_event` is a step for each wait it makes: an event that does not
stop the target (a breakpoint whose condition is false, or whose command
resumes) makes it wait again, for another full slice. The wait's own
steps are in `WinDbg/Wait.lean`.

The command channel's bound only delays a send, so it is left out. So
are the commands that neither run the target nor detach from it, but for
their place in the queue (`EngineCmd.other`).
-/
import DebugMcp.Dap.Client
import DebugMcp.Lib.Pool
import DebugMcp.WinDbg.Wait

namespace DebugMcp

open Conc

-- ============================================================ commands

/-- One marshaled engine operation. -/
inductive EngineCmd
  | go (timeoutMs : Nat)
  | step (kind : StepKind)
  | breakIn
  | detach (terminate : Bool)
  | other
  deriving DecidableEq

/-- What a command replies with. -/
inductive CmdValue
  | go (o : Option StopOutcome)
  | stop (o : StopOutcome)
  | unit
  deriving DecidableEq

namespace EngineCmd

/-- The type of a command's reply. -/
def Value : EngineCmd → Type
  | go _ => Option StopOutcome
  | step _ | breakIn => StopOutcome
  | detach _ | other => Unit

/-- A reply, at its command's type. -/
def value? : (cmd : EngineCmd) → CmdValue → Option cmd.Value
  | go _, .go o => some o
  | step _, .stop o | breakIn, .stop o => some o
  | detach _, .unit | other, .unit => some ()
  | _, _ => none

/-- The reply of a command that ran the target until this outcome. -/
def ended : EngineCmd → StopOutcome → CmdValue
  | go _, o => .go (some o)
  | _, o => .stop o

def isGo : EngineCmd → Bool
  | go _ => true
  | _ => false

def isDetach : EngineCmd → Bool
  | detach _ => true
  | _ => false

/-- Does the command run the target, or break it? -/
def runs : EngineCmd → Bool
  | go _ | step _ | breakIn => true
  | _ => false

end EngineCmd

/-- A command on its way, with the call that awaits its reply. -/
structure Job where
  caller : Nat
  cmd : EngineCmd
  deriving DecidableEq

-- =============================================================== world

/-- The target, as the engine's execution status has it. -/
inductive Debuggee
  | none
  | broken
  | running
  deriving DecidableEq

/-- A reply. -/
abbrev CmdReply := Except EngineError CmdValue

/-- Where in a command the engine is. -/
inductive EnginePc
  /-- `ensure_runnable`, or the whole of a command that does not run the
  target. -/
  | entry
  /-- `go` resets the interrupt flag. -/
  | clear
  /-- `SetExecutionStatus`, or `gu`. -/
  | start
  /-- The condition of `go`'s loop. -/
  | poll
  /-- `go`'s `wait_for_event`. -/
  | wait
  /-- The look at the flag after `go`'s loop. -/
  | look
  /-- `step`'s `wait_for_event`. -/
  | landing
  /-- `SetInterrupt`, with this many polls left. -/
  | interrupt (polls : Nat)
  /-- A `wait_for_event` of the break loop. -/
  | breakWait (polls : Nat)
  /-- A `GetExecutionStatus` of the break loop. -/
  | breakStatus (polls : Nat)
  /-- The reply is sent. -/
  | reply (r : CmdReply)
  deriving DecidableEq

/-- What the engine thread is at. -/
inductive ThreadPc
  | idle
  | run (job : Job) (pc : EnginePc)
  | gone
  deriving DecidableEq

/-- The engine with its thread and its channels. -/
structure EngineThread where
  queue : List Job
  pc : ThreadPc
  /-- The interrupt flag, which every `InterruptHandle` shares. -/
  flag : Bool
  target : Debuggee
  isDump : Bool
  replies : Nat → Oneshot CmdReply

/-- An idle thread. -/
def EngineThread.new (target : Debuggee) (isDump : Bool) :
    EngineThread where
  queue := []
  pc := .idle
  flag := false
  target
  isDump
  replies _ := .empty

-- ============================================================== thread

/-- What a step of the engine meets. -/
inductive EngineAnswer
  /-- The call succeeds; the deadline has not passed; still running. -/
  | sync
  /-- The call fails; the target may have broken in all the same. -/
  | failed (err : EngineError) (broke : Bool)
  | event (o : StopOutcome)
  /-- An event after which the target runs on. -/
  | resumed
  | timedOut
  | deadline
  /-- The execution status of a target that has stopped. -/
  | stopped (o : StopOutcome)

/-- The target after an outcome. -/
def Debuggee.after : StopOutcome → Debuggee
  | .stopped _ => broken
  | .exited _ | .terminated => none

namespace EngineThread

variable (w : EngineThread) (job : Job)

/-- The command goes on at `pc`. -/
def goto (pc : EnginePc) : EngineThread := { w with pc := .run job pc }

/-- The command's call of DbgEng failed. -/
def fail (err : EngineError) (broke : Bool) : EngineThread :=
  { w with
    pc := .run job (.reply (.error err))
    target := if broke then .broken else w.target }

/-- The target stopped, or is gone. -/
def land (o : StopOutcome) : EngineThread :=
  { w with
    pc := .run job (.reply (.ok (job.cmd.ended o)))
    target := .after o }

/-- A wait for an event, in a command at `pc`. -/
def waitForEvent (pc : EnginePc) (stop : StopOutcome → StopOutcome)
    (timedOut : EngineThread) : EngineAnswer → Option EngineThread
  | .event o => some (w.land job (stop o))
  | .resumed => some (w.goto job pc)
  | .timedOut => some timedOut
  | .failed err broke => some (w.fail job err broke)
  | _ => none

/-- `ensure_runnable`, and the rest of the command. -/
def ensureRunnable (pc : EnginePc) : EngineThread :=
  if w.isDump then w.fail job dumpSession false else w.goto job pc

/-- The first step of a command. -/
def enter : EngineAnswer → Option EngineThread
  | .sync =>
      match job.cmd with
      | .go _ => some (w.ensureRunnable job .clear)
      | .step _ => some (w.ensureRunnable job .start)
      | .breakIn => some (w.ensureRunnable job (.interrupt 50))
      | .detach _ => some { w with
          pc := .run job (.reply (.ok .unit))
          target := .none, isDump := false }
      | .other => some (w.goto job (.reply (.ok .unit)))
  | .failed err _ =>
      if job.cmd.runs then none else some (w.fail job err false)
  | _ => none

/-- A step of `go`, `step` or `break_in`. -/
def execute : EnginePc → EngineAnswer → Option EngineThread
  | .entry, a => w.enter job a
  | .clear, .sync => some { w.goto job .start with flag := false }
  | .start, .sync => some
      { w with
        pc := .run job (if job.cmd.isGo then .poll else .landing)
        target := .running }
  | .start, .failed err _ => some (w.fail job err false)
  | .poll, .sync => some (w.goto job (if w.flag then .look else .wait))
  | .poll, .deadline => some (w.goto job .look)
  | .wait, a => w.waitForEvent job .wait id (w.goto job .poll) a
  | .look, .sync => some (w.goto job
      (if w.flag then .interrupt 50 else .reply (.ok (.go none))))
  | .landing, a => w.waitForEvent job .landing id
      (w.fail job (.engine "step: timed out") false) a
  | .interrupt 0, .sync =>
      some (w.fail job (.engine "break: timed out") false)
  | .interrupt (polls + 1), .sync => some (w.goto job (.breakWait polls))
  | .interrupt _, .failed err broke => some (w.fail job err broke)
  | .breakWait polls, a => w.waitForEvent job (.breakWait polls) paused
      (w.goto job (.breakStatus polls)) a
  | .breakStatus polls, .sync => some (w.goto job (.interrupt polls))
  | .breakStatus _, .stopped o => some (w.land job (paused o))
  | .breakStatus _, .failed err broke => some (w.fail job err broke)
  | .reply r, .sync => some { w with
      pc := .idle
      replies := Function.update w.replies job.caller
        ((w.replies job.caller).send r) }
  | _, _ => none

/-- A step of the thread: it takes the next command, or goes on with the
one it is at. -/
def threadStep (a : EngineAnswer) : Option EngineThread :=
  match w.pc, w.queue, a with
  | .idle, job :: queue, .sync => some
      { w with queue, pc := .run job .entry }
  | .run job pc, _, a => w.execute job pc a
  | _, _, _ => none

/-- Is a command of call `i` queued or being executed? -/
def busy (i : Nat) : Bool :=
  (w.queue.any fun job => job.caller == i) ||
    match w.pc with
    | .run job _ => job.caller == i
    | _ => false

/-- The thread panics: every command it has is dropped. -/
def die : Option EngineThread :=
  match w.pc with
  | .gone => none
  | _ => some { w with
      queue := []
      pc := .gone
      replies := fun i =>
        if w.busy i then (w.replies i).close else w.replies i }

end EngineThread

-- ============================================================= machine

/-- The operations of a backend call. An await answers `none` when its
caller was dropped there. -/
inductive WinOp : Type → Type
  /-- `InterruptHandle::interrupt`. -/
  | interrupt : WinOp Unit
  /-- The send of a command, with a fresh reply channel. -/
  | enqueue (cmd : EngineCmd) : WinOp (Option (Except Unit Unit))
  /-- The await of a command's reply. -/
  | recv (cmd : EngineCmd) :
      WinOp (Option (Except Unit (Except EngineError cmd.Value)))

/-- A backend call, or a part of one. -/
abbrev WinProg := Prog WinOp

/-- An operation of a backend call, as a program. -/
def win {β : Type} (op : WinOp β) : WinProg β := Prog.perform op

/-- The environment's part in an operation. -/
inductive CallAnswer
  | sync
  | cancel

/-- What the environment does on its own. -/
inductive ThreadMove
  | step (a : EngineAnswer)
  | die

namespace EngineThread

/-- The reply of a command of call `i`, once it is there. -/
def reply? (w : EngineThread) (i : Nat) (cmd : EngineCmd) :
    Option (Except Unit (Except EngineError cmd.Value)) :=
  match (w.replies i).recv with
  | none => none
  | some (.error ()) => some (.error ())
  | some (.ok (.error err)) => some (.ok (.error err))
  | some (.ok (.ok v)) => (cmd.value? v).map fun v => .ok (.ok v)

/-- One operation of call `i`. -/
def run {β : Type} (i : Nat) (op : WinOp β) (a : CallAnswer)
    (w : EngineThread) : Option (β × EngineThread) :=
  match op, a with
  | .interrupt, .sync => some ((), { w with flag := true })
  | .enqueue cmd, .sync =>
      if w.pc = .gone then some (some (.error ()), w)
      else some (some (.ok ()), { w with
        queue := w.queue ++ [⟨i, cmd⟩]
        replies := Function.update w.replies i .empty })
  | .enqueue _, .cancel => some (none, w)
  | .recv cmd, .sync => (w.reply? i cmd).map (some ·, w)
  | .recv _, .cancel => some (none, { w with
      replies := Function.update w.replies i (w.replies i).drop })
  | _, _ => none

/-- An environment move. -/
def envMove (w : EngineThread) : ThreadMove → Option EngineThread
  | .step a => w.threadStep a
  | .die => w.die

end EngineThread

/-- The engine thread as a machine. -/
def engineMachine : Machine WinOp CallAnswer ThreadMove EngineThread where
  run i op a w := w.run i op a
  env e w := w.envMove e

-- ============================================================= backend

/-- `call`: the command is sent, and its reply awaited. -/
def call (cmd : EngineCmd) :
    WinProg (Option (Except BackendError cmd.Value)) := do
  match ← win (.enqueue cmd) with
  | none => return none
  | some (.error ()) => return some (.error .closed)
  | some (.ok ()) =>
  match ← win (.recv cmd) with
  | none => return none
  | some (.error ()) => return some (.error .closed)
  | some (.ok (.error err)) => return some (.error (mapEngineErr err))
  | some (.ok (.ok v)) => return some (.ok v)

/-- `u32::MAX`, the budget of a `cont`. -/
def goBudget : Nat := 2 ^ 32 - 1

/-- `cont`; the thread is ignored. -/
def windbgCont (_threadId : Int) :
    WinProg (Option (Except BackendError StopOutcome)) := do
  match ← call (.go goBudget) with
  | none => return none
  | some (.error e) => return some (.error e)
  | some (.ok (some stop)) => return some (.ok stop)
  | some (.ok none) => call .breakIn

/-- `step`; the thread and the granularity are ignored. -/
def windbgStep (kind : StepKind) (_threadId : Int)
    (_gran : Option Granularity) :
    WinProg (Option (Except BackendError StopOutcome)) :=
  call (.step kind)

/-- `pause`. -/
def windbgPause : WinProg (Except BackendError Unit) := do
  win .interrupt
  return .ok ()

/-- `disconnect`: the flag first, then the detach, whose error is
discarded. -/
def windbgDisconnect (terminate : Bool) : WinProg Unit := do
  win .interrupt
  let _ ← call (.detach terminate)

-- =============================================================== steps

/-- Where a step of a command leads, a wait begun again apart; `go` says
whether the command is one. -/
inductive EnginePc.Next (go flag : Bool) : EnginePc → EnginePc → Prop
  | clear (hgo : go = true) : Next go flag .entry .clear
  | start (hgo : go = false) : Next go flag .entry .start
  | breakIn : Next go flag .entry (.interrupt 50)
  | cleared : Next go flag .clear .start
  | poll (hgo : go = true) : Next go flag .start .poll
  | landing : Next go flag .start .landing
  | leave : Next go flag .poll .look
  | wait (hflag : flag = false) : Next go flag .poll .wait
  | waited : Next go flag .wait .poll
  | interrupt (hflag : flag = true) : Next go flag .look (.interrupt 50)
  | giveUp (hflag : flag = false) :
      Next go flag .look (.reply (.ok (.go none)))
  | breakWait (polls : Nat) :
      Next go flag (.interrupt (polls + 1)) (.breakWait polls)
  | breakStatus (polls : Nat) :
      Next go flag (.breakWait polls) (.breakStatus polls)
  | again (polls : Nat) :
      Next go flag (.breakStatus polls) (.interrupt polls)
  | ends {pc : EnginePc} {r : CmdReply} (hpc : ∀ r', pc ≠ .reply r')
      (hr : r ≠ .ok (.go none)) : Next go flag pc (.reply r)

namespace EngineThread

variable {w w' : EngineThread} {job : Job} {pc : EnginePc}
  {a : EngineAnswer}

/-- What a step does to the command the thread is at. -/
inductive Executed (w : EngineThread) (job : Job) (pc : EnginePc)
    (a : EngineAnswer) (w' : EngineThread) : Prop
  | replied (r : CmdReply) (hpc : pc = .reply r) (ha : a ≠ .resumed)
      (h : w'.pc = .idle)
  /-- A wait begins again. -/
  | again (ha : a = .resumed) (h : w'.pc = .run job pc)
  | next (pc' : EnginePc) (hn : pc.Next job.cmd.isGo w.flag pc')
      (ha : a ≠ .resumed) (h : w'.pc = .run job pc')

/-- A command that ran the target has an outcome to reply. -/
theorem ended_ne (cmd : EngineCmd) (o : StopOutcome) :
    (Except.ok (cmd.ended o) : CmdReply) ≠ .ok (.go none) := by
  cases cmd <;> nofun

namespace Executed

/-- A failed call of DbgEng ends the command. -/
theorem failed {err : EngineError} (hpc : ∀ r, pc ≠ .reply r)
    (ha : a ≠ .resumed) (h : w'.pc = .run job (.reply (.error err))) :
    Executed w job pc a w' := by
  have hr : (Except.error err : CmdReply) ≠ .ok (.go none) := nofun
  exact .next _ (.ends hpc hr) ha h

/-- A wait ends the command, begins again, or times out. -/
theorem ofWait {stop : StopOutcome → StopOutcome}
    {timedOut : EngineThread} {pc' : EnginePc}
    (hpc : ∀ r, pc ≠ .reply r) (ht : timedOut.pc = .run job pc')
    (hn : pc.Next job.cmd.isGo w.flag pc')
    (h : w.waitForEvent job pc stop timedOut a = some w') :
    Executed w job pc a w' := by
  cases a with
  | event o =>
      cases h
      exact .next _ (.ends hpc (ended_ne _ _)) nofun rfl
  | resumed =>
      cases h
      exact .again rfl rfl
  | timedOut =>
      cases h
      exact .next _ hn nofun ht
  | failed err broke =>
      cases h
      exact .failed hpc nofun rfl
  | _ => cases h

/-- A dump session is refused; any other command goes on. -/
theorem ofRunnable {pc' : EnginePc}
    (hn : EnginePc.entry.Next job.cmd.isGo w.flag pc') :
    Executed w job .entry .sync (w.ensureRunnable job pc') := by
  unfold ensureRunnable
  split
  · exact .failed nofun nofun rfl
  · exact .next pc' hn nofun rfl

/-- The first step of a command. -/
theorem ofEnter (h : w.enter job a = some w') :
    Executed w job .entry a w' := by
  have hentry : ∀ r, EnginePc.entry ≠ .reply r := nofun
  have hunit : (Except.ok .unit : CmdReply) ≠ .ok (.go none) := nofun
  cases a with
  | sync =>
      obtain ⟨i, cmd⟩ := job
      cases cmd with
      | go ms =>
          cases h
          exact .ofRunnable (.clear rfl)
      | step kind =>
          cases h
          exact .ofRunnable (.start rfl)
      | breakIn =>
          cases h
          exact .ofRunnable .breakIn
      | detach t =>
          cases h
          exact .next _ (.ends hentry hunit) nofun rfl
      | other =>
          cases h
          exact .next _ (.ends hentry hunit) nofun rfl
  | failed err broke =>
      simp only [enter] at h
      split at h
      · cases h
      · cases h
        exact .failed hentry nofun rfl
  | _ => cases h

/-- A step of a command is one of `Next`, the beginning of a wait again,
or its reply. -/
theorem ofExecute (h : w.execute job pc a = some w') :
    Executed w job pc a w' := by
  cases pc with
  | entry => exact .ofEnter h
  | clear =>
      cases a with
      | sync =>
          cases h
          exact .next _ .cleared nofun rfl
      | _ => cases h
  | start =>
      cases a with
      | sync =>
          cases h
          by_cases hgo : job.cmd.isGo = true
          · exact .next _ (.poll hgo) nofun (by simp only [if_pos hgo])
          · exact .next _ .landing nofun (by simp only [if_neg hgo])
      | failed err broke =>
          cases h
          exact .failed nofun nofun rfl
      | _ => cases h
  | poll =>
      cases a with
      | sync =>
          cases h
          by_cases hf : w.flag = true
          · exact .next _ .leave nofun (by simp only [if_pos hf, goto])
          · exact .next _ (.wait ((Bool.not_eq_true _).mp hf)) nofun
              (by simp only [if_neg hf, goto])
      | deadline =>
          cases h
          exact .next _ .leave nofun rfl
      | _ => cases h
  | wait => exact .ofWait nofun rfl .waited h
  | look =>
      cases a with
      | sync =>
          cases h
          by_cases hf : w.flag = true
          · exact .next _ (.interrupt hf) nofun
              (by simp only [if_pos hf, goto])
          · exact .next _ (.giveUp ((Bool.not_eq_true _).mp hf)) nofun
              (by simp only [if_neg hf, goto])
      | _ => cases h
  | landing =>
      have hr : (Except.error (.engine "step: timed out") : CmdReply)
          ≠ .ok (.go none) := nofun
      exact .ofWait nofun rfl (.ends nofun hr) h
  | interrupt polls =>
      cases polls with
      | zero =>
          cases a with
          | sync | failed err broke =>
              cases h
              exact .failed nofun nofun rfl
          | _ => cases h
      | succ polls =>
          cases a with
          | sync =>
              cases h
              exact .next _ (.breakWait polls) nofun rfl
          | failed err broke =>
              cases h
              exact .failed nofun nofun rfl
          | _ => cases h
  | breakWait polls => exact .ofWait nofun rfl (.breakStatus polls) h
  | breakStatus polls =>
      cases a with
      | sync =>
          cases h
          exact .next _ (.again polls) nofun rfl
      | failed err broke =>
          cases h
          exact .failed nofun nofun rfl
      | stopped o =>
          cases h
          exact .next _ (.ends nofun (ended_ne _ _)) nofun rfl
      | _ => cases h
  | reply r =>
      cases a with
      | sync =>
          cases h
          exact .replied r rfl nofun rfl
      | _ => cases h

end Executed

/-- The queue and the flag are as they were. -/
def SameQueue (w w' : EngineThread) : Prop :=
  w'.queue = w.queue ∧ w'.flag = w.flag

/-- A wait leaves the queue and the flag alone. -/
theorem SameQueue.ofWait {stop : StopOutcome → StopOutcome}
    {timedOut : EngineThread}
    (h : w.waitForEvent job pc stop timedOut a = some w')
    (ht : SameQueue w timedOut) : SameQueue w w' := by
  cases a with
  | timedOut =>
      cases h
      exact ht
  | event | resumed | failed =>
      cases h
      exact ⟨rfl, rfl⟩
  | _ => cases h

/-- So does the first step of a command. -/
theorem SameQueue.ofEnter (h : w.enter job a = some w') :
    SameQueue w w' := by
  have hrun : ∀ pc', SameQueue w (w.ensureRunnable job pc') := by
    intro pc'
    unfold ensureRunnable
    split <;> exact ⟨rfl, rfl⟩
  cases a with
  | sync =>
      obtain ⟨i, cmd⟩ := job
      cases cmd with
      | go | step | breakIn =>
          cases h
          exact hrun _
      | detach | other =>
          cases h
          exact ⟨rfl, rfl⟩
  | failed err broke =>
      simp only [enter] at h
      split at h
      · cases h
      · cases h
        exact ⟨rfl, rfl⟩
  | _ => cases h

/-- A command leaves the queue alone, and the flag but for `go`'s reset
of it. -/
theorem SameQueue.ofExecute (hpc : pc ≠ .clear)
    (h : w.execute job pc a = some w') : SameQueue w w' := by
  unfold execute at h
  split at h
  case h_1 => exact .ofEnter h
  case h_2 => exact absurd rfl hpc
  case h_7 | h_9 | h_13 => exact .ofWait h ⟨rfl, rfl⟩
  case h_18 => cases h
  all_goals
    cases h
    exact ⟨rfl, rfl⟩

/-- A command leaves the queue alone. -/
theorem execute_queue (h : w.execute job pc a = some w') :
    w'.queue = w.queue := by
  by_cases hpc : pc = .clear
  · subst hpc
    cases a with
    | sync =>
        cases h
        rfl
    | _ => cases h
  · exact (SameQueue.ofExecute hpc h).1

/-- What a step of the thread does. -/
inductive Stepped (w : EngineThread) (a : EngineAnswer)
    (w' : EngineThread) : Prop
  | popped (job : Job) (queue : List Job) (hpc : w.pc = .idle)
      (hq : w.queue = job :: queue) (ha : a ≠ .resumed)
      (h : w' = { w with queue, pc := .run job .entry })
  | executed (job : Job) (pc : EnginePc) (hpc : w.pc = .run job pc)
      (h : w.execute job pc a = some w')

theorem threadStep_stepped (h : w.threadStep a = some w') :
    Stepped w a w' := by
  unfold threadStep at h
  split at h
  · next job queue hpc hq =>
      cases h
      exact .popped job queue hpc hq nofun rfl
  · next job pc hpc => exact .executed job pc hpc h
  · cases h

/-- Every command can go on: no step waits for a caller. -/
theorem execute_enabled (w : EngineThread) (job : Job) (pc : EnginePc) :
    ∃ a w', a ≠ .resumed ∧ w.execute job pc a = some w' := by
  cases pc with
  | entry =>
      obtain ⟨i, cmd⟩ := job
      cases cmd <;> exact ⟨.sync, _, nofun, rfl⟩
  | wait | landing | breakWait => exact ⟨.timedOut, _, nofun, rfl⟩
  | interrupt polls =>
      cases polls <;> exact ⟨.sync, _, nofun, rfl⟩
  | _ => exact ⟨.sync, _, nofun, rfl⟩

end EngineThread

/-- An interrupt sets the flag. -/
theorem run_interrupt {w w' : EngineThread} {i : Nat} {a : CallAnswer}
    {b : Unit} (h : w.run i .interrupt a = some (b, w')) :
    w' = { w with flag := true } := by
  cases a <;> cases h
  rfl

/-- A panic leaves nothing. -/
theorem die_eq {w w' : EngineThread} (h : w.die = some w') :
    w'.pc = .gone ∧ w'.queue = [] := by
  unfold EngineThread.die at h
  split at h
  · cases h
  · cases h
    exact ⟨rfl, rfl⟩

end DebugMcp
