/-
The interrupts of the engine thread, and when one comes in time.

`pause` and `disconnect` set the flag that `go`'s loop polls, and `go`
resets it when it starts. So an interrupt counts if it comes when the
command has reset the flag and is still to look at it. `Timely` says
that every interrupt of a run does, and that no `go` slips in between the
two halves of a disconnect; `ignored`, `overdue` and `waited` say what a run
makes of its interrupts.

A wait that is merely begun again, for an event that did not stop the
target, is not counted in these: nothing bounds how often it is, and where
it is for ever the flag is never looked at. `overdueSteps` and
`waitedSteps` count every step, and `WaitsEnd` is that no wait is begun
again more than so many times.
-/
import DebugMcp.WinDbg.EngineThread

namespace DebugMcp

open Conc

-- =============================================================== calls

/-- A backend call. -/
inductive WinCall
  | cont (threadId : Int)
  | step (kind : StepKind)
  | pause
  | disconnect (terminate : Bool)
  | other
  deriving DecidableEq

namespace WinCall

/-- A backend call, run for its effect. -/
def prog : WinCall → WinProg Unit
  | cont threadId => do
      let _ ← windbgCont threadId
  | step kind => do
      let _ ← windbgStep kind 0 none
  | pause => do
      let _ ← windbgPause
  | disconnect terminate => windbgDisconnect terminate
  | other => do
      let _ ← call .other

def isDisconnect : WinCall → Bool
  | disconnect _ => true
  | _ => false

end WinCall

/-- The pool of these calls over `w`. -/
def enginePool (calls : Nat → WinCall) (w : EngineThread) :
    Pool WinOp Unit EngineThread where
  world := w
  prog i := some (calls i).prog

/-- Where a call is. -/
inductive WinPhase
  /-- It sets no flag and queues no detach. -/
  | plain
  /-- It is to set the flag; does it leave then? -/
  | start (leaves : Bool)
  /-- It has set the flag and is to queue its detach. -/
  | flagged
  | rest
  deriving DecidableEq

/-- Is a detach still to come? -/
def WinPhase.detaches : WinPhase → Bool
  | start _ | flagged => true
  | _ => false

/-- The protocol of a backend call. -/
inductive WinNext : ⦃β : Type⦄ → WinPhase → WinOp β → β →
    WinPhase → Prop
  | enqueue (cmd : EngineCmd) (hcmd : cmd.isDetach = false)
      (r : Option (Except Unit Unit)) :
      WinNext .plain (.enqueue cmd) r .plain
  | recv (cmd : EngineCmd)
      (r : Option (Except Unit (Except EngineError cmd.Value))) :
      WinNext .plain (.recv cmd) r .plain
  | interrupt (leaves : Bool) :
      WinNext (.start leaves) .interrupt ()
        (if leaves then .flagged else .rest)
  | detach (terminate : Bool) (r : Option (Except Unit Unit)) :
      WinNext .flagged (.enqueue (.detach terminate)) r .rest
  | detached (cmd : EngineCmd)
      (r : Option (Except Unit (Except EngineError cmd.Value))) :
      WinNext .rest (.recv cmd) r .rest

/-- A command that is no detach is sent and awaited. -/
theorem call_obeys {cmd : EngineCmd} (hcmd : cmd.isDetach = false) :
    Obeys WinNext (fun q _ => q = .plain) (call cmd) .plain := by
  intro r
  refine ⟨_, .enqueue cmd hcmd r, ?_⟩
  rcases r with _ | _ | _
  · rfl
  · rfl
  · intro v
    refine ⟨_, .recv cmd v, ?_⟩
    rcases v with _ | _ | _ | _ <;> rfl

/-- A disconnect's detach, after the flag. -/
theorem detach_obeys (terminate : Bool) :
    Obeys WinNext (fun _ _ => True) (call (.detach terminate))
      .flagged := by
  intro r
  refine ⟨_, .detach terminate r, ?_⟩
  rcases r with _ | _ | _
  · trivial
  · trivial
  · intro v
    refine ⟨_, .detached _ v, ?_⟩
    rcases v with _ | _ | _ | _ <;> trivial

namespace WinCall

/-- The phase a call starts in. -/
def phase₀ : WinCall → WinPhase
  | pause => .start false
  | disconnect _ => .start true
  | _ => .plain

/-- A backend call obeys the protocol. -/
theorem obeys (c : WinCall) :
    Obeys WinNext (fun _ _ => True) c.prog c.phase₀ := by
  cases c with
  | cont threadId =>
      refine Obeys.bind (R := fun q _ => q = .plain) ?_
        fun _ _ _ => trivial
      refine (call_obeys rfl).bind fun q r hq => ?_
      subst hq
      rcases r with _ | _ | _ | _
      · rfl
      · rfl
      · exact call_obeys rfl
      · rfl
  | step kind => exact (call_obeys rfl).bind fun _ _ _ => trivial
  | pause => exact fun _ => ⟨_, .interrupt false, trivial⟩
  | disconnect terminate =>
      exact fun _ => ⟨_, .interrupt true,
        (detach_obeys terminate).bind fun _ _ _ => trivial⟩
  | other => exact (call_obeys rfl).bind fun _ _ _ => trivial

end WinCall

-- ============================================================= history

/-- An event of the engine thread and its callers. -/
abbrev EngineEvent := Event WinOp ThreadMove EngineThread

/-- A run's events, newest first. -/
abbrev EngineHistory := List EngineEvent

/-- Is it a `go` of call `i`? -/
def Job.isGoOf (i : Nat) (job : Job) : Bool :=
  job.cmd.isGo && job.caller == i

/-- Is it a detach of call `j`? -/
def Job.isDetachOf (j : Nat) (job : Job) : Bool :=
  job.cmd.isDetach && job.caller == j

/-- The command the thread is at. -/
def ThreadPc.job? : ThreadPc → Option Job
  | run job _ => some job
  | _ => none

namespace EngineThread

/-- Is a `go` of call `i` queued or being executed? -/
def going (w : EngineThread) (i : Nat) : Bool :=
  w.queue.any (Job.isGoOf i) || w.pc.job?.any (Job.isGoOf i)

/-- Is a detach of call `j` queued? -/
def detaching (w : EngineThread) (j : Nat) : Bool :=
  w.queue.any (Job.isDetachOf j)

end EngineThread

/-- Does the event set the flag? -/
def isInterrupt : EngineEvent → Bool
  | .act _ .interrupt _ _ _ => true
  | _ => false

/-- Does a `go` of call `i` return with the event, or die with it? -/
def goReturns (i : Nat) (ev : EngineEvent) : Bool :=
  ev.pre.pc.job?.any (Job.isGoOf i) && ev.post.pc.job?.isNone

/-- Was an interrupt requested during the `go` of call `i`? -/
def interrupted (i : Nat) : EngineHistory → Bool
  | [] => false
  | ev :: h =>
      !goReturns i ev
        && (interrupted i h || (isInterrupt ev && ev.pre.going i))

/-- Does a `go` of call `i` go on as if there was no interrupt: wait
again, or return with the target running? -/
def ignores (i : Nat) (ev : EngineEvent) : Bool :=
  match ev.pre.pc, ev.post.pc with
  | .run job .poll, .run _ .wait => job.isGoOf i
  | .run job (.reply (.ok (.go none))), .idle => job.isGoOf i
  | _, _ => false

/-- Has the `go` of call `i` ever ignored an interrupt? -/
def ignored (i : Nat) : EngineHistory → Bool
  | [] => false
  | ev :: h => ignores i ev && interrupted i h || ignored i h

/-- A step of the thread, other than the beginning of a wait again. -/
def advances : EngineEvent → Nat
  | .act _ _ _ _ _ => 0
  | .env (.step .resumed) _ _ => 0
  | .env _ _ _ => 1

/-- How many steps the thread has taken since the `go` of call `i` was
interrupted. -/
def overdue (i : Nat) : EngineHistory → Nat
  | [] => 0
  | ev :: h => if interrupted i h then overdue i h + advances ev else 0

/-- How many steps the thread has taken since call `j` queued its
detach. -/
def waited (j : Nat) : EngineHistory → Nat
  | [] => 0
  | ev :: h => if ev.pre.detaching j then waited j h + advances ev else 0

/-- Any step of the thread. -/
def anyStep : EngineEvent → Nat
  | .act _ _ _ _ _ => 0
  | .env _ _ _ => 1

/-- `overdue`, of every step. -/
def overdueSteps (i : Nat) : EngineHistory → Nat
  | [] => 0
  | ev :: h =>
      if interrupted i h then overdueSteps i h + anyStep ev else 0

/-- `waited`, of every step. -/
def waitedSteps (j : Nat) : EngineHistory → Nat
  | [] => 0
  | ev :: h =>
      if ev.pre.detaching j then waitedSteps j h + anyStep ev else 0

/-- How often the thread has begun its wait again. -/
def begunAgain : EngineHistory → Nat
  | [] => 0
  | .act _ _ _ _ _ :: h => begunAgain h
  | .env (.step .resumed) _ _ :: h => begunAgain h + 1
  | .env _ _ _ :: _ => 0

/-- No wait of the run is begun again more than `n` times. -/
def WaitsEnd (n : Nat) : EngineHistory → Prop
  | [] => True
  | ev :: h => begunAgain (ev :: h) ≤ n ∧ WaitsEnd n h

instance WaitsEnd.decidable (n : Nat) :
    (h : EngineHistory) → Decidable (WaitsEnd n h)
  | [] => .isTrue trivial
  | _ :: h =>
      have := WaitsEnd.decidable n h
      inferInstanceAs (Decidable (_ ∧ _))

-- =============================================================== costs

/-- How many steps are left of a command that will not poll. -/
def EnginePc.cost : EnginePc → Nat
  | entry => 157
  | clear => 156
  | start => 155
  | wait => 155
  | poll => 154
  | look => 153
  | landing => 2
  | interrupt polls => 3 * polls + 2
  | breakWait polls => 3 * polls + 4
  | breakStatus polls => 3 * polls + 3
  | reply _ => 1

/-- How many steps the thread has left in the command it is at. -/
def ThreadPc.cost : ThreadPc → Nat
  | run _ pc => pc.cost
  | _ => 0

/-- How many steps a command that will not poll takes at most. -/
def commandCost : Nat := EnginePc.entry.cost

/-- The commands ahead of call `j`'s detach. -/
def ahead (j : Nat) (queue : List Job) : List Job :=
  queue.takeWhile fun job => !job.isDetachOf j

/-- How many steps the thread is away from executing call `j`'s
detach. -/
def EngineThread.distance (w : EngineThread) (j : Nat) : Nat :=
  w.pc.cost + (ahead j w.queue).length * (commandCost + 1) + 1

/-- The distance when call `j` queued its detach. -/
def budget (j : Nat) : EngineHistory → Nat
  | [] => 0
  | ev :: h =>
      if ev.pre.detaching j then budget j h else ev.post.distance j

-- =========================================================== condition

/-- Has a `go` at `pc` yet to reset the flag, or looked at it for the
last time? -/
def EnginePc.isBlind : EnginePc → Bool
  | entry | clear => true
  | reply r => r = .ok (.go none)
  | _ => false

/-- Is there a `go` that has yet to reset the flag, or has looked at it
for the last time? -/
def EngineThread.blind (w : EngineThread) : Bool :=
  w.queue.any (·.cmd.isGo) ||
    match w.pc with
    | .run job pc => job.cmd.isGo && pc.isBlind
    | _ => false

/-- The disconnects that have set the flag and not queued their
detach. -/
def leaving (calls : Nat → WinCall) : EngineHistory → List Nat
  | [] => []
  | .act j .interrupt _ _ _ :: h =>
      if (calls j).isDisconnect then j :: leaving calls h
      else leaving calls h
  | .act j (.enqueue _) _ _ _ :: h => (leaving calls h).filter (· ≠ j)
  | _ :: h => leaving calls h

/-- An interrupt comes when every `go` there is has reset the flag and
will look at it again; a `go` is not queued while a disconnect is
leaving. -/
def Timely (calls : Nat → WinCall) (h : EngineHistory) :
    EngineEvent → Prop
  | .act _ .interrupt _ pre _ => pre.blind = false
  | .act _ (.enqueue cmd) _ _ _ => cmd.isGo = true → leaving calls h = []
  | _ => True

instance (calls : Nat → WinCall) (h : EngineHistory) (ev : EngineEvent) :
    Decidable (Timely calls h ev) :=
  match ev with
  | .act _ .interrupt _ pre _ =>
      inferInstanceAs (Decidable (pre.blind = false))
  | .act _ (.enqueue cmd) _ _ _ =>
      inferInstanceAs (Decidable (cmd.isGo = true → leaving calls h = []))
  | .act _ (.recv _) _ _ _ => .isTrue trivial
  | .env _ _ _ => .isTrue trivial

-- ========================================================== operations

/-- The thread, its queue and the flag are as they were. -/
def SameThread (w w' : EngineThread) : Prop :=
  w'.pc = w.pc ∧ w'.queue = w.queue ∧ w'.flag = w.flag

/-- A command is queued, behind all others. -/
def Queued (job : Job) (w w' : EngineThread) : Prop :=
  w'.pc = w.pc ∧ w'.queue = w.queue ++ [job] ∧ w'.flag = w.flag

section

variable {w w' : EngineThread} {i : Nat} {cmd : EngineCmd}
  {a : CallAnswer}

theorem run_enqueue {b : Option (Except Unit Unit)}
    (h : w.run i (.enqueue cmd) a = some (b, w')) :
    SameThread w w' ∨ (w.pc ≠ .gone ∧ Queued ⟨i, cmd⟩ w w') := by
  cases a with
  | cancel =>
      cases h
      exact .inl ⟨rfl, rfl, rfl⟩
  | sync =>
      simp only [EngineThread.run] at h
      split at h
      · cases h
        exact .inl ⟨rfl, rfl, rfl⟩
      · next hpc =>
          cases h
          exact .inr ⟨hpc, rfl, rfl, rfl⟩

theorem run_recv {b : Option (Except Unit (Except EngineError cmd.Value))}
    (h : w.run i (.recv cmd) a = some (b, w')) : SameThread w w' := by
  cases a with
  | cancel =>
      cases h
      exact ⟨rfl, rfl, rfl⟩
  | sync =>
      obtain ⟨v, hv, he⟩ := Option.map_eq_some_iff.mp h
      cases he
      exact ⟨rfl, rfl, rfl⟩

end

-- =============================================================== steps

/-- Can a command be at `pc`? Only `go` polls. -/
def EnginePc.fits (go : Bool) : EnginePc → Bool
  | clear | poll | wait | look => go
  | _ => true

/-- Will a `go` at `pc` neither poll again nor give up? -/
def EnginePc.settled (flag : Bool) : EnginePc → Bool
  | entry | clear => false
  | start | poll | wait | look => flag
  | reply r => r ≠ .ok (.go none)
  | _ => true

/-- An interrupt settles a `go` that is not blind to it. -/
theorem EnginePc.settled_of_seeing {pc : EnginePc}
    (h : pc.isBlind = false) : pc.settled true = true := by
  cases pc with
  | entry | clear => cases h
  | reply r =>
      have hr : ¬ r = .ok (.go none) := of_decide_eq_false h
      exact decide_eq_true hr
  | _ => rfl

namespace EnginePc.Next

variable {go flag : Bool} {pc pc' : EnginePc}

/-- Only `go` comes to polling. -/
theorem fits (hn : pc.Next go flag pc') (h : pc.fits go = true) :
    pc'.fits go = true := by
  cases hn with
  | clear hgo | poll hgo => exact hgo
  | leave | wait | waited => exact h
  | _ => rfl

/-- A `go` that will not poll again stays so. -/
theorem settled (hn : pc.Next true flag pc')
    (h : pc.settled flag = true) : pc'.settled flag = true := by
  cases hn with
  | clear | breakIn | cleared | start => cases h
  | poll | leave | wait | waited => exact h
  | giveUp hflag =>
      subst hflag
      cases h
  | ends hpc hr => exact decide_eq_true hr
  | _ => rfl

/-- No step makes a command cost more than at its start. -/
theorem cost_le (hn : pc.Next go flag pc')
    (h : pc.cost ≤ commandCost) : pc'.cost ≤ commandCost := by
  have hc : commandCost = 157 := rfl
  cases hn <;> simp only [EnginePc.cost, hc] at h ⊢ <;> omega

/-- Every step of a command that will not poll lowers its cost. -/
theorem cost_lt (hn : pc.Next go flag pc') (hf : pc.fits go = true)
    (hs : go = true → pc.settled flag = true) : pc'.cost < pc.cost := by
  cases hn with
  | wait hflag =>
      subst hflag
      exact absurd (hs hf) nofun
  | ends hpc hr =>
      cases pc with
      | reply r => exact absurd rfl (hpc r)
      | _ => simp only [EnginePc.cost]; omega
  | _ => simp only [EnginePc.cost]; omega

end EnginePc.Next

end DebugMcp
