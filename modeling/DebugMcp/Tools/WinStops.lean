/-
Stop tracking over the WinDbg backend.

A stop reaches the session in the reply of the command that ran into it,
by way of the handler that awaits the reply: it writes Stopped, and then
caches the stop, in two lock sections.

# Result

In the runs in which every Running write finds the session stopped with
its stop cached, no resume is cancelled after its Running write and no
DbgEng call that fails breaks the target in, a session that nobody uses,
over an idle engine, is Stopped with the last stop when the last command
that ran the target left it broken in (`stops_tracked`).
`cancelled_stop_lost` is the run of a continue that is cancelled and
paused.

# Method

At most one call is in flight, from its Running write until the stop is
cached (`InTurn`). While it is, the target's stop is on its way, and
`Flies` says where: at the engine, in the reply, with the handler.
-/
import DebugMcp.Lib.Turns
import DebugMcp.Tools.WinServer

namespace DebugMcp

open Conc

-- =========================================================== histories

/-- The stop an outcome is. -/
def StopOutcome.stop? : StopOutcome → Option StopInfo
  | .stopped info => some info
  | _ => none

/-- The stop a command of the thread has just ended with. -/
def EngineThread.stop? (w : EngineThread) : Option StopInfo :=
  w.ends.bind fun e => e.2.outcome?.bind StopOutcome.stop?

/-- The target when a command ends with this outcome, if with one. -/
def Debuggee.left (t : Debuggee) : Option StopOutcome → Debuggee
  | some o => .after o
  | .none => t

/-- How the last command that was to run the target, or to break it in,
left it. -/
def lastRun : WinHistory → Option Debuggee
  | [] => none
  | .env (.backend (.step _)) _ w' :: h =>
      if w'.backend.ends.any fun e => e.1.cmd.runs then
        some w'.backend.target
      else lastRun h
  | _ :: h => lastRun h

/-- The last stop of the target, `s₀` before the run. -/
def lastStop (s₀ : Option StopInfo) : WinHistory → Option StopInfo
  | [] => s₀
  | .env (.backend (.step _)) _ w' :: h =>
      w'.backend.stop?.or (lastStop s₀ h)
  | _ :: h => lastStop s₀ h

/-- The calls that have written a stop and not cached it. -/
def uncached : WinHistory → List Nat
  | [] => []
  | .act i (.tool (.inl (.setStateIfGeneration _ .stopped))) true _ _
      :: h => i :: uncached h
  | .act i (.tool (.inl (.setLastStopped _))) _ _ _ :: h =>
      (uncached h).erase i
  | _ :: h => uncached h

-- =========================================================== condition

/-- The Running write finds the session stopped and its stop cached, no
resume is cancelled after it, and a DbgEng call that fails does not break
the target in. -/
def stopsInTurn (h : WinHistory) : WinEvent → Bool
  | .act _ (.tool (.inl (.setState .running))) _ w _ =>
      w.state = .stopped && (uncached h).isEmpty
  | .act _ (.race .first) polled _ _ => polled
  | .act _ (.backend (.enqueue _)) r _ _ => r.isSome
  | .act _ (.backend (.recv _)) r _ _ => r.isSome
  | .env (.backend (.step (.failed _ broke))) _ _ => !broke
  | _ => true

/-- The runs whose steps are all in turn. -/
abbrev WinStopRun (calls : Nat → ExecTool) (w₀ : WinServer) :
    WinHistory → Pool WinServerOp ToolOutcome WinServer → Prop :=
  RunIf winMachine (fun h ev => stopsInTurn h ev = true)
    (winPool calls w₀)

-- ================================================================ view

/-- What a run is at, for the target's stops: the engine's commands and
replies, the session's state and cached stop, and what the history says
of the last command and the last stop. -/
structure StopView where
  queue : List Job
  pc : ThreadPc
  target : Debuggee
  replies : Nat → Oneshot CmdReply
  state : State
  cached : Option StopInfo
  generation : UInt64
  run : Option Debuggee
  stop : Option StopInfo
  uncached : List Nat

/-- The view of a state of a run; `s₀` is the stop cached before it. -/
def stopView (s₀ : Option StopInfo) (w : WinServer) (h : WinHistory) :
    StopView where
  queue := w.backend.queue
  pc := w.backend.pc
  target := w.backend.target
  replies := w.backend.replies
  state := w.state
  cached := w.server.session.inner.lastStopped
  generation := w.server.session.inner.generation
  run := lastRun h
  stop := lastStop s₀ h
  uncached := uncached h

namespace StopView

variable (v : StopView)

/-- May a resume set the session running? -/
def free : Prop := v.state = .stopped ∧ v.uncached = []

/-- The engine has nothing to do, and the target is as its last command
left it. -/
structure Rests : Prop where
  queue : v.queue = []
  pc : v.pc = .idle
  ran : ∀ d, v.run = some d → v.target = d

/-- The stop the target is at is cached. -/
def AtStop : Prop := v.target = .broken → v.cached = v.stop

/-- What the outcome of the last command says. -/
def Carries : Option StopOutcome → Prop
  | some (.stopped info) => v.stop = some info
  | some _ => v.target ≠ .broken ∧ v.run ≠ some .broken
  | none => v.AtStop

/-- Where the command of call `i` is, and the outcome with it. -/
inductive Awaits (i : Nat) (cmd : EngineCmd) : Prop
  | queued (hq : v.queue = [⟨i, cmd⟩]) (hpc : v.pc = .idle)
      (he : v.replies i = .empty) (hs : v.AtStop)
  | executing (pc : EnginePc) (hq : v.queue = [])
      (hpc : v.pc = .run ⟨i, cmd⟩ pc) (hr : ∀ r, pc ≠ .reply r)
      (he : v.replies i = .empty) (hs : v.AtStop)
  | ended (r : CmdReply) (hq : v.queue = [])
      (hpc : v.pc = .run ⟨i, cmd⟩ (.reply r))
      (he : v.replies i = .empty) (hran : v.run = some v.target)
      (hs : v.Carries r.outcome?)
  | replied (r : CmdReply) (hrest : v.Rests)
      (he : v.replies i = .sent r) (hs : v.Carries r.outcome?)

/-- Where the target's stop is while call `i` is in flight. -/
def Flies (i : Nat) : WinFlight → Prop
  | .entering _ | .failed => v.Rests ∧ v.AtStop
  | .sending _ cmd => cmd.runs = true ∧ v.Rests ∧ v.AtStop
  | .waiting _ cmd => cmd.runs = true ∧ v.Awaits i cmd
  | .got _ o => v.Rests ∧ v.Carries (some o)
  | .caching info => v.Rests ∧ v.state = .stopped ∧
      v.Carries (some (.stopped info))
  | .pausing | .before | .ready _ | .landed | .quit => True

/-- Nobody is in flight: the stop is where it belongs. -/
structure Settled : Prop where
  rests : v.Rests
  atStop : v.AtStop
  state : v.run = some .broken → v.state = .stopped

/-- A call that is not in flight has no stop with it. -/
theorem flies_of_not {v : StopView} {i : Nat} {q : WinFlight}
    (h : q.inFlight = false) : v.Flies i q := by
  cases q with
  | pausing | before | ready | landed | quit => trivial
  | _ => cases h

end StopView

-- ============================================================ invariant

/-- The execution tools take turns, and the target's stop is on its way
with the one in flight. -/
structure StopsInv (v : StopView) (φ : Nat → WinFlight) : Prop where
  turn : InTurn v.free WinFlight.inFlight φ
  caching : ∀ i info, φ i = .caching info → v.uncached = [i]
  cached : (∀ i info, φ i ≠ .caching info) → v.uncached = []
  generation : ∀ i g, (φ i).generation? = some g → g = v.generation
  flies : ∀ i, v.Flies i (φ i)
  settled : (∀ i, (φ i).inFlight = false) → v.Settled

namespace StopsInv

variable {v v' : StopView} {φ : Nat → WinFlight} {i : Nat}
  {q' : WinFlight}

/-- A caching call is in flight. -/
theorem inFlight_of_caching {q : WinFlight} {info : StopInfo}
    (h : q = .caching info) : q.inFlight = true := by
  rw [h]
  rfl

/-- A call that is not in flight moves on. -/
theorem aside (hI : StopsInv v φ) (hi : (φ i).inFlight = false)
    (hq : q'.inFlight = false)
    (hgen : ∀ g, q'.generation? = some g → g = v.generation) :
    StopsInv v (Function.update φ i q') where
  turn := hI.turn.stay (hq.trans hi.symm) id
  caching j info hj := by
    rcases update_cases (P := (· = WinFlight.caching info)) hj with
      ⟨-, hj⟩ | ⟨-, hj⟩
    · rw [inFlight_of_caching hj] at hq
      cases hq
    · exact hI.caching j info hj
  cached hno := by
    refine hI.cached fun j info hj => ?_
    by_cases hij : j = i
    · rw [← hij, inFlight_of_caching hj] at hi
      cases hi
    · exact hno j info ((Function.update_of_ne hij ..).trans hj)
  generation j g hj := by
    rcases update_cases (P := (WinFlight.generation? · = some g)) hj with
      ⟨-, hj⟩ | ⟨-, hj⟩
    · exact hgen g hj
    · exact hI.generation j g hj
  flies j := by
    by_cases hij : j = i
    · rw [hij, Function.update_self]
      exact StopView.flies_of_not hq
    · rw [Function.update_of_ne hij]
      exact hI.flies j
  settled hall := by
    refine hI.settled fun j => ?_
    by_cases hij : j = i
    · rw [hij, hi]
    · have := hall j
      rwa [Function.update_of_ne hij] at this

/-- A call moves in, to or from its flight, while the others are not in
flight. -/
theorem fly (hI : StopsInv v φ)
    (hothers : ∀ j, j ≠ i → (φ j).inFlight = false)
    (hg : v'.generation = v.generation)
    (hgen : ∀ g, q'.generation? = some g → g = v.generation)
    (hfree : q'.inFlight = true → ¬ v'.free)
    (hcaching : ∀ info, q' = .caching info → v'.uncached = [i])
    (hcached : (∀ info, q' ≠ .caching info) → v'.uncached = [])
    (hflies : v'.Flies i q') (hsettled : q'.inFlight = false → v'.Settled) :
    StopsInv v' (Function.update φ i q') where
  turn := .solo hothers hfree
  caching j info hj := by
    rcases update_cases (P := (· = WinFlight.caching info)) hj with
      ⟨hij, hj⟩ | ⟨hij, hj⟩
    · rw [hij]
      exact hcaching info hj
    · have := hothers j hij
      rw [inFlight_of_caching hj] at this
      cases this
  cached hno := by
    refine hcached fun info hq => hno i info ?_
    rw [Function.update_self, hq]
  generation j g hj := by
    rw [hg]
    rcases update_cases (P := (WinFlight.generation? · = some g)) hj with
      ⟨-, hj⟩ | ⟨-, hj⟩
    · exact hgen g hj
    · exact hI.generation j g hj
  flies j := by
    by_cases hij : j = i
    · rw [hij, Function.update_self]
      exact hflies
    · rw [Function.update_of_ne hij]
      exact StopView.flies_of_not (hothers j hij)
  settled hall := by
    have := hall i
    rw [Function.update_self] at this
    exact hsettled this

/-- The call in flight is not caching: no stop is written. -/
theorem uncached_nil (hI : StopsInv v φ) (hi : (φ i).inFlight = true)
    (hne : ∀ info, φ i ≠ .caching info) : v.uncached = [] := by
  refine hI.cached fun j info hj => ?_
  by_cases hij : j = i
  · exact hne info (hij ▸ hj)
  · have := hI.turn.others hi j hij
    rw [inFlight_of_caching hj] at this
    cases this

/-- A call moves in its flight, and the session stays as it is. -/
theorem onward (hI : StopsInv v φ) (hi : (φ i).inFlight = true)
    (hne : ∀ info, φ i ≠ .caching info) (hst : v'.state = v.state)
    (hun : v'.uncached = v.uncached) (hg : v'.generation = v.generation)
    (hgen : ∀ g, q'.generation? = some g → (φ i).generation? = some g)
    (hq : q'.inFlight = true) (hne' : ∀ info, q' ≠ .caching info)
    (hflies : v'.Flies i q') : StopsInv v' (Function.update φ i q') := by
  have hnil := hI.uncached_nil hi hne
  refine hI.fly (hI.turn.others hi) hg
    (fun g h => hI.generation i g (hgen g h)) (fun _ hf => ?_)
    (fun info h => absurd h (hne' info)) (fun _ => hun.trans hnil) hflies
    fun h => ?_
  · have hout := hI.turn.outside
      ⟨hst.symm.trans hf.1, hun.symm.trans hf.2⟩ i
    rw [hi] at hout
    cases hout
  · rw [hq] at h
    cases h

end StopsInv

-- =============================================================== steps

section

variable {s₀ : Option StopInfo} {w w' : WinServer} {h : WinHistory}
  {i : Nat} {β : Type} {a : WinServerAnswer} {b : β}

/-- The view after a section of the session. -/
theorem stopView_session {op : SessionOp β}
    (hr : winMachine.run i (.tool (.inl op)) a w = some (b, w')) :
    (op.run w.server.session).1 = b ∧
      stopView s₀ w' (.act i (.tool (.inl op)) b w w' :: h)
        = { stopView s₀ w h with
            state := (op.run w.server.session).2.inner.state
            cached := (op.run w.server.session).2.inner.lastStopped
            generation := (op.run w.server.session).2.inner.generation
            uncached :=
              uncached (.act i (.tool (.inl op)) b w w' :: h) } := by
  obtain ⟨_, hs, hb⟩ := Backed.run_tool hr
  obtain ⟨hb₁, hs⟩ := ToolServer.run_inl hs
  refine ⟨hb₁, ?_⟩
  unfold stopView Backed.state
  rw [hb, hs]
  rfl

/-- A look leaves it. -/
theorem stopView_look {op : ToolOp β} (hl : Looks op)
    (hr : winMachine.run i (.tool op) a w = some (b, w')) :
    stopView s₀ w' (.act i (.tool op) b w w' :: h) = stopView s₀ w h := by
  cases hl with
  | currentBackend =>
      obtain ⟨_, hs, hb⟩ := Backed.run_tool hr
      unfold stopView Backed.state
      rw [hb, ToolServer.run_inr hs]
      rfl
  | _ => exact (stopView_session hr).2

/-- The view after an operation of the engine's callers. -/
theorem stopView_backend {op : WinOp β}
    (hr : winMachine.run i (.backend op) a w = some (b, w')) :
    stopView s₀ w' (.act i (.backend op) b w w' :: h)
      = { stopView s₀ w h with
          queue := w'.backend.queue
          pc := w'.backend.pc
          target := w'.backend.target
          replies := w'.backend.replies } := by
  obtain ⟨_, _, hs⟩ := Backed.run_backend hr
  unfold stopView Backed.state
  rw [hs]
  rfl

/-- The view after a step of the engine thread. -/
theorem stopView_step {x : EngineAnswer} (hs : w'.server = w.server) :
    stopView s₀ w' (.env (.backend (.step x)) w w' :: h)
      = { stopView s₀ w h with
          queue := w'.backend.queue
          pc := w'.backend.pc
          target := w'.backend.target
          replies := w'.backend.replies
          run := if w'.backend.ends.any fun e => e.1.cmd.runs then
            some w'.backend.target else lastRun h
          stop := w'.backend.stop?.or (lastStop s₀ h) } := by
  unfold stopView Backed.state
  rw [hs]
  rfl

/-- One that ends no command leaves the last one. -/
theorem stopView_quiet {x : EngineAnswer} (hs : w'.server = w.server)
    (he : w'.backend.ends = none) :
    stopView s₀ w' (.env (.backend (.step x)) w w' :: h)
      = { stopView s₀ w h with
          queue := w'.backend.queue
          pc := w'.backend.pc
          target := w'.backend.target
          replies := w'.backend.replies } := by
  rw [stopView_step hs, EngineThread.stop?, he]
  rfl

/-- One that ends a command that was to run the target. -/
theorem stopView_ends {x : EngineAnswer} {job : Job} {r : CmdReply}
    (hs : w'.server = w.server)
    (hpc : w'.backend.pc = .run job (.reply r))
    (hcmd : job.cmd.runs = true) :
    stopView s₀ w' (.env (.backend (.step x)) w w' :: h)
      = { stopView s₀ w h with
          queue := w'.backend.queue
          pc := .run job (.reply r)
          target := w'.backend.target
          replies := w'.backend.replies
          run := some w'.backend.target
          stop := (r.outcome?.bind StopOutcome.stop?).or
            (lastStop s₀ h) } := by
  have he := EngineThread.ends_reply hpc
  rw [stopView_step hs, EngineThread.stop?, he, hpc]
  simp only [Option.any_some, hcmd, if_true, Option.bind_some]

-- A step of the thread moves the command of the call that awaits it.

namespace StopView

variable {x : EngineAnswer} {cmd : EngineCmd}

/-- An engine at rest takes no step. -/
theorem Rests.stuck (hr : (stopView s₀ w h).Rests)
    (hx : w.backend.threadStep x = some w'.backend) : False :=
  EngineThread.idle_stuck hr.pc hr.queue hx

/-- A queued command is taken up. -/
theorem Awaits.popped {job : Job} {queue : List Job}
    (hs : w'.server = w.server) (hq : w.backend.queue = [⟨i, cmd⟩])
    (he : w.backend.replies i = .empty) (hat : (stopView s₀ w h).AtStop)
    (hqueue : w.backend.queue = job :: queue)
    (hw : w'.backend = { w.backend with queue, pc := .run job .entry }) :
    (stopView s₀ w' (.env (.backend (.step x)) w w' :: h)).Awaits i
      cmd := by
  rw [hq] at hqueue
  cases hqueue
  have hends : w'.backend.ends = none := by rw [hw]; rfl
  rw [stopView_quiet hs hends, hw]
  exact .executing .entry rfl rfl nofun he hat

/-- A command that goes on ends no stop; one that sets the target running
leaves none. -/
theorem Awaits.goes {pc : EnginePc} (hs : w'.server = w.server)
    (hq : w.backend.queue = []) (he : w.backend.replies i = .empty)
    (hat : (stopView s₀ w h).AtStop)
    (hpc : w'.backend.pc = .run ⟨i, cmd⟩ pc) (hr : ∀ r, pc ≠ .reply r)
    (hsame : w.backend.SameReplies w'.backend)
    (ht : w'.backend.target = w.backend.target ∨
      w'.backend.target = .running) :
    (stopView s₀ w' (.env (.backend (.step x)) w w' :: h)).Awaits i
      cmd := by
  have hends : w'.backend.ends = none := by
    refine EngineThread.ends_none fun job r hrun => ?_
    rw [hpc] at hrun
    cases hrun
    exact hr r rfl
  rw [stopView_quiet hs hends]
  refine .executing pc (hsame.queue.trans hq) hpc hr
    ((congrFun hsame.replies i).trans he) fun hb => ?_
  rcases ht with ht | ht
  · exact hat (ht.symm.trans hb)
  · cases ht.symm.trans hb

/-- A command ends; a stop it ends with is the last one. -/
theorem Awaits.ends {r : CmdReply} (hs : w'.server = w.server)
    (hq : w.backend.queue = []) (he : w.backend.replies i = .empty)
    (hat : (stopView s₀ w h).AtStop) (hcmd : cmd.runs = true)
    (hpc : w'.backend.pc = .run ⟨i, cmd⟩ (.reply r))
    (hsame : w.backend.SameReplies w'.backend)
    (ht : w'.backend.target = w.backend.target.left r.outcome?) :
    (stopView s₀ w' (.env (.backend (.step x)) w w' :: h)).Awaits i
      cmd := by
  rw [stopView_ends hs hpc hcmd]
  refine .ended r (hsame.queue.trans hq) rfl
    ((congrFun hsame.replies i).trans he) rfl ?_
  match ho : r.outcome? with
  | none =>
      rw [ho] at ht
      exact fun hb => hat (ht.symm.trans hb)
  | some (.stopped info) => exact rfl
  | some (.exited code) | some .terminated =>
      rw [ho] at ht
      have hne : w'.backend.target ≠ .broken := by
        rw [ht]
        nofun
      exact ⟨hne, fun hb => hne (Option.some.inj hb)⟩

end StopView

/-- The command of a call that awaits it moves on with a step of the
thread. -/
theorem StopView.Awaits.step {x : EngineAnswer} {cmd : EngineCmd}
    (hs : w'.server = w.server) (hcmd : cmd.runs = true)
    (hI : (stopView s₀ w h).Awaits i cmd)
    (hx : w.backend.threadStep x = some w'.backend)
    (hok : stopsInTurn h (.env (.backend (.step x)) w w') = true) :
    (stopView s₀ w' (.env (.backend (.step x)) w w' :: h)).Awaits i
      cmd := by
  cases hI with
  | queued hq hpc he hat =>
      have hpc : w.backend.pc = .idle := hpc
      cases EngineThread.Effect.ofStep hx with
      | popped job queue hpc' hqueue hw =>
          exact .popped hs hq he hat hqueue hw
      | moved _ _ _ hrun | started _ _ hrun | landed _ _ _ hrun
      | gaveUp _ hrun | failed _ _ _ _ hrun | refused _ _ _ hrun
      | aside _ _ hrun | replied _ _ hrun =>
          rw [hpc] at hrun
          cases hrun
  | executing pc hq hpc hr he hat =>
      have hpc : w.backend.pc = .run ⟨i, cmd⟩ pc := hpc
      have hjob : ∀ {job : Job} {pc₁ : EnginePc},
          w.backend.pc = .run job pc₁ → job = ⟨i, cmd⟩ ∧ pc₁ = pc := by
        intro job pc₁ hrun
        rw [hpc] at hrun
        cases hrun
        exact ⟨rfl, rfl⟩
      cases EngineThread.Effect.ofStep hx with
      | popped job queue hpc' =>
          rw [hpc] at hpc'
          cases hpc'
      | moved job pc₁ pc' hrun hpc' hr' hsame ht =>
          obtain ⟨rfl, -⟩ := hjob hrun
          exact .goes hs hq he hat hpc' hr' hsame (.inl ht)
      | started job pc' hrun hpc' hr' hsame ht =>
          obtain ⟨rfl, -⟩ := hjob hrun
          exact .goes hs hq he hat hpc' hr' hsame (.inr ht)
      | landed job pc₁ o hrun hpc' hsame ht =>
          obtain ⟨rfl, -⟩ := hjob hrun
          refine .ends hs hq he hat hcmd hpc' hsame ?_
          rw [EngineCmd.ended_outcome]
          exact ht
      | gaveUp job hrun hpc' hsame ht =>
          obtain ⟨rfl, -⟩ := hjob hrun
          exact .ends hs hq he hat hcmd hpc' hsame ht
      | failed job pc₁ err broke hrun hx' hpc' hsame ht =>
          obtain ⟨rfl, -⟩ := hjob hrun
          subst hx'
          refine .ends hs hq he hat hcmd hpc' hsame ?_
          rcases ht with ⟨ht, -⟩ | ⟨rfl, -⟩
          · exact ht
          · cases hok
      | refused job pc₁ err hrun hwhy hpc' hsame ht =>
          obtain ⟨rfl, -⟩ := hjob hrun
          exact .ends hs hq he hat hcmd hpc' hsame ht
      | aside job _ hrun hno =>
          obtain ⟨rfl, -⟩ := hjob hrun
          cases hcmd.symm.trans hno
      | replied job r hrun =>
          obtain ⟨-, hpc'⟩ := hjob hrun
          exact absurd hpc'.symm (hr r)
  | ended r hq hpc he hran hcarry =>
      have hw := EngineThread.reply_step hpc hx
      have hends : w'.backend.ends = none := by rw [hw]; rfl
      rw [stopView_quiet hs hends, hw]
      refine .replied r ⟨hq, rfl, fun d hd => ?_⟩ ?_ hcarry
      · exact Option.some.inj (hran.symm.trans hd)
      · have he : w.backend.replies i = .empty := he
        show Function.update w.backend.replies i _ i = _
        rw [Function.update_self, he]
        rfl
  | replied r hrest => exact absurd hx (fun hx => hrest.stuck hx)

/-- A step of the thread is one of the command of the call in flight. -/
theorem StopsInv.step {φ : Nat → WinFlight} {x : EngineAnswer}
    (hs : w'.server = w.server) (hI : StopsInv (stopView s₀ w h) φ)
    (hx : w.backend.threadStep x = some w'.backend)
    (hok : stopsInTurn h (.env (.backend (.step x)) w w') = true) :
    StopsInv (stopView s₀ w' (.env (.backend (.step x)) w w' :: h)) φ := by
  by_cases hfly : ∃ i, (φ i).inFlight = true
  · obtain ⟨i, hi⟩ := hfly
    have hflies := hI.flies i
    have hupdate := Function.update_eq_self i φ
    generalize hφ : φ i = q at hflies hi
    cases q with
    | waiting g cmd =>
        obtain ⟨hcmd, hawaits⟩ := hflies
        rw [← hupdate]
        have hi : (φ i).inFlight = true := by rw [hφ]; rfl
        have hne : ∀ info, φ i ≠ .caching info := by
          intro info hc
          cases hφ.symm.trans hc
        have hserver : (stopView s₀ w'
            (.env (.backend (.step x)) w w' :: h)).state
              = (stopView s₀ w h).state := by
          rw [stopView_step hs]
        refine hI.onward hi hne hserver rfl ?_ (fun g h => h) hi hne ?_
        · rw [stopView_step hs]
        · rw [hφ]
          exact ⟨hcmd, hawaits.step hs hcmd hx hok⟩
    | entering | failed | got | caching => exact (hflies.1.stuck hx).elim
    | sending => exact (hflies.2.1.stuck hx).elim
    | pausing | before | ready | landed | quit => cases hi
  · have hall : ∀ i, (φ i).inFlight = false := fun i =>
      (Bool.not_eq_true _).mp fun hi => hfly ⟨i, hi⟩
    exact ((hI.settled hall).rests.stuck hx).elim

/-- A guarded write of the current epoch applies. -/
theorem guarded_state {s : SessionManager} {g : UInt64} {st : State}
    (hg : s.inner.generation = g) :
    (SessionOp.setStateIfGeneration g st).run s = (true, s.setState st) :=
  if_neg (not_not_intro hg)

/-- So does a guarded termination. -/
theorem guarded_exit {s : SessionManager} {g : UInt64}
    {code : Option Int} (hg : s.inner.generation = g) :
    (SessionOp.terminateIfGeneration g code).run s
      = (true, { s with inner := { s.inner with
          exitCode := code.or s.inner.exitCode
          state := .terminated } }) :=
  if_neg (not_not_intro hg)

/-- A reply that was received had been sent, and the engine rests. -/
theorem StopView.Awaits.received {cmd : EngineCmd}
    {r : CmdReply} (hI : (stopView s₀ w h).Awaits i cmd)
    (hr : w.backend.replies i = .sent r) :
    (stopView s₀ w h).Rests ∧ (stopView s₀ w h).Carries r.outcome? := by
  have hne : w.backend.replies i ≠ .empty := by
    rw [hr]
    nofun
  cases hI with
  | queued _ _ he | executing _ _ _ _ he | ended _ _ _ he =>
      exact absurd he hne
  | replied r' hrest he hcarry =>
      cases hr.symm.trans he
      exact ⟨hrest, hcarry⟩

/-- A step of a handler. -/
theorem StopsInv.act {φ : Nat → WinFlight} {op : WinServerOp β}
    {q' : WinFlight} (hI : StopsInv (stopView s₀ w h) φ)
    (hr : winMachine.run i op a w = some (b, w'))
    (hq : WinFlightNext (φ i) op b q')
    (hok : stopsInTurn h (.act i op b w w') = true) :
    StopsInv (stopView s₀ w' (.act i op b w w' :: h))
      (Function.update φ i q') := by
  have hflies := hI.flies i
  have hgen := hI.generation i
  -- what moves in flight, and leaves the session as it is
  have honward : ∀ {v' : StopView}, (φ i).inFlight = true →
      (∀ info, φ i ≠ .caching info) →
      v'.state = (stopView s₀ w h).state →
      v'.uncached = (stopView s₀ w h).uncached →
      v'.generation = (stopView s₀ w h).generation →
      (∀ g, q'.generation? = some g → (φ i).generation? = some g) →
      q'.inFlight = true → (∀ info, q' ≠ .caching info) →
      v'.Flies i q' → StopsInv v' (Function.update φ i q') :=
    hI.onward
  -- what ends a flight
  have hland : ∀ {v' : StopView}, (φ i).inFlight = true →
      (q' = .landed ∨ q' = .quit) →
      v'.generation = (stopView s₀ w h).generation →
      v'.uncached = [] → v'.Settled →
      StopsInv v' (Function.update φ i q') := by
    intro v' hi hq' hg hun hset
    rcases hq' with rfl | rfl <;>
      exact hI.fly (hI.turn.others hi) hg nofun nofun nofun
        (fun _ => hun) trivial fun _ => hset
  generalize hφ : φ i = q at hq hflies hgen honward hland
  have hnil : q.inFlight = true → (∀ info, q ≠ .caching info) →
      uncached h = [] := by
    rw [← hφ]
    exact hI.uncached_nil
  cases hq with
  | look op hl x | watch op hl x =>
      rw [stopView_look hl hr]
      exact hI.aside (hφ ▸ rfl) rfl nofun
  | interrupt =>
      obtain ⟨_, hc, -⟩ := Backed.run_backend hr
      have hw := run_interrupt hc
      rw [stopView_backend hr, hw]
      exact hI.aside (hφ ▸ rfl) rfl nofun
  | generation g =>
      obtain ⟨hg, hv⟩ :
          _ ∧ stopView s₀ w' (.act i _ g w w' :: h) = _ :=
        stopView_session hr
      rw [hv]
      refine hI.aside (hφ ▸ rfl) rfl fun g' hg' => ?_
      cases hg'
      exact hg.symm
  | run g =>
      obtain ⟨hst, hun⟩ := Bool.and_eq_true_iff.mp hok
      have hfree : (stopView s₀ w h).free :=
        ⟨of_decide_eq_true hst, List.isEmpty_iff.mp hun⟩
      have hset := hI.settled fun j => hI.turn.outside hfree j
      rw [(stopView_session hr).2]
      refine hI.fly (fun j _ => hI.turn.outside hfree j) rfl hgen
        (fun _ hf => ?_) nofun (fun _ => hfree.2)
        ⟨⟨hset.rests.queue, hset.rests.pc, hset.rests.ran⟩, hset.atStop⟩
        nofun
      cases hf.1
  | lost | sendDrop | drop => cases hok
  | polled g cmd hcmd hb =>
      cases Backed.run_race hr
      exact honward rfl nofun rfl rfl rfl (fun _ h => h) rfl nofun
        ⟨hcmd, hflies⟩
  | send g cmd =>
      obtain ⟨_, hc, -⟩ := Backed.run_backend hr
      obtain ⟨-, hw⟩ := EngineThread.enqueue_ok hc
      obtain ⟨hcmd, hrest, hat⟩ := hflies
      rw [stopView_backend hr, hw]
      refine honward rfl nofun rfl rfl rfl (fun _ h => h) rfl nofun
        ⟨hcmd, .queued ?_ hrest.pc (Function.update_self ..) hat⟩
      have hqueue : w.backend.queue = [] := hrest.queue
      show w.backend.queue ++ _ = _
      rw [hqueue]
      rfl
  | sendClosed g cmd =>
      obtain ⟨_, hc, -⟩ := Backed.run_backend hr
      obtain ⟨hpc, -⟩ := EngineThread.enqueue_closed hc
      cases hpc.symm.trans hflies.2.1.pc
  | stop g cmd v o ho =>
      obtain ⟨_, hc, -⟩ := Backed.run_backend hr
      obtain ⟨hx, hw⟩ := EngineThread.recv_reply hc
      obtain ⟨v', hs, hv⟩ := EngineThread.reply_ok hx
      obtain ⟨hcmd, hawaits⟩ := hflies
      obtain ⟨hrest, hcarry⟩ := hawaits.received hs
      have hcarry : (stopView s₀ w h).Carries v'.outcome? := hcarry
      rw [← EngineCmd.outcome_value hcmd hv, ho] at hcarry
      rw [stopView_backend hr, hw]
      exact honward rfl nofun rfl rfl rfl (fun _ h => h) rfl nofun
        ⟨hrest, hcarry⟩
  | fallBack g ms =>
      obtain ⟨_, hc, -⟩ := Backed.run_backend hr
      obtain ⟨hx, hw⟩ := EngineThread.recv_reply hc
      obtain ⟨v', hs, hv⟩ := EngineThread.reply_ok hx
      obtain ⟨hcmd, hawaits⟩ := hflies
      obtain ⟨hrest, hcarry⟩ := hawaits.received hs
      have hcarry : (stopView s₀ w h).Carries v'.outcome? := hcarry
      rw [← EngineCmd.outcome_value hcmd hv] at hcarry
      rw [stopView_backend hr, hw]
      exact honward rfl nofun rfl rfl rfl (fun _ h => h) rfl nofun
        ⟨rfl, hrest, hcarry⟩
  | fail g cmd err =>
      obtain ⟨_, hc, -⟩ := Backed.run_backend hr
      obtain ⟨hx, hw⟩ := EngineThread.recv_reply hc
      obtain ⟨hrest, hcarry⟩ :=
        hflies.2.received (EngineThread.reply_error hx)
      rw [stopView_backend hr, hw]
      exact honward rfl nofun rfl rfl rfl nofun rfl nofun ⟨hrest, hcarry⟩
  | closed g cmd =>
      obtain ⟨_, hc, -⟩ := Backed.run_backend hr
      obtain ⟨hx, -⟩ := EngineThread.recv_reply hc
      have hclosed := EngineThread.reply_closed hx
      cases hflies.2 with
      | queued _ _ he | executing _ _ _ _ he | ended _ _ _ he
      | replied _ _ he => cases hclosed.symm.trans he
  | revert =>
      rw [(stopView_session hr).2]
      exact hland rfl (.inr rfl) rfl (hnil rfl nofun)
        ⟨⟨hflies.1.queue, hflies.1.pc, hflies.1.ran⟩, hflies.2,
          fun _ => rfl⟩
  | stopped g info =>
      have hg := (hgen g rfl).symm
      obtain ⟨hrest, hcarry⟩ := hflies
      have hun := hnil rfl nofun
      rw [(stopView_session hr).2, guarded_state hg]
      refine hI.fly (hI.turn.others (hφ ▸ rfl)) rfl nofun (fun _ hf => ?_)
        (fun _ _ => ?_) (fun hne => absurd rfl (hne info))
        ⟨⟨hrest.queue, hrest.pc, hrest.ran⟩, rfl, hcarry⟩ nofun
      · cases hf.2
      · show i :: uncached h = [i]
        rw [hun]
  | stale g info =>
      have hg := (hgen g rfl).symm
      obtain ⟨_, hs, -⟩ := Backed.run_tool hr
      have hb := (ToolServer.run_inl hs).1
      rw [guarded_state hg] at hb
      cases hb
  | exited g code applied =>
      have hg := (hgen g rfl).symm
      obtain ⟨hrest, hne, hrun⟩ := hflies
      rw [(stopView_session hr).2, guarded_exit hg]
      exact hland rfl (.inl rfl) rfl (hnil rfl nofun)
        ⟨⟨hrest.queue, hrest.pc, hrest.ran⟩, fun hb => absurd hb hne,
          fun hb => absurd hb hrun⟩
  | terminated g applied =>
      have hg := (hgen g rfl).symm
      obtain ⟨hrest, hne, hrun⟩ := hflies
      rw [(stopView_session hr).2, guarded_state hg]
      exact hland rfl (.inl rfl) rfl (hnil rfl nofun)
        ⟨⟨hrest.queue, hrest.pc, hrest.ran⟩, fun hb => absurd hb hne,
          fun hb => absurd hb hrun⟩
  | cache info =>
      obtain ⟨hrest, hst, hcarry⟩ := hflies
      have hun : uncached h = [i] := hI.caching i info hφ
      rw [(stopView_session hr).2]
      refine hland rfl (.inl rfl) rfl ?_
        ⟨⟨hrest.queue, hrest.pc, hrest.ran⟩, fun _ => hcarry.symm,
          fun _ => hst⟩
      show (uncached h).erase i = []
      rw [hun, List.erase_cons_head]
  | drain es =>
      rw [(stopView_session hr).2]
      exact hI.aside (hφ ▸ rfl) rfl nofun

/-- The view after a move of the pump; while the thread is there, it only
appends output. -/
theorem stopView_pump {e : EnvMove}
    (he : winMachine.env (.tool e) w = some w') :
    w.backend.pc = .gone ∨
      stopView s₀ w' (.env (.tool e) w w' :: h) = stopView s₀ w h := by
  obtain ⟨ht, hs, hb⟩ := Backed.env_tool he
  cases e with
  | pump k ev =>
      cases ev with
      | terminated code => exact .inl (of_decide_eq_true ht)
      | output c t =>
          right
          obtain ⟨p, -, hp⟩ := Option.map_eq_some_iff.mp hs
          unfold stopView Backed.state
          rw [hb, ← hp]
          rfl

/-- The tools take turns as long as the engine thread is there. -/
theorem stopsInv_inductive (s₀ : Option StopInfo) :
    Inductive winMachine WinFlightNext
      (fun h ev => stopsInTurn h ev = true) (fun w φ h =>
        w.backend.pc = .gone ∨ StopsInv (stopView s₀ w h) φ) where
  act := by
    intro w w' φ h i β op a b q' hI hr hq hok
    rcases hI with hgone | hI
    · left
      cases op with
      | tool op =>
          obtain ⟨_, _, hb⟩ := Backed.run_tool hr
          rw [hb, hgone]
      | backend op =>
          obtain ⟨_, hb, _⟩ := Backed.run_backend hr
          rw [EngineThread.run_pc hb, hgone]
      | race op => rw [Backed.run_race hr, hgone]
    · exact .inr (hI.act hr hq hok)
  env := by
    intro w w' φ h e hI he hok
    cases e with
    | tool e =>
        have hb := (Backed.env_tool he).2.2
        rcases hI with hgone | hI
        · exact .inl (by rw [hb, hgone])
        · obtain hgone | hv :
              _ ∨ stopView s₀ w' (.env (.tool e) w w' :: h) = _ :=
            stopView_pump he
          · exact .inl (by rw [hb, hgone])
          · right
            rw [hv]
            exact hI
    | backend e =>
        obtain ⟨hx, hs⟩ := Backed.env_backend he
        cases e with
        | die => exact .inl (die_eq hx).1
        | step x =>
            rcases hI with hgone | hI
            · exact absurd hx (EngineThread.gone_stuck hgone)
            · exact .inr (hI.step hs hx hok)

end

-- ========================================================== the result

/-- A call that has not begun. -/
theorem unbegun_inductive {ok : WinHistory → WinEvent → Prop}
    (calls : Nat → ExecTool) :
    Inductive winMachine WinFlightNext ok (fun _ φ h =>
      ∀ i, stepsOf i h = 0 → φ i = (calls i).phase₀) where
  act := by
    intro w w' φ h i β op a b q' hI _ _ _ j hj
    have hj : stepsOf j h + (if some i = some j then 1 else 0) = 0 := hj
    by_cases hij : i = j
    · rw [if_pos (congrArg some hij)] at hj
      cases hj
    · rw [Function.update_of_ne (Ne.symm hij)]
      exact hI j (Nat.add_eq_zero_iff.mp hj).1
  env := by
    intro w w' φ h e hI _ _ j hj
    have hj : stepsOf j h + (if none = some j then 1 else 0) = 0 := hj
    exact hI j (Nat.add_eq_zero_iff.mp hj).1

/-- No call is in progress: each has returned, or has not begun. -/
def NoCall (h : WinHistory)
    (s : Pool WinServerOp ToolOutcome WinServer) : Prop :=
  ∀ i, stepsOf i h = 0 ∨ (s.returned i).isSome = true

/-- Stop tracking, in the runs whose steps are in turn: when no call is
in progress and the engine has nothing to do, a target that the last
command left broken in is Stopped at its last stop. -/
theorem stops_tracked (calls : Nat → ExecTool) {w₀ : WinServer}
    {h : WinHistory} {s : Pool WinServerOp ToolOutcome WinServer}
    (hrest : w₀.backend.queue = [] ∧ w₀.backend.pc = .idle)
    (hr : WinStopRun calls w₀ h s) (hcalls : NoCall h s)
    (hidle : s.world.backend.queue = [] ∧ s.world.backend.pc = .idle)
    (hrun : lastRun h = some .broken) :
    s.world.state = .stopped ∧
      s.world.server.session.inner.lastStopped
        = lastStop w₀.server.session.inner.lastStopped h := by
  have hstart : StopsInv
      (stopView w₀.server.session.inner.lastStopped w₀ [])
      (fun i => (calls i).phase₀) := {
    turn := .idle fun i => (calls i).phase₀_inFlight
    caching := fun i _ hc => by
      have := (calls i).phase₀_inFlight
      rw [hc] at this
      cases this
    cached := fun _ => rfl
    generation := fun i g hg => by
      rw [(calls i).phase₀_generation] at hg
      cases hg
    flies := fun i => StopView.flies_of_not (calls i).phase₀_inFlight
    settled := fun _ => ⟨⟨hrest.1, hrest.2, nofun⟩, fun _ => rfl, nofun⟩ }
  obtain ⟨φ, ⟨hI, hbegun⟩, hobeys⟩ := hr.invariant
    ((stopsInv_inductive _).and (unbegun_inductive calls))
    (fun i _ hp => Option.some.inj hp ▸ (calls i).obeys)
    ⟨.inr hstart, fun _ _ => rfl⟩
  have hnone : ∀ i, (φ i).inFlight = false := by
    intro i
    rcases hcalls i with hi | hi
    · rw [hbegun i hi]
      exact (calls i).phase₀_inFlight
    · obtain ⟨o, ho⟩ := Option.isSome_iff_exists.mp hi
      exact (hobeys i _ (Pool.prog_of_returned ho)).inFlight
  rcases hI with hgone | hI
  · cases hgone.symm.trans hidle.2
  · have hset := hI.settled hnone
    exact ⟨hset.state hrun, hset.atStop (hset.rests.ran _ hrun)⟩

-- ============================================================== runs

/-- Have the first `n` calls returned, and has no other begun? -/
def allReturned (n : Nat) (h : WinHistory)
    (s : Pool WinServerOp ToolOutcome WinServer) : Bool :=
  (h.all fun ev => ev.who.all (· < n)) &&
    (List.range n).all fun i => (s.returned i).isSome

/-- Then none is in progress. -/
theorem NoCall.ofAll {n : Nat} {h : WinHistory}
    {s : Pool WinServerOp ToolOutcome WinServer}
    (hall : allReturned n h s = true) : NoCall h s := by
  obtain ⟨hwho, hret⟩ := Bool.and_eq_true_iff.mp hall
  intro i
  by_cases hi : i < n
  · exact .inr (List.all_eq_true.mp hret i (List.mem_range.mpr hi))
  · left
    clear hret hall
    induction h with
    | nil => rfl
    | cons ev h ih =>
        rw [List.all_cons, Bool.and_eq_true] at hwho
        have hne : ev.who ≠ some i := by
          intro hw
          rw [hw] at hwho
          exact hi (of_decide_eq_true hwho.1)
        show stepsOf i h + (if ev.who = some i then 1 else 0) = 0
        rw [if_neg hne, ih hwho.2]

/-- A stopped session over a broken-in target. -/
def brokenIn : WinServer where
  server := { ToolServer.new with
    session := SessionManager.new.setState .stopped
    backend := some 0 }
  backend := .new .broken false

/-- A continue, then a pause, and any number of continues. -/
def continueAndPause : Nat → ExecTool
  | 1 => .pause
  | _ => .resume (.continue ⟨[]⟩)

/-- Call `i` runs `n` sections of the server. -/
def sectionSteps (i n : Nat) :
    List (Action WinServerAnswer WinServerMove) :=
  List.replicate n (.step i (.tool .sync))

/-- The engine thread takes `n` steps that meet nothing, and one that
meets `a`. -/
def threadSteps (n : Nat) (a : EngineAnswer) :
    List (Action WinServerAnswer WinServerMove) :=
  List.replicate n (.env (.backend (.step .sync)))
    ++ [.env (.backend (.step a))]

/-- A stop of the target. -/
def winStop (reason : String) : StopInfo := ⟨reason, 7, "", []⟩

/-- Call `i` sets the session running and queues its `go`. -/
def goSteps (i : Nat) : List (Action WinServerAnswer WinServerMove) :=
  sectionSteps i 6 ++ [.step i (.race true), .step i (.backend .sync)]

/-- A continue that stops at a breakpoint. -/
def stopSteps : List (Action WinServerAnswer WinServerMove) :=
  goSteps 0 ++ threadSteps 5 (.event (.stopped (winStop "breakpoint")))
    ++ threadSteps 0 .sync ++ [.step 0 (.backend .sync)]
    ++ sectionSteps 0 3

/-- Its stop is tracked. -/
theorem continue_tracked :
    ∃ h s, WinStopRun continueAndPause brokenIn h s ∧ NoCall h s ∧
      lastRun h = some .broken ∧ s.world.state = .stopped ∧
      s.world.server.session.inner.lastStopped
        = some (winStop "breakpoint") := by
  obtain ⟨h, s, hr, hm, hall, hidle, hrun, hstop⟩ := exec_witness
    winMachine (winPool continueAndPause brokenIn) stopSteps
    (fun h s => Meets (fun h ev => stopsInTurn h ev = true) h ∧
      allReturned 1 h s = true ∧
      (s.world.backend.queue = [] ∧ s.world.backend.pc = .idle) ∧
      lastRun h = some .broken ∧
      lastStop none h = some (winStop "breakpoint"))
    (by decide +kernel)
  have hr : WinStopRun continueAndPause brokenIn h s := .ofMeets hr hm
  have hcalls := NoCall.ofAll hall
  obtain ⟨hst, hlast⟩ :=
    stops_tracked continueAndPause ⟨rfl, rfl⟩ hr hcalls hidle hrun
  exact ⟨h, s, hr, hcalls, hrun, hst, hlast.trans hstop⟩

/-- A continue is cancelled; a pause breaks the target in. -/
def cancelledSteps : List (Action WinServerAnswer WinServerMove) :=
  goSteps 0 ++ threadSteps 5 .timedOut ++ [.step 0 (.backend .cancel)]
    ++ sectionSteps 1 2 ++ [.step 1 (.backend .sync)]
    ++ threadSteps 3 (.event (.stopped (winStop "")))
    ++ threadSteps 0 .sync

/-- The break-in is told to nobody: the session stays Running over a
broken-in target. -/
theorem cancelled_stop_lost :
    ∃ h s, Run winMachine (winPool continueAndPause brokenIn) h s ∧
      NoCall h s ∧
      (s.world.backend.queue = [] ∧ s.world.backend.pc = .idle) ∧
      lastRun h = some .broken ∧ s.world.state = .running := by
  obtain ⟨h, s, hr, hall, hend⟩ := exec_witness
    winMachine (winPool continueAndPause brokenIn) cancelledSteps
    (fun h s => allReturned 2 h s = true ∧
      (s.world.backend.queue = [] ∧ s.world.backend.pc = .idle) ∧
      lastRun h = some .broken ∧ s.world.state = .running)
    (by decide +kernel)
  exact ⟨h, s, hr, .ofAll hall, hend⟩

/-- A second continue comes between the Stopped write of the first and
its cached stop. -/
def slippedSteps : List (Action WinServerAnswer WinServerMove) :=
  goSteps 0 ++ threadSteps 5 (.event (.stopped (winStop "first")))
    ++ threadSteps 0 .sync ++ [.step 0 (.backend .sync)]
    ++ sectionSteps 0 1 ++ goSteps 2
    ++ threadSteps 5 (.event (.stopped (winStop "second")))
    ++ threadSteps 0 .sync ++ [.step 2 (.backend .sync)]
    ++ sectionSteps 2 3 ++ sectionSteps 0 2

/-- The session keeps the first stop. -/
theorem slipped_stop_stale :
    ∃ h s, Run winMachine (winPool continueAndPause brokenIn) h s ∧
      lastRun h = some .broken ∧
      lastStop none h = some (winStop "second") ∧
      s.world.server.session.inner.lastStopped
        = some (winStop "first") := by
  obtain ⟨h, s, hr, hend⟩ := exec_witness
    winMachine (winPool continueAndPause brokenIn) slippedSteps
    (fun h s => lastRun h = some .broken ∧
      lastStop none h = some (winStop "second") ∧
      s.world.server.session.inner.lastStopped = some (winStop "first"))
    (by decide +kernel)
  exact ⟨h, s, hr, hend⟩

end DebugMcp
