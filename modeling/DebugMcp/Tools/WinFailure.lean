/-
A resume that fails over the WinDbg backend.

Whatever error the backend call ends with, the handler writes Stopped:
the same write for a command the engine never took up, for one that left
the target running, and for an engine thread that has ended.

`Fails` says what that write may rely on, by where the handler is, in the
runs in which the engine never gives up on a target the call has set
going, and the thread does not end under the call.
-/
import DebugMcp.Tools.WinServer

namespace DebugMcp

open Conc

-- =========================================================== histories

/-- Is the thread about to set the target going for call `i`? -/
def EngineThread.starts (w : EngineThread) (i : Nat) : Bool :=
  match w.pc with
  | .run job .start => job.caller == i
  | _ => false

/-- Has the debugger accepted the resume of call 0, and set the target
going? -/
def setGoing : WinHistory → Bool
  | [] => false
  | .env (.backend (.step .sync)) w _ :: h =>
      w.backend.starts 0 || setGoing h
  | _ :: h => setGoing h

/-- Has a call been told that the engine thread is gone? -/
def toldGone : WinHistory → Bool
  | [] => false
  | .act _ (.backend (.enqueue _)) (some (.error ())) _ _ :: _ => true
  | .act _ (.backend (.recv _)) (some (.error ())) _ _ :: _ => true
  | _ :: h => toldGone h

-- =========================================================== condition

/-- Has the engine a command of call `i`, whose reply is awaited? -/
def EngineThread.awaited (w : EngineThread) (i : Nat) : Bool :=
  w.busy i && (w.replies i).isEmpty

/-- Does the engine give up on its target: does a step not land in time,
is a break-in exhausted, or does a DbgEng call fail without breaking it
in? -/
def EngineThread.givesUp (w : EngineThread) : EngineAnswer → Bool
  | .timedOut => match w.pc with
      | .run _ .landing => true
      | _ => false
  | .sync => match w.pc with
      | .run _ (.interrupt 0) => true
      | _ => false
  | .failed _ broke => !broke || match w.pc with
      | .run _ .start => true
      | _ => false
  | _ => false

/-- The engine thread is there for the commands of the call, and does not
give up on a target the call has set going. -/
def keepsTarget (h : WinHistory) : WinEvent → Bool
  | .act _ (.backend (.enqueue _)) (some _) w _ => w.backend.pc ≠ .gone
  | .env (.backend (.step a)) w _ =>
      !(setGoing h && w.backend.awaited 0 && w.backend.givesUp a)
  | .env (.backend .die) w _ => !w.backend.awaited 0
  | _ => true

/-- Call 0 is a resume, the others pause it. -/
def resumeAndPauses (c : ResumeTool) : Nat → ExecTool
  | 0 => .resume c
  | _ => .pause

/-- The runs of a resume whose steps all meet the condition. -/
abbrev WinResumeRun (c : ResumeTool) (w₀ : WinServer) :
    WinHistory → Pool WinServerOp ToolOutcome WinServer → Prop :=
  RunIf winMachine (fun h ev => keepsTarget h ev = true)
    (winPool (resumeAndPauses c) w₀)

-- ================================================================ view

/-- What a run is at, for the resume of call 0. -/
structure ResumeView where
  queue : List Job
  pc : ThreadPc
  target : Debuggee
  isDump : Bool
  reply : Oneshot CmdReply
  state : State
  accepted : Bool

/-- The view of a state of a run. -/
def resumeView (w : WinServer) (h : WinHistory) : ResumeView where
  queue := w.backend.queue
  pc := w.backend.pc
  target := w.backend.target
  isDump := w.backend.isDump
  reply := w.backend.replies 0
  state := w.state
  accepted := setGoing h

namespace ResumeView

variable (v : ResumeView)

/-- The engine has no command of the call. -/
structure Away : Prop where
  queue : ∀ job ∈ v.queue, job.caller ≠ 0
  pc : ∀ job pc, v.pc = .run job pc → job.caller ≠ 0

/-- The engine has nothing to do. -/
structure Quiet : Prop where
  queue : v.queue = []
  pc : ∀ job pc, v.pc ≠ .run job pc

/-- The engine may be sent a command: one that follows another of the
call finds it quiet. -/
structure Ready : Prop where
  away : v.Away
  again : v.accepted = true → v.Quiet ∧ v.isDump = false

/-- What the call's last command has left, with this reply. -/
structure Leaves (r : CmdReply) : Prop where
  broken : ∀ e, r = .error e → v.accepted = true → v.target = .broken
  isDump : v.accepted = true → v.isDump = false

/-- Where the command of the call is. -/
inductive Owes (cmd : EngineCmd) : Prop
  | queued (queue : List Job) (hq : v.queue = queue ++ [⟨0, cmd⟩])
      (hqueue : ∀ job ∈ queue, job.caller ≠ 0)
      (hpc : ∀ job pc, v.pc = .run job pc → job.caller ≠ 0)
      (he : v.reply = .empty)
      (hagain : v.accepted = true →
        queue = [] ∧ (∀ job pc, v.pc ≠ .run job pc) ∧ v.isDump = false)
  | executing (pc : EnginePc) (hq : v.queue = [])
      (hpc : v.pc = .run ⟨0, cmd⟩ pc) (hr : ∀ r, pc ≠ .reply r)
      (he : v.reply = .empty)
      (hd : v.accepted = true ∨ pc ≠ .entry → v.isDump = false)
  | ended (r : CmdReply) (hq : v.queue = [])
      (hpc : v.pc = .run ⟨0, cmd⟩ (.reply r)) (he : v.reply = .empty)
      (hl : v.Leaves r)
  | replied (r : CmdReply) (hrest : v.Quiet) (he : v.reply = .sent r)
      (hl : v.Leaves r)

/-- The call's commands are over: a target it has set going is broken in
again. -/
structure Over : Prop where
  rest : v.Quiet
  broken : v.accepted = true → v.target = .broken

/-- What holds of the resume, by where its handler is. -/
def Fails : WinFlight → Prop
  | .pausing => False
  | .before | .ready _ => v.Away ∧ v.accepted = false
  | .entering _ => v.Away ∧ v.accepted = false ∧ v.state ≠ .stopped
  | .sending _ cmd => cmd.runs = true ∧ v.Ready ∧ v.state ≠ .stopped
  | .waiting _ cmd => cmd.runs = true ∧ v.Owes cmd ∧ v.state ≠ .stopped
  | .failed => v.Over
  | .quit => v.state = .stopped → v.Over
  | .got _ _ | .caching _ | .landed => True

variable {v}

/-- A quiet engine is ready. -/
theorem Quiet.away (hv : v.Quiet) : v.Away where
  queue job hjob := by
    rw [hv.queue] at hjob
    cases hjob
  pc job pc hpc := absurd hpc (hv.pc job pc)

/-- A session that is not stopped by the step keeps what holds. -/
theorem Fails.inState {st : State} {q : WinFlight}
    (hst : st = .stopped → v.state = .stopped) (hI : v.Fails q) :
    { v with state := st }.Fails q := by
  cases q with
  | pausing => exact hI
  | before | ready => exact ⟨⟨hI.1.queue, hI.1.pc⟩, hI.2⟩
  | entering =>
      exact ⟨⟨hI.1.queue, hI.1.pc⟩, hI.2.1, fun h => hI.2.2 (hst h)⟩
  | sending =>
      refine ⟨hI.1, ⟨⟨hI.2.1.away.queue, hI.2.1.away.pc⟩, fun ha => ?_⟩,
        fun h => hI.2.2 (hst h)⟩
      obtain ⟨hq, hd⟩ := hI.2.1.again ha
      exact ⟨⟨hq.queue, hq.pc⟩, hd⟩
  | waiting =>
      refine ⟨hI.1, ?_, fun h => hI.2.2 (hst h)⟩
      cases hI.2.1 with
      | queued queue hq hqueue hpc he hagain =>
          exact .queued queue hq hqueue hpc he hagain
      | executing pc hq hpc hr he hd => exact .executing pc hq hpc hr he hd
      | ended r hq hpc he hl =>
          exact .ended r hq hpc he ⟨hl.broken, hl.isDump⟩
      | replied r hrest he hl =>
          exact .replied r ⟨hrest.queue, hrest.pc⟩ he
            ⟨hl.broken, hl.isDump⟩
  | failed => exact ⟨⟨hI.rest.queue, hI.rest.pc⟩, hI.broken⟩
  | quit =>
      intro h
      have hI := hI (hst h)
      exact ⟨⟨hI.rest.queue, hI.rest.pc⟩, hI.broken⟩
  | got | caching | landed => trivial

end ResumeView

-- =============================================================== steps

section

variable {w w' : WinServer} {h : WinHistory} {i : Nat} {β : Type}
  {a : WinServerAnswer} {b : β} {cmd : EngineCmd}

/-- The view after an operation of the engine's callers. -/
theorem resumeView_backend {op : WinOp β}
    (hr : winMachine.run i (.backend op) a w = some (b, w')) :
    resumeView w' (.act i (.backend op) b w w' :: h)
      = { resumeView w h with
          queue := w'.backend.queue
          pc := w'.backend.pc
          target := w'.backend.target
          isDump := w'.backend.isDump
          reply := w'.backend.replies 0 } := by
  obtain ⟨_, _, hs⟩ := Backed.run_backend hr
  unfold resumeView Backed.state
  rw [hs]
  rfl

/-- The view after a section of the server. -/
theorem resumeView_tool {op : ToolOp β}
    (hr : winMachine.run i (.tool op) a w = some (b, w')) :
    resumeView w' (.act i (.tool op) b w w' :: h)
      = { resumeView w h with state := w'.state } := by
  obtain ⟨_, _, hb⟩ := Backed.run_tool hr
  unfold resumeView
  rw [hb]
  rfl

/-- The view after a move of the backend. -/
theorem resumeView_move {e : ThreadMove} (hs : w'.server = w.server) :
    resumeView w' (.env (.backend e) w w' :: h)
      = { queue := w'.backend.queue
          pc := w'.backend.pc
          target := w'.backend.target
          isDump := w'.backend.isDump
          reply := w'.backend.replies 0
          state := w.state
          accepted := setGoing (.env (.backend e) w w' :: h) } := by
  unfold resumeView Backed.state
  rw [hs]

/-- A resume is accepted when its command sets the target going. -/
theorem setGoing_step {x : EngineAnswer}
    (hacc : setGoing (.env (.backend (.step x)) w w' :: h) = true) :
    setGoing h = true ∨ x = .sync ∧ w.backend.starts 0 = true := by
  cases x with
  | sync =>
      rcases Bool.or_eq_true_iff.mp hacc with hs | hacc
      · exact .inr ⟨rfl, hs⟩
      · exact .inl hacc
  | _ => exact .inl hacc

/-- A thread that is not at the call's command does not. -/
theorem EngineThread.starts_run {w : EngineThread} {i : Nat}
    (hs : w.starts i = true) :
    ∃ job, w.pc = .run job .start ∧ job.caller = i := by
  unfold starts at hs
  split at hs
  · next job hpc => exact ⟨job, hpc, eq_of_beq hs⟩
  · cases hs

/-- A command that is queued or executed is awaited, unless its caller
was dropped. -/
theorem EngineThread.awaited_run {w : EngineThread} {job : Job}
    {pc : EnginePc} (hpc : w.pc = .run job pc)
    (he : w.replies job.caller = .empty) :
    w.awaited job.caller = true := by
  unfold awaited busy
  rw [hpc, he]
  dsimp only
  rw [beq_self_eq_true, Bool.or_true]
  rfl

theorem EngineThread.awaited_queued {w : EngineThread} (job : Job)
    (hq : job ∈ w.queue) (he : w.replies job.caller = .empty) :
    w.awaited job.caller = true := by
  have hany : (w.queue.any fun j => j.caller == job.caller) = true :=
    List.any_eq_true.mpr ⟨job, hq, beq_self_eq_true _⟩
  unfold awaited busy
  rw [hany, he, Bool.true_or]
  rfl

namespace ResumeView

/-- An engine with nothing to do takes no step. -/
theorem Quiet.stuck {x : EngineAnswer} (hv : (resumeView w h).Quiet)
    (hx : w.backend.threadStep x = some w'.backend) : False := by
  cases hpc : w.backend.pc with
  | idle => exact EngineThread.idle_stuck hpc hv.queue hx
  | gone => exact EngineThread.gone_stuck hpc hx
  | run job pc => exact hv.pc job pc hpc

/-- The engine goes on with the commands of others. -/
theorem Away.step {x : EngineAnswer} (hs : w'.server = w.server)
    (hv : (resumeView w h).Away)
    (hx : w.backend.threadStep x = some w'.backend) :
    (resumeView w' (.env (.backend (.step x)) w w' :: h)).Away ∧
      (setGoing (.env (.backend (.step x)) w w' :: h) = true →
        setGoing h = true) := by
  have he := EngineThread.Effect.ofStep hx
  constructor
  · rw [resumeView_move hs]
    cases hpc : w.backend.pc with
    | idle =>
        obtain ⟨job, queue, hq, hw⟩ := he.takes hpc
        have hall : ∀ job' ∈ job :: queue, job'.caller ≠ 0 := hq ▸ hv.queue
        rw [hw]
        refine ⟨fun job' hjob' => hall job' (List.mem_cons_of_mem _ hjob'),
          fun job' pc' hpc' => ?_⟩
        cases hpc'
        exact hall job (List.mem_cons_self ..)
    | run job pc =>
        obtain ⟨hq, hpc', -⟩ := he.stays hpc
        rw [hq]
        refine ⟨hv.queue, fun job' pc' hrun => ?_⟩
        have hrun : w'.backend.pc = .run job' pc' := hrun
        rcases hpc' with hidle | ⟨pc₁, hpc'⟩
        · cases hidle.symm.trans hrun
        · cases hpc'.symm.trans hrun
          exact hv.pc job pc hpc
    | gone => exact (EngineThread.gone_stuck hpc hx).elim
  · intro hacc
    rcases setGoing_step hacc with hacc | ⟨-, hstarts⟩
    · exact hacc
    · obtain ⟨job, hpc, hjob⟩ := EngineThread.starts_run hstarts
      exact absurd hjob (hv.pc job _ hpc)

/-- The command of the call moves on with a step of the thread. -/
theorem Owes.step {x : EngineAnswer} (hs : w'.server = w.server)
    (hcmd : cmd.runs = true) (hv : (resumeView w h).Owes cmd)
    (hx : w.backend.threadStep x = some w'.backend)
    (hok : keepsTarget h (.env (.backend (.step x)) w w') = true) :
    (resumeView w' (.env (.backend (.step x)) w w' :: h)).Owes cmd := by
  have he := EngineThread.Effect.ofStep hx
  have hset : setGoing (.env (.backend (.step x)) w w' :: h) = true →
      setGoing h = true ∨ x = .sync ∧ w.backend.starts 0 = true :=
    setGoing_step
  rw [resumeView_move hs]
  generalize setGoing (.env (.backend (.step x)) w w' :: h) = g' at hset
  cases hv with
  | queued queue hq hqueue hpc hempty hagain =>
      have hq : w.backend.queue = queue ++ [⟨0, cmd⟩] := hq
      have hother : g' = true → setGoing h = true := fun hg =>
        (hset hg).resolve_right fun hstarts => by
          obtain ⟨job, hrun, hjob⟩ := EngineThread.starts_run hstarts.2
          exact hpc job _ hrun hjob
      cases hrun : w.backend.pc with
      | gone => exact (EngineThread.gone_stuck hrun hx).elim
      | idle =>
          obtain ⟨job, rest, hq', hw⟩ := he.takes hrun
          rw [hw]
          rw [hq] at hq'
          cases queue with
          | nil =>
              cases hq'
              refine .executing .entry rfl rfl nofun hempty fun hd => ?_
              rcases hd with hg | hd
              · exact (hagain (hother hg)).2.2
              · exact absurd rfl hd
          | cons job' queue =>
              cases hq'
              refine .queued queue rfl
                (fun job hjob => hqueue job (List.mem_cons_of_mem _ hjob))
                (fun job pc hpc' => ?_) hempty fun hg => ?_
              · cases hpc'
                exact hqueue _ (List.mem_cons_self ..)
              · cases (hagain (hother hg)).1
      | run job pc =>
          obtain ⟨hq', hpc', hreplies⟩ := he.stays hrun
          have hjob := hpc job pc hrun
          refine .queued queue (hq'.trans hq) hqueue (fun job' pc₁ h' => ?_)
            ((hreplies 0 hjob.symm).trans hempty) fun hg => ?_
          · have h' : w'.backend.pc = .run job' pc₁ := h'
            rcases hpc' with hidle | ⟨pc', hpc'⟩
            · cases hidle.symm.trans h'
            · cases hpc'.symm.trans h'
              exact hjob
          · exact absurd hrun ((hagain (hother hg)).2.1 job pc)
  | executing pc hq hpc hr hempty hd =>
      have hpc : w.backend.pc = .run ⟨0, cmd⟩ pc := hpc
      have hjob : ∀ {job : Job} {pc₁ : EnginePc},
          w.backend.pc = .run job pc₁ → job = ⟨0, cmd⟩ ∧ pc₁ = pc := by
        intro job pc₁ hrun
        rw [hpc] at hrun
        cases hrun
        exact ⟨rfl, rfl⟩
      -- once the target is set going, the session is no dump
      have hdump : g' = true ∨ pc ≠ .entry → w.backend.isDump = false := by
        rintro (hg | hne)
        · rcases hset hg with hg | ⟨-, hstarts⟩
          · exact hd (.inl hg)
          · obtain ⟨job, hrun, -⟩ := EngineThread.starts_run hstarts
            refine hd (.inr ?_)
            rw [← (hjob hrun).2]
            nofun
        · exact hd (.inr hne)
      have hgoes : ∀ {pc' : EnginePc},
          w'.backend.pc = .run ⟨0, cmd⟩ pc' → (∀ r, pc' ≠ .reply r) →
          w.backend.SameReplies w'.backend →
          w.backend.isDump = false → Owes ⟨w'.backend.queue,
            w'.backend.pc, w'.backend.target, w'.backend.isDump,
            w'.backend.replies 0, w.state, g'⟩ cmd :=
        fun hpc' hr' hsame hd' => .executing _ (hsame.queue.trans hq)
          hpc' hr' ((congrFun hsame.replies 0).trans hempty)
          fun _ => hsame.isDump.trans hd'
      have hends : ∀ {r : CmdReply},
          w'.backend.pc = .run ⟨0, cmd⟩ (.reply r) →
          w.backend.SameReplies w'.backend →
          (∀ e, r = .error e → g' = true →
            w'.backend.target = .broken) → Owes ⟨w'.backend.queue,
            w'.backend.pc, w'.backend.target, w'.backend.isDump,
            w'.backend.replies 0, w.state, g'⟩ cmd :=
        fun hpc' hsame hb => .ended _ (hsame.queue.trans hq) hpc'
          ((congrFun hsame.replies 0).trans hempty)
          ⟨hb, fun hg => hsame.isDump.trans (hdump (.inl hg))⟩
      -- the engine does not give up while the target is set going
      have hkeeps : g' = true → w.backend.givesUp x = false := by
        intro hg
        have hbusy := EngineThread.awaited_run hpc hempty
        rcases hset hg with hg | ⟨rfl, hstarts⟩
        · have hok : (!(setGoing h && w.backend.awaited 0
              && w.backend.givesUp x)) = true := hok
          rw [hg, hbusy, Bool.true_and, Bool.true_and] at hok
          exact (Bool.not_eq_true' _).mp hok
        · obtain ⟨job, hrun, -⟩ := EngineThread.starts_run hstarts
          unfold EngineThread.givesUp
          rw [hrun]
      cases he with
      | popped _ _ hidle => cases hpc.symm.trans hidle
      | moved job pc₁ pc' hrun hpc' hr' hsame ht hd' =>
          obtain ⟨rfl, rfl⟩ := hjob hrun
          refine hgoes hpc' hr' hsame ?_
          exact hd'.elim id fun hne => hdump (.inr hne)
      | started job pc' hrun hpc' hr' hsame ht =>
          obtain ⟨rfl, rfl⟩ := hjob hrun
          exact hgoes hpc' hr' hsame (hdump (.inr nofun))
      | landed job pc₁ o hrun hpc' hsame ht =>
          obtain ⟨rfl, -⟩ := hjob hrun
          exact hends hpc' hsame nofun
      | gaveUp job hrun hpc' hsame ht =>
          obtain ⟨rfl, -⟩ := hjob hrun
          exact hends hpc' hsame nofun
      | failed job pc₁ err broke hrun hx' hpc' hsame ht =>
          obtain ⟨rfl, rfl⟩ := hjob hrun
          subst hx'
          refine hends hpc' hsame fun e _ hg => ?_
          have hgive := hkeeps hg
          unfold EngineThread.givesUp at hgive
          rw [hpc] at hgive
          rcases ht with ⟨-, rfl | rfl⟩ | ⟨-, ht⟩
          · cases hgive
          · cases broke <;> cases hgive
          · exact ht
      | refused job pc₁ err hrun hwhy hpc' hsame ht =>
          obtain ⟨rfl, rfl⟩ := hjob hrun
          refine hends hpc' hsame fun e _ hg => ?_
          have hgive := hkeeps hg
          unfold EngineThread.givesUp at hgive
          rw [hpc] at hgive
          rcases hwhy with ⟨-, hd'⟩ | ⟨rfl, rfl⟩ | ⟨rfl, rfl⟩
          · cases hd'.symm.trans (hdump (.inl hg))
          · cases hgive
          · cases hgive
      | aside job _ hrun hno =>
          obtain ⟨rfl, -⟩ := hjob hrun
          cases hcmd.symm.trans hno
      | replied job r hrun => exact absurd (hjob hrun).2.symm (hr r)
  | ended r hq hpc hempty hl =>
      have hpc : w.backend.pc = .run ⟨0, cmd⟩ (.reply r) := hpc
      have hg : g' = true → setGoing h = true := fun hg =>
        (hset hg).resolve_right fun hstarts => by
          obtain ⟨job, hrun, -⟩ := EngineThread.starts_run hstarts.2
          cases hpc.symm.trans hrun
      rw [EngineThread.reply_step hpc hx]
      refine .replied r ⟨hq, nofun⟩ ?_
        ⟨fun e he hg' => hl.broken e he (hg hg'), fun hg' =>
          hl.isDump (hg hg')⟩
      have hempty : w.backend.replies 0 = .empty := hempty
      show Function.update w.backend.replies 0 _ 0 = _
      rw [Function.update_self, hempty]
      rfl
  | replied r hrest => exact (hrest.stuck hx).elim

/-- A command whose reply is not in yet is awaited. -/
theorem Owes.awaited (hv : (resumeView w h).Owes cmd) :
    w.backend.awaited 0 = true ∨ ∃ r, (resumeView w h).Quiet ∧
      w.backend.replies 0 = .sent r ∧ (resumeView w h).Leaves r := by
  cases hv with
  | queued queue hq _ _ he =>
      have hq : w.backend.queue = queue ++ [⟨0, cmd⟩] := hq
      refine .inl (EngineThread.awaited_queued ⟨0, cmd⟩ ?_ he)
      rw [hq]
      exact List.mem_append_right _ (List.mem_singleton_self _)
  | executing pc _ hpc _ he => exact .inl (EngineThread.awaited_run hpc he)
  | ended r _ hpc he => exact .inl (EngineThread.awaited_run hpc he)
  | replied r hrest he hl => exact .inr ⟨r, hrest, he, hl⟩

/-- A reply that was received leaves the engine quiet. -/
theorem Owes.received {r : CmdReply} (hv : (resumeView w h).Owes cmd)
    (hr : w.backend.replies 0 = .sent r) :
    (resumeView w h).Quiet ∧ (resumeView w h).Leaves r := by
  rcases hv.awaited with ha | ⟨r', hq, hr', hl⟩
  · have he := (Bool.and_eq_true_iff.mp ha).2
    rw [hr] at he
    cases he
  · cases hr.symm.trans hr'
    exact ⟨hq, hl⟩

/-- A step of the thread. -/
theorem Fails.step {x : EngineAnswer} {q : WinFlight}
    (hs : w'.server = w.server) (hI : (resumeView w h).Fails q)
    (hx : w.backend.threadStep x = some w'.backend)
    (hok : keepsTarget h (.env (.backend (.step x)) w w') = true) :
    (resumeView w' (.env (.backend (.step x)) w w' :: h)).Fails q := by
  have hst : (resumeView w' (.env (.backend (.step x)) w w' :: h)).state
      = w.state := by
    rw [resumeView_move hs]
  have hfalse : ∀ {b : Bool}, (b = true → setGoing h = true) →
      setGoing h = false → b = false := by
    intro b hb hg
    refine (Bool.not_eq_true _).mp fun hb' => ?_
    rw [hb hb'] at hg
    cases hg
  cases q with
  | pausing => exact hI
  | before | ready =>
      obtain ⟨haway, hacc⟩ := hI.1.step hs hx
      exact ⟨haway, hfalse hacc hI.2⟩
  | entering =>
      obtain ⟨haway, hacc⟩ := hI.1.step hs hx
      exact ⟨haway, hfalse hacc hI.2.1, hst ▸ hI.2.2⟩
  | sending g cmd =>
      obtain ⟨hcmd, hready, hne⟩ := hI
      obtain ⟨haway, hacc⟩ := hready.away.step hs hx
      refine ⟨hcmd, ⟨haway, fun ha => ?_⟩, hst ▸ hne⟩
      exact ((hready.again (hacc ha)).1.stuck hx).elim
  | waiting g cmd =>
      exact ⟨hI.1, hI.2.1.step hs hI.1 hx hok, hst ▸ hI.2.2⟩
  | failed => exact (hI.rest.stuck hx).elim
  | quit => exact fun h => ((hI (hst.symm.trans h)).rest.stuck hx).elim
  | got | caching | landed => trivial

/-- The thread ends. -/
theorem Fails.die {q : WinFlight} (hs : w'.server = w.server)
    (hI : (resumeView w h).Fails q) (hx : w.backend.die = some w'.backend)
    (hok : w.backend.awaited 0 = false) :
    (resumeView w' (.env (.backend .die) w w' :: h)).Fails q := by
  obtain ⟨hpc, hq⟩ := die_eq hx
  obtain ⟨ht, hd, hr⟩ := EngineThread.die_keeps hx
  have hquiet : (resumeView w' (.env (.backend .die) w w' :: h)).Quiet := by
    refine ⟨hq, fun job pc hrun => ?_⟩
    cases hpc.symm.trans hrun
  have hst : (resumeView w' (.env (.backend .die) w w' :: h)).state
      = w.state := by
    rw [resumeView_move hs]
  have hover : (resumeView w h).Over →
      (resumeView w' (.env (.backend .die) w w' :: h)).Over := fun hI =>
    ⟨hquiet, fun ha => ht.trans (hI.broken ha)⟩
  cases q with
  | pausing => exact hI
  | before | ready => exact ⟨hquiet.away, hI.2⟩
  | entering => exact ⟨hquiet.away, hI.2.1, hst ▸ hI.2.2⟩
  | sending g cmd =>
      exact ⟨hI.1, ⟨hquiet.away, fun ha =>
        ⟨hquiet, hd.trans (hI.2.1.again ha).2⟩⟩, hst ▸ hI.2.2⟩
  | waiting g cmd =>
      refine ⟨hI.1, ?_, hst ▸ hI.2.2⟩
      rcases hI.2.1.awaited with ha | ⟨r, -, he, hl⟩
      · cases hok.symm.trans ha
      · exact .replied r hquiet ((hr hok).trans he)
          ⟨fun e he ha => ht.trans (hl.broken e he ha), fun ha =>
            hd.trans (hl.isDump ha)⟩
  | failed => exact hover hI
  | quit => exact fun h => hover (hI (hst.symm.trans h))
  | got | caching | landed => trivial

end ResumeView

/-- A step of the resume. -/
theorem ResumeView.Fails.act {op : WinServerOp β} {q q' : WinFlight}
    (hI : (resumeView w h).Fails q)
    (hr : winMachine.run 0 op a w = some (b, w'))
    (hq : WinFlightNext q op b q')
    (hok : keepsTarget h (.act 0 op b w w') = true) :
    toldGone (.act 0 op b w w' :: h) = toldGone h ∧
      (resumeView w' (.act 0 op b w w' :: h)).Fails q' := by
  cases hq with
  | look op hl x =>
      rw [resumeView_tool hr]
      exact ⟨rfl, hI.inState (hl.state hr).symm.trans⟩
  | watch | interrupt => exact hI.elim
  | generation g =>
      rw [resumeView_tool hr]
      exact ⟨rfl, Fails.inState (q := .ready g)
        (Looks.generation.state hr).symm.trans hI⟩
  | run g =>
      rw [resumeView_tool hr, Backed.state_session hr]
      exact ⟨rfl, ⟨hI.1.queue, hI.1.pc⟩, hI.2, nofun⟩
  | lost g =>
      cases Backed.run_race hr
      exact ⟨rfl, fun h => absurd h hI.2.2⟩
  | polled g cmd hcmd hb =>
      cases Backed.run_race hr
      refine ⟨rfl, hcmd, ⟨hI.1, fun ha => ?_⟩, hI.2.2⟩
      cases hI.2.1.symm.trans ha
  | send g cmd =>
      obtain ⟨_, hc, -⟩ := Backed.run_backend hr
      obtain ⟨-, hw⟩ := EngineThread.enqueue_ok hc
      obtain ⟨hcmd, hready, hne⟩ := hI
      have he : Function.update w.backend.replies 0 .empty 0 = .empty :=
        Function.update_self ..
      rw [resumeView_backend hr, hw]
      refine ⟨rfl, hcmd, .queued w.backend.queue rfl hready.away.queue
        hready.away.pc he fun ha => ?_, hne⟩
      obtain ⟨hquiet, hd⟩ := hready.again ha
      exact ⟨hquiet.queue, hquiet.pc, hd⟩
  | sendClosed g cmd =>
      obtain ⟨_, hc, -⟩ := Backed.run_backend hr
      exact absurd (EngineThread.enqueue_closed hc).1
        (of_decide_eq_true hok)
  | sendDrop g cmd =>
      rw [resumeView_backend hr]
      exact ⟨rfl, fun h => absurd h hI.2.2⟩
  | stop => exact ⟨rfl, trivial⟩
  | fallBack g ms =>
      obtain ⟨_, hc, -⟩ := Backed.run_backend hr
      obtain ⟨hx, hw⟩ := EngineThread.recv_reply hc
      obtain ⟨v, hs, -⟩ := EngineThread.reply_ok hx
      obtain ⟨hquiet, hl⟩ := hI.2.1.received hs
      rw [resumeView_backend hr, hw]
      exact ⟨rfl, rfl, ⟨hquiet.away, fun ha => ⟨hquiet, hl.isDump ha⟩⟩,
        hI.2.2⟩
  | fail g cmd err =>
      obtain ⟨_, hc, -⟩ := Backed.run_backend hr
      obtain ⟨hx, hw⟩ := EngineThread.recv_reply hc
      obtain ⟨hquiet, hl⟩ :=
        hI.2.1.received (EngineThread.reply_error hx)
      rw [resumeView_backend hr, hw]
      exact ⟨rfl, hquiet, hl.broken err rfl⟩
  | closed g cmd =>
      obtain ⟨_, hc, -⟩ := Backed.run_backend hr
      obtain ⟨hx, -⟩ := EngineThread.recv_reply hc
      have hclosed := EngineThread.reply_closed hx
      rcases hI.2.1.awaited with ha | ⟨r, -, he, -⟩
      · have he := (Bool.and_eq_true_iff.mp ha).2
        rw [hclosed] at he
        cases he
      · cases hclosed.symm.trans he
  | drop g cmd =>
      rw [resumeView_backend hr]
      exact ⟨rfl, fun h => absurd h hI.2.2⟩
  | revert =>
      rw [resumeView_tool hr]
      exact ⟨rfl, fun _ => ⟨⟨hI.rest.queue, hI.rest.pc⟩, hI.broken⟩⟩
  | stopped | stale | exited | terminated | cache | drain =>
      exact ⟨rfl, trivial⟩

-- ============================================================ invariant

/-- The resume of call 0, and the others, which pause. -/
structure FailInv (w : WinServer) (φ : Nat → WinFlight)
    (h : WinHistory) : Prop where
  untold : toldGone h = false
  others : ∀ i, i ≠ 0 → φ i = .pausing
  fails : (resumeView w h).Fails (φ 0)

/-- It holds in every state of a run. -/
theorem failInv_inductive : Inductive winMachine WinFlightNext
    (fun h ev => keepsTarget h ev = true) FailInv where
  act := by
    intro w w' φ h i β op a b q' hI hr hq hok
    by_cases hi : i = 0
    · subst hi
      obtain ⟨htold, hfails⟩ := hI.fails.act hr hq hok
      refine ⟨htold.trans hI.untold, fun j hj => ?_, ?_⟩
      · rw [Function.update_of_ne hj]
        exact hI.others j hj
      · rw [Function.update_self]
        exact hfails
    · rw [hI.others i hi] at hq
      have hmoved : q' = .pausing →
          ∀ j, j ≠ 0 → Function.update φ i q' j = .pausing := by
        intro hq' j hj
        by_cases hji : j = i
        · rw [hji, Function.update_self, hq']
        · rw [Function.update_of_ne hji]
          exact hI.others j hj
      have hzero : Function.update φ i q' 0 = φ 0 :=
        Function.update_of_ne (Ne.symm hi) ..
      cases hq with
      | watch op hl x =>
          refine ⟨hI.untold, hmoved rfl, ?_⟩
          rw [hzero, resumeView_tool hr]
          exact hI.fails.inState (hl.state hr).symm.trans
      | interrupt =>
          obtain ⟨_, hc, -⟩ := Backed.run_backend hr
          refine ⟨hI.untold, hmoved rfl, ?_⟩
          rw [hzero, resumeView_backend hr, run_interrupt hc]
          exact hI.fails
  env := by
    intro w w' φ h e hI he hok
    cases e with
    | tool e =>
        obtain ⟨-, hs, hb⟩ := Backed.env_tool he
        refine ⟨hI.untold, hI.others, ?_⟩
        have hv : resumeView w' (.env (.tool e) w w' :: h)
            = { resumeView w h with state := w'.state } := by
          unfold resumeView
          rw [hb]
          rfl
        rw [hv]
        exact hI.fails.inState (stopped_env hs)
    | backend e =>
        obtain ⟨hx, hs⟩ := Backed.env_backend he
        refine ⟨hI.untold, hI.others, ?_⟩
        cases e with
        | step x => exact hI.fails.step hs hx hok
        | die => exact hI.fails.die hs hx ((Bool.not_eq_true' _).mp hok)

end

-- ========================================================== the result

/-- A thread with no command of call 0. -/
theorem away_of_busy {w : WinServer} (hb : w.backend.busy 0 = false) :
    (resumeView w []).Away := by
  obtain ⟨hq, hpc⟩ := Bool.or_eq_false_iff.mp hb
  refine ⟨fun job hjob hc => ?_, fun job pc hrun hc => ?_⟩
  · exact List.any_eq_false.mp hq job hjob (beq_iff_eq.mpr hc)
  · have hrun : w.backend.pc = .run job pc := hrun
    rw [hrun] at hpc
    dsimp only at hpc
    rw [hc] at hpc
    cases hpc

/-- A resume that returned an error and leaves the session stopped has
not set the target going, or has it broken in again; and it was not told
that the engine thread is gone. -/
theorem failed_over_win (c : ResumeTool) {w₀ : WinServer}
    {h : WinHistory} {s : Pool WinServerOp ToolOutcome WinServer}
    {o : ToolOutcome} (hw : w₀.backend.busy 0 = false)
    (hr : WinResumeRun c w₀ h s) (ho : s.returned 0 = some o)
    (he : o.isError = true) (hst : s.world.state = .stopped) :
    (setGoing h = true → s.world.backend.target = .broken) ∧
      toldGone h = false := by
  have hstart : FailInv w₀ (fun i => (resumeAndPauses c i).phase₀) [] := {
    untold := rfl
    others := fun i hi => by
      cases i with
      | zero => exact absurd rfl hi
      | succ i => rfl
    fails := ⟨away_of_busy hw, rfl⟩ }
  obtain ⟨φ, hI, hobeys⟩ := hr.invariant failInv_inductive
    (fun i _ hp => Option.some.inj hp ▸ (resumeAndPauses c i).obeys)
    hstart
  have hlands : Lands (φ 0) o := hobeys 0 _ (Pool.prog_of_returned ho)
  refine ⟨fun hg => ?_, hI.untold⟩
  have hfails := hI.fails
  have hflight := hlands.inFlight
  have herror := hlands.error
  generalize φ 0 = q at hfails hflight herror
  cases q with
  | pausing => exact hfails.elim
  | before | ready => cases hfails.2.symm.trans hg
  | landed =>
      rw [he] at herror
      cases herror rfl
  | quit => exact (hfails hst).broken hg
  | _ => cases hflight

end DebugMcp
