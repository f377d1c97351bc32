/-
What a step of the engine thread does to the target and the replies, and
what a caller receives of them.

`Effect` is the inversion of `threadStep` for proofs that follow the
target: a command is taken up, goes on, sets the target running, lands
with an outcome, gives up, fails, or is answered.
-/
import DebugMcp.WinDbg.EngineThread

namespace DebugMcp

open Conc

-- ============================================================ outcomes

/-- The outcome in a reply's value. -/
def CmdValue.outcome? : CmdValue → Option StopOutcome
  | go o => o
  | stop o => some o
  | unit => none

/-- The outcome in a reply. -/
def CmdReply.outcome? : CmdReply → Option StopOutcome
  | .ok v => v.outcome?
  | .error _ => none

@[simp] theorem EngineCmd.ended_outcome (cmd : EngineCmd)
    (o : StopOutcome) :
    CmdReply.outcome? (.ok (cmd.ended o)) = some o := by
  cases cmd <;> rfl

/-- The outcome a command's value gives a resume, if it gives one. -/
def EngineCmd.outcome? : (cmd : EngineCmd) → cmd.Value →
    Option StopOutcome
  | go _, o => o
  | step _, o | breakIn, o => some o
  | detach _, _ | other, _ => none

/-- It is that of the reply. -/
theorem EngineCmd.outcome_value {cmd : EngineCmd} {v : CmdValue}
    {x : cmd.Value} (hcmd : cmd.runs = true)
    (h : cmd.value? v = some x) : cmd.outcome? x = v.outcome? := by
  cases cmd with
  | go | step | breakIn =>
      cases v <;> cases h
      rfl
  | _ => cases hcmd

-- =============================================================== steps

namespace EngineThread

/-- Has a command of the thread just ended, with this reply? -/
def ends (w : EngineThread) : Option (Job × CmdReply) :=
  match w.pc with
  | .run job (.reply r) => some (job, r)
  | _ => none

theorem ends_reply {w : EngineThread} {job : Job} {r : CmdReply}
    (h : w.pc = .run job (.reply r)) : w.ends = some (job, r) := by
  rw [ends, h]

theorem ends_none {w : EngineThread}
    (h : ∀ job r, w.pc ≠ .run job (.reply r)) : w.ends = none := by
  unfold ends
  split
  · next job r hpc => exact absurd hpc (h job r)
  · rfl

/-- The queue and the replies are as they were, and the session is a
dump if it was. -/
structure SameReplies (w w' : EngineThread) : Prop where
  queue : w'.queue = w.queue
  replies : w'.replies = w.replies
  isDump : w'.isDump = w.isDump

/-- What a step of the thread does. -/
inductive Effect (w : EngineThread) (a : EngineAnswer)
    (w' : EngineThread) : Prop
  | popped (job : Job) (queue : List Job) (hpc : w.pc = .idle)
      (hq : w.queue = job :: queue)
      (h : w' = { w with queue, pc := .run job .entry })
  | moved (job : Job) (pc pc' : EnginePc) (hpc : w.pc = .run job pc)
      (hpc' : w'.pc = .run job pc') (hr : ∀ r, pc' ≠ .reply r)
      (hs : SameReplies w w') (ht : w'.target = w.target)
      (hd : w.isDump = false ∨ pc ≠ .entry)
  | started (job : Job) (pc' : EnginePc) (hpc : w.pc = .run job .start)
      (hpc' : w'.pc = .run job pc') (hr : ∀ r, pc' ≠ .reply r)
      (hs : SameReplies w w') (ht : w'.target = .running)
  | landed (job : Job) (pc : EnginePc) (o : StopOutcome)
      (hpc : w.pc = .run job pc)
      (hpc' : w'.pc = .run job (.reply (.ok (job.cmd.ended o))))
      (hs : SameReplies w w') (ht : w'.target = .after o)
  | gaveUp (job : Job) (hpc : w.pc = .run job .look)
      (hpc' : w'.pc = .run job (.reply (.ok (.go none))))
      (hs : SameReplies w w') (ht : w'.target = w.target)
  /-- A call of DbgEng failed, and may have broken the target in. -/
  | failed (job : Job) (pc : EnginePc) (err : EngineError) (broke : Bool)
      (hpc : w.pc = .run job pc) (ha : a = .failed err broke)
      (hpc' : w'.pc = .run job (.reply (.error err)))
      (hs : SameReplies w w')
      (ht : w'.target = w.target ∧ (broke = false ∨ pc = .start) ∨
        broke = true ∧ w'.target = .broken)
  /-- The command itself gave up. -/
  | refused (job : Job) (pc : EnginePc) (err : EngineError)
      (hpc : w.pc = .run job pc)
      (hwhy : pc = .entry ∧ w.isDump = true ∨
        pc = .landing ∧ a = .timedOut ∨ pc = .interrupt 0 ∧ a = .sync)
      (hpc' : w'.pc = .run job (.reply (.error err)))
      (hs : SameReplies w w') (ht : w'.target = w.target)
  /-- A command that does not run the target. -/
  | aside (job : Job) (r : CmdReply) (hpc : w.pc = .run job .entry)
      (hcmd : job.cmd.runs = false) (hpc' : w'.pc = .run job (.reply r))
      (hq : w'.queue = w.queue) (hr : w'.replies = w.replies)
  | replied (job : Job) (r : CmdReply) (hpc : w.pc = .run job (.reply r))
      (h : w' = { w with
        pc := .idle
        replies := Function.update w.replies job.caller
          ((w.replies job.caller).send r) })

namespace Effect

variable {w w' : EngineThread} {job : Job} {pc : EnginePc}
  {a : EngineAnswer}

/-- A wait lands, begins again, fails, or times out. -/
theorem ofWait {stop : StopOutcome → StopOutcome} {timedOut : EngineThread}
    (hpc : w.pc = .run job pc) (hr : ∀ r, pc ≠ .reply r)
    (hentry : pc ≠ .entry) (ht : a = .timedOut → Effect w a timedOut)
    (h : w.waitForEvent job pc stop timedOut a = some w') :
    Effect w a w' := by
  cases a with
  | event o =>
      cases h
      exact .landed job pc (stop o) hpc rfl ⟨rfl, rfl, rfl⟩ rfl
  | resumed =>
      cases h
      exact .moved job pc pc hpc rfl hr ⟨rfl, rfl, rfl⟩ rfl (.inr hentry)
  | timedOut =>
      cases h
      exact ht rfl
  | failed err broke =>
      cases h
      refine .failed job pc err broke hpc rfl rfl ⟨rfl, rfl, rfl⟩ ?_
      cases broke with
      | true => exact .inr ⟨rfl, rfl⟩
      | false => exact .inl ⟨rfl, .inl rfl⟩
  | _ => cases h

/-- A dump session is refused; any other command goes on. -/
theorem ofRunnable {pc' : EnginePc} (hpc : w.pc = .run job .entry)
    (hr : ∀ r, pc' ≠ .reply r) :
    Effect w a (w.ensureRunnable job pc') := by
  unfold ensureRunnable
  split
  · next hd =>
      exact .refused job .entry dumpSession hpc (.inl ⟨rfl, hd⟩) rfl
        ⟨rfl, rfl, rfl⟩ rfl
  · next hd =>
      exact .moved job .entry pc' hpc rfl hr ⟨rfl, rfl, rfl⟩ rfl
        (.inl ((Bool.not_eq_true _).mp hd))

/-- A failed call of DbgEng. -/
theorem ofFail {err : EngineError} {broke : Bool}
    (hpc : w.pc = .run job pc) :
    Effect w (.failed err broke) (w.fail job err broke) := by
  refine .failed job pc err broke hpc rfl rfl ⟨rfl, rfl, rfl⟩ ?_
  cases broke with
  | true => exact .inr ⟨rfl, rfl⟩
  | false => exact .inl ⟨rfl, .inl rfl⟩

/-- The first step of a command. -/
theorem ofEnter (hpc : w.pc = .run job .entry)
    (h : w.enter job a = some w') : Effect w a w' := by
  cases a with
  | sync =>
      obtain ⟨i, cmd⟩ := job
      cases cmd with
      | go | step | breakIn =>
          cases h
          exact .ofRunnable hpc nofun
      | detach | other =>
          cases h
          exact .aside _ _ hpc rfl rfl rfl rfl
  | failed err broke =>
      simp only [enter] at h
      split at h
      · cases h
      · next hcmd =>
          cases h
          exact .aside _ _ hpc ((Bool.not_eq_true _).mp hcmd) rfl rfl rfl
  | _ => cases h

/-- A step of a command. -/
theorem ofExecute (hpc : w.pc = .run job pc)
    (h : w.execute job pc a = some w') : Effect w a w' := by
  have hmoved : ∀ {pc' : EnginePc} {w₁ : EngineThread},
      w₁.pc = .run job pc' → (∀ r, pc' ≠ .reply r) → SameReplies w w₁ →
      w₁.target = w.target → pc ≠ .entry → Effect w a w₁ :=
    fun hpc' hr hs ht hne => .moved job pc _ hpc hpc' hr hs ht (.inr hne)
  have hsame : ∀ {pc' : EnginePc} {t : Debuggee} {f : Bool},
      SameReplies w { w with pc := .run job pc', target := t, flag := f } :=
    ⟨rfl, rfl, rfl⟩
  cases pc with
  | entry => exact .ofEnter hpc h
  | clear =>
      cases a with
      | sync =>
          cases h
          exact hmoved rfl nofun hsame rfl nofun
      | _ => cases h
  | start =>
      cases a with
      | sync =>
          cases h
          refine .started job _ hpc rfl ?_ hsame rfl
          split <;> nofun
      | failed err broke =>
          cases h
          exact .failed job _ err broke hpc rfl rfl ⟨rfl, rfl, rfl⟩
            (.inl ⟨rfl, .inr rfl⟩)
      | _ => cases h
  | poll =>
      cases a with
      | sync =>
          cases h
          refine hmoved rfl ?_ hsame rfl nofun
          split <;> nofun
      | deadline =>
          cases h
          exact hmoved rfl nofun hsame rfl nofun
      | _ => cases h
  | wait =>
      have ht : a = .timedOut → Effect w a (w.goto job .poll) :=
        fun _ => hmoved rfl nofun hsame rfl nofun
      exact .ofWait hpc nofun nofun ht h
  | look =>
      cases a with
      | sync =>
          cases h
          by_cases hf : w.flag = true
          · simp only [if_pos hf]
            exact hmoved rfl nofun hsame rfl nofun
          · simp only [if_neg hf]
            exact .gaveUp job hpc rfl hsame rfl
      | _ => cases h
  | landing =>
      refine .ofWait hpc nofun nofun (fun ha => ?_) h
      exact .refused job _ _ hpc (.inr (.inl ⟨rfl, ha⟩)) rfl
        ⟨rfl, rfl, rfl⟩ rfl
  | interrupt polls =>
      cases polls with
      | zero =>
          cases a with
          | sync =>
              cases h
              exact .refused job _ _ hpc (.inr (.inr ⟨rfl, rfl⟩)) rfl
                ⟨rfl, rfl, rfl⟩ rfl
          | failed err broke =>
              cases h
              exact .ofFail hpc
          | _ => cases h
      | succ polls =>
          cases a with
          | sync =>
              cases h
              exact hmoved rfl nofun hsame rfl nofun
          | failed err broke =>
              cases h
              exact .ofFail hpc
          | _ => cases h
  | breakWait polls =>
      have ht : a = .timedOut →
          Effect w a (w.goto job (.breakStatus polls)) :=
        fun _ => hmoved rfl nofun hsame rfl nofun
      exact .ofWait hpc nofun nofun ht h
  | breakStatus polls =>
      cases a with
      | sync =>
          cases h
          exact hmoved rfl nofun hsame rfl nofun
      | failed err broke =>
          cases h
          exact .ofFail hpc
      | stopped o =>
          cases h
          exact .landed job _ _ hpc rfl hsame rfl
      | _ => cases h
  | reply r =>
      cases a with
      | sync =>
          cases h
          exact .replied job r hpc rfl
      | _ => cases h

/-- A step of the thread has one of these effects. -/
theorem ofStep (h : w.threadStep a = some w') : Effect w a w' := by
  cases threadStep_stepped h with
  | popped job queue hpc hq ha h => exact .popped job queue hpc hq h
  | executed job pc hpc h => exact .ofExecute hpc h

/-- A thread at a command stays at it until it has replied, and answers
nobody else. -/
theorem stays (h : Effect w a w') (hpc : w.pc = .run job pc) :
    w'.queue = w.queue ∧
      (w'.pc = .idle ∨ ∃ pc', w'.pc = .run job pc') ∧
      ∀ i, i ≠ job.caller → w'.replies i = w.replies i := by
  have hjob : ∀ {job₁ : Job} {pc₁ pc' : EnginePc},
      w.pc = .run job₁ pc₁ → w'.pc = .run job₁ pc' →
        ∃ pc', w'.pc = .run job pc' := by
    intro job₁ pc₁ pc' hpc₁ hpc'
    cases hpc.symm.trans hpc₁
    exact ⟨pc', hpc'⟩
  cases h with
  | popped _ _ hidle => cases hpc.symm.trans hidle
  | moved _ _ _ hrun hpc' _ hs | landed _ _ _ hrun hpc' hs
  | failed _ _ _ _ hrun _ hpc' hs | refused _ _ _ hrun _ hpc' hs
  | started _ _ hrun hpc' _ hs | gaveUp _ hrun hpc' hs =>
      exact ⟨hs.queue, .inr (hjob hrun hpc'), fun i _ =>
        congrFun hs.replies i⟩
  | aside _ _ hrun _ hpc' hq hr =>
      exact ⟨hq, .inr (hjob hrun hpc'), fun i _ => congrFun hr i⟩
  | replied _ _ hrun hw =>
      cases hpc.symm.trans hrun
      subst hw
      exact ⟨rfl, .inl rfl, fun i hi => Function.update_of_ne hi ..⟩

/-- A thread that is idle takes up the next command. -/
theorem takes (h : Effect w a w') (hpc : w.pc = .idle) :
    ∃ job queue, w.queue = job :: queue ∧
      w' = { w with queue, pc := .run job .entry } := by
  cases h with
  | popped job queue _ hq hw => exact ⟨job, queue, hq, hw⟩
  | moved _ _ _ hrun | landed _ _ _ hrun | failed _ _ _ _ hrun
  | refused _ _ _ hrun | started _ _ hrun | gaveUp _ hrun | aside _ _ hrun
  | replied _ _ hrun => cases hpc.symm.trans hrun

end Effect

/-- A thread that has nothing to do takes no step. -/
theorem idle_stuck {w w' : EngineThread} {a : EngineAnswer}
    (hpc : w.pc = .idle) (hq : w.queue = []) :
    w.threadStep a ≠ some w' := by
  unfold threadStep
  rw [hpc, hq]
  nofun

/-- A command that has ended is answered. -/
theorem reply_step {w w' : EngineThread} {a : EngineAnswer} {job : Job}
    {r : CmdReply} (hpc : w.pc = .run job (.reply r))
    (h : w.threadStep a = some w') :
    w' = { w with
      pc := .idle
      replies := Function.update w.replies job.caller
        ((w.replies job.caller).send r) } := by
  unfold threadStep at h
  rw [hpc] at h
  cases a with
  | sync =>
      cases h
      rfl
  | _ => cases h

/-- A thread that has ended takes no step. -/
theorem gone_stuck {w w' : EngineThread} {a : EngineAnswer}
    (hpc : w.pc = .gone) : w.threadStep a ≠ some w' := by
  unfold threadStep
  rw [hpc]
  nofun

/-- A thread that ends leaves the target as it is, and the reply of a
call that does not await it. -/
theorem die_keeps {w w' : EngineThread} {i : Nat} (h : w.die = some w') :
    w'.target = w.target ∧ w'.isDump = w.isDump ∧
      ((w.busy i && (w.replies i).isEmpty) = false →
        w'.replies i = w.replies i) := by
  unfold die at h
  split at h
  · cases h
  · cases h
    refine ⟨rfl, rfl, fun hi => ?_⟩
    show (if w.busy i then (w.replies i).close else w.replies i) = _
    cases hb : w.busy i with
    | false => rfl
    | true =>
        rw [hb, Bool.true_and] at hi
        cases hr : w.replies i with
        | empty =>
            rw [hr] at hi
            cases hi
        | _ => rfl

-- ============================================================= callers

section

variable {w w' : EngineThread} {i : Nat} {cmd : EngineCmd}
  {a : CallAnswer}

/-- A caller leaves the thread where it is. -/
theorem run_pc {β : Type} {op : WinOp β} {b : β}
    (h : w.run i op a = some (b, w')) : w'.pc = w.pc := by
  cases op with
  | interrupt =>
      cases a <;> cases h
      rfl
  | enqueue cmd =>
      cases a with
      | cancel =>
          cases h
          rfl
      | sync =>
          simp only [run] at h
          split at h <;>
            · cases h
              rfl
  | recv cmd =>
      cases a with
      | cancel =>
          cases h
          rfl
      | sync =>
          obtain ⟨x, -, he⟩ := Option.map_eq_some_iff.mp h
          cases he
          rfl

/-- A command is sent to a thread that is there. -/
theorem enqueue_ok
    (h : w.run i (.enqueue cmd) a = some (some (.ok ()), w')) :
    w.pc ≠ .gone ∧ w' = { w with
      queue := w.queue ++ [⟨i, cmd⟩]
      replies := Function.update w.replies i .empty } := by
  cases a with
  | cancel => cases h
  | sync =>
      simp only [run] at h
      split at h
      · cases h
      · next hpc =>
          cases h
          exact ⟨hpc, rfl⟩

/-- The send fails when the thread has ended. -/
theorem enqueue_closed
    (h : w.run i (.enqueue cmd) a = some (some (.error ()), w')) :
    w.pc = .gone ∧ w' = w := by
  cases a with
  | cancel => cases h
  | sync =>
      simp only [run] at h
      split at h
      · next hpc =>
          cases h
          exact ⟨hpc, rfl⟩
      · cases h

/-- A send that was dropped sent nothing. -/
theorem enqueue_dropped (h : w.run i (.enqueue cmd) a = some (none, w')) :
    w' = w := by
  cases a with
  | cancel =>
      cases h
      rfl
  | sync =>
      simp only [run] at h
      split at h <;> cases h

/-- A caller receives the reply it was sent. -/
theorem recv_reply {x : Except Unit (Except EngineError cmd.Value)}
    (h : w.run i (.recv cmd) a = some (some x, w')) :
    w.reply? i cmd = some x ∧ w' = w := by
  cases a with
  | cancel => cases h
  | sync =>
      obtain ⟨y, hy, he⟩ := Option.map_eq_some_iff.mp h
      cases he
      exact ⟨hy, rfl⟩

/-- An error it receives was sent. -/
theorem reply_error {err : EngineError}
    (h : w.reply? i cmd = some (.ok (.error err))) :
    w.replies i = .sent (.error err) := by
  unfold reply? at h
  cases hr : w.replies i with
  | sent r =>
      rw [hr] at h
      cases r with
      | error e =>
          cases h
          rfl
      | ok v =>
          obtain ⟨y, -, he⟩ := Option.map_eq_some_iff.mp h
          cases he
  | _ =>
      rw [hr] at h
      cases h

/-- So was a value. -/
theorem reply_ok {x : cmd.Value}
    (h : w.reply? i cmd = some (.ok (.ok x))) :
    ∃ v, w.replies i = .sent (.ok v) ∧ cmd.value? v = some x := by
  unfold reply? at h
  cases hr : w.replies i with
  | sent r =>
      rw [hr] at h
      cases r with
      | error e => cases h
      | ok v =>
          obtain ⟨y, hy, he⟩ := Option.map_eq_some_iff.mp h
          cases he
          exact ⟨v, rfl, hy⟩
  | _ =>
      rw [hr] at h
      cases h

/-- A closed channel has had its sender dropped. -/
theorem reply_closed (h : w.reply? i cmd = some (.error ())) :
    w.replies i = .closed := by
  unfold reply? at h
  cases hr : w.replies i with
  | closed => rfl
  | sent r =>
      rw [hr] at h
      cases r with
      | error e => cases h
      | ok v =>
          obtain ⟨y, -, he⟩ := Option.map_eq_some_iff.mp h
          cases he
  | _ =>
      rw [hr] at h
      cases h

end

end EngineThread

end DebugMcp
