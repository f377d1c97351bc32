/-
No interrupt of a running `go` is lost, in timely runs.

An interrupted `go` neither polls again nor gives up, and is over after
at most `commandCost` steps of the thread; a detach queued behind it is
reached after as many steps as the commands ahead of it cost
(`interrupts_observed`). `Counted` counts the steps: each lowers the cost
of a command that will not poll again. Where no wait is begun again more
than `n` times, there are at most `n` repetitions around each of these
steps, which bounds them all.

Without the condition the interrupt of a `go` that is still queued is
forgotten, and the thread polls on (`interrupt_lost`).
-/
import DebugMcp.WinDbg.Attention

namespace DebugMcp

open Conc

-- ============================================================ counting

/-- What a step gains: an interrupted `go` and a queued detach come
nearer, and the `go` heeds its interrupt. -/
structure Gains (w w' : EngineThread) (h : EngineHistory)
    (ev : EngineEvent) : Prop where
  cost : ∀ i, interrupted i h = true →
    advances ev + w'.pc.cost ≤ w.pc.cost
  distance : ∀ j, w.detaching j = true → w'.detaching j = true →
    advances ev + w'.distance j ≤ w.distance j
  heeds : ∀ i, interrupted i h = true → ignores i ev = false

/-- The counts so far: `overdue` and `waited` and what is left fit their
bounds. -/
structure Counted (w : EngineThread) (h : EngineHistory) : Prop where
  overdue : ∀ i, interrupted i h = true →
    overdue i h + w.pc.cost ≤ commandCost
  waited : ∀ j, w.detaching j = true →
    waited j h + w.distance j ≤ budget j h
  overdue_le : ∀ i, DebugMcp.overdue i h ≤ commandCost
  waited_le : ∀ j, DebugMcp.waited j h ≤ budget j h
  never : ∀ i, ignored i h = false

/-- No event counts for more than one step. -/
theorem advances_le (ev : EngineEvent) : advances ev ≤ 1 := by
  cases ev with
  | act => exact Nat.zero_le 1
  | env e =>
      rcases e with (_ | _ | _ | _ | _ | _ | _) | _ <;>
        first | exact Nat.le_refl 1 | exact Nat.zero_le 1

/-- How a `go` ignores an interrupt. -/
theorem ignores_cases {i : Nat} {ev : EngineEvent}
    (hi : ignores i ev = true) :
    (∃ job job', ev.pre.pc = .run job .poll
      ∧ ev.post.pc = .run job' .wait) ∨
    ∃ job, ev.pre.pc = .run job (.reply (.ok (.go none)))
      ∧ ev.post.pc = .idle := by
  unfold ignores at hi
  split at hi
  · next job job' hp hp' => exact .inl ⟨job, job', hp, hp'⟩
  · next job hp hp' => exact .inr ⟨job, hp, hp'⟩
  · cases hi

namespace Gains

variable {calls : Nat → WinCall} {w w' : EngineThread}
  {φ : Nat → WinPhase} {h : EngineHistory}

/-- The counts after a step that gains. -/
theorem counted {ev : EngineEvent} (hG : Gains w w' h ev)
    (hpre : ev.pre = w) (hpost : ev.post = w')
    (hcost : w'.pc.cost ≤ commandCost) (hI : Counted w h) :
    Counted w' (ev :: h) where
  overdue i _ := by
    simp only [DebugMcp.overdue]
    split
    · next hi =>
        have := hG.cost i hi
        have := hI.overdue i hi
        omega
    · omega
  waited j hj := by
    simp only [DebugMcp.waited, budget, hpre, hpost]
    split
    · next hd =>
        have := hG.distance j hd hj
        have := hI.waited j hd
        omega
    · omega
  overdue_le i := by
    simp only [DebugMcp.overdue]
    split
    · next hi =>
        have := hG.cost i hi
        have := hI.overdue i hi
        omega
    · omega
  waited_le j := by
    simp only [DebugMcp.waited, budget, hpre]
    split
    · next hd =>
        have := hI.waited j hd
        have := advances_le ev
        unfold EngineThread.distance at *
        omega
    · omega
  never i := by
    rw [ignored, hI.never i, Bool.or_false]
    cases hi : interrupted i h with
    | false => exact Bool.and_false _
    | true => rw [hG.heeds i hi, Bool.false_and]

/-- A call that leaves the command at the thread alone gains nothing and
loses nothing. -/
theorem act {i : Nat} {β : Type} {op : WinOp β} {b : β}
    (hpc : w'.pc = w.pc) (hq : ∀ j, w.detaching j = true →
      ahead j w'.queue = ahead j w.queue) :
    Gains w w' h (.act i op b w w') where
  cost _ _ := by
    rw [hpc]
    exact (Nat.zero_add _).le
  distance j hj _ := by
    unfold EngineThread.distance
    rw [hpc, hq j hj]
    exact (Nat.zero_add _).le
  heeds k _ := by
    refine (Bool.not_eq_true _).mp fun hi => ?_
    have hsame : w.pc = w'.pc := hpc.symm
    rcases ignores_cases hi with ⟨_, _, hp, hp'⟩ | ⟨_, hp, hp'⟩
    · cases hp.symm.trans (hsame.trans hp')
    · cases hp.symm.trans (hsame.trans hp')

/-- The thread takes the next command: there was none at the thread to be
interrupted, and every detach that stays has one less ahead. -/
theorem popped {job : Job} {queue : List Job}
    (hA : Attentive calls w φ h) (hS : ThreadShape calls w φ h)
    (hpc : w.pc = .idle) (hq : w.queue = job :: queue)
    (hw : w' = { w with queue, pc := .run job .entry })
    (e : ThreadMove) : Gains w w' h (.env e w w') := by
  have hnone : ∀ i, interrupted i h ≠ true := by
    intro i hi
    have hi := hA.single i hi
    rw [hpc] at hi
    cases hi
  refine ⟨fun i hi => absurd hi (hnone i), fun j _ hj => ?_,
    fun i hi => absurd hi (hnone i)⟩
  have hadv := advances_le (.env e w w')
  have hj : queue.any (Job.isDetachOf j) = true := by
    rw [hw] at hj
    exact hj
  have hpre : w.distance j
      = ((ahead j queue).length + 1) * (commandCost + 1) + 1 := by
    unfold EngineThread.distance
    rw [hq, ahead_cons (hS.left hq hj), hpc, List.length_cons]
    exact congrArg (· + 1) (Nat.zero_add _)
  have hpost : w'.distance j
      = commandCost + (ahead j queue).length * (commandCost + 1) + 1 := by
    rw [hw]
    rfl
  rw [hpre, hpost, Nat.add_mul]
  omega

/-- The thread panics. -/
theorem die (hA : Attentive calls w φ h) (hpc : w'.pc = .gone)
    (hq : w'.queue = []) : Gains w w' h (.env .die w w') where
  cost i hi := by
    have hi := hA.single i hi
    rw [hpc]
    cases hw : w.pc with
    | run job pc =>
        have hpos : 0 < pc.cost := by
          cases pc <;> exact Nat.succ_pos _
        exact hpos
    | _ =>
        rw [hw] at hi
        cases hi
  distance j _ hj := by
    unfold EngineThread.detaching at hj
    rw [hq] at hj
    cases hj
  heeds i _ := by
    refine (Bool.not_eq_true _).mp fun hi => ?_
    rcases ignores_cases hi with ⟨_, _, _, hp'⟩ | ⟨_, _, hp'⟩
    · cases hpc.symm.trans hp'
    · cases hpc.symm.trans hp'

/-- The command at the thread goes on: when it is watched, at less
cost. -/
theorem executed {job : Job} {pc : EnginePc} {a : EngineAnswer}
    (hA : Attentive calls w φ h) (hS : ThreadShape calls w φ h)
    (hpc : w.pc = .run job pc) (he : w.execute job pc a = some w') :
    Gains w w' h (.env (.step a) w w') := by
  have hq := EngineThread.execute_queue he
  obtain ⟨hfit, -⟩ := hS.fits job pc hpc
  have hsettled : Watched calls w h → job.cmd.isGo = true →
      pc.settled w.flag = true := fun hW => hA.settled hW job pc hpc
  have hcost : Watched calls w h →
      advances (.env (.step a) w w') + w'.pc.cost ≤ w.pc.cost := by
    intro hW
    rw [hpc]
    have hadv := advances_le (.env (.step a) w w')
    cases EngineThread.Executed.ofExecute he with
    | replied r hr ha h' =>
        rw [h', hr]
        exact hadv
    | again ha h' =>
        rw [h', ha]
        exact (Nat.zero_add _).le
    | next pc' hn ha h' =>
        have hlt := hn.cost_lt hfit (hsettled hW)
        rw [h']
        simp only [ThreadPc.cost]
        omega
  refine ⟨fun i hi => hcost (.inr (.inr ⟨i, hi⟩)), fun j hj _ => ?_,
    fun i hi => (Bool.not_eq_true _).mp fun hg => ?_⟩
  · have := hcost (.inr (.inl ⟨j, hj⟩))
    unfold EngineThread.distance
    rw [hq]
    omega
  · have hW : Watched calls w h := .inr (.inr ⟨i, hi⟩)
    have hgo : job.cmd.isGo = true := by
      have hi := hA.single i hi
      rw [hpc] at hi
      exact (Bool.and_eq_true_iff.mp hi).1
    have hs := hsettled hW hgo
    rcases ignores_cases hg with ⟨_, _, hp, hp'⟩ | ⟨_, hp, -⟩
    · cases hpc.symm.trans hp
      cases EngineThread.Executed.ofExecute he with
      | replied r hr ha h' => cases hr
      | again ha h' => cases h'.symm.trans hp'
      | next pc' hn ha h' =>
          cases h'.symm.trans hp'
          cases hn with
          | wait hflag =>
              rw [hflag] at hs
              cases hs
    · cases hpc.symm.trans hp
      cases hs

end Gains

/-- The counts are kept in timely runs. -/
theorem counted (calls : Nat → WinCall) :
    InductiveOver engineMachine WinNext (Timely calls)
      (fun w φ h => ThreadShape calls w φ h ∧ Attentive calls w φ h)
      (fun w _ h => Counted w h) where
  act := by
    intro w w' φ h i β op a b q' hI hJ hr hq hok
    obtain ⟨hS, hA⟩ := hI
    have hcost : ∀ {w'' : EngineThread}, w''.pc = w.pc →
        w''.pc.cost ≤ commandCost := by
      intro w'' hpc
      rw [hpc]
      exact hS.cost_le
    have hquiet : SameThread w w' → Counted w' (.act i op b w w' :: h) :=
      fun hw => (Gains.act hw.1 fun j _ => by rw [hw.2.1]).counted rfl rfl
        (hcost hw.1) hJ
    cases op with
    | interrupt =>
        cases run_interrupt hr
        have hG : Gains w { w with flag := true } h
            (.act i .interrupt b w { w with flag := true }) :=
          .act rfl fun _ _ => rfl
        exact hG.counted rfl rfl (hcost rfl) hJ
    | enqueue cmd =>
        rcases run_enqueue hr with hw | ⟨-, hpc, hqu, -⟩
        · exact hquiet hw
        · refine (Gains.act hpc fun j hj => ?_).counted rfl rfl
            (hcost hpc) hJ
          rw [hqu]
          exact ahead_append _ hj
    | recv cmd => exact hquiet (run_recv hr)
  env := by
    intro w w' φ h e hI hJ he _
    obtain ⟨hS, hA⟩ := hI
    have hcost : w'.pc.cost ≤ commandCost :=
      ((threadShape calls).env hS he trivial).cost_le
    suffices hG : Gains w w' h (.env e w w') from
      hG.counted rfl rfl hcost hJ
    cases e with
    | die =>
        obtain ⟨hpc, hq⟩ := die_eq he
        exact .die hA hpc hq
    | step a =>
        cases EngineThread.threadStep_stepped he with
        | popped job queue hpc hq ha hw => exact .popped hA hS hpc hq hw _
        | executed job pc hpc hex => exact .executed hA hS hpc hex

-- ========================================================== repetitions

section

variable {n : Nat} {h : EngineHistory}

/-- The wait at the end is one of them. -/
theorem WaitsEnd.begunAgain_le (hend : WaitsEnd n h) :
    begunAgain h ≤ n := by
  cases h with
  | nil => exact Nat.zero_le n
  | cons ev h => exact hend.1

/-- A step that does not begin a wait again makes up for `n` that did. -/
theorem steps_cons {ev : EngineEvent} {all part : Nat}
    (hend : WaitsEnd n (ev :: h))
    (hle : all ≤ part * (n + 1) + begunAgain h) :
    all + anyStep ev
      ≤ (part + advances ev) * (n + 1) + begunAgain (ev :: h) := by
  have hn : begunAgain h ≤ n := hend.2.begunAgain_le
  cases ev with
  | act => simpa [anyStep, advances, begunAgain] using hle
  | env e w w' =>
      by_cases hagain : e = .step .resumed
      · subst hagain
        simp only [anyStep, advances, begunAgain, Nat.add_zero]
        omega
      · have hadv : advances (.env e w w') = 1 := by
          unfold advances
          split
          · next heq => cases heq
          · next heq =>
              cases heq
              exact absurd rfl hagain
          · rfl
        rw [hadv, Nat.add_mul, Nat.one_mul]
        simp only [anyStep]
        omega

/-- The repetitions around the steps that an interrupted `go` took. -/
theorem overdueSteps_le (i : Nat) (hend : WaitsEnd n h) :
    overdueSteps i h ≤ overdue i h * (n + 1) + begunAgain h := by
  induction h with
  | nil => exact Nat.zero_le _
  | cons ev h ih =>
      simp only [overdueSteps, overdue]
      split
      · exact steps_cons hend (ih hend.2)
      · exact Nat.zero_le _

/-- And around those that a detach waited for. -/
theorem waitedSteps_le (j : Nat) (hend : WaitsEnd n h) :
    waitedSteps j h ≤ waited j h * (n + 1) + begunAgain h := by
  induction h with
  | nil => exact Nat.zero_le _
  | cons ev h ih =>
      simp only [waitedSteps, waited]
      split
      · exact steps_cons hend (ih hend.2)
      · exact Nat.zero_le _

/-- The repetitions at the end are of one wait. -/
theorem WaitsEnd.all_le {all part bound : Nat} (hend : WaitsEnd n h)
    (hall : all ≤ part * (n + 1) + begunAgain h) (hle : part ≤ bound) :
    all ≤ (bound + 1) * (n + 1) := by
  have hn : begunAgain h ≤ n := hend.begunAgain_le
  have hmul : part * (n + 1) ≤ bound * (n + 1) :=
    Nat.mul_le_mul_right _ hle
  rw [Nat.add_mul, Nat.one_mul]
  omega

end

-- ============================================================== results

/-- A thread that has a command has a step to take. -/
theorem thread_enabled {calls : Nat → WinCall} {w : EngineThread}
    {φ : Nat → WinPhase} {h : EngineHistory}
    (hS : ThreadShape calls w φ h) (hq : w.queue ≠ []) :
    ∃ a w', a ≠ .resumed ∧ w.threadStep a = some w' := by
  cases hp : w.pc with
  | gone => exact absurd (hS.gone hp) hq
  | idle =>
      obtain ⟨job, queue, hq⟩ := List.exists_cons_of_ne_nil hq
      refine ⟨.sync, { w with queue, pc := .run job .entry }, nofun, ?_⟩
      simp only [EngineThread.threadStep, hp, hq]
  | run job pc =>
      obtain ⟨a, w', ha, he⟩ := EngineThread.execute_enabled w job pc
      refine ⟨a, w', ha, ?_⟩
      simpa only [EngineThread.threadStep, hp] using he

section

variable (calls : Nat → WinCall) (target : Debuggee) (isDump : Bool)

/-- A fresh thread has its shape. -/
theorem shape_init : ThreadShape calls (.new target isDump)
    (fun i => (calls i).phase₀) [] where
  gone _ := rfl
  fits _ _ hp := by cases hp
  leaves j b hj := by
    cases hc : calls j <;> rw [hc] at hj <;> cases hj <;> rfl
  flagged j hj := by
    cases hc : calls j <;> rw [hc] at hj <;> cases hj
  once j := by
    show 0 + _ ≤ 1
    split <;> decide

/-- Nothing is watched yet. -/
theorem attentive_init : Attentive calls (.new target isDump)
    (fun i => (calls i).phase₀) [] where
  single _ hi := by cases hi
  settled _ _ _ hp := by cases hp
  queue hne := absurd rfl hne
  ahead _ hj := by cases hj

/-- Nothing has been counted yet. -/
theorem counted_init : Counted (.new target isDump) [] where
  overdue _ hi := by cases hi
  waited _ hj := by cases hj
  overdue_le _ := Nat.zero_le _
  waited_le _ := Nat.le_refl _
  never _ := rfl

end

/-- In every run of timely steps, whatever the calls and their order: an
interrupted `go` neither polls again nor gives up, and the thread takes
at most `commandCost` steps more until it is over; and after at most the
steps that the commands ahead of it cost, a queued detach is reached, to
which the thread always has a next step. Waits that are begun again come
on top of these, and are bounded with them where no wait is for ever. -/
theorem interrupts_observed (calls : Nat → WinCall) (target : Debuggee)
    (isDump : Bool) {h : EngineHistory} {s : Pool WinOp Unit EngineThread}
    (hr : RunIf engineMachine (Timely calls)
      (enginePool calls (.new target isDump)) h s) :
    (∀ i, ignored i h = false ∧ overdue i h ≤ commandCost ∧
      ∀ n, WaitsEnd n h →
        overdueSteps i h ≤ (commandCost + 1) * (n + 1)) ∧
      ∀ j, waited j h ≤ budget j h ∧
        (∀ n, WaitsEnd n h →
          waitedSteps j h ≤ (budget j h + 1) * (n + 1)) ∧
        (s.world.detaching j = true →
          ∃ a w', a ≠ .resumed ∧ s.world.threadStep a = some w') := by
  have hI := (((threadShape calls).mono fun _ _ _ => trivial).over
    (attentive calls)).over (counted calls)
  have hcalls : ∀ i p,
      (enginePool calls (.new target isDump)).prog i = some p →
      Obeys WinNext (fun _ _ => True) p (calls i).phase₀ := by
    intro i p hp
    cases hp
    exact (calls i).obeys
  obtain ⟨φ, ⟨⟨hS, -⟩, hC⟩, -⟩ := hr.invariant hI hcalls
    ⟨⟨shape_init calls target isDump,
      attentive_init calls target isDump⟩, counted_init target isDump⟩
  refine ⟨fun i => ⟨hC.never i, hC.overdue_le i, fun n hend => ?_⟩,
    fun j => ⟨hC.waited_le j, fun n hend => ?_,
      fun hj => thread_enabled hS fun hq => ?_⟩⟩
  · exact hend.all_le (overdueSteps_le i hend) (hC.overdue_le i)
  · exact hend.all_le (waitedSteps_le j hend) (hC.waited_le j)
  · unfold EngineThread.detaching at hj
    rw [hq] at hj
    cases hj

/-- A `continue` and a disconnect. -/
def contAndLeave : Nat → WinCall
  | 0 => .cont 0
  | 1 => .disconnect false
  | _ => .other

/-- A disconnect that comes while the `continue` waits, which begins its
wait again once: the interrupt breaks the target, and the detach is
next. -/
theorem interrupt_in_time : ∃ h s,
    Run engineMachine (enginePool contAndLeave (.new .broken false)) h s ∧
      s.world.pc = .run ⟨1, .detach false⟩ .entry ∧
      ignored 0 h = false ∧ overdue 0 h ≤ commandCost ∧
      waited 1 h ≤ budget 1 h ∧
      waitedSteps 1 h ≤ (budget 1 h + 1) * (1 + 1) := by
  obtain ⟨h, s, hr, hm, hp, hend⟩ := exec_witness engineMachine
    (enginePool contAndLeave (.new .broken false))
    [.step 0 .sync, .env (.step .sync), .env (.step .sync),
      .env (.step .sync), .env (.step .sync), .env (.step .sync),
      .step 1 .sync, .step 1 .sync, .env (.step .resumed),
      .env (.step .timedOut), .env (.step .sync), .env (.step .sync),
      .env (.step .sync), .env (.step (.event (.exited none))),
      .env (.step .sync), .env (.step .sync)]
    (fun h s => Meets (Timely contAndLeave) h ∧
      s.world.pc = .run ⟨1, .detach false⟩ .entry ∧ WaitsEnd 1 h)
    (by decide +kernel)
  have hobs := interrupts_observed contAndLeave .broken false
    (RunIf.ofMeets hr hm)
  exact ⟨h, s, hr, hp, (hobs.1 0).1, (hobs.1 0).2.1, (hobs.2 1).1,
    (hobs.2 1).2.1 1 hend⟩

/-- A disconnect that comes while the `go` of the `continue` is still
queued: `go` resets the flag and polls on, and the detach stays
behind it. -/
theorem interrupt_lost : ∃ h s,
    Run engineMachine (enginePool contAndLeave (.new .broken false)) h s ∧
      ignored 0 h = true ∧ s.world.detaching 1 = true :=
  exec_witness engineMachine
    (enginePool contAndLeave (.new .broken false))
    [.step 0 .sync, .step 1 .sync, .step 1 .sync, .env (.step .sync),
      .env (.step .sync), .env (.step .sync), .env (.step .sync),
      .env (.step .sync)]
    (fun h s => ignored 0 h = true ∧ s.world.detaching 1 = true)
    (by decide +kernel)

end DebugMcp
