/-
The engine thread attends to what is watched.

- `ThreadShape` holds in every run: where a command can be, and that a
  call queues one detach at most.
- `Attentive` holds in timely runs: while a `go` is interrupted, or a
  detach is queued or about to be, the command at the thread will not
  poll again, and no `go` is ahead of the detach.
-/
import DebugMcp.WinDbg.Interrupts

namespace DebugMcp

open Conc

-- =============================================================== shape

/-- How many detaches call `j` has queued, or is still to queue. -/
def detaches (w : EngineThread) (φ : Nat → WinPhase) (j : Nat) : Nat :=
  w.queue.countP (Job.isDetachOf j) + if (φ j).detaches then 1 else 0

/-- Where the thread and the calls can be, in any run. -/
structure ThreadShape (calls : Nat → WinCall) (w : EngineThread)
    (φ : Nat → WinPhase) (h : EngineHistory) : Prop where
  gone : w.pc = .gone → w.queue = []
  fits : ∀ job pc, w.pc = .run job pc →
    pc.fits job.cmd.isGo = true ∧ pc.cost ≤ commandCost
  leaves : ∀ j b, φ j = .start b → b = (calls j).isDisconnect
  flagged : ∀ j, φ j = .flagged → j ∈ leaving calls h
  once : ∀ j, detaches w φ j ≤ 1

namespace ThreadShape

variable {calls : Nat → WinCall} {w w' : EngineThread}
  {φ : Nat → WinPhase} {h : EngineHistory} {ev : EngineEvent}

/-- The thread moves on its own. -/
theorem moved {e : ThreadMove} (hI : ThreadShape calls w φ h)
    (hgone : w'.pc = .gone → w'.queue = [])
    (hfits : ∀ job pc, w'.pc = .run job pc →
      pc.fits job.cmd.isGo = true ∧ pc.cost ≤ commandCost)
    (hq : w'.queue <:+ w.queue) :
    ThreadShape calls w' φ (.env e w w' :: h) where
  gone := hgone
  fits := hfits
  leaves := hI.leaves
  flagged := hI.flagged
  once j := by
    have hle := List.Sublist.countP_le (p := Job.isDetachOf j) hq.sublist
    have hj := hI.once j
    unfold detaches at hj ⊢
    omega

/-- A command executes. -/
theorem executed {job : Job} {pc : EnginePc} {a : EngineAnswer}
    (hI : ThreadShape calls w φ h) (hpc : w.pc = .run job pc)
    (he : w.execute job pc a = some w') :
    ThreadShape calls w' φ (.env (.step a) w w' :: h) := by
  have hq : w'.queue <:+ w.queue :=
    (EngineThread.execute_queue he).symm ▸ List.suffix_refl _
  obtain ⟨hfit, hcost⟩ := hI.fits job pc hpc
  cases EngineThread.Executed.ofExecute he with
  | replied r hr ha h' =>
      refine hI.moved (fun hg => ?_) (fun _ _ hp => ?_) hq
      · rw [h'] at hg
        cases hg
      · rw [h'] at hp
        cases hp
  | again ha h' =>
      refine hI.moved (fun hg => ?_) (fun _ _ hp => ?_) hq
      · rw [h'] at hg
        cases hg
      · rw [h'] at hp
        cases hp
        exact ⟨hfit, hcost⟩
  | next pc' hn ha h' =>
      refine hI.moved (fun hg => ?_) (fun _ _ hp => ?_) hq
      · rw [h'] at hg
        cases hg
      · rw [h'] at hp
        cases hp
        exact ⟨hn.fits hfit, hn.cost_le hcost⟩

/-- A call moves to phase `q'`. -/
theorem act {q' : WinPhase} {i : Nat} (hI : ThreadShape calls w φ h)
    (hpc : w'.pc = w.pc) (hgone : w.pc = .gone → w'.queue = w.queue)
    (hstart : ∀ b, q' ≠ .start b)
    (hflag : ∀ j, Function.update φ i q' j = .flagged →
      j ∈ leaving calls (ev :: h))
    (honce : ∀ j, detaches w' (Function.update φ i q') j
      ≤ detaches w φ j) :
    ThreadShape calls w' (Function.update φ i q') (ev :: h) where
  gone hg := by
    rw [hpc] at hg
    exact (hgone hg).trans (hI.gone hg)
  fits := by
    rw [hpc]
    exact hI.fits
  leaves j b hj := by
    by_cases hij : j = i
    · subst hij
      rw [Function.update_self] at hj
      exact absurd hj (hstart b)
    · rw [Function.update_of_ne hij] at hj
      exact hI.leaves j b hj
  flagged := hflag
  once j := (honce j).trans (hI.once j)

/-- A phase in which no more detaches are to come counts no more. -/
theorem detaches_le {q' : WinPhase} {i : Nat} (hq : w'.queue = w.queue)
    (hd : q'.detaches = true → (φ i).detaches = true) (j : Nat) :
    detaches w' (Function.update φ i q') j ≤ detaches w φ j := by
  unfold detaches
  rw [hq]
  by_cases hij : j = i
  · subst hij
    rw [Function.update_self]
    by_cases hd' : q'.detaches = true
    · rw [if_pos hd', if_pos (hd hd')]
    · rw [if_neg hd']
      omega
  · rw [Function.update_of_ne hij]

/-- A call queues a command; its detach is no longer to come then. -/
theorem detaches_queued {q' : WinPhase} {i : Nat} {cmd : EngineCmd}
    (hq : w'.queue = w.queue ++ [⟨i, cmd⟩])
    (hd : (if cmd.isDetach then 1 else 0)
      + (if q'.detaches then 1 else 0)
      ≤ if (φ i).detaches then 1 else 0) (j : Nat) :
    detaches w' (Function.update φ i q') j ≤ detaches w φ j := by
  unfold detaches
  rw [hq, List.countP_append, List.countP_singleton]
  by_cases hij : j = i
  · subst hij
    have hjob : Job.isDetachOf j ⟨j, cmd⟩ = cmd.isDetach := by
      simp [Job.isDetachOf]
    rw [Function.update_self, hjob]
    omega
  · have hjob : Job.isDetachOf j ⟨i, cmd⟩ = false := by
      simp [Job.isDetachOf, Ne.symm hij]
    rw [Function.update_of_ne hij, hjob]
    simp

/-- No command costs more than at its start. -/
theorem cost_le (hI : ThreadShape calls w φ h) :
    w.pc.cost ≤ commandCost := by
  cases hp : w.pc with
  | run job pc => exact (hI.fits job pc hp).2
  | _ => exact Nat.zero_le _

/-- A detach that is left in the queue is not the one that was taken. -/
theorem left {job : Job} {queue : List Job} {j : Nat}
    (hI : ThreadShape calls w φ h) (hq : w.queue = job :: queue)
    (hj : queue.any (Job.isDetachOf j) = true) :
    job.isDetachOf j = false := by
  refine (Bool.not_eq_true _).mp fun hjob => ?_
  obtain ⟨job', hm, hj'⟩ := List.any_eq_true.mp hj
  have hpos : 0 < queue.countP (Job.isDetachOf j) :=
    List.countP_pos_iff.mpr ⟨job', hm, hj'⟩
  have hone := hI.once j
  unfold detaches at hone
  rw [hq, List.countP_cons_of_pos hjob] at hone
  omega

end ThreadShape

/-- Leaving goes on but for the call that queues a command. -/
theorem mem_leaving_of_ne {calls : Nat → WinCall} {h : EngineHistory}
    {i j : Nat} {β : Type} {op : WinOp β} {b : β} {w w' : EngineThread}
    (hij : j ≠ i) (hj : j ∈ leaving calls h) :
    j ∈ leaving calls (.act i op b w w' :: h) := by
  cases op with
  | interrupt =>
      simp only [leaving]
      split
      · exact List.mem_cons_of_mem _ hj
      · exact hj
  | enqueue cmd =>
      exact List.mem_filter.mpr ⟨hj, decide_eq_true hij⟩
  | recv cmd => exact hj

/-- The shape is kept by every step of every call and of the thread. -/
theorem threadShape (calls : Nat → WinCall) :
    Inductive engineMachine WinNext (fun _ _ => True)
      (ThreadShape calls) where
  act := by
    intro w w' φ h i β op a b q' hI hr hq _
    have hflag : ∀ j, q' ≠ .flagged →
        Function.update φ i q' j = .flagged →
        j ∈ leaving calls (.act i op b w w' :: h) := by
      intro j hne hj
      by_cases hij : j = i
      · subst hij
        rw [Function.update_self] at hj
        exact absurd hj hne
      · rw [Function.update_of_ne hij] at hj
        exact mem_leaving_of_ne hij (hI.flagged j hj)
    generalize hp : φ i = p at hq
    cases hq with
    | enqueue cmd hcmd =>
        rcases run_enqueue hr with ⟨hpc, hqu, -⟩ | ⟨hng, hpc, hqu, -⟩
        · exact hI.act hpc (fun _ => hqu) nofun (hflag · nofun)
            (ThreadShape.detaches_le hqu nofun)
        · refine hI.act hpc (fun hg => absurd hg hng) nofun
            (hflag · nofun) (ThreadShape.detaches_queued hqu ?_)
          rw [hcmd]
          simp [WinPhase.detaches]
    | recv cmd =>
        obtain ⟨hpc, hqu, -⟩ := run_recv hr
        exact hI.act hpc (fun _ => hqu) nofun (hflag · nofun)
          (ThreadShape.detaches_le hqu nofun)
    | interrupt leaves =>
        cases run_interrupt hr
        have hl := hI.leaves i leaves hp
        refine hI.act rfl (fun _ => rfl) (fun b => ?_) (fun j hj => ?_)
          (ThreadShape.detaches_le rfl fun _ => by rw [hp]; rfl)
        · cases leaves <;> nofun
        · cases leaves with
          | false => exact hflag j nofun hj
          | true =>
              by_cases hij : j = i
              · subst hij
                simp only [leaving, ← hl, if_true]
                exact List.mem_cons_self
              · rw [Function.update_of_ne hij] at hj
                exact mem_leaving_of_ne hij (hI.flagged j hj)
    | detach terminate =>
        rcases run_enqueue hr with ⟨hpc, hqu, -⟩ | ⟨hng, hpc, hqu, -⟩
        · exact hI.act hpc (fun _ => hqu) nofun (hflag · nofun)
            (ThreadShape.detaches_le hqu nofun)
        · refine hI.act hpc (fun hg => absurd hg hng) nofun
            (hflag · nofun) (ThreadShape.detaches_queued hqu ?_)
          rw [hp]
          exact Nat.le_refl 1
    | detached cmd =>
        obtain ⟨hpc, hqu, -⟩ := run_recv hr
        exact hI.act hpc (fun _ => hqu) nofun (hflag · nofun)
          (ThreadShape.detaches_le hqu nofun)
  env := by
    intro w w' φ h e hI he _
    cases e with
    | die =>
        have he : w.die = some w' := he
        unfold EngineThread.die at he
        split at he
        · cases he
        · cases he
          exact hI.moved (fun _ => rfl) nofun List.nil_suffix
    | step a =>
        cases EngineThread.threadStep_stepped he with
        | popped job queue hpc hqu ha h' =>
            subst h'
            refine hI.moved nofun (fun _ _ hp => ?_) ?_
            · cases hp
              exact ⟨rfl, le_refl _⟩
            · exact ⟨[job], hqu.symm⟩
        | executed job pc hpc hex => exact hI.executed hpc hex

-- =========================================================== attention

/-- Is there an interrupt to be heeded, or a detach that is queued or
about to be? -/
def Watched (calls : Nat → WinCall) (w : EngineThread)
    (h : EngineHistory) : Prop :=
  leaving calls h ≠ [] ∨ (∃ j, w.detaching j = true)
    ∨ ∃ i, interrupted i h = true

/-- While something is watched, no `go` polls again: the one at the
thread is settled, and none is ahead of a detach. -/
structure Attentive (calls : Nat → WinCall) (w : EngineThread)
    (_ : Nat → WinPhase) (h : EngineHistory) : Prop where
  single : ∀ i, interrupted i h = true →
    w.pc.job?.any (Job.isGoOf i) = true
  settled : Watched calls w h → ∀ job pc, w.pc = .run job pc →
    job.cmd.isGo = true → pc.settled w.flag = true
  queue : leaving calls h ≠ [] → ∀ job ∈ w.queue, job.cmd.isGo = false
  ahead : ∀ j, w.detaching j = true → ∀ job ∈ ahead j w.queue,
    job.cmd.isGo = false

/-- Without a new interrupt, a `go` is interrupted that was so, and that
does not return. -/
theorem interrupted_of_cons {i : Nat} {ev : EngineEvent}
    {h : EngineHistory} (hs : isInterrupt ev = false)
    (hi : interrupted i (ev :: h) = true) :
    interrupted i h = true ∧ goReturns i ev = false := by
  simp only [interrupted, hs, Bool.false_and, Bool.or_false,
    Bool.and_eq_true, Bool.not_eq_true'] at hi
  exact ⟨hi.2, hi.1⟩

/-- What is ahead of a detach stays so when the queue grows. -/
theorem ahead_append {j : Nat} {queue : List Job} (l : List Job)
    (hj : queue.any (Job.isDetachOf j) = true) :
    ahead j (queue ++ l) = ahead j queue := by
  unfold ahead
  rw [List.takeWhile_append, if_neg]
  intro hall
  -- the detach would be among what is ahead of it
  obtain ⟨job, hm, hjob⟩ := List.any_eq_true.mp hj
  rw [← (List.takeWhile_prefix _).eq_of_length hall] at hm
  have hnot := List.all_eq_true.mp List.all_takeWhile job hm
  rw [hjob] at hnot
  cases hnot

/-- A detach that is queued has the queue ahead of it. -/
theorem ahead_queued {j : Nat} {queue : List Job} {job : Job}
    (hj : queue.any (Job.isDetachOf j) = false)
    (hjob : job.isDetachOf j = true) :
    ahead j (queue ++ [job]) = queue := by
  have hnone : ∀ job' ∈ queue, (!job'.isDetachOf j) = true := by
    intro job' hm
    rw [Bool.not_eq_true']
    exact (Bool.not_eq_true _).mp (List.any_eq_false.mp hj job' hm)
  unfold ahead
  rw [List.takeWhile_append_of_pos hnone, List.takeWhile_cons, hjob]
  exact List.append_nil queue

/-- The next command is ahead of every detach but its own. -/
theorem ahead_cons {j : Nat} {queue : List Job} {job : Job}
    (hjob : job.isDetachOf j = false) :
    ahead j (job :: queue) = job :: ahead j queue := by
  unfold ahead
  rw [List.takeWhile_cons, hjob]
  rfl

namespace Attentive

variable {calls : Nat → WinCall} {w w' : EngineThread}
  {φ φ' : Nat → WinPhase} {h : EngineHistory}

/-- A call moves without touching the thread. -/
theorem quiet {i : Nat} {β : Type} {op : WinOp β} {b : β}
    (hI : Attentive calls w φ h) (hw : SameThread w w')
    (hs : isInterrupt (.act i op b w w') = false)
    (hl : leaving calls (.act i op b w w' :: h) ≠ [] →
      leaving calls h ≠ []) :
    Attentive calls w' φ' (.act i op b w w' :: h) := by
  obtain ⟨hpc, hq, hf⟩ := hw
  have hdet : ∀ j, w'.detaching j = w.detaching j := fun j => by
    unfold EngineThread.detaching
    rw [hq]
  have hwatch : Watched calls w' (.act i op b w w' :: h) →
      Watched calls w h := by
    rintro (hne | ⟨j, hj⟩ | ⟨k, hk⟩)
    · exact .inl (hl hne)
    · exact .inr (.inl ⟨j, hdet j ▸ hj⟩)
    · exact .inr (.inr ⟨k, (interrupted_of_cons hs hk).1⟩)
  exact {
    single := fun k hk => by
      rw [hpc]
      exact hI.single k (interrupted_of_cons hs hk).1
    settled := fun hW job pc hp hgo => by
      rw [hpc] at hp
      rw [hf]
      exact hI.settled (hwatch hW) job pc hp hgo
    queue := fun hne job hm => hI.queue (hl hne) job (hq ▸ hm)
    ahead := fun j hj job hm =>
      hI.ahead j (hdet j ▸ hj) job (hq ▸ hm) }

/-- A call queues a command: no `go` while a disconnect leaves, and a
detach only from one. -/
theorem queued {i : Nat} {cmd : EngineCmd}
    {b : Option (Except Unit Unit)} (hI : Attentive calls w φ h)
    (hw : Queued ⟨i, cmd⟩ w w')
    (hgo : cmd.isGo = true → leaving calls h = [])
    (hdet : cmd.isDetach = true → leaving calls h ≠ []) :
    Attentive calls w' φ' (.act i (.enqueue cmd) b w w' :: h) := by
  obtain ⟨hpc, hq, hf⟩ := hw
  have hl : leaving calls (.act i (.enqueue cmd) b w w' :: h) ≠ [] →
      leaving calls h ≠ [] := by
    intro hne he
    refine hne ?_
    show (leaving calls h).filter (· ≠ i) = []
    rw [he]
    rfl
  have hint : ∀ k, interrupted k (.act i (.enqueue cmd) b w w' :: h) =
      true → interrupted k h = true := fun k hk =>
    (interrupted_of_cons rfl hk).1
  -- a detach that is queued was so, or is the one that came
  have hnew : ∀ j, w'.detaching j = true →
      w.detaching j = true ∨ Job.isDetachOf j ⟨i, cmd⟩ = true := by
    intro j hj
    unfold EngineThread.detaching at hj
    rw [hq, List.any_append, Bool.or_eq_true] at hj
    refine hj.imp_right fun hj => ?_
    simpa only [List.any_cons, List.any_nil, Bool.or_false] using hj
  have hcmd : ∀ j, Job.isDetachOf j ⟨i, cmd⟩ = true →
      leaving calls h ≠ [] := fun j hj =>
    hdet (Bool.and_eq_true_iff.mp hj).1
  have hwatch : Watched calls w' (.act i (.enqueue cmd) b w w' :: h) →
      Watched calls w h := by
    rintro (hne | ⟨j, hj⟩ | ⟨k, hk⟩)
    · exact .inl (hl hne)
    · rcases hnew j hj with hj | hj
      · exact .inr (.inl ⟨j, hj⟩)
      · exact .inl (hcmd j hj)
    · exact .inr (.inr ⟨k, hint k hk⟩)
  exact {
    single := fun k hk => by
      rw [hpc]
      exact hI.single k (hint k hk)
    settled := fun hW job pc hp hg => by
      rw [hpc] at hp
      rw [hf]
      exact hI.settled (hwatch hW) job pc hp hg
    queue := fun hne job hm => by
      rw [hq, List.mem_append, List.mem_singleton] at hm
      rcases hm with hm | rfl
      · exact hI.queue (hl hne) job hm
      · exact (Bool.not_eq_true _).mp fun hg => hl hne (hgo hg)
    ahead := fun j hj job hm => by
      rw [hq] at hm
      cases hd : w.detaching j with
      | true =>
          rw [ahead_append _ hd] at hm
          exact hI.ahead j hd job hm
      | false =>
          have hj : Job.isDetachOf j ⟨i, cmd⟩ = true :=
            (hnew j hj).resolve_left fun ht => by
              rw [hd] at ht
              cases ht
          rw [ahead_queued hd hj] at hm
          exact hI.queue (hcmd j hj) job hm }

/-- An interrupt that comes in time settles the `go` at the thread. -/
theorem interrupt {i : Nat} (hI : Attentive calls w φ h)
    (hb : w.blind = false) :
    Attentive calls { w with flag := true } φ'
      (.act i .interrupt () w { w with flag := true } :: h) := by
  rw [EngineThread.blind, Bool.or_eq_false_iff] at hb
  obtain ⟨hqueue, hpc⟩ := hb
  have hnogo : ∀ job ∈ w.queue, job.cmd.isGo = false := fun job hm =>
    (Bool.not_eq_true _).mp (List.any_eq_false.mp hqueue job hm)
  exact {
    single := fun k hk => by
      simp only [interrupted, Bool.and_eq_true, Bool.or_eq_true] at hk
      rcases hk.2 with hk | ⟨-, hk⟩
      · exact hI.single k hk
      · rcases Bool.or_eq_true_iff.mp hk with hk | hk
        · obtain ⟨job, hm, hj⟩ := List.any_eq_true.mp hk
          have := hnogo job hm
          rw [(Bool.and_eq_true_iff.mp hj).1] at this
          cases this
        · exact hk
    settled := fun _ job pc hp hgo => by
      have hp : w.pc = .run job pc := hp
      simp only [hp, hgo, Bool.true_and] at hpc
      exact EnginePc.settled_of_seeing hpc
    queue := fun _ => hnogo
    ahead := hI.ahead }

/-- The thread takes the next command. -/
theorem popped {job : Job} {queue : List Job}
    (hI : Attentive calls w φ h) (hS : ThreadShape calls w φ h)
    (hpc : w.pc = .idle) (hq : w.queue = job :: queue)
    (hw : w' = { w with queue, pc := .run job .entry })
    (e : ThreadMove) : Attentive calls w' φ (.env e w w' :: h) := by
  have hnone : ∀ i, interrupted i (.env e w w' :: h) = true → False := by
    intro i hi
    have hi := hI.single i (interrupted_of_cons rfl hi).1
    rw [hpc] at hi
    cases hi
  subst hw
  have hleft : ∀ j, queue.any (Job.isDetachOf j) = true →
      w.detaching j = true ∧ job.isDetachOf j = false := by
    intro j hj
    refine ⟨?_, hS.left hq hj⟩
    unfold EngineThread.detaching
    rw [hq, List.any_cons, hj, Bool.or_true]
  exact {
    single := fun i hi => (hnone i hi).elim
    settled := fun hW job' pc hp hgo => by
      cases hp
      refine absurd hgo (Bool.not_eq_true _ ▸ ?_)
      rcases hW with hne | ⟨j, hj⟩ | ⟨i, hi⟩
      · exact hI.queue hne job (hq ▸ List.mem_cons_self)
      · obtain ⟨hd, hjob⟩ := hleft j hj
        refine hI.ahead j hd job ?_
        rw [hq, ahead_cons hjob]
        exact List.mem_cons_self
      · exact (hnone i hi).elim
    queue := fun hne job' hm =>
      hI.queue hne job' (hq ▸ List.mem_cons_of_mem _ hm)
    ahead := fun j hj job' hm => by
      obtain ⟨hd, hjob⟩ := hleft j hj
      refine hI.ahead j hd job' ?_
      rw [hq, ahead_cons hjob]
      exact List.mem_cons_of_mem _ hm }

/-- The command at the thread goes on. -/
theorem executed {job : Job} {pc : EnginePc} {a : EngineAnswer}
    (hI : Attentive calls w φ h) (hpc : w.pc = .run job pc)
    (he : w.execute job pc a = some w') :
    Attentive calls w' φ (.env (.step a) w w' :: h) := by
  have hq := EngineThread.execute_queue he
  have hint : ∀ i, interrupted i (.env (.step a) w w' :: h) = true →
      interrupted i h = true := fun i hi => (interrupted_of_cons rfl hi).1
  have hwatch : Watched calls w' (.env (.step a) w w' :: h) →
      Watched calls w h := by
    rintro (hne | ⟨j, hj⟩ | ⟨i, hi⟩)
    · exact .inl hne
    · unfold EngineThread.detaching at hj
      rw [hq] at hj
      exact .inr (.inl ⟨j, hj⟩)
    · exact .inr (.inr ⟨i, hint i hi⟩)
  -- the part that does not depend on where the command is now
  suffices hpart : (∀ i, interrupted i (.env (.step a) w w' :: h) = true →
      w'.pc.job?.any (Job.isGoOf i) = true) ∧
      (Watched calls w h → job.cmd.isGo = true → ∀ pc',
        w'.pc = .run job pc' → pc'.settled w'.flag = true) ∧
      ∀ job' pc', w'.pc = .run job' pc' → job' = job from {
    single := hpart.1
    settled := fun hW job' pc' hp hgo => by
      cases hpart.2.2 job' pc' hp
      exact hpart.2.1 (hwatch hW) hgo pc' hp
    queue := fun hne job' hm => hI.queue hne job' (hq ▸ hm)
    ahead := fun j hj job' hm => by
      unfold EngineThread.detaching at hj
      rw [hq] at hj hm
      exact hI.ahead j hj job' hm }
  have hflag : pc.settled w.flag = true → w'.flag = w.flag := by
    intro hs
    refine (EngineThread.SameQueue.ofExecute ?_ he).2
    rintro rfl
    cases hs
  have hsettled : Watched calls w h → job.cmd.isGo = true →
      pc.settled w.flag = true := fun hW hgo =>
    hI.settled hW job pc hpc hgo
  have hjob : ∀ pc', w'.pc = .run job pc' → ∀ i,
      interrupted i (.env (.step a) w w' :: h) = true →
      w'.pc.job?.any (Job.isGoOf i) = true := by
    intro pc' hp i hi
    have hi := hI.single i (hint i hi)
    rw [hpc] at hi
    rw [hp]
    exact hi
  cases EngineThread.Executed.ofExecute he with
  | replied r hr ha h' =>
      refine ⟨fun i hi => ?_, fun _ _ pc' hp => ?_, fun _ _ hp => ?_⟩
      · obtain ⟨hi, hret⟩ := interrupted_of_cons rfl hi
        have hret : (w.pc.job?.any (Job.isGoOf i)
          && w'.pc.job?.isNone) = false := hret
        rw [hI.single i hi, h'] at hret
        cases hret
      · rw [h'] at hp
        cases hp
      · rw [h'] at hp
        cases hp
  | again ha h' =>
      refine ⟨hjob pc h', fun hW hgo pc' hp => ?_, fun _ _ hp => ?_⟩
      · rw [h'] at hp
        cases hp
        have hs := hsettled hW hgo
        rw [hflag hs]
        exact hs
      · rw [h'] at hp
        cases hp
        rfl
  | next pc' hn ha h' =>
      refine ⟨hjob pc' h', fun hW hgo pc'' hp => ?_, fun _ _ hp => ?_⟩
      · rw [h'] at hp
        cases hp
        have hs := hsettled hW hgo
        rw [hgo] at hn
        rw [hflag hs]
        exact hn.settled hs
      · rw [h'] at hp
        cases hp
        rfl

/-- The thread panics. -/
theorem die (hI : Attentive calls w φ h) (hpc : w'.pc = .gone)
    (hq : w'.queue = []) :
    Attentive calls w' φ (.env .die w w' :: h) where
  single i hi := by
    obtain ⟨hi, hret⟩ := interrupted_of_cons rfl hi
    have hret : (w.pc.job?.any (Job.isGoOf i)
      && w'.pc.job?.isNone) = false := hret
    rw [hI.single i hi, hpc] at hret
    cases hret
  settled _ job pc hp := by
    rw [hpc] at hp
    cases hp
  queue _ job hm := by
    rw [hq] at hm
    cases hm
  ahead j hj := by
    unfold EngineThread.detaching at hj
    rw [hq] at hj
    cases hj

end Attentive

/-- In timely runs, no `go` polls again while something is watched. -/
theorem attentive (calls : Nat → WinCall) :
    InductiveOver engineMachine WinNext (Timely calls)
      (ThreadShape calls) (Attentive calls) where
  act := by
    intro w w' φ h i β op a b q' hS hI hr hq hok
    have hleave : ∀ {β : Type} {op : WinOp β} {b : β},
        leaving calls (.act i op b w w' :: h) ⊆ leaving calls h →
        leaving calls (.act i op b w w' :: h) ≠ [] →
        leaving calls h ≠ [] := fun hsub hne he =>
      hne (List.subset_nil.mp (he ▸ hsub))
    generalize hp : φ i = p at hq
    cases hq with
    | enqueue cmd hcmd =>
        rcases run_enqueue hr with hw | ⟨-, hw⟩
        · exact hI.quiet hw rfl (hleave List.filter_sublist.subset)
        · refine hI.queued hw hok fun hd => ?_
          rw [hcmd] at hd
          cases hd
    | recv cmd => exact hI.quiet (run_recv hr) rfl (hleave fun _ h => h)
    | interrupt leaves =>
        cases run_interrupt hr
        exact hI.interrupt hok
    | detach terminate =>
        rcases run_enqueue hr with hw | ⟨-, hw⟩
        · exact hI.quiet hw rfl (hleave List.filter_sublist.subset)
        · exact hI.queued hw nofun fun _ =>
            List.ne_nil_of_mem (hS.flagged i hp)
    | detached cmd => exact hI.quiet (run_recv hr) rfl (hleave fun _ h => h)
  env := by
    intro w w' φ h e hS hI he _
    cases e with
    | die =>
        obtain ⟨hpc, hq⟩ := die_eq he
        exact hI.die hpc hq
    | step a =>
        cases EngineThread.threadStep_stepped he with
        | popped job queue hpc hq ha hw => exact hI.popped hS hpc hq hw _
        | executed job pc hpc hex => exact hI.executed hpc hex

end DebugMcp
