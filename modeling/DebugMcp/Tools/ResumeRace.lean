/-
A resume that races a disconnect.

A resume handler touches the session in several lock sections with an
await between them. Its writes after the await are guarded by the
generation snapshotted before it, but four are not: `set_state(Running)`
itself, the revert to `Stopped` on a backend error, `set_last_stopped`
(a section of its own after the guarded write), and the output drain.

# Result

A step of a resume handler is *late* when a reset has passed the epoch
in which the handler's guard succeeded. `late_step_frame`: in every run
whose late resume steps take none of the four unguarded branches (and
whose generation counter has not come full circle in between), a late
step changes nothing of the session. The invariant is that a handler
past `set_state(Running)` holds the generation of its guard's epoch:
nothing else orders the snapshot and the reset.

`late_err_clobbers` replays the run in which the revert goes wrong.
-/
import DebugMcp.Tools.History

namespace DebugMcp

open Conc

-- ============================================================= lateness

/-- Is the call one of the four resume tools? -/
def Call.isResume : Call → Bool
  | .continue _ | .stepOver _ | .stepInto _ | .stepOut _ => true
  | _ => false

/-- The writes of a resume handler that no generation guards; a drain
counts only when there is something to drain. -/
def unguardedWrite : ToolEvent → Bool
  | .act _ (.inl (.setState _)) _ _ _ => true
  | .act _ (.inl (.setLastStopped _)) _ _ _ => true
  | .act _ (.inl .drainOutput) _ w _ => !w.session.output.isClear
  | _ => false

/-- A step of a resume handler past its own epoch takes no unguarded
branch, within one turn of the generation counter. -/
def LateStepsGuarded (calls : Nat → Call) (h : History)
    (ev : ToolEvent) : Prop :=
  ∀ i ∈ ev.who, (calls i).isResume = true → ∀ e ∈ guardEpoch i h,
    e < epoch h → unguardedWrite ev = false ∧ epoch h - e < 2 ^ 64

instance (calls : Nat → Call) (h : History) (ev : ToolEvent) :
    Decidable (LateStepsGuarded calls h ev) :=
  inferInstanceAs (Decidable (∀ i ∈ ev.who, (calls i).isResume = true →
    ∀ e ∈ guardEpoch i h, e < epoch h →
      unguardedWrite ev = false ∧ epoch h - e < 2 ^ 64))

-- ======================================================= the invariant

/-- What holds of call `i` in its phase: a snapshot is of an epoch
between the guard's and now, and of the guard's own epoch once the state
was set running. -/
def SnapshotInv (g₀ : UInt64) (i : Nat) (h : History) : Phase → Prop
  | .res .guarded => ∃ e, guardEpoch i h = some e ∧ e ≤ epoch h
  | .res (.snapped g) => ∃ e e', guardEpoch i h = some e ∧ e ≤ e' ∧
      e' ≤ epoch h ∧ GenOf g₀ g e'
  | .res (.running g) | .res (.stopped g _) | .res (.exited g)
  | .res (.terminated g) =>
      ∃ e, guardEpoch i h = some e ∧ e ≤ epoch h ∧ GenOf g₀ g e
  | _ => True

/-- Is the phase a resume handler's? -/
def Phase.isRes : Phase → Bool
  | .res _ => true
  | _ => false

/-- The generation follows the epoch, and every resume handler's
snapshot is in order. -/
structure ResumeInv (calls : Nat → Call) (g₀ : UInt64) (w : ToolServer)
    (φ : Nat → Phase) (h : History) : Prop where
  generation : GenOf g₀ w.session.inner.generation (epoch h)
  resume : ∀ i, (φ i).isRes = (calls i).isResume
  snapshot : ∀ i, SnapshotInv g₀ i h (φ i)

/-- Another event leaves a call's snapshot in order. -/
theorem SnapshotInv.cons {g₀ : UInt64} {i : Nat} {h : History}
    {q : Phase} {ev : ToolEvent} (hs : SnapshotInv g₀ i h q)
    (hev : guardEpoch i (ev :: h) = guardEpoch i h) :
    SnapshotInv g₀ i (ev :: h) q := by
  have hle := epoch_le_cons ev h
  cases q with
  | res q =>
      cases q with
      | guarded =>
          obtain ⟨e, he, hee⟩ := hs
          exact ⟨e, hev.trans he, hee.trans hle⟩
      | snapped g =>
          obtain ⟨e, e', he, hee, hee', hg⟩ := hs
          exact ⟨e, e', hev.trans he, hee, hee'.trans hle, hg⟩
      | running g | stopped g info | exited g | terminated g =>
          obtain ⟨e, he, hee, hg⟩ := hs
          exact ⟨e, hev.trans he, hee.trans hle, hg⟩
      | _ => trivial
  | _ => trivial

/-- A resume handler's own step keeps its snapshot in order: the only
branch that could break it is a late `set_state(Running)`. -/
theorem SnapshotInv.step {calls : Nat → Call} {g₀ : UInt64} {i : Nat}
    {h : History} {q q' : ResPhase} {w w' : ToolServer} {β : Type}
    {op : ToolOp β} {a : Answer} {b : β}
    (hi : (calls i).isResume = true)
    (hgen : GenOf g₀ w.session.inner.generation (epoch h))
    (hs : SnapshotInv g₀ i h (.res q)) (hq : ResNext q op b q')
    (hr : w.run op a = some (b, w'))
    (hok : LateStepsGuarded calls h (.act i op b w w')) :
    SnapshotInv g₀ i (.act i op b w w' :: h) (.res q') := by
  cases hq with
  | guardOk =>
      exact ⟨epoch h, if_pos ⟨rfl, rfl⟩, epoch_le_cons _ _⟩
  | isDump d | lastStopped info | current b =>
      exact hs.cons (guardEpoch_cons_quiet h rfl)
  | snapshot g =>
      obtain ⟨e, he, hee⟩ := hs
      cases hr
      exact ⟨e, epoch h, (guardEpoch_cons_quiet h rfl).trans he, hee,
        epoch_le_cons _ _, hgen⟩
  | run g =>
      obtain ⟨e, e', he, hee, hee', hg⟩ := hs
      have heq : e = epoch h := by
        rcases Nat.lt_or_ge e (epoch h) with hlt | hge
        · cases (hok i rfl hi e he hlt).1
        · omega
      have : e' = e := by omega
      subst this
      exact ⟨e', (guardEpoch_cons_quiet h rfl).trans he,
        hee'.trans (epoch_le_cons _ _), hg⟩
  | stop g op hop info | exit g op hop code | terminate g op hop =>
      obtain ⟨e, he, hee, hg⟩ := hs
      have hquiet : ∀ x, passesGuard
          (.act i (.inr op) x w w') = false := fun _ => rfl
      exact ⟨e, (guardEpoch_cons_quiet h (hquiet _)).trans he,
        hee.trans (epoch_le_cons _ _), hg⟩
  | _ => trivial

/-- The phase kind of a call never changes. -/
theorem ToolNext.isRes {β : Type} {q q' : Phase} {op : ToolOp β} {b : β}
    (hq : ToolNext q op b q') : q'.isRes = q.isRes := by
  cases hq <;> rfl

theorem resumeInv_inductive (calls : Nat → Call) (g₀ : UInt64) :
    Inductive toolMachine ToolNext (LateStepsGuarded calls)
      (ResumeInv calls g₀) where
  act := by
    intro w w' φ h i β op a b q' hI hr hq hok
    refine ⟨generation_step hI.generation hr, fun j => ?_, fun j => ?_⟩
    · by_cases hij : j = i
      · subst hij
        rw [Function.update_self, hq.isRes]
        exact hI.resume j
      · rw [Function.update_of_ne hij]
        exact hI.resume j
    · by_cases hij : j = i
      · subst hij
        rw [Function.update_self]
        have hs := hI.snapshot j
        have hres := hI.resume j
        cases hq' : φ j with
        | res p =>
            rw [hq'] at hq hs hres
            cases hq with
            | res hn => exact hs.step hres.symm hI.generation hn hr hok
        | _ =>
            rw [hq'] at hq
            cases hq <;> trivial
      · rw [Function.update_of_ne hij]
        exact (hI.snapshot j).cons (guardEpoch_cons_other h
          fun hc => hij (Option.some.inj hc).symm)
  env := by
    intro w w' φ h e hI he hok
    exact ⟨generation_env hI.generation he, hI.resume, fun j =>
      (hI.snapshot j).cons (guardEpoch_cons_other h nofun)⟩

-- =========================================================== the results

/-- One late step of a resume handler in order. -/
private theorem late_step {calls : Nat → Call} {g₀ : UInt64} {i e : Nat}
    {h : History} {q q' : ResPhase} {w w' : ToolServer} {β : Type}
    {op : ToolOp β} {a : Answer} {b : β}
    (hi : (calls i).isResume = true)
    (hgen : GenOf g₀ w.session.inner.generation (epoch h))
    (hs : SnapshotInv g₀ i h (.res q)) (hq : ResNext q op b q')
    (hr : w.run op a = some (b, w'))
    (hok : LateStepsGuarded calls h (.act i op b w w'))
    (he : guardEpoch i h = some e) (hlate : e < epoch h) :
    w'.session = w.session := by
  obtain ⟨hun, hturn⟩ := hok i rfl hi e he hlate
  -- A snapshot of the guard's epoch is not the current generation.
  have hstale : ∀ {g}, (∃ e, guardEpoch i h = some e ∧ e ≤ epoch h ∧
      GenOf g₀ g e) → w.session.inner.generation ≠ g := by
    rintro g ⟨e', he', -, hg⟩
    have : e' = e := Option.some.inj (he'.symm.trans he)
    subst this
    exact hg.ne hgen hlate hturn
  cases hq with
  | guardOk | guardErr | isDump | lastStopped | snapshot =>
      rw [(ToolServer.run_inl hr).2]
      rfl
  | current | cancelled | err | stop | exit | terminate =>
      exact ToolServer.run_inr hr
  | run | revert | cache => cases hun
  | applied g info | skipped g info | terminateWrite g =>
      rw [(ToolServer.run_inl hr).2]
      exact congrArg Prod.snd
        (w.session.setStateIfGeneration_of_ne _ (hstale hs))
  | exitWrite g code =>
      rw [(ToolServer.run_inl hr).2]
      exact congrArg Prod.snd
        (w.session.terminateIfGeneration_of_ne _ (hstale hs))
  | drain es =>
      rw [(ToolServer.run_inl hr).2]
      exact congrArg Prod.snd
        (w.session.drainOutput_of_isClear
          (Bool.not_eq_eq_eq_not.mp hun))

/-- In a run whose late resume steps are guarded, once a reset has
passed the epoch of a resume handler's guard, no step of that handler
changes anything of the session. -/
theorem late_step_frame (host : Host) (calls : Nat → Call)
    (w₀ : ToolServer) {h : History} {ev : ToolEvent}
    {s : Pool ToolOp ToolOutcome ToolServer} {i e : Nat}
    (hr : ToolRunIf host calls w₀ (LateStepsGuarded calls) (ev :: h) s)
    (hi : (calls i).isResume = true) (hwho : ev.who = some i)
    (he : guardEpoch i h = some e) (hlate : e < epoch h) :
    ev.post.session = ev.pre.session := by
  obtain ⟨φ, w, β, op, a, b, q', rfl, hrun, hq, hI, hok⟩ :=
    toolRun_last (resumeInv_inductive calls w₀.session.inner.generation)
      ⟨GenOf.zero _, fun j => by cases calls j <;> rfl,
        fun j => by cases calls j <;> trivial⟩ hr hwho
  have hres := (hI.resume i).trans hi
  have hsnap := hI.snapshot i
  cases hφ : φ i with
  | res p =>
      rw [hφ] at hq hsnap
      cases hq with
      | res hn =>
          exact late_step hi hI.generation hsnap hn hrun hok he hlate
  | _ =>
      rw [hφ] at hres
      cases hres

-- =========================================================== two runs

/-- An attach, a `continue` and a `disconnect`. -/
def raceCalls : Nat → Call
  | 0 => .attach ⟨[("pid", .num 7)]⟩
  | 1 => .continue ⟨[]⟩
  | _ => .disconnect ⟨[]⟩

/-- The `continue` blocks in its backend call, the disconnect runs to
its end, the call answers `r`, and the `continue` takes one more
step. -/
def raceSteps (r : Except BackendError StopOutcome) :
    List (Action Answer EnvMove) :=
  attachSteps 0 ++ sync 1 6 ++ sync 2 8
    ++ [.step 1 (.stop (some r)), .step 1 .sync]

/-- The last event is a late step of the `continue`. -/
def LastLate (h : History) : Prop :=
  ∃ ev ∈ h.head?, ev.who = some 1 ∧ guardEpoch 1 h.tail = some 0 ∧
    0 < epoch h.tail

instance (h : History) : Decidable (LastLate h) :=
  inferInstanceAs (Decidable (∃ ev ∈ h.head?, ev.who = some 1 ∧
    guardEpoch 1 h.tail = some 0 ∧ 0 < epoch h.tail))

/-- A backend call that answers late with the end of the session: the
guarded write is skipped and the session stays as the disconnect left
it. -/
theorem late_terminated_frame :
    ∃ h ev s, ToolRun lldbHost raceCalls .new (ev :: h) s ∧
      ev.who = some 1 ∧ ev.post.session = ev.pre.session := by
  obtain ⟨h, s, hr, hm, ev, hev, hwho, hg, he⟩ :=
    exec_witness toolMachine (callPool lldbHost raceCalls .new)
      (raceSteps (.ok .terminated))
      (fun h _ => Meets (LateStepsGuarded raceCalls) h ∧ LastLate h)
      (by decide +kernel)
  obtain ⟨h', rfl⟩ : ∃ h', h = ev :: h' :=
    ⟨h.tail, (List.cons_head?_tail hev).symm⟩
  exact ⟨h', ev, s, hr, hwho,
    late_step_frame _ _ _ (.ofMeets hr hm) rfl hwho hg he⟩

/-- A backend call that answers late with an error: the revert to
`Stopped` lands in the session the disconnect left idle. -/
theorem late_err_clobbers :
    ∃ h ev s, ToolRun lldbHost raceCalls .new (ev :: h) s ∧
      (raceCalls 1).isResume = true ∧ ev.who = some 1 ∧
      guardEpoch 1 h = some 0 ∧ 0 < epoch h ∧
      ev.pre.session.inner.state = .idle ∧
      ev.post.session.inner.state = .stopped := by
  obtain ⟨h, s, hr, ⟨ev, hev, hwho, hg, he⟩, hstates⟩ :=
    exec_witness toolMachine (callPool lldbHost raceCalls .new)
      (raceSteps (.error .closed))
      (fun h _ => LastLate h ∧ ∀ ev ∈ h.head?,
        ev.pre.session.inner.state = .idle ∧
        ev.post.session.inner.state = .stopped)
      (by decide +kernel)
  obtain ⟨h', rfl⟩ : ∃ h', h = ev :: h' :=
    ⟨h.tail, (List.cons_head?_tail hev).symm⟩
  exact ⟨h', ev, s, hr, rfl, hwho, hg, he, hstates ev rfl⟩

end DebugMcp
