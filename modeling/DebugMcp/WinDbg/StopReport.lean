/-
A stop report, and what the callbacks have recorded before.

The callbacks write to cells that no operation clears, and a stop is
built from them. So a cell holds what the newest event that writes to it
wrote (`Recorded`), which need not be the event that ended the
operation. `stop_honest_iff` says for which histories of events a report
is about its own stop.
-/
import DebugMcp.WinDbg.Wait

namespace DebugMcp

-- ========================================================== operations

/-- What is done to an engine: a launch or an attach and its wait, a
change of its breakpoints, and the operations that report a stop. -/
inductive EngineOp
  | connect (w : Wait)
  | setConditions (conditions : AList fun _ : UInt32 => String)
  | go (start : Except String Unit) (polls : List Poll) (flag : Bool)
      (interrupt : Except String Unit) (rounds : List Round)
  | step (kind : StepKind) (start : Except String Unit) (w : Wait)
  | breakIn (interrupt : Except String Unit) (rounds : List Round)

namespace Engine

/-- An operation begins: nothing has ended it yet. -/
def begin (e : Engine) : Engine :=
  { e with trace := { e.trace with ended := none, paused := false } }

end Engine

/-- The operation; a launch's report is not looked at. -/
def EngineOp.run (op : EngineOp) (e : Engine) :
    Except EngineError (Option StopOutcome) × Engine :=
  match op with
  | connect w =>
      (.ok none,
        (Engine.waitForEvent w { e.begin with breakpointConditions := ∅ }).2)
  | setConditions breakpointConditions =>
      (.ok none, { e with breakpointConditions })
  | go start polls flag interrupt rounds =>
      e.begin.go start polls flag interrupt rounds
  | step kind start w =>
      let out := e.begin.step kind start w
      (out.1.map some, out.2)
  | breakIn interrupt rounds =>
      let out := e.begin.breakIn interrupt rounds
      (out.1.map some, out.2)

/-- The engine after the operations. -/
def Engine.after (e : Engine) (ops : List EngineOp) : Engine :=
  ops.foldl (fun e op => (op.run e).2) e

-- =========================================================== statement

/-- The breakpoint an event is a hit of. -/
def DebugEvent.breakpointId? : DebugEvent → Option UInt32
  | breakpoint id _ => some id
  | _ => none

/-- A report that is about its own stop: the breakpoint it lists was hit
by the event that ended the operation, and a reason that a callback has
recorded is that event's. -/
structure HonestStop (info : StopInfo) (t : Trace) : Prop where
  ids : ∀ id ∈ info.hitBreakpointIds, ∃ ev i, t.ended = some ev ∧
    ev.breakpointId? = some i ∧ id = i.toNat
  reason : ∀ ev ∈ t.told, ev.reason? = some info.reason →
    ∃ ended, t.ended = some ended ∧ ended.reason? = some info.reason

/-- A history after which the cells are about the stop: it is a hit of a
breakpoint; or none has been hit yet, and the stop has a reason of its
own, or there is none to report. -/
def Trace.Fresh (t : Trace) : Prop :=
  (∃ ev i, t.ended = some ev ∧ ev.breakpointId? = some i) ∨
    (∀ ev ∈ t.told, ev.breakpointId? = none) ∧
      (t.paused = true ∨
        (∃ ev reason, t.ended = some ev ∧ ev.reason? = some reason) ∨
        ∀ ev ∈ t.told, ev.reason? = none)

-- =========================================================== recording

namespace Engine

/-- The cells hold what the newest events that write to them wrote. -/
structure Recorded (e : Engine) : Prop where
  id : e.callbacks.lastBreakpointId
    = e.trace.told.findSome? DebugEvent.breakpointId?
  reason : e.callbacks.lastStopReason
    = (e.trace.told.findSome? DebugEvent.reason?).getD ""

/-- The event that ended the wait, if one did, is the newest. -/
def Ended (e : Engine) : Prop :=
  ∀ ev, e.trace.ended = some ev → e.trace.told.head? = some ev

variable {e : Engine}

/-- Nothing is recorded at first. -/
theorem Recorded.new : Engine.new.Recorded := ⟨rfl, rfl⟩

/-- The callbacks record what they are told. -/
theorem Recorded.tell (h : e.Recorded) (ev : DebugEvent) :
    (e.tell ev).Recorded := by
  obtain ⟨hid, hreason⟩ := h
  cases ev with
  | breakpoint id offset => exact ⟨rfl, rfl⟩
  | exception _ _ _ => exact ⟨hid, rfl⟩
  | exitProcess _ => exact ⟨hid, rfl⟩
  | other => exact ⟨hid, hreason⟩

/-- All of it, in order. -/
theorem Recorded.foldl_tell (h : e.Recorded) (evs : List DebugEvent) :
    (evs.foldl Engine.tell e).Recorded := by
  induction evs generalizing e with
  | nil => exact h
  | cons ev evs ih => exact ih (h.tell ev)

/-- What else happens leaves the cells alone. -/
theorem Recorded.congr {e' : Engine} (h : e.Recorded)
    (hc : e'.callbacks = e.callbacks) (ht : e'.trace.told = e.trace.told) :
    e'.Recorded := by
  obtain ⟨hid, hreason⟩ := h
  rw [← hc, ← ht] at hid hreason
  exact ⟨hid, hreason⟩

-- =============================================================== waits

/-- What every wait keeps, and what it reports: a stop built from the
cells when an event has ended it. -/
structure Waited (e : Engine) (out : Except EngineError WaitResult × Engine) :
    Prop where
  recorded : out.2.Recorded
  ended : out.2.Ended
  paused : out.2.trace.paused = e.trace.paused
  built : ∀ o, out.1 = .ok (.event o) →
    (∃ ev, out.2.trace.ended = some ev) ∧
      ∃ status threadId, o = out.2.buildStopOutcome status threadId

/-- A wait that no event ends. -/
theorem Waited.noEvent {e' : Engine} {r : Except EngineError WaitResult}
    (h : e'.Recorded) (hp : e'.trace.paused = e.trace.paused)
    (hr : ∀ o, r ≠ .ok (.event o)) : Waited e (r, e'.endWait none) :=
  ⟨h.congr rfl rfl, nofun, hp, fun o ho => absurd ho (hr o)⟩

@[simp] theorem foldl_tell_paused (evs : List DebugEvent) :
    (evs.foldl tell e).trace.paused = e.trace.paused := by
  induction evs generalizing e with
  | nil => rfl
  | cons ev evs ih => exact ih

theorem waitSlices_waited (slices : List Slice) :
    ∀ {e : Engine}, e.Recorded → Waited e (waitSlices slices e) := by
  induction slices with
  | nil => exact fun h => .noEvent h rfl nofun
  | cons slice rest ih =>
      intro e h
      have hpaused := foldl_tell_paused (e := e) slice.passed
      have hrec := h.foldl_tell slice.passed
      unfold waitSlices
      generalize slice.passed.foldl tell e = e₁ at hpaused hrec ⊢
      cases hf : slice.finish with
      | timedOut => exact .noEvent hrec hpaused nofun
      | failed detail => exact .noEvent hrec hpaused nofun
      | event ev info =>
          have hrec' := hrec.tell ev
          have goesOn {e₂ : Engine} (hr : e₂.Recorded)
              (hp : e₂.trace.paused = e₁.trace.paused) :
              Waited e (waitSlices rest e₂) := by
            obtain ⟨hrec, hended, hp', hbuilt⟩ := ih hr
            exact ⟨hrec, hended, (hp'.trans hp).trans hpaused, hbuilt⟩
          dsimp only
          cases info.status with
          | error detail => exact .noEvent hrec' hpaused nofun
          | ok status =>
              dsimp only
              split_ifs
              · exact goesOn hrec' rfl
              · cases info.resume with
                | error detail => exact .noEvent hrec' hpaused nofun
                | ok _ => exact goesOn (hrec'.congr rfl rfl) rfl
              · refine ⟨hrec'.congr rfl rfl, ?_, hpaused, ?_⟩
                · intro ev' hev
                  cases hev
                  rfl
                · intro o ho
                  cases ho
                  exact ⟨⟨ev, rfl⟩, status, info.threadId, rfl⟩

/-- A call of `wait_for_event` is a wait. -/
theorem waitForEvent_waited (w : Wait) (h : e.Recorded) :
    Waited e (waitForEvent w e) := by
  unfold waitForEvent
  cases w.query with
  | some detail => exact .noEvent h rfl nofun
  | none => exact waitSlices_waited w.slices h

-- ========================================================== operations

/-- What an operation reports: a stop built from the cells, relabelled
in the break loop, and otherwise ended by an event. -/
def Built (e : Engine) (o : StopOutcome) : Prop :=
  ∃ status threadId,
    (e.trace.paused = true ∧
      o = DebugMcp.paused (e.buildStopOutcome status threadId)) ∨
    (e.trace.paused = false ∧ (∃ ev, e.trace.ended = some ev) ∧
      o = e.buildStopOutcome status threadId)

/-- What every operation keeps, and what it reports. -/
structure Operated {α : Type} (report : α → Option StopOutcome)
    (out : Except EngineError α × Engine) : Prop where
  recorded : out.2.Recorded
  ended : out.2.Ended
  built : ∀ r o, out.1 = .ok r → report r = some o → out.2.Built o

theorem breakRounds_operated (rounds : List Round) :
    ∀ {e : Engine}, e.Recorded → e.Ended → e.trace.paused = true →
      Operated some (breakRounds rounds e) := by
  induction rounds with
  | nil => exact fun hr he _ => ⟨hr, he, nofun⟩
  | cons round rest ih =>
      intro e hr he hp
      have hw := waitForEvent_waited round.wait hr
      unfold breakRounds
      generalize waitForEvent round.wait e = out at hw ⊢
      obtain ⟨r, e₁⟩ := out
      obtain ⟨hrec, hended, hpaused, hbuilt⟩ := hw
      have hp₁ : e₁.trace.paused = true := hpaused.trans hp
      cases r with
      | error err => exact ⟨hrec, hended, nofun⟩
      | ok r =>
          cases r with
          | event o =>
              refine ⟨hrec, hended, ?_⟩
              rintro _ o' ⟨⟩ ⟨⟩
              obtain ⟨-, status, threadId, ho⟩ := hbuilt o rfl
              exact ⟨status, threadId, .inl ⟨hp₁, congrArg _ ho⟩⟩
          | timedOut =>
              dsimp only
              cases round.status with
              | error detail => exact ⟨hrec, hended, nofun⟩
              | ok status =>
                  dsimp only
                  split_ifs
                  · refine ⟨hrec, hended, ?_⟩
                    rintro _ o' ⟨⟩ ⟨⟩
                    exact ⟨status, round.threadId, .inl ⟨hp₁, rfl⟩⟩
                  · cases round.interrupt with
                    | error detail => exact ⟨hrec, hended, nofun⟩
                    | ok _ => exact ih hrec hended hp₁

theorem breakLoop_operated (interrupt : Except String Unit)
    (rounds : List Round) (hr : e.Recorded) (he : e.Ended) :
    Operated some (breakLoop interrupt rounds e) := by
  unfold breakLoop
  cases interrupt with
  | error detail => exact ⟨hr.congr rfl rfl, he, nofun⟩
  | ok _ => exact breakRounds_operated _ (hr.congr rfl rfl) he rfl

theorem goLoop_operated (polls : List Poll) :
    ∀ {e : Engine}, e.Recorded → e.Ended → e.trace.paused = false →
      Operated id (goLoop polls e) := by
  induction polls with
  | nil => exact fun hr he _ => ⟨hr, he, by rintro _ _ ⟨⟩ ⟨⟩⟩
  | cons poll rest ih =>
      intro e hr he hp
      have hw := waitForEvent_waited poll.wait hr
      unfold goLoop
      split_ifs
      · exact ⟨hr, he, by rintro _ _ ⟨⟩ ⟨⟩⟩
      · generalize waitForEvent poll.wait e = out at hw ⊢
        obtain ⟨r, e₁⟩ := out
        obtain ⟨hrec, hended, hpaused, hbuilt⟩ := hw
        have hp₁ : e₁.trace.paused = false := hpaused.trans hp
        cases r with
        | error err => exact ⟨hrec, hended, nofun⟩
        | ok r =>
            cases r with
            | timedOut => exact ih hrec hended hp₁
            | event o =>
                refine ⟨hrec, hended, ?_⟩
                rintro _ o' ⟨⟩ ⟨⟩
                obtain ⟨hev, status, threadId, ho⟩ := hbuilt o rfl
                exact ⟨status, threadId, .inr ⟨hp₁, hev, ho⟩⟩

/-- An operation that has not begun to wait. -/
theorem Operated.refused {α : Type} {report : α → Option StopOutcome}
    {err : EngineError} (hr : e.Recorded) (he : e.Ended) :
    Operated report (.error err, e) := ⟨hr, he, nofun⟩

theorem go_operated (start : Except String Unit) (polls : List Poll)
    (flag : Bool) (interrupt : Except String Unit) (rounds : List Round)
    (hr : e.Recorded) (he : e.Ended) (hp : e.trace.paused = false) :
    Operated id (e.go start polls flag interrupt rounds) := by
  unfold go
  by_cases hd : e.isDump = true
  · rw [if_pos hd]
    exact .refused hr he
  rw [if_neg hd]
  cases start with
  | error detail => exact .refused hr he
  | ok _ =>
      have hl := @goLoop_operated polls (e.resumeWith (.status .go))
        (hr.congr rfl rfl) he hp
      dsimp only
      generalize goLoop polls (e.resumeWith (.status .go)) = out at hl ⊢
      obtain ⟨r, e₁⟩ := out
      obtain ⟨hrec, hended, hbuilt⟩ := hl
      rcases r with err | (_ | o)
      · exact .refused hrec hended
      · cases flag with
        | false => exact ⟨hrec, hended, by rintro _ _ ⟨⟩ ⟨⟩⟩
        | true =>
            have hb := breakLoop_operated interrupt rounds hrec hended
            dsimp only at hb ⊢
            rw [if_pos rfl]
            generalize breakLoop interrupt rounds e₁ = out at hb ⊢
            obtain ⟨r, e₂⟩ := out
            obtain ⟨hrec, hended, hbuilt⟩ := hb
            cases r with
            | error err => exact .refused hrec hended
            | ok o =>
                refine ⟨hrec, hended, ?_⟩
                rintro _ o' ⟨⟩ ⟨⟩
                exact hbuilt o o rfl rfl
      · exact ⟨hrec, hended, hbuilt⟩

theorem step_operated (kind : StepKind) (start : Except String Unit)
    (w : Wait) (hr : e.Recorded) (he : e.Ended)
    (hp : e.trace.paused = false) :
    Operated some (e.step kind start w) := by
  unfold step
  split_ifs
  · exact .refused hr he
  · cases start with
    | error detail => exact .refused hr he
    | ok _ =>
        have hw := @waitForEvent_waited (e.resumeWith kind.resumption) w
          (hr.congr rfl rfl)
        dsimp only
        generalize waitForEvent w (e.resumeWith kind.resumption) = out
          at hw ⊢
        obtain ⟨r, e₁⟩ := out
        obtain ⟨hrec, hended, hpaused, hbuilt⟩ := hw
        cases r with
        | error err => exact .refused hrec hended
        | ok r =>
            cases r with
            | timedOut => exact .refused hrec hended
            | event o =>
                refine ⟨hrec, hended, ?_⟩
                rintro _ o' ⟨⟩ ⟨⟩
                obtain ⟨hev, status, threadId, ho⟩ := hbuilt o rfl
                exact ⟨status, threadId, .inr ⟨hpaused.trans hp, hev, ho⟩⟩

theorem breakIn_operated (interrupt : Except String Unit)
    (rounds : List Round) (hr : e.Recorded) (he : e.Ended) :
    Operated some (e.breakIn interrupt rounds) := by
  unfold breakIn
  split_ifs
  · exact .refused hr he
  · exact breakLoop_operated interrupt rounds hr he

/-- The result of an operation that always has an outcome. -/
theorem Operated.some {out : Except EngineError StopOutcome × Engine}
    (h : Operated Option.some out) :
    Operated id (out.1.map Option.some, out.2) := by
  obtain ⟨r, e₁⟩ := out
  obtain ⟨hrec, hended, hbuilt⟩ := h
  cases r with
  | error err => exact .refused hrec hended
  | ok o =>
      refine ⟨hrec, hended, ?_⟩
      rintro _ o' ⟨⟩ ⟨⟩
      exact hbuilt o o rfl rfl

end Engine

/-- Every operation keeps the cells, and reports a stop built from
them. -/
theorem EngineOp.run_operated (op : EngineOp) {e : Engine}
    (hr : e.Recorded) (he : e.Ended) :
    Engine.Operated id (op.run e) := by
  have hb : e.begin.Recorded := hr.congr rfl rfl
  cases op with
  | connect w =>
      have hw := @Engine.waitForEvent_waited
        { e.begin with breakpointConditions := ∅ } w (hb.congr rfl rfl)
      exact ⟨hw.recorded, hw.ended, by rintro _ _ ⟨⟩ ⟨⟩⟩
  | setConditions conditions =>
      exact ⟨hr.congr rfl rfl, he, by rintro _ _ ⟨⟩ ⟨⟩⟩
  | go start polls flag interrupt rounds =>
      exact Engine.go_operated start polls flag interrupt rounds hb
        nofun rfl
  | step kind start w =>
      exact (Engine.step_operated kind start w hb nofun rfl).some
  | breakIn interrupt rounds =>
      exact (Engine.breakIn_operated interrupt rounds hb nofun).some

/-- So does every run of them. -/
theorem Engine.after_recorded (ops : List EngineOp) :
    ∀ {e : Engine}, e.Recorded → e.Ended →
      (e.after ops).Recorded ∧ (e.after ops).Ended := by
  induction ops with
  | nil => exact fun hr he => ⟨hr, he⟩
  | cons op ops ih =>
      intro e hr he
      obtain ⟨hr', he', -⟩ := op.run_operated hr he
      exact ih hr' he'

-- ============================================================= reports

/-- Texts that begin differently differ. -/
theorem append_ne_of_head {s t u : String} {c d : Char}
    (hs : s.toList.head? = some c) (hu : u.toList.head? = some d)
    (hne : c ≠ d) : s ++ t ≠ u := by
  rintro rfl
  rw [String.toList_append, List.head?_append, hs] at hu
  exact hne (Option.some.inj hu)

/-- No callback records the reason of the break loop. -/
theorem DebugEvent.reason_ne_paused (ev : DebugEvent) :
    ev.reason? ≠ some "Execution paused" := by
  intro h
  cases ev with
  | breakpoint id offset =>
      simp only [reason?, String.append_assoc] at h
      exact append_ne_of_head rfl rfl (by decide) (Option.some.inj h)
  | exception firstChance code address =>
      simp only [reason?, String.append_assoc] at h
      cases firstChance with
      | true => exact append_ne_of_head rfl rfl (by decide) (Option.some.inj h)
      | false =>
          exact append_ne_of_head rfl rfl (by decide) (Option.some.inj h)
  | exitProcess code =>
      exact append_ne_of_head rfl rfl (by decide) (Option.some.inj h)
  | other => cases h

/-- A hit records its reason. -/
theorem DebugEvent.reason_of_hit {ev : DebugEvent} {i : UInt32}
    (h : ev.breakpointId? = some i) :
    ∃ reason, ev.reason? = some reason := by
  cases ev with
  | breakpoint id offset => exact ⟨_, rfl⟩
  | exception _ _ _ => cases h
  | exitProcess _ => cases h
  | other => cases h

namespace Engine

/-- A stop that is built from the cells lists the newest hit, and gives
the newest reason unless it is relabelled. -/
theorem Built.stopped {e : Engine} {info : StopInfo}
    (h : e.Built (.stopped info)) :
    info.hitBreakpointIds = (e.callbacks.lastBreakpointId.map fun id =>
        [(id.toNat : Int)]).getD [] ∧
      (e.trace.paused = true ∧ info.reason = "Execution paused" ∨
        e.trace.paused = false ∧ (∃ ev, e.trace.ended = some ev) ∧
          info.reason = e.callbacks.lastStopReason) := by
  obtain ⟨status, threadId, ⟨hp, ho⟩ | ⟨hp, hev, ho⟩⟩ := h
  · unfold buildStopOutcome at ho
    split_ifs at ho
    · cases ho
    · cases ho
      exact ⟨rfl, .inl ⟨hp, rfl⟩⟩
  · unfold buildStopOutcome at ho
    split_ifs at ho
    cases ho
    exact ⟨rfl, .inr ⟨hp, hev, rfl⟩⟩

variable {e : Engine}

/-- After a hit, the cells are the hit's. -/
theorem Recorded.of_hit (hr : e.Recorded) (he : e.Ended) {ev : DebugEvent}
    {i : UInt32} (hev : e.trace.ended = some ev)
    (hi : ev.breakpointId? = some i) :
    e.callbacks.lastBreakpointId = some i := by
  obtain ⟨told, ht⟩ := List.head?_eq_some_iff.mp (he ev hev)
  rw [hr.id, ht, List.findSome?_cons, hi]

/-- After an event with a reason, the reason is that. -/
theorem Recorded.of_reason (hr : e.Recorded) (he : e.Ended)
    {ev : DebugEvent} {reason : String} (hev : e.trace.ended = some ev)
    (hreason : ev.reason? = some reason) :
    e.callbacks.lastStopReason = reason := by
  obtain ⟨told, ht⟩ := List.head?_eq_some_iff.mp (he ev hev)
  rw [hr.reason, ht, List.findSome?_cons, hreason]
  rfl

/-- Which reports are about their own stop. -/
theorem honest_iff {info : StopInfo} (hr : e.Recorded) (he : e.Ended)
    (h : e.Built (.stopped info)) :
    HonestStop info e.trace ↔ e.trace.Fresh := by
  obtain ⟨hids, hreason⟩ := h.stopped
  constructor
  · rintro ⟨ids, reason⟩
    by_cases hhit : ∃ ev i, e.trace.ended = some ev ∧
        ev.breakpointId? = some i
    · exact .inl hhit
    refine .inr ⟨?_, ?_⟩
    · -- a breakpoint in the cell is listed
      cases hb : e.callbacks.lastBreakpointId with
      | none =>
          rw [hr.id] at hb
          exact List.findSome?_eq_none_iff.mp hb
      | some j =>
          rw [hb] at hids
          obtain ⟨ev, i, hev, hi, -⟩ := ids j.toNat (by simp [hids])
          exact absurd ⟨ev, i, hev, hi⟩ hhit
    · obtain ⟨hp, -⟩ | ⟨-, -, hlast⟩ := hreason
      · exact .inl hp
      cases hf : e.trace.told.findSome? DebugEvent.reason? with
      | none => exact .inr (.inr (List.findSome?_eq_none_iff.mp hf))
      | some r =>
          -- the reason in the cell is that of an event of the past
          rw [hr.reason, hf] at hlast
          obtain ⟨ev, hmem, hev⟩ := List.exists_of_findSome?_eq_some hf
          obtain ⟨ended, hended, hreason⟩ :=
            reason ev hmem (hev.trans (congrArg some hlast.symm))
          exact .inr (.inl ⟨ended, info.reason, hended, hreason⟩)
  · intro hfresh
    constructor
    · intro id hid
      rw [hids] at hid
      cases hb : e.callbacks.lastBreakpointId with
      | none => simp [hb] at hid
      | some j =>
          obtain ⟨ev, i, hev, hi⟩ | ⟨hno, -⟩ := hfresh
          · rw [hr.of_hit he hev hi] at hb hid
            exact ⟨ev, i, hev, hi, by simpa using hid⟩
          · rw [hr.id, List.findSome?_eq_none_iff.mpr hno] at hb
            cases hb
    · intro ev hmem hev
      obtain ⟨-, hp⟩ | ⟨hp, ⟨ended, hended⟩, hlast⟩ := hreason
      · rw [hp] at hev
        exact absurd hev ev.reason_ne_paused
      have own {reason : String} (h : ended.reason? = some reason) :
          ended.reason? = some info.reason := by
        rw [hlast, hr.of_reason he hended h, h]
      refine ⟨ended, hended, ?_⟩
      obtain ⟨ev', i, hev', hi⟩ | ⟨-, hp' | ⟨ev', reason, hev', hr'⟩ | hno⟩ :=
        hfresh
      · obtain rfl : ev' = ended := Option.some.inj (hev'.symm.trans hended)
        obtain ⟨reason, hr'⟩ := ev'.reason_of_hit hi
        exact own hr'
      · rw [hp] at hp'
        cases hp'
      · obtain rfl : ev' = ended := Option.some.inj (hev'.symm.trans hended)
        exact own hr'
      · rw [hno ev hmem] at hev
        cases hev

end Engine

/-- After any operations, a stop that an operation reports is about its
own stop exactly when the history is fresh for it. -/
theorem stop_honest_iff (ops : List EngineOp) (op : EngineOp)
    (info : StopInfo)
    (h : (op.run (Engine.new.after ops)).1 = .ok (some (.stopped info))) :
    HonestStop info (op.run (Engine.new.after ops)).2.trace ↔
      (op.run (Engine.new.after ops)).2.trace.Fresh := by
  obtain ⟨hr, he⟩ := Engine.after_recorded ops .new nofun
  obtain ⟨hr', he', hbuilt⟩ := op.run_operated hr he
  exact Engine.honest_iff hr' he' (hbuilt _ _ h rfl)

/-- A wait for one event. -/
def waitFor (ev : DebugEvent) : Wait :=
  ⟨none, [⟨[], .event ev (.healthy .broke 0)⟩]⟩

/-- A launch, which stops at the loader's breakpoint. -/
def launched : EngineOp :=
  .connect (waitFor (.exception true 0x80000003 0x7FF0))

/-- A `go` that an event ends. -/
def goTo (ev : DebugEvent) : EngineOp :=
  .go (.ok ()) [⟨false, false, waitFor ev⟩] false (.ok ()) []

/-- A hit after the launch is reported as what it is. -/
theorem hit_honest :
    HonestStop ⟨"Breakpoint 1 hit at 0x1000", 7, "", [1]⟩
      ((goTo (.breakpoint 1 0x1000)).run
        (Engine.new.after [launched])).2.trace :=
  (stop_honest_iff [launched] (goTo (.breakpoint 1 0x1000)) _
    (by decide +kernel)).mpr
    (.inl ⟨.breakpoint 1 0x1000, 1, by decide +kernel, rfl⟩)

/-- A step that completes after a hit is reported as a hit. -/
theorem step_reports_old_hit :
    ((EngineOp.step .over (.ok ()) (waitFor .other)).run
        (Engine.new.after [launched, goTo (.breakpoint 1 0x1000)])).1
      = .ok (some (.stopped ⟨"Breakpoint 1 hit at 0x1000", 7, "", [1]⟩)) ∧
    ¬ HonestStop ⟨"Breakpoint 1 hit at 0x1000", 7, "", [1]⟩
      ((EngineOp.step .over (.ok ()) (waitFor .other)).run
        (Engine.new.after
          [launched, goTo (.breakpoint 1 0x1000)])).2.trace := by
  refine ⟨by decide +kernel, fun h => ?_⟩
  obtain ⟨ev, i, hev, hi, -⟩ := h.ids 1 (by decide)
  cases hev
  cases hi

end DebugMcp
