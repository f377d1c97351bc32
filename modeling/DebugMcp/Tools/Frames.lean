/-
Which thread's frame a frame id is of.

A frame id depends on the thread and the frame's index, and the frame
table does not say which thread it was filled for. Here an observer of a
run does (`Seen`): it keeps the thread of the last stop, the threads
whose backtrace was asked for since, the thread of the last stack the
backend answered, and whether that was after the last stop.

# Result

`frame_ids_of_fetched_stack`: a frame index is always resolved to a frame
of the thread whose stack was answered last, and if that was after the
last stop, the thread is the stopped one or one whose backtrace was asked
for. If it was before, the table is used as it is: `frame_of_earlier_stop`
is the run in which the thread stopped now is another one.
-/
import DebugMcp.Lib.Alone
import DebugMcp.Tools.History
import DebugMcp.Tools.Inspection

namespace DebugMcp

open Conc

/-- An event of a run with inspection tools. -/
abbrev InspectEvent := Event AnyOp EnvMove ToolServer

/-- A call of such a run, when it is sequential. -/
abbrev InspectDone :=
  Conc.Finished AnyOp EnvMove ToolServer ToolOutcome InspectCall

-- ============================================================= observer

/-- What an observer keeps of a run. -/
structure Seen where
  /-- The thread of the last stop. -/
  stop : Option Int
  /-- The threads whose backtrace was asked for since. -/
  requested : List Int
  /-- The thread of the last stack answered. -/
  table : Option Int
  /-- Was it answered after the last stop? -/
  fresh : Bool
  deriving DecidableEq

namespace Seen

/-- Of a session that has just been opened, or reset. -/
def new : Seen := ⟨none, [], none, false⟩

/-- A stop of thread `t`. -/
def stops (g : Seen) (t : Int) : Seen :=
  { g with stop := some t, requested := [], fresh := false }

/-- A stack of thread `t` asked for, by a `backtrace` or not. -/
def asks (g : Seen) (backtrace : Bool) (t : Int) : Seen :=
  if backtrace then { g with requested := t :: g.requested } else g

/-- The answer to it. -/
def answered {α : Type} (g : Seen) (t : Int) :
    Except BackendError α → Seen
  | .ok _ => { g with table := some t, fresh := true }
  | .error _ => g

section

variable (g : Seen) (backtrace : Bool)

/-- After an operation of a call. -/
def op : {β : Type} → AnyOp β → β → Seen
  | _, .inl (.inl (.setLastStopped info)), _ => g.stops info.threadId
  | _, .inl (.inl .resetInner), _ => new
  | _, .inr (.stackTrace _ t _ _), r => (g.asks backtrace t).answered t r
  | _, _, _ => g

/-- After an event of a call. -/
def event : InspectEvent → Seen
  | .act _ o b _ _ => g.op backtrace o b
  | .env _ _ _ => g

/-- After the events of a call. -/
def past : List InspectEvent → Seen
  | [] => g
  | ev :: h => (past h).event backtrace ev

end

/-- Is `t` the stopped thread, or one whose backtrace was asked for since
it stopped? Where no stop is recorded the tools take thread 1. -/
def Current (g : Seen) (t : Int) : Prop :=
  t = g.stop.getD 1 ∨ t ∈ g.requested

instance (g : Seen) : DecidablePred g.Current :=
  fun _ => inferInstanceAs (Decidable (_ ∨ _))

end Seen

/-- What was seen of a sequential run. -/
def seen : List InspectDone → Seen
  | [] => .new
  | f :: fs => (seen fs).past f.call.isBacktrace f.hist

/-- The frame id an event passes to the backend. -/
def passed : InspectEvent → Option Int
  | .act _ (.inr (.scopes _ frameId)) _ _ _ => some frameId
  | .act _ (.inr (.evaluate _ _ frameId _)) _ _ _ => frameId
  | _ => none

-- ================================================================= runs

section

variable (frameId : Int → Int → Int)

/-- A backend answers every stack with the ids `frameId` gives its
frames: they depend on the thread and on the index. -/
def StepsSteady : InspectEvent → Prop
  | .act _ (.inr (.stackTrace _ t _ _)) (.ok (frames, _)) _ _ =>
      ∀ f ∈ frames, f.id = frameId t f.index
  | _ => True

/-- The runs with such a backend. -/
abbrev Steady (_ : List InspectEvent) (ev : InspectEvent) : Prop :=
  StepsSteady frameId ev

/-- The sequential runs of all the tools with such a backend. -/
abbrev InspectTrace (host : Host) (toLowercase : String → String) :
    List InspectDone → ToolServer → Prop :=
  SeqTrace inspectMachine (Steady frameId)
    (InspectCall.prog host toLowercase) ToolServer.new

/-- The id of frame `i` of the thread whose stack was answered last. -/
def FrameOf (g : Seen) (i id : Int) : Prop :=
  ∃ t, g.table = some t ∧ id = frameId t i

/-- The id is of the frame the call names, of the thread whose stack was
answered last; and that thread is current, if it was answered after the
last stop. -/
def Fetched (c : InspectCall) (g : Seen) (id : Int) : Prop :=
  ∃ i t, c.frameIndex = some i ∧ g.table = some t ∧ id = frameId t i ∧
    (g.fresh = true → g.Current t)

end

-- ============================================================== observed

namespace Seen

variable {g : Seen} {backtrace : Bool} {t : Int}

theorem asks_stop : (g.asks backtrace t).stop = g.stop := by
  cases backtrace <;> rfl

theorem asks_table : (g.asks backtrace t).table = g.table := by
  cases backtrace <;> rfl

theorem asks_fresh : (g.asks backtrace t).fresh = g.fresh := by
  cases backtrace <;> rfl

/-- A thread stays current while stacks are asked for. -/
theorem Current.asks {u : Int} (h : g.Current u) :
    (g.asks backtrace t).Current u := by
  cases backtrace with
  | false => exact h
  | true => exact h.imp id (List.mem_cons_of_mem t)

/-- A thread whose backtrace is asked for is current. -/
theorem current_asks : (g.asks true t).Current t :=
  .inr List.mem_cons_self

end Seen

-- ============================================================ invariant

section

variable {frameId : Int → Int → Int} {g : Seen} {last : Option StopInfo}
  {mapping : FrameMapping} {backtrace : Bool}

/-- What the observer knows of the last stop, and of the thread of the
last stack. -/
structure KnowsStop (g : Seen) (last : Option StopInfo) : Prop where
  stop : last.map StopInfo.threadId = g.stop
  fresh : g.fresh = true → ∀ t, g.table = some t → g.Current t

/-- The frame table has ids of that thread only. -/
def KnowsTable (frameId : Int → Int → Int) (g : Seen)
    (mapping : FrameMapping) : Prop :=
  ∀ i id, mapping.lookup i = some id → FrameOf frameId g i id

/-- The thread the tools take by themselves is the stopped one. -/
theorem KnowsStop.default (h : KnowsStop g last) :
    (last.map StopInfo.threadId).getD 1 = g.stop.getD 1 := by
  rw [h.stop]

theorem knowsStop_new : KnowsStop .new none :=
  ⟨rfl, fun h => (by cases h)⟩

theorem knowsTable_empty : KnowsTable frameId g ∅ :=
  fun _ _ h => (by cases h)

/-- A stop that is recorded is the last one. -/
theorem knowsStop_stops (info : StopInfo) :
    KnowsStop (g.stops info.threadId) (some info) :=
  ⟨rfl, fun h => (by cases h)⟩

/-- Asking for a stack changes neither. -/
theorem KnowsStop.asks (h : KnowsStop g last) (t : Int) :
    KnowsStop (g.asks backtrace t) last where
  stop := h.stop.trans Seen.asks_stop.symm
  fresh hf u hu := by
    rw [Seen.asks_fresh] at hf
    rw [Seen.asks_table] at hu
    exact (h.fresh hf u hu).asks

/-- A stack is asked for of the stopped thread, or by a `backtrace`; so
its thread is current. -/
theorem KnowsStop.answered (h : KnowsStop g last) {t : Int}
    (ht : backtrace = true ∨ t = g.stop.getD 1) {α : Type} (r : α) :
    KnowsStop ((g.asks backtrace t).answered t (.ok r)) last where
  stop := h.stop.trans Seen.asks_stop.symm
  fresh _ u hu := by
    cases hu
    have hcur : (g.asks backtrace t).Current t := by
      rcases ht with rfl | ht
      · exact Seen.current_asks
      · exact Seen.Current.asks (.inl ht)
    exact hcur

/-- A lock section of the session. -/
theorem knows_session {β : Type} (op : SessionOp β) (b : β)
    (s : SessionManager) (hs : KnowsStop g s.inner.lastStopped)
    (ht : KnowsTable frameId g s.inner.frameMapping) :
    KnowsStop (g.op backtrace (.inl (.inl op)) b)
        (op.run s).2.inner.lastStopped ∧
      KnowsTable frameId (g.op backtrace (.inl (.inl op)) b)
        (op.run s).2.inner.frameMapping := by
  cases op with
  | setLastStopped info => exact ⟨knowsStop_stops info, ht⟩
  | resetInner => exact ⟨knowsStop_new, knowsTable_empty⟩
  | setStateIfGeneration g st =>
      simp only [SessionOp.run, SessionManager.setStateIfGeneration]
      split <;> exact ⟨hs, ht⟩
  | terminateIfGeneration g code =>
      simp only [SessionOp.run, SessionManager.terminateIfGeneration]
      split <;> exact ⟨hs, ht⟩
  | removeBreakpointById id =>
      simp only [SessionOp.run, SessionManager.removeBreakpointById]
      split
      · exact ⟨hs, ht⟩
      · split <;> exact ⟨hs, ht⟩
  | _ => exact ⟨hs, ht⟩

/-- The table of a stack has the ids of its frames. -/
theorem frameMappingOf_lookup {frames : List Frame} {i id : Int}
    (h : (frameMappingOf frames).lookup i = some id) :
    ∃ f ∈ frames, f.index = i ∧ f.id = id := by
  have hfold : ∀ (frames : List Frame) (m : FrameMapping),
      (frames.foldl (fun m f => m.insert f.index f.id) m).lookup i
        = some id →
      m.lookup i = some id ∨ ∃ f ∈ frames, f.index = i ∧ f.id = id := by
    intro frames
    induction frames with
    | nil => exact fun m h => .inl h
    | cons f frames ih =>
        intro m h
        rcases ih _ h with h | ⟨f', hf', hi⟩
        · by_cases hfi : f.index = i
          · subst hfi
            rw [AList.lookup_insert] at h
            exact .inr ⟨f, List.mem_cons_self, rfl, Option.some.inj h⟩
          · rw [AList.lookup_insert_ne fun e => hfi e.symm] at h
            exact .inl h
        · exact .inr ⟨f', List.mem_cons_of_mem _ hf', hi⟩
  rcases hfold frames ∅ h with h | h
  · cases h
  · exact h

end

-- ============================================================= one call

section

variable (frameId : Int → Int → Int) (g₀ : Seen) (c : InspectCall)

/-- What was seen when the events `h` of the call had happened. -/
def Seen.now (h : List InspectEvent) : Seen := g₀.past c.isBacktrace h

/-- Every frame id the call has passed was of the stack answered
last. -/
def PassedFetched : List InspectEvent → Prop
  | [] => True
  | ev :: h => PassedFetched h ∧
      ∀ id, passed ev = some id → Fetched frameId c (g₀.now c h) id

/-- An event that passes none adds none. -/
theorem PassedFetched.cons {frameId : Int → Int → Int} {g₀ : Seen}
    {c : InspectCall} {h : List InspectEvent} {ev : InspectEvent}
    (hp : PassedFetched frameId g₀ c h) (hev : passed ev = none) :
    PassedFetched frameId g₀ c (ev :: h) :=
  ⟨hp, fun _ hid => (by rw [hev] at hid; cases hid)⟩

/-- A pump changes nothing of this. -/
theorem frames_env {w w' : ToolServer} {e : EnvMove}
    (he : w.envMove e = some w') :
    w'.session.inner.lastStopped = w.session.inner.lastStopped ∧
      w'.session.inner.frameMapping = w.session.inner.frameMapping := by
  cases delivers_env he <;> exact ⟨rfl, rfl⟩

/-- Between two operations of a call. -/
structure Observed (w : ToolServer) (h : List InspectEvent) : Prop where
  knowsStop : KnowsStop (g₀.now c h) w.session.inner.lastStopped
  knowsTable :
    KnowsTable frameId (g₀.now c h) w.session.inner.frameMapping
  passed : PassedFetched frameId g₀ c h

/-- Between the answer of a stack and the table it fills. -/
structure Filling (frames : List Frame) (w : ToolServer)
    (h : List InspectEvent) : Prop where
  knowsStop : KnowsStop (g₀.now c h) w.session.inner.lastStopped
  frames : ∀ f ∈ frames, FrameOf frameId (g₀.now c h) f.index f.id
  passed : PassedFetched frameId g₀ c h

/-- A frame id that is about to be passed. -/
structure Ready (i id : Int) (w : ToolServer) (h : List InspectEvent) :
    Prop where
  observed : Observed frameId g₀ c w h
  frameOf : FrameOf frameId (g₀.now c h) i id

/-- What a frame lookup leaves. -/
def Looked (i : Int) (r : Except String Int) :
    Assertion AnyOp EnvMove ToolServer :=
  fun w h => Observed frameId g₀ c w h ∧
    ∀ id, r = .ok id → FrameOf frameId (g₀.now c h) i id

end

section

variable {frameId : Int → Int → Int} {g₀ : Seen} {c : InspectCall}
  {w w' : ToolServer} {h : List InspectEvent} {α : Type}

theorem observed_stable :
    Stable inspectMachine (Steady frameId) (Observed frameId g₀ c) := by
  intro w w' h e hw he _
  have hkeep := frames_env he
  exact ⟨hkeep.1 ▸ hw.knowsStop, hkeep.2 ▸ hw.knowsTable,
    hw.passed.cons rfl⟩

theorem filling_stable (frames : List Frame) :
    Stable inspectMachine (Steady frameId)
      (Filling frameId g₀ c frames) := by
  intro w w' h e hw he _
  have hkeep := frames_env he
  exact ⟨hkeep.1 ▸ hw.knowsStop, hw.frames, hw.passed.cons rfl⟩

/-- An operation of the other tools. -/
theorem observed_tool {β : Type} (op : ToolOp β) (b : β) :
    Leads inspectMachine (Steady frameId) (Observed frameId g₀ c) (.inl op) b
      (Observed frameId g₀ c) := by
  intro a w w' h hw hr _
  have hr : w.run op a.toAnswer = some (b, w') := hr
  refine ⟨?_, ?_, hw.passed.cons rfl⟩
  · cases op with
    | inl op =>
        rw [(ToolServer.run_inl hr).2]
        exact (knows_session op b _ hw.knowsStop hw.knowsTable).1
    | inr op =>
        rw [ToolServer.run_inr hr]
        exact hw.knowsStop
  · cases op with
    | inl op =>
        rw [(ToolServer.run_inl hr).2]
        exact (knows_session op b _ hw.knowsStop hw.knowsTable).2
    | inr op =>
        rw [ToolServer.run_inr hr]
        exact hw.knowsTable

/-- A part the other tools have too. -/
theorem observed_shared (p : ToolProg α) :
    Ensures inspectMachine (Steady frameId)
      (fun _ => Observed frameId g₀ c) (shared p)
      (Observed frameId g₀ c) := by
  induction p with
  | ret a => exact fun _ _ hw => hw
  | act op k ih =>
      exact fun b => ⟨_, observed_stable, observed_tool op b, ih b⟩

/-- What the answer of a stack leaves. -/
def Answered (frameId : Int → Int → Int) (g₀ : Seen) (c : InspectCall) :
    Except BackendError (List Frame × Int) →
      Assertion AnyOp EnvMove ToolServer
  | .ok (frames, _) => Filling frameId g₀ c frames
  | .error _ => Observed frameId g₀ c

theorem answered_stable (r : Except BackendError (List Frame × Int)) :
    Stable inspectMachine (Steady frameId) (Answered frameId g₀ c r) := by
  cases r with
  | ok r => exact filling_stable r.1
  | error e => exact observed_stable

/-- A stack asked for by a `backtrace`, or of the stopped thread. -/
theorem observed_asks {P : Assertion AnyOp EnvMove ToolServer}
    {b : BackendId} {t start levels : Int}
    (hP : ∀ w h, P w h → Observed frameId g₀ c w h ∧
      (c.isBacktrace = true ∨ t = (g₀.now c h).stop.getD 1))
    (r : Except BackendError (List Frame × Int)) :
    Leads inspectMachine (Steady frameId) P
      (.inr (.stackTrace b t start levels)) r
      (Answered frameId g₀ c r) := by
  intro a w w' h hw hr hok
  obtain ⟨hobs, ht⟩ := hP w h hw
  have hr : a.stackTrace?.map (·, w) = some (r, w') := hr
  obtain ⟨r', -, heq⟩ := Option.map_eq_some_iff.mp hr
  cases heq
  cases r with
  | ok r =>
      obtain ⟨frames, total⟩ := r
      exact {
        knowsStop := hobs.knowsStop.answered ht (frames, total)
        frames := fun f hf => ⟨t, rfl, hok f hf⟩
        passed := hobs.passed.cons rfl }
  | error e =>
      exact {
        knowsStop := hobs.knowsStop.asks t
        knowsTable := fun i id hid => by
          obtain ⟨u, hu, hf⟩ := hobs.knowsTable i id hid
          exact ⟨u, Seen.asks_table.trans hu, hf⟩
        passed := hobs.passed.cons rfl }

/-- The table is filled with a stack. -/
theorem filling_fills (frames : List Frame) (u : Unit) :
    Leads inspectMachine (Steady frameId) (Filling frameId g₀ c frames)
      (.inr (.setFrameMapping (frameMappingOf frames))) u
      (fun w h => Observed frameId g₀ c w h ∧
        KnowsTable frameId (g₀.now c h) (frameMappingOf frames)) := by
  intro a w w' h hw hr _
  cases hr
  have htable :
      KnowsTable frameId (g₀.now c h) (frameMappingOf frames) := by
    intro i id hid
    obtain ⟨f, hf, rfl, rfl⟩ := frameMappingOf_lookup hid
    exact hw.frames f hf
  exact ⟨⟨hw.knowsStop, htable, hw.passed.cons rfl⟩, htable⟩

theorem filled_stable (mapping : FrameMapping) :
    Stable inspectMachine (Steady frameId) (fun w h =>
      Observed frameId g₀ c w h ∧
        KnowsTable frameId (g₀.now c h) mapping) :=
  fun _ _ _ _ hw he hok => ⟨observed_stable hw.1 he hok, hw.2⟩

/-- A frame id that was looked up is passed. -/
theorem Ready.passes {i id : Int} (hw : Ready frameId g₀ c i id w h)
    (hi : c.frameIndex = some i) {ev : InspectEvent}
    (hnow : g₀.now c (ev :: h) = g₀.now c h)
    (hev : passed ev = some id) : Observed frameId g₀ c w (ev :: h) := by
  obtain ⟨⟨hstop, htable, hpassed⟩, t, ht, hid⟩ := hw
  refine ⟨hnow ▸ hstop, hnow ▸ htable, hpassed, fun id' hid' => ?_⟩
  cases hev.symm.trans hid'
  exact ⟨i, t, hi, ht, hid, fun hf => hstop.fresh hf t ht⟩

theorem ready_scopes {i id : Int} (hi : c.frameIndex = some i)
    {b : BackendId} (r : Except BackendError (List Scope)) :
    Leads inspectMachine (Steady frameId) (Ready frameId g₀ c i id)
      (.inr (.scopes b id)) r (Observed frameId g₀ c) := by
  intro a w w' h hw hr _
  have hr : a.scopes?.map (·, w) = some (r, w') := hr
  obtain ⟨r', -, heq⟩ := Option.map_eq_some_iff.mp hr
  cases heq
  exact hw.passes hi rfl rfl

theorem ready_evaluate {i id : Int} (hi : c.frameIndex = some i)
    {b : BackendId} {expr : String} {mode : EvalMode}
    (r : Except BackendError EvalResult) :
    Leads inspectMachine (Steady frameId) (Ready frameId g₀ c i id)
      (.inr (.evaluate b expr (some id) mode)) r (Observed frameId g₀ c) := by
  intro a w w' h hw hr _
  have hr : a.evaluate?.map (·, w) = some (r, w') := hr
  obtain ⟨r', -, heq⟩ := Option.map_eq_some_iff.mp hr
  cases heq
  exact hw.passes hi rfl rfl

theorem observed_fetch {b : BackendId} (f : VariableFetcher) :
    Leads inspectMachine (Steady frameId) (Observed frameId g₀ c)
      (.inr (.fetch b)) f (Observed frameId g₀ c) := by
  intro a w w' h hw hr _
  have hr : a.fetch?.map (·, w) = some (f, w') := hr
  obtain ⟨f', -, heq⟩ := Option.map_eq_some_iff.mp hr
  cases heq
  exact ⟨hw.knowsStop, hw.knowsTable, hw.passed.cons rfl⟩

-- ============================================================== handlers

/-- The frame table is read. -/
theorem observed_reads (mapping : FrameMapping) :
    Leads inspectMachine (Steady frameId) (Observed frameId g₀ c)
      (.inr .frameMapping) mapping (fun w h => Observed frameId g₀ c w h ∧
        KnowsTable frameId (g₀.now c h) mapping) := by
  intro a w w' h hw hr _
  cases hr
  exact ⟨⟨hw.knowsStop, hw.knowsTable, hw.passed.cons rfl⟩, hw.knowsTable⟩

/-- The thread a lookup asks for is the stopped one. -/
theorem observed_default (last : Option StopInfo) :
    Leads inspectMachine (Steady frameId) (Observed frameId g₀ c)
      (.inl (.inl .lastStopped)) last (fun w h =>
        Observed frameId g₀ c w h ∧
          (last.map StopInfo.threadId).getD 1
            = (g₀.now c h).stop.getD 1) := by
  intro a w w' h hw hr hok
  have hobs := observed_tool _ last hw hr hok
  cases hr
  exact ⟨hobs, hw.knowsStop.default⟩

theorem default_stable (t : Int) :
    Stable inspectMachine (Steady frameId) (fun w h =>
      Observed frameId g₀ c w h ∧ t = (g₀.now c h).stop.getD 1) :=
  fun _ _ _ _ hw he hok => ⟨observed_stable hw.1 he hok, hw.2⟩

/-- What a lookup finds is in the table. -/
theorem looked_found {mapping : FrameMapping} {i id : Int}
    (hid : mapping.lookup i = some id) :
    Ensures inspectMachine (Steady frameId) (Looked frameId g₀ c i)
      (.ret (.ok id)) (fun w h => Observed frameId g₀ c w h ∧
        KnowsTable frameId (g₀.now c h) mapping) := by
  refine .ret fun w h hw => ⟨hw.1, fun id' hid' => ?_⟩
  cases hid'
  exact hw.2 i id hid

/-- A lookup that fails passes nothing on. -/
theorem looked_error {P : Assertion AnyOp EnvMove ToolServer} {i : Int}
    (e : String) (hP : ∀ w h, P w h → Observed frameId g₀ c w h) :
    Ensures inspectMachine (Steady frameId) (Looked frameId g₀ c i)
      (.ret (.error e)) P :=
  .ret fun w h hw => ⟨hP w h hw, fun _ hid => (by cases hid)⟩

/-- A frame index is resolved to a frame of the stack answered last. -/
theorem resolveFrameId_ends (b : BackendId) (i : Int) :
    Ensures inspectMachine (Steady frameId) (Looked frameId g₀ c i)
      (resolveFrameId b i) (Observed frameId g₀ c) := by
  refine .write _ filled_stable observed_reads fun mapping => ?_
  cases hlook : mapping.lookup i with
  | some id => exact looked_found hlook
  | none =>
      -- A miss: the stack of the stopped thread is asked for.
      refine .pre (.write _ (fun last => default_stable _) observed_default
        fun last => ?_) fun w h hw => hw.1
      refine .write _ answered_stable
        (observed_asks fun w h hw => ⟨hw.1, .inr hw.2⟩) fun r => ?_
      cases r with
      | error e => exact looked_error _ fun w h hw => hw
      | ok r =>
          obtain ⟨frames, total⟩ := r
          refine .write _ (fun _ => filled_stable _)
            (filling_fills frames) fun _ => ?_
          cases hfill : (frameMappingOf frames).lookup i with
          | some id => exact looked_found hfill
          | none => exact looked_error _ fun w h hw => hw.1

/-- A handler that returns. -/
theorem observed_ret (o : ToolOutcome) :
    Ensures inspectMachine (Steady frameId)
      (fun _ => Observed frameId g₀ c) (.ret o) (Observed frameId g₀ c) :=
  .ret fun _ _ hw => hw

/-- `backtrace`. -/
theorem handleBacktrace_ends (hc : c.isBacktrace = true) (args : Args) :
    Ensures inspectMachine (Steady frameId)
      (fun _ => Observed frameId g₀ c) (handleBacktrace args)
      (Observed frameId g₀ c) := by
  refine (observed_shared _).bind fun guard => ?_
  cases guard with
  | error e => exact observed_ret _
  | ok u =>
  refine (observed_shared _).bind fun thread => ?_
  cases thread with
  | error e => exact observed_ret _
  | ok threadId =>
  refine (observed_shared _).bind fun backend => ?_
  cases backend with
  | none => exact observed_ret _
  | some b =>
  refine .write _ answered_stable
    (observed_asks fun w h hw => ⟨hw, .inl hc⟩) fun r => ?_
  cases r with
  | error e => exact observed_ret _
  | ok r =>
  obtain ⟨frames, total⟩ := r
  refine .write _ (fun _ => filled_stable _) (filling_fills frames)
    fun _ => ?_
  exact .ret fun w h hw => hw.1

/-- What is left of a handler once a lookup found a frame id. -/
theorem looked_ready {i id : Int} {p : InspectProg ToolOutcome}
    (hp : Ensures inspectMachine (Steady frameId)
      (fun _ => Observed frameId g₀ c) p (Ready frameId g₀ c i id)) :
    Ensures inspectMachine (Steady frameId)
      (fun _ => Observed frameId g₀ c) p
      (Looked frameId g₀ c i (.ok id)) :=
  hp.pre fun _ _ hw => ⟨hw.1, hw.2 id rfl⟩

/-- `variables`. -/
theorem handleVariables_ends (toLowercase : String → String)
    (args : Args) (hc : c.frameIndex = some (frameIndexArg args)) :
    Ensures inspectMachine (Steady frameId)
      (fun _ => Observed frameId g₀ c) (handleVariables toLowercase args)
      (Observed frameId g₀ c) := by
  refine (observed_shared _).bind fun guard => ?_
  cases guard with
  | error e => exact observed_ret _
  | ok u =>
  refine (observed_shared _).bind fun backend => ?_
  cases backend with
  | none => exact observed_ret _
  | some b =>
  refine (resolveFrameId_ends b _).bind fun r => ?_
  cases r with
  | error e => exact .ret fun w h hw => hw.1
  | ok id =>
  refine looked_ready (.write _ (fun _ => observed_stable) (ready_scopes hc)
    fun scopes => ?_)
  cases scopes with
  | error e => exact observed_ret _
  | ok scopes =>
  dsimp only
  cases scopes.find? (fun s =>
      scopeMatches toLowercase (scopeArg args) s.name) with
  | none => exact observed_ret _
  | some target =>
  refine .keep observed_stable observed_fetch fun fetch => ?_
  cases flattenVariables toLowercase fetch target.variablesReference
      (depthArg args (scopeArg args)) variableCap
      (args.getString "filter" "") with
  | error e => exact observed_ret _
  | ok r => exact observed_ret _

/-- `evaluate`. -/
theorem handleEvaluate_ends (args : Args)
    (hc : c.frameIndex = some (frameIndexArg args)) :
    Ensures inspectMachine (Steady frameId)
      (fun _ => Observed frameId g₀ c) (handleEvaluate args)
      (Observed frameId g₀ c) := by
  refine (observed_shared _).bind fun guard => ?_
  cases guard with
  | error e => exact observed_ret _
  | ok u =>
  dsimp only
  cases args.requireString "expression" with
  | error e => exact observed_ret _
  | ok expression =>
  refine (observed_shared _).bind fun backend => ?_
  cases backend with
  | none => exact observed_ret _
  | some b =>
  refine (resolveFrameId_ends b _).bind fun r => ?_
  cases r with
  | error e => exact .ret fun w h hw => hw.1
  | ok id =>
  refine looked_ready (.write _ (fun _ => observed_stable)
    (ready_evaluate hc) fun r => ?_)
  cases r with
  | error e => exact observed_ret _
  | ok result =>
  dsimp only
  split <;> exact observed_ret _

/-- Every call keeps the observer right, and passes the ids of the stack
answered last. -/
theorem inspectCall_ends (host : Host) (toLowercase : String → String)
    (c : InspectCall) :
    Ensures inspectMachine (Steady frameId)
      (fun _ => Observed frameId g₀ c) (c.prog host toLowercase)
      (Observed frameId g₀ c) := by
  cases c with
  | tool c => exact observed_shared _
  | backtrace args => exact handleBacktrace_ends rfl args
  | «variables» args => exact handleVariables_ends toLowercase args rfl
  | evaluate args => exact handleEvaluate_ends args rfl

end

-- ================================================================== runs

section

variable {frameId : Int → Int → Int} {host : Host}
  {toLowercase : String → String} {f : InspectDone}
  {fs : List InspectDone} {w : ToolServer}

/-- What holds of the observer between two calls. -/
structure Known (frameId : Int → Int → Int) (g : Seen) (w : ToolServer) :
    Prop where
  knowsStop : KnowsStop g w.session.inner.lastStopped
  knowsTable : KnowsTable frameId g w.session.inner.frameMapping

/-- One call, from where the observer is right. -/
theorem Known.call {g : Seen} {c : InspectCall} {w : ToolServer}
    {h : List InspectEvent} {s : Pool AnyOp ToolOutcome ToolServer}
    {o : ToolOutcome} (hw : Known frameId g w)
    (hr : RunIf inspectMachine (Steady frameId)
      (solo (c.prog host toLowercase) w) h s)
    (ho : s.returned 0 = some o) : Observed frameId g c s.world h :=
  (inspectCall_ends host toLowercase c).sound observed_stable
    ⟨hw.knowsStop, hw.knowsTable, trivial⟩ hr ho

/-- Every run keeps the observer right. -/
theorem known_seen (hr : InspectTrace frameId host toLowercase fs w) :
    Known frameId (seen fs) w := by
  induction hr with
  | nil => exact ⟨knowsStop_new, knowsTable_empty⟩
  | call hw c hr ha ih =>
      obtain ⟨hstop, htable, -⟩ := ih.call hr ha
      exact ⟨hstop, htable⟩

/-- What held of every frame id passed held of each when it was. -/
theorem PassedFetched.of_append {g : Seen} {c : InspectCall}
    {newer older : List InspectEvent} {ev : InspectEvent} {id : Int}
    (h : PassedFetched frameId g c (newer ++ ev :: older))
    (hid : passed ev = some id) : Fetched frameId c (g.now c older) id := by
  induction newer with
  | nil => exact h.2 id hid
  | cons ev' newer ih => exact ih h.1

end

/-- In every sequential run of the tools, with a backend whose frame ids
depend on the thread and the index only: the frame id a call passes is of
the frame the call names, of the thread whose stack was answered last;
and if it was answered after the last stop, that is the stopped thread or
one whose backtrace was asked for since. -/
theorem frame_ids_of_fetched_stack (host : Host)
    (toLowercase : String → String) (frameId : Int → Int → Int)
    {f : InspectDone} {fs : List InspectDone} {w : ToolServer}
    (hr : InspectTrace frameId host toLowercase (f :: fs) w)
    {newer older : List InspectEvent} {ev : InspectEvent} {id : Int}
    (hev : f.hist = newer ++ ev :: older) (hid : passed ev = some id) :
    Fetched frameId f.call ((seen fs).now f.call older) id := by
  cases hr with
  | call hw c hr ha =>
      have hobs := (known_seen hw).call hr ha
      cases hev
      exact hobs.passed.of_append hid

-- ============================================================ two runs

/-- Frame ids by thread. -/
def frameIdAt (t i : Int) : Int := 1000 * t + i

/-- A stack of one frame. -/
def oneFrame (t : Int) : List Frame :=
  [⟨0, frameIdAt t 0, "main", none, 0, none⟩]

instance (frameId : Int → Int → Int) :
    ∀ ev, Decidable (StepsSteady frameId ev)
  | .act _ (.inr (.stackTrace _ t _ _)) (.ok (frames, _)) _ _ =>
      inferInstanceAs (Decidable (∀ f ∈ frames, f.id = frameId t f.index))
  | .act _ (.inr (.stackTrace ..)) (.error _) _ _ => .isTrue trivial
  | .act _ (.inr (.frameMapping)) _ _ _ => .isTrue trivial
  | .act _ (.inr (.setFrameMapping _)) _ _ _ => .isTrue trivial
  | .act _ (.inr (.scopes ..)) _ _ _ => .isTrue trivial
  | .act _ (.inr (.fetch _)) _ _ _ => .isTrue trivial
  | .act _ (.inr (.evaluate ..)) _ _ _ => .isTrue trivial
  | .act _ (.inl _) _ _ _ => .isTrue trivial
  | .env _ _ _ => .isTrue trivial

/-- A step another tool's handler takes too. -/
def toolStep : Action Answer EnvMove → Action InspectAnswer EnvMove
  | .step i a => .step i (.tool a)
  | .env e => .env e

/-- The steps of one call with an answer of the backend. -/
def around (n : Nat) (a : InspectAnswer) (n' : Nat) :
    List (Action InspectAnswer EnvMove) :=
  (sync 0 n).map toolStep ++ [.step 0 a] ++ (sync 0 n').map toolStep

/-- An attach, whose first stop is of thread 1, and a backtrace. -/
def attachAndLook :
    List (InspectCall × List (Action InspectAnswer EnvMove)) :=
  [(.tool (.attach ⟨[("pid", .num 7)]⟩), (attachSteps 0).map toolStep),
    (.backtrace ⟨[]⟩, around 3 (.stackTrace (.ok (oneFrame 1, 1))) 1)]

/-- The variables of the innermost frame, refused by the backend. -/
def askVariables : InspectCall × List (Action InspectAnswer EnvMove) :=
  (.«variables» ⟨[]⟩, around 3 (.scopes (.error .closed)) 0)

/-- A stop of thread 2. -/
def otherStop : StopInfo := ⟨"breakpoint", 2, "", []⟩

/-- A continue that ends in it. -/
def continueToOther : InspectCall × List (Action InspectAnswer EnvMove) :=
  (.tool (.continue ⟨[]⟩),
    around 6 (.tool (.stop (some (.ok (.stopped otherStop))))) 3)

/-- A call that ends with a frame id passed. -/
theorem ends_passing {h : List InspectEvent} {id : Int}
    (hid : h.head?.bind passed = some id) :
    ∃ ev, h = [] ++ ev :: h.tail ∧ passed ev = some id := by
  cases h with
  | nil => cases hid
  | cons ev older => exact ⟨ev, rfl, hid⟩

/-- The variables of a thread that has just stopped. -/
theorem frame_of_stopped_thread :
    ∃ f fs w ev older,
      InspectTrace frameIdAt lldbHost (fun s => s) (f :: fs) w ∧
      f.hist = [] ++ ev :: older ∧ passed ev = some (frameIdAt 1 0) ∧
      Fetched frameIdAt f.call ((seen fs).now f.call older)
        (frameIdAt 1 0) := by
  obtain ⟨f, fs, w, hr, hlast⟩ := trace_witness inspectMachine
    (Steady frameIdAt) (InspectCall.prog lldbHost fun s => s)
    ToolServer.new (attachAndLook ++ [askVariables])
    (fun f _ => f.hist.head?.bind passed = some (frameIdAt 1 0))
    (by decide +kernel)
  obtain ⟨ev, hev, hid⟩ := ends_passing hlast
  exact ⟨f, fs, w, ev, _, hr, hev, hid,
    frame_ids_of_fetched_stack lldbHost _ frameIdAt hr hev hid⟩

/-- A backtrace of thread 1, then a stop of thread 2: the variables asked
for are those of thread 1. -/
theorem frame_of_earlier_stop :
    ¬ ∀ (host : Host) (toLowercase : String → String)
      (frameId : Int → Int → Int) (f : InspectDone)
      (fs : List InspectDone) (w : ToolServer)
      (newer older : List InspectEvent) (ev : InspectEvent) (id : Int),
      InspectTrace frameId host toLowercase (f :: fs) w →
      f.hist = newer ++ ev :: older → passed ev = some id →
      ∃ i t, f.call.frameIndex = some i ∧ id = frameId t i ∧
        ((seen fs).now f.call older).Current t := by
  intro hall
  obtain ⟨f, fs, w, hr, hlast, hi, hstop, hreq⟩ := trace_witness
    inspectMachine (Steady frameIdAt)
    (InspectCall.prog lldbHost fun s => s) ToolServer.new
    (attachAndLook ++ [continueToOther, askVariables])
    (fun f fs => f.hist.head?.bind passed = some (frameIdAt 1 0) ∧
      f.call.frameIndex = some 0 ∧
      ((seen fs).now f.call f.hist.tail).stop = some 2 ∧
      ((seen fs).now f.call f.hist.tail).requested = [])
    (by decide +kernel)
  obtain ⟨ev, hev, hid⟩ := ends_passing hlast
  obtain ⟨i, t, hi', ht, hcur⟩ :=
    hall lldbHost _ frameIdAt f fs w [] _ ev _ hr hev hid
  cases hi.symm.trans hi'
  rw [Seen.Current, hstop, hreq] at hcur
  rcases hcur with rfl | hcur
  · revert ht
    decide
  · cases hcur

end DebugMcp
