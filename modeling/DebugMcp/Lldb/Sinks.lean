/-
What the read loop tells the session: the output channel, the terminated
signal, and the exit code it carries.

No caller touches them, so what they hold is a function of the frames
that were read: `SinkInv` says that the steps still queued lead to just
that. The signal fires at the first `terminated` event or at the end of
the stream, whichever is first, and `firings` counts how often.
-/
import DebugMcp.Lldb.StopWaiter
import Mathlib.Data.List.Induction
import Mathlib.Data.List.TakeWhile

namespace DebugMcp

open Conc

-- =============================================================== frames

/-- The frames that were read, in order. -/
def frames : ClientHistory → List DapMessage
  | [] => []
  | .env (.frame m) _ _ :: h => frames h ++ [m]
  | _ :: h => frames h

/-- The output a message carries. -/
def outputOf : DapMessage → Option OutputChunk
  | .event (.output e) => some ⟨e.category, e.output⟩
  | _ => none

/-- The exit code a message carries. -/
def exitOf : DapMessage → Option Int
  | .event (.exited e) => some e.exitCode
  | _ => none

/-- Is it a `terminated` event? -/
def isTerminated : DapMessage → Bool
  | .event .terminated => true
  | _ => false

/-- What a message resolves a stop waiter to. -/
def outcomeOf : DapMessage → Option StopOutcome
  | .event (.stopped e) => some (.stopped (stopInfoFromEvent e))
  | .event (.exited e) => some (.exited (some e.exitCode))
  | .event .terminated => some .terminated
  | _ => none

/-- The last exit code among messages. -/
def lastExitOf (ms : List DapMessage) : Option Int :=
  (ms.filterMap exitOf).getLast?

/-- The last exit code before the first `terminated` event. -/
def exitBefore (ms : List DapMessage) : Option Int :=
  lastExitOf (ms.takeWhile fun m => !isTerminated m)

-- ================================================================ sinks

/-- `Sinks`; `output` is what was sent to the channel. -/
structure Sinks where
  output : List OutputChunk
  terminated : Oneshot (Option Int)
  lastExitCode : Option Int

/-- The sinks of a new read loop. -/
def Sinks.new : Sinks where
  output := []
  terminated := .empty
  lastExitCode := none

/-- The client's sinks. -/
def DapClient.sinks (w : DapClient) : Sinks where
  output := w.outputs
  terminated := w.terminated
  lastExitCode := w.lastExit

namespace Sinks

/-- What a step of the read loop does to them. -/
def step (s : Sinks) : ReaderOp → Sinks
  | .output c => { s with output := s.output ++ [c] }
  | .recordExit code => { s with lastExitCode := some code }
  | .fireTerminated =>
      { s with terminated := s.terminated.send s.lastExitCode }
  | _ => s

/-- What the steps that are queued do to them. -/
def steps (s : Sinks) (ops : List ReaderOp) : Sinks := ops.foldl step s

/-- What the frames do to them. -/
def read (s : Sinks) (ms : List DapMessage) : Sinks :=
  ms.foldl (fun s m => s.steps (dispatch m)) s

variable {s : Sinks} {m : DapMessage}

/-- What a frame does to them. -/
theorem steps_dispatch (s : Sinks) (m : DapMessage) :
    s.steps (dispatch m) =
      { output := s.output ++ (outputOf m).toList
        terminated := if isTerminated m then
          s.terminated.send s.lastExitCode else s.terminated
        lastExitCode := (exitOf m).or s.lastExitCode } := by
  cases m with
  | response r => simp [dispatch, steps, step, outputOf, isTerminated, exitOf]
  | other e => simp [dispatch, steps, outputOf, isTerminated, exitOf]
  | event e =>
      cases e <;> simp [dispatch, dispatchEvent, steps, step, outputOf,
        isTerminated, exitOf]

theorem read_concat (ms : List DapMessage) (m : DapMessage) :
    s.read (ms ++ [m]) = (s.read ms).steps (dispatch m) :=
  List.foldl_concat ..

/-- The channel has the frames' outputs. -/
theorem sunk_read (ms : List DapMessage) :
    (new.read ms).output = ms.filterMap outputOf := by
  induction ms using List.reverseRecOn with
  | nil => rfl
  | append_singleton ms m ih =>
      rw [read_concat, steps_dispatch, List.filterMap_append, ih]
      cases h : outputOf m with
      | none => simp [h]
      | some c => simp [h]

theorem lastExitCode_read (ms : List DapMessage) :
    (new.read ms).lastExitCode = lastExitOf ms := by
  induction ms using List.reverseRecOn with
  | nil => rfl
  | append_singleton ms m ih =>
      rw [read_concat, steps_dispatch, ih, lastExitOf, lastExitOf,
        List.filterMap_append]
      cases h : exitOf m with
      | none => simp [h]
      | some c => simp [h]

/-- Frames without a `terminated` event come before any. -/
theorem takeWhile_terminated {ms : List DapMessage}
    (h : ms.any isTerminated = false) :
    ms.takeWhile (fun m => !isTerminated m) = ms := by
  rw [List.takeWhile_eq_self_iff]
  intro m hm
  rw [Bool.not_eq_true', ← Bool.not_eq_true]
  intro ht
  rw [List.any_eq_true.mpr ⟨m, hm, ht⟩] at h
  cases h

/-- What comes after a `terminated` event does not count. -/
theorem exitBefore_concat {ms : List DapMessage} (m : DapMessage)
    (h : ms.any isTerminated = true) :
    exitBefore (ms ++ [m]) = exitBefore ms := by
  have hne : ¬ ms.takeWhile (fun m => !isTerminated m) = ms := by
    rw [List.takeWhile_eq_self_iff]
    intro hall
    obtain ⟨x, hx, ht⟩ := List.any_eq_true.mp h
    have hn := hall x hx
    rw [ht] at hn
    cases hn
  rw [exitBefore, exitBefore, List.takeWhile_append]
  rw [if_neg fun hl => hne ?_]
  exact List.IsPrefix.eq_of_length (List.takeWhile_prefix _) hl

/-- The signal fires at the first `terminated` event. -/
theorem terminated_read (ms : List DapMessage) :
    (new.read ms).terminated =
      if ms.any isTerminated then .sent (exitBefore ms) else .empty := by
  induction ms using List.reverseRecOn with
  | nil => rfl
  | append_singleton ms m ih =>
      rw [read_concat, steps_dispatch, lastExitCode_read, ih,
        List.any_append, List.any_cons, List.any_nil, Bool.or_false]
      cases hms : ms.any isTerminated with
      | true =>
          rw [exitBefore_concat m hms]
          cases isTerminated m <;> rfl
      | false =>
          cases hm : isTerminated m with
          | false => rfl
          | true =>
              have hx : exitBefore (ms ++ [m]) = lastExitOf ms := by
                rw [exitBefore, List.takeWhile_append,
                  takeWhile_terminated hms]
                simp [hm]
              rw [hx]
              rfl

end Sinks

-- ============================================================== history

/-- The codes the terminated signal was fired with: its sender is taken
the first time. -/
def firings : ClientHistory → List (Option Int)
  | [] => []
  | .env (.reader _) w _ :: h =>
      match w.head, w.terminated with
      | some .fireTerminated, .empty => firings h ++ [w.lastExit]
      | _, _ => firings h
  | _ :: h => firings h

/-- The execution event a step of the read loop dispatches. -/
def ReaderOp.outcome : ReaderOp → Option StopOutcome
  | takeStop o => some o
  | _ => none

/-- The execution events that were dispatched to the stop waiter, the
end of the stream as the last. -/
def stopsDispatched : ClientHistory → List StopOutcome
  | [] => []
  | .env (.reader _) w _ :: h =>
      stopsDispatched h ++ (w.head.bind ReaderOp.outcome).toList
  | _ :: h => stopsDispatched h

/-- What the read loop has told after its frames, and after the end of
the stream if it is over. -/
def Sinks.after (ms : List DapMessage) (ended : Bool) : Sinks :=
  if ended then (new.read ms).steps recover else new.read ms

/-- The execution events of frames, and of the end of the stream. -/
def outcomes (ms : List DapMessage) (ended : Bool) : List StopOutcome :=
  ms.filterMap outcomeOf ++ if ended then [.terminated] else []

/-- The sinks are on their way to what was read. -/
structure SinkInv (w : DapClient) (h : ClientHistory) : Prop where
  queued : w.sinks.steps w.reader = Sinks.after (frames h) w.ended
  fired : (firings h = [] ∧ w.terminated = .empty) ∨
    ∃ code, firings h = [code] ∧ w.terminated = .sent code
  stops : stopsDispatched h ++ w.reader.filterMap ReaderOp.outcome
    = outcomes (frames h) w.ended

theorem sinkInv_new : SinkInv DapClient.new [] where
  queued := rfl
  fired := .inl ⟨rfl, rfl⟩
  stops := rfl

section

variable {w w' : DapClient} {h : ClientHistory} {i k : Nat}

/-- No caller touches the sinks. -/
theorem DapClient.run_sinks {β : Type} {op : ClientOp β} {a : Reply}
    {b : β} (hr : w.run i op a = some (b, w')) : w'.sinks = w.sinks := by
  rcases run_world hr with rfl | ⟨-, rfl | ⟨n, rfl⟩ | ⟨n, rfl⟩⟩ |
    ⟨-, rfl⟩ | ⟨-, rfl | rfl⟩
  case inr.inl.inr.inr =>
    unfold DapClient.removePending
    split <;> rfl
  all_goals rfl

/-- What a step of the read loop does to the sinks. -/
theorem DapClient.readerStep_sinks {op : ReaderOp} {rest : List ReaderOp}
    (hs : w.readerStep k rest op = some w') :
    w'.sinks = w.sinks.step op := by
  unfold DapClient.readerStep at hs
  cases op with
  | takePending n m | takeStop o =>
      dsimp only at hs
      split at hs <;> cases hs <;> rfl
  | sendPending cs r =>
      dsimp only at hs
      split at hs
      · cases hs
        rfl
      · split at hs <;> cases hs
        rfl
  | _ =>
      cases hs
      rfl

/-- What is put in front of the queue does nothing to the sinks, and is
no execution event. -/
theorem ReaderOp.isSend_step {x : ReaderOp} (hx : x.isSend = true)
    (s : Sinks) : s.step x = s ∧ x.outcome = none := by
  cases x with
  | sendPending | sendStop => exact ⟨rfl, rfl⟩
  | _ => cases hx

/-- A step of the read loop takes what it does out of the queue. -/
theorem ReaderFrame.queue {op : ReaderOp} {rest : List ReaderOp}
    (hf : ReaderFrame w w' op rest) (s : Sinks) :
    s.steps w'.reader = s.steps rest ∧
      w'.reader.filterMap ReaderOp.outcome
        = rest.filterMap ReaderOp.outcome := by
  rcases hf.next with he | ⟨x, hx, -, he⟩ <;> rw [he]
  · exact ⟨rfl, rfl⟩
  · obtain ⟨hstep, hout⟩ := ReaderOp.isSend_step hx s
    constructor
    · show (s.step x).steps rest = _
      rw [hstep]
    · rw [List.filterMap_cons, hout]

/-- A step of the read loop that does not fire the signal. -/
theorem firings_pass {op : ReaderOp} {rest : List ReaderOp}
    (hr : w.reader = op :: rest)
    (hop : op = .fireTerminated → w.terminated ≠ .empty) :
    firings (.env (.reader k) w w' :: h) = firings h := by
  have hh := DapClient.head_of_reader hr
  rw [firings, hh]
  split
  · next heq he => exact absurd he (hop (Option.some.inj heq))
  · rfl

/-- The first step that does. -/
theorem firings_fire {rest : List ReaderOp}
    (hr : w.reader = .fireTerminated :: rest)
    (he : w.terminated = .empty) :
    firings (.env (.reader k) w w' :: h) = firings h ++ [w.lastExit] := by
  have hh := DapClient.head_of_reader hr
  rw [firings, hh, he]

/-- The signal fires once. -/
theorem SinkInv.fired_reader (hI : SinkInv w h) {op : ReaderOp}
    {rest : List ReaderOp} (hr : w.reader = op :: rest)
    (hs : w.readerStep k rest op = some w') :
    (firings (.env (.reader k) w w' :: h) = [] ∧ w'.terminated = .empty) ∨
      ∃ code, firings (.env (.reader k) w w' :: h) = [code] ∧
        w'.terminated = .sent code := by
  have hstep := congrArg Sinks.terminated (DapClient.readerStep_sinks hs)
  have hstep : w'.terminated = (w.sinks.step op).terminated := hstep
  by_cases hop : op = .fireTerminated
  · subst hop
    rcases hI.fired with ⟨hf, he⟩ | ⟨code, hf, he⟩
    · right
      refine ⟨w.lastExit, ?_, ?_⟩
      · rw [firings_fire hr he, hf]
        rfl
      · rw [hstep]
        show w.terminated.send w.lastExit = _
        rw [he]
        rfl
    · right
      refine ⟨code, ?_, ?_⟩
      · rw [firings_pass hr (by rw [he]; exact fun _ hc => by cases hc), hf]
      · rw [hstep]
        show w.terminated.send w.lastExit = _
        rw [he]
        rfl
  · have hsame : w'.terminated = w.terminated := by
      rw [hstep]
      cases op with
      | fireTerminated => exact absurd rfl hop
      | _ => rfl
    rw [firings_pass hr fun h => absurd h hop, hsame]
    exact hI.fired

/-- A step of the read loop. -/
theorem SinkInv.reader (hI : SinkInv w h) {op : ReaderOp}
    {rest : List ReaderOp} (hr : w.reader = op :: rest)
    (hs : w.readerStep k rest op = some w') :
    SinkInv w' (.env (.reader k) w w' :: h) := by
  have hf := DapClient.readerStep_frame hr hs
  obtain ⟨hsteps, houts⟩ := hf.queue (w.sinks.step op)
  refine ⟨?_, hI.fired_reader hr hs, ?_⟩
  · rw [DapClient.readerStep_sinks hs, hsteps, hf.ended]
    have hq := hI.queued
    rw [hr] at hq
    exact hq
  · have hq := hI.stops
    have hh := DapClient.head_of_reader hr
    rw [hr, List.filterMap_cons] at hq
    rw [stopsDispatched, hh, houts, hf.ended, List.append_assoc]
    show _ = outcomes (frames h) w.ended
    rw [← hq]
    cases ho : op.outcome with
    | none =>
        show stopsDispatched h ++ ((op.outcome).toList ++ _) = _
        rw [ho]
        rfl
    | some o =>
        show stopsDispatched h ++ ((op.outcome).toList ++ _) = _
        rw [ho]
        rfl

/-- The sinks' invariant is kept by a caller. -/
theorem SinkInv.act {β : Type} {op : ClientOp β} {a : Reply} {b : β}
    (hI : SinkInv w h) (hr : w.run i op a = some (b, w')) :
    SinkInv w' (.act i op b w w' :: h) := by
  have hsinks := DapClient.run_sinks hr
  have hreader := DapClient.run_reader hr
  have hterm : w'.terminated = w.terminated :=
    congrArg Sinks.terminated hsinks
  refine ⟨?_, ?_, ?_⟩
  · rw [hsinks, hreader.reader, hreader.ended]
    exact hI.queued
  · rw [hterm]
    exact hI.fired
  · rw [hreader.reader, hreader.ended]
    exact hI.stops

/-- The steps that a frame queues. -/
theorem outcome_dispatch (m : DapMessage) :
    (dispatch m).filterMap ReaderOp.outcome = (outcomeOf m).toList := by
  cases m with
  | response r => rfl
  | other e => rfl
  | event e => cases e <;> rfl

/-- It is kept by the environment. -/
theorem SinkInv.env {e : ClientMove} (hI : SinkInv w h)
    (he : w.envMove e = some w') : SinkInv w' (.env e w w' :: h) := by
  cases e with
  | reader k =>
      obtain ⟨op, rest, hw, hs⟩ := DapClient.envMove_reader he
      exact hI.reader hw hs
  | frame m =>
      obtain ⟨hw, hen, rfl⟩ := DapClient.envMove_frame he
      have hq := hI.queued
      have hst := hI.stops
      rw [hw, hen] at hq hst
      refine ⟨?_, hI.fired, ?_⟩
      · show w.sinks.steps (dispatch m) = Sinks.after (frames h ++ [m]) w.ended
        rw [hen]
        have hq : w.sinks = Sinks.new.read (frames h) := hq
        rw [hq, ← Sinks.read_concat]
        rfl
      · show stopsDispatched h ++ (dispatch m).filterMap ReaderOp.outcome
          = outcomes (frames h ++ [m]) w.ended
        rw [List.filterMap_nil, List.append_nil] at hst
        rw [hst, hen, outcome_dispatch, outcomes, outcomes,
          List.filterMap_append]
        cases ho : outcomeOf m with
        | none => simp [ho]
        | some o => simp [ho]
  | eof =>
      obtain ⟨hw, hen, rfl⟩ := DapClient.envMove_eof he
      have hq := hI.queued
      have hst := hI.stops
      rw [hw, hen] at hq hst
      refine ⟨?_, hI.fired, ?_⟩
      · have hq : w.sinks = Sinks.new.read (frames h) := hq
        show w.sinks.steps recover = _
        rw [hq]
        rfl
      · show stopsDispatched h ++ recover.filterMap ReaderOp.outcome
          = outcomes (frames h) true
        rw [List.filterMap_nil, List.append_nil] at hst
        rw [hst, outcomes, outcomes]
        show _ ++ [] ++ [StopOutcome.terminated] = _ ++ [StopOutcome.terminated]
        rw [List.append_nil]

-- ============================================================== results

/-- Steps only add to the output. -/
theorem Sinks.output_steps (s : Sinks) (ops : List ReaderOp) :
    s.output <+: (s.steps ops).output := by
  induction ops generalizing s with
  | nil => exact List.prefix_rfl
  | cons op ops ih =>
      refine List.IsPrefix.trans ?_ (ih (s.step op))
      cases op with
      | output c => exact List.prefix_append _ _
      | _ => exact List.prefix_rfl

/-- A signal that has fired stays as it is. -/
theorem Sinks.terminated_steps {s : Sinks} {code : Option Int}
    (hs : s.terminated = .sent code) (ops : List ReaderOp) :
    (s.steps ops).terminated = .sent code := by
  induction ops generalizing s with
  | nil => exact hs
  | cons op ops ih =>
      refine ih (s := s.step op) ?_
      cases op with
      | fireTerminated =>
          show s.terminated.send s.lastExitCode = _
          rw [hs]
          rfl
      | _ => exact hs

/-- The end of the stream tells no output. -/
theorem Sinks.output_after (ms : List DapMessage) (ended : Bool) :
    (Sinks.after ms ended).output = ms.filterMap outputOf := by
  cases ended with
  | false => exact sunk_read ms
  | true => exact sunk_read ms

/-- The signal fires at the first `terminated` event, or at the end. -/
theorem Sinks.terminated_after (ms : List DapMessage) (ended : Bool) :
    (Sinks.after ms ended).terminated =
      if ms.any isTerminated || ended then .sent (exitBefore ms)
      else .empty := by
  cases ended with
  | false =>
      rw [Bool.or_false]
      exact terminated_read ms
  | true =>
      rw [Bool.or_true, if_pos rfl]
      show (new.read ms).terminated.send (new.read ms).lastExitCode = _
      rw [terminated_read, lastExitCode_read]
      cases h : ms.any isTerminated with
      | true => rfl
      | false =>
          rw [exitBefore, takeWhile_terminated h]
          rfl

/-- What was sent to the output channel is a prefix of what the frames
carry. -/
theorem SinkInv.output_prefix (hI : SinkInv w h) :
    w.outputs <+: (frames h).filterMap outputOf := by
  rw [← Sinks.output_after _ w.ended, ← hI.queued]
  exact w.sinks.output_steps w.reader

/-- It is all of it when nothing is queued. -/
theorem SinkInv.output_eq (hI : SinkInv w h) (hr : w.reader = []) :
    w.outputs = (frames h).filterMap outputOf := by
  rw [← Sinks.output_after _ w.ended, ← hI.queued, hr]
  rfl

/-- The signal that has fired carries the last exit code before it. -/
theorem SinkInv.code_eq (hI : SinkInv w h) {code : Option Int}
    (hc : w.terminated = .sent code) : code = exitBefore (frames h) := by
  have hlast := Sinks.terminated_steps (s := w.sinks) hc w.reader
  rw [hI.queued, Sinks.terminated_after] at hlast
  split at hlast
  · exact (Oneshot.sent.inj hlast).symm
  · cases hlast

/-- It has fired by the end of the read loop. -/
theorem SinkInv.fired_finished (hI : SinkInv w h)
    (hf : w.finished = true) :
    w.terminated = .sent (exitBefore (frames h)) := by
  obtain ⟨hen, hr⟩ := Bool.and_eq_true_iff.mp hf
  have hr : w.reader = [] := List.isEmpty_iff.mp hr
  have hq := congrArg Sinks.terminated hI.queued
  rw [hr, hen, Sinks.terminated_after, Bool.or_true, if_pos rfl] at hq
  exact hq

/-- How often it has fired, and with what. -/
theorem SinkInv.firings_eq (hI : SinkInv w h) :
    (firings h = [] ∧ w.finished = false) ∨
      firings h = [exitBefore (frames h)] := by
  rcases hI.fired with ⟨hf, he⟩ | ⟨code, hf, he⟩
  · left
    refine ⟨hf, (Bool.not_eq_true _).mp fun hfin => ?_⟩
    rw [hI.fired_finished hfin] at he
    cases he
  · right
    rw [hf, hI.code_eq he]

end

end DebugMcp
