/-
The event stream of the lldb backend, next to the read loop that feeds
it.

`build_event_stream` merges two streams, one of the output channel and
one of the terminated signal. `stream::select` polls both in turn until
both have ended; here a poll is one look at one of them, in any order,
between any steps of the read loop and the client's callers (`Fed`).
`read_loop_ends_once` is about every such run, with frames of any kind
and number before the end of the stream, which stands for a read or
decode error too.
-/
import DebugMcp.Lldb.Sinks

namespace DebugMcp

open Conc

-- =============================================================== stream

/-- The one-shot half of the stream: it waits for the signal, it has
yielded, it has ended. -/
inductive SignalStream
  | waiting | spent | ended
  deriving DecidableEq

/-- The polls it needs once the signal is decided. -/
def SignalStream.remaining : SignalStream → Nat
  | waiting => 2
  | spent => 1
  | ended => 0

/-- The merged stream: the chunks that were received, whether either half
or the whole has ended, and what was yielded so far. -/
structure EventStream where
  received : Nat
  outputEnded : Bool
  signal : SignalStream
  ended : Bool
  yielded : List BackendEvent
  deriving DecidableEq

/-- A stream nobody has polled. -/
def EventStream.new : EventStream where
  received := 0
  outputEnded := false
  signal := .waiting
  ended := false
  yielded := []

/-- What a chunk becomes. -/
def OutputChunk.event (c : OutputChunk) : BackendEvent :=
  .output c.category c.text

/-- What is polled: one of the halves, or both are seen to have ended. -/
inductive SidePoll
  | output | signal | close
  deriving DecidableEq

namespace EventStream

/-- Poll the output half; it ends when the channel is empty and the read
loop has dropped its sender. -/
def pollOutput (w : DapClient) (s : EventStream) : Option EventStream :=
  if s.outputEnded then none
  else match w.outputs[s.received]? with
    | some c => some { s with
        received := s.received + 1, yielded := s.yielded ++ [c.event] }
    | none =>
        if w.finished then some { s with outputEnded := true } else none

/-- Poll the signal's half: a sender that was dropped yields nothing. -/
def pollSignal (w : DapClient) (s : EventStream) : Option EventStream :=
  match s.signal with
  | .waiting =>
      match w.terminated with
      | .sent code => some { s with
          signal := .spent, yielded := s.yielded ++ [.terminated code] }
      | _ => if w.finished then some { s with signal := .ended } else none
  | .spent => some { s with signal := .ended }
  | .ended => none

/-- Both halves have ended. -/
def close (s : EventStream) : Option EventStream :=
  if s.outputEnded ∧ s.signal = .ended ∧ s.ended = false then
    some { s with ended := true }
  else none

/-- One poll; `none` while there is nothing to see. -/
def poll : SidePoll → DapClient → EventStream → Option EventStream
  | .output, w, s => s.pollOutput w
  | .signal, w, s => s.pollSignal w
  | .close, _, s => s.close

/-- The polls that are still to come once the read loop has ended. -/
def remaining (w : DapClient) (s : EventStream) : Nat :=
  (w.outputs.length - s.received) + (if s.outputEnded then 0 else 1) +
    s.signal.remaining + (if s.ended then 0 else 1)

/-- The outputs that were yielded. -/
def outputs (s : EventStream) : List BackendEvent :=
  s.yielded.filter BackendEvent.isOutput

/-- The terminations that were yielded. -/
def terminations (s : EventStream) : List BackendEvent :=
  s.yielded.filter fun e => !e.isOutput

end EventStream

/-- A run of the client, the read loop and any callers, of which each
registers its stop waiter once, with the stream polled in between. -/
inductive Fed {α : Type} (s₀ : Pool ClientOp α DapClient) :
    ClientHistory → Pool ClientOp α DapClient → EventStream → Prop
  | start : Fed s₀ [] s₀ .new
  | client {h : ClientHistory} {s s' : Pool ClientOp α DapClient}
      {es : EventStream} {ev : ClientEvent} (hr : Fed s₀ h s es)
      (hs : Step clientMachine s ev s') (hok : RegistersOnce h ev) :
      Fed s₀ (ev :: h) s' es
  | poll {h : ClientHistory} {s : Pool ClientOp α DapClient}
      {es es' : EventStream} (p : SidePoll) (hr : Fed s₀ h s es)
      (hp : es.poll p s.world = some es') : Fed s₀ h s es'

-- ============================================================ invariant

/-- What the read loop has told only grows, until it has ended. -/
structure Grows (w w' : DapClient) : Prop where
  output : w.outputs <+: w'.outputs
  signal : ∀ {code}, w.terminated = .sent code →
    w'.terminated = .sent code
  finished : w.finished = true →
    w'.finished = true ∧ w'.outputs = w.outputs

/-- The stream is on its way through what it was told. -/
structure StreamInv (w : DapClient) (s : EventStream) : Prop where
  received : s.received ≤ w.outputs.length
  outputs : s.outputs = (w.outputs.take s.received).map OutputChunk.event
  outputEnded : s.outputEnded = true →
    w.finished = true ∧ s.received = w.outputs.length
  waiting : s.signal = .waiting → s.terminations = []
  yielded : s.signal ≠ .waiting → ∃ code, w.terminated = .sent code ∧
    s.terminations = [.terminated code]
  ended : s.ended = true → s.outputEnded = true ∧ s.signal = .ended

theorem streamInv_new (w : DapClient) : StreamInv w .new where
  received := Nat.zero_le _
  outputs := rfl
  outputEnded h := by cases h
  waiting _ := rfl
  yielded h := absurd rfl h
  ended h := by cases h

section

variable {w w' : DapClient} {h : ClientHistory} {s s' : EventStream}

/-- The stream stays right while more is told. -/
theorem StreamInv.grow (hS : StreamInv w s) (hg : Grows w w') :
    StreamInv w' s where
  received := hS.received.trans hg.output.length_le
  outputs := by
    rw [hS.outputs]
    obtain ⟨more, hm⟩ := hg.output
    rw [← hm, List.take_append_of_le_length hS.received]
  outputEnded ho := by
    obtain ⟨hf, hr⟩ := hS.outputEnded ho
    obtain ⟨hf', he⟩ := hg.finished hf
    exact ⟨hf', hr.trans (congrArg List.length he.symm)⟩
  waiting := hS.waiting
  yielded hs := by
    obtain ⟨code, hc, ht⟩ := hS.yielded hs
    exact ⟨code, hg.signal hc, ht⟩
  ended := hS.ended

/-- A poll of the output half. -/
theorem StreamInv.pollOutput (hS : StreamInv w s)
    (hp : s.pollOutput w = some s') :
    StreamInv w s' ∧ s'.remaining w < s.remaining w := by
  unfold EventStream.pollOutput at hp
  split at hp
  · cases hp
  · next ho =>
    split at hp
    · next c hc =>
        cases hp
        obtain ⟨hlt, he⟩ := List.getElem?_eq_some_iff.mp hc
        refine ⟨⟨hlt, ?_, fun h => absurd h ho, ?_, ?_, hS.ended⟩, ?_⟩
        · show (s.yielded ++ [c.event]).filter BackendEvent.isOutput = _
          rw [List.take_succ_eq_append_getElem hlt, List.map_append,
            List.filter_append, he, ← hS.outputs]
          rfl
        · intro hs
          show (s.yielded ++ [c.event]).filter (fun e => !e.isOutput) = []
          rw [List.filter_append, ← EventStream.terminations, hS.waiting hs]
          rfl
        · intro hs
          obtain ⟨code, hcode, ht⟩ := hS.yielded hs
          refine ⟨code, hcode, ?_⟩
          show (s.yielded ++ [c.event]).filter (fun e => !e.isOutput) = _
          rw [List.filter_append, ← EventStream.terminations, ht]
          rfl
        · simp only [EventStream.remaining]
          omega
    · next hn =>
        split at hp
        · next hf =>
            cases hp
            have hr := List.getElem?_eq_none_iff.mp hn
            refine ⟨⟨hS.received, hS.outputs, fun _ =>
              ⟨hf, Nat.le_antisymm hS.received hr⟩, hS.waiting, hS.yielded,
              fun h => ⟨rfl, (hS.ended h).2⟩⟩, ?_⟩
            simp only [EventStream.remaining, if_neg ho, ↓reduceIte]
            omega
        · cases hp

/-- A poll of the signal's half; by the end of the read loop, the signal
has fired. -/
theorem StreamInv.pollSignal (hS : StreamInv w s)
    (hfired : w.finished = true → ∃ code, w.terminated = .sent code)
    (hp : s.pollSignal w = some s') :
    StreamInv w s' ∧ s'.remaining w < s.remaining w := by
  have hnot : ∀ {x}, s.signal = x → x ≠ .ended → s.ended = true → False :=
    fun hx hne h => hne (hx.symm.trans (hS.ended h).2)
  unfold EventStream.pollSignal at hp
  split at hp
  · next hs =>
    split at hp
    · next code hc =>
        cases hp
        refine ⟨⟨hS.received, ?_, hS.outputEnded, fun h => (by cases h),
          fun _ => ⟨code, hc, ?_⟩, fun h => (hnot hs (by decide) h).elim⟩, ?_⟩
        · show (s.yielded ++ [BackendEvent.terminated code]).filter
            BackendEvent.isOutput = _
          rw [List.filter_append, ← hS.outputs]
          exact List.append_nil _
        · show (s.yielded ++ [BackendEvent.terminated code]).filter
            (fun e => !e.isOutput) = _
          rw [List.filter_append, ← EventStream.terminations, hS.waiting hs]
          rfl
        · simp only [EventStream.remaining, hs, SignalStream.remaining]
          omega
    · next hne =>
        split at hp
        · next hf =>
            obtain ⟨code, hc⟩ := hfired hf
            exact absurd hc (hne code)
        · cases hp
  · next hs =>
      cases hp
      refine ⟨⟨hS.received, hS.outputs, hS.outputEnded,
        fun h => (by cases h), fun _ => hS.yielded (by rw [hs]; decide),
        fun h => (hnot hs (by decide) h).elim⟩, ?_⟩
      simp only [EventStream.remaining, hs, SignalStream.remaining]
      omega
  · cases hp

/-- Closing the stream. -/
theorem StreamInv.close (hS : StreamInv w s) (hp : s.close = some s') :
    StreamInv w s' ∧ s'.remaining w < s.remaining w := by
  unfold EventStream.close at hp
  split at hp
  · next hc =>
      obtain ⟨ho, hs, he⟩ := hc
      cases hp
      refine ⟨⟨hS.received, hS.outputs, hS.outputEnded, hS.waiting,
        hS.yielded, fun _ => ⟨ho, hs⟩⟩, ?_⟩
      simp only [EventStream.remaining, he, Bool.false_eq_true, ↓reduceIte]
      omega
  · cases hp

/-- Every poll keeps the stream right and comes closer to its end. -/
theorem StreamInv.poll {p : SidePoll} (hS : StreamInv w s)
    (hfired : w.finished = true → ∃ code, w.terminated = .sent code)
    (hp : s.poll p w = some s') :
    StreamInv w s' ∧ s'.remaining w < s.remaining w := by
  cases p with
  | output => exact hS.pollOutput hp
  | signal => exact hS.pollSignal hfired hp
  | close => exact hS.close hp

/-- Once the read loop has ended, there is something to poll until the
stream has ended too. -/
theorem EventStream.progress (hf : w.finished = true)
    (he : s.ended = false) : ∃ p s', s.poll p w = some s' := by
  cases ho : s.outputEnded with
  | false =>
      refine ⟨.output, ?_⟩
      show ∃ s', s.pollOutput w = some s'
      unfold EventStream.pollOutput
      rw [ho, if_neg Bool.false_ne_true]
      cases hc : w.outputs[s.received]? with
      | some c => exact ⟨_, rfl⟩
      | none => exact ⟨_, if_pos hf⟩
  | true =>
      cases hs : s.signal with
      | ended => exact ⟨.close, _, if_pos ⟨ho, hs, he⟩⟩
      | spent =>
          refine ⟨.signal, { s with signal := .ended }, ?_⟩
          show s.pollSignal w = _
          unfold EventStream.pollSignal
          rw [hs]
      | waiting =>
          refine ⟨.signal, ?_⟩
          show ∃ s', s.pollSignal w = some s'
          unfold EventStream.pollSignal
          rw [hs]
          dsimp only
          split
          · exact ⟨_, rfl⟩
          · exact ⟨_, if_pos hf⟩

/-- No caller is in the way of the read loop. -/
theorem Grows.act {i : Nat} {β : Type} {op : ClientOp β} {a : Reply}
    {b : β} (hr : w.run i op a = some (b, w')) : Grows w w' := by
  have hsinks := DapClient.run_sinks hr
  have hreader := DapClient.run_reader hr
  have hout : w'.outputs = w.outputs := congrArg Sinks.output hsinks
  have hterm : w'.terminated = w.terminated :=
    congrArg Sinks.terminated hsinks
  refine ⟨hout ▸ List.prefix_rfl, fun hc => hterm.trans hc, fun hf => ⟨?_,
    hout⟩⟩
  unfold DapClient.finished
  rw [hreader.reader, hreader.ended]
  exact hf

/-- The environment only lets the read loop tell more. -/
theorem Grows.env {e : ClientMove} (he : w.envMove e = some w') :
    Grows w w' := by
  have hnot : w.finished = true →
      w'.finished = true ∧ w'.outputs = w.outputs := by
    intro hf
    rw [DapClient.envMove_finished hf e] at he
    cases he
  cases e with
  | frame m =>
      obtain ⟨-, -, rfl⟩ := DapClient.envMove_frame he
      exact ⟨List.prefix_rfl, fun hc => hc, hnot⟩
  | eof =>
      obtain ⟨-, -, rfl⟩ := DapClient.envMove_eof he
      exact ⟨List.prefix_rfl, fun hc => hc, hnot⟩
  | reader k =>
      obtain ⟨op, rest, -, hs⟩ := DapClient.envMove_reader he
      have hsinks := DapClient.readerStep_sinks hs
      refine ⟨?_, fun hc => ?_, hnot⟩
      · have hout : w'.outputs = (w.sinks.step op).output :=
          congrArg Sinks.output hsinks
        rw [hout]
        exact w.sinks.output_steps [op]
      · have hterm : w'.terminated = (w.sinks.step op).terminated :=
          congrArg Sinks.terminated hsinks
        rw [hterm]
        exact Sinks.terminated_steps (s := w.sinks) hc [op]

end

-- =============================================================== result

section

variable {α : Type} {s₀ s : Pool ClientOp α DapClient}
  {h : ClientHistory} {es : EventStream}

/-- What is known in every state of such a run. -/
structure FedInv (w : DapClient) (h : ClientHistory) (es : EventStream) :
    Prop where
  sinks : SinkInv w h
  waiters : WaiterInv w h
  stream : StreamInv w es

theorem Fed.inv (hw : s₀.world = .new) (hr : Fed s₀ h s es) :
    FedInv s.world h es := by
  induction hr with
  | start =>
      rw [hw]
      exact ⟨sinkInv_new, waiterInv_new, streamInv_new _⟩
  | client hr hs hok ih =>
      cases hs with
      | act hp hrun =>
          exact ⟨ih.sinks.act hrun, ih.waiters.act hrun hok,
            ih.stream.grow (.act hrun)⟩
      | env he =>
          exact ⟨ih.sinks.env he, ih.waiters.env he,
            ih.stream.grow (.env he)⟩
  | poll p hr hp ih =>
      exact ⟨ih.sinks, ih.waiters, (ih.stream.poll
        (fun hf => ⟨_, ih.sinks.fired_finished hf⟩) hp).1⟩

/-- What the read loop has told of the frames it has read, and what the
stream has yielded of that. -/
structure ToldOnce (w : DapClient) (h : ClientHistory) (es : EventStream) :
    Prop where
  /-- The signal fires at most once, with the last exit code before. -/
  fires : firings h = [] ∨ firings h = [exitBefore (frames h)]
  /-- It has fired when the read loop has ended. -/
  fired : w.finished = true → firings h = [exitBefore (frames h)]
  /-- Outputs reach the channel in order, each once. -/
  output : w.outputs <+: (frames h).filterMap outputOf
  /-- All of them have when nothing is queued. -/
  outputs : w.reader = [] → w.outputs = (frames h).filterMap outputOf
  /-- The stream yields them in order. -/
  yields : es.outputs <+: ((frames h).filterMap outputOf).map
    OutputChunk.event
  /-- It yields one termination at most. -/
  terminates : es.terminations = [] ∨
    es.terminations = [.terminated (exitBefore (frames h))]
  /-- It ends with all of the outputs, and one termination. -/
  ends : es.ended = true → w.finished = true ∧
    es.outputs = ((frames h).filterMap outputOf).map OutputChunk.event ∧
    es.terminations = [.terminated (exitBefore (frames h))]
  /-- After the read loop it does end: there is a poll that goes on, and
  only so many. -/
  goesOn : w.finished = true → es.ended = false →
    ∃ p es', es.poll p w = some es'
  comesCloser : ∀ p es', es.poll p w = some es' →
    es'.remaining w < es.remaining w
  /-- The execution events dispatched to the stop waiter are those of the
  frames, in order, and the end of the stream. -/
  dispatches : stopsDispatched h ++ w.reader.filterMap ReaderOp.outcome
    = outcomes (frames h) w.ended
  /-- A waiter's receiver has the first of them since it was registered,
  or another registration. -/
  waiters : ∀ i, holdsStop i h = true → Held w i (woken i h)
  /-- That is one outcome: nothing that happens later changes it. -/
  settled : ∀ i r ev, hasRegistered i h = true → woken i h = some r →
    RegistersOnce h ev → woken i (ev :: h) = some r

/-- What a waiter was resolved to stays. -/
theorem woken_settled {i : Nat} {r : Except Unit StopOutcome}
    {ev : ClientEvent} (hreg : hasRegistered i h = true)
    (hr : woken i h = some r) (hok : RegistersOnce h ev) :
    woken i (ev :: h) = some r := by
  cases ev with
  | act j op b w w' =>
      cases op with
      | registerStop =>
          have hij : j ≠ i := by
            rintro rfl
            rw [hok rfl] at hreg
            cases hreg
          rw [woken, if_neg hij, hr]
          rfl
      | _ => exact hr
  | env e w w' =>
      cases e with
      | reader k =>
          rw [woken]
          split
          · rw [hr]
            rfl
          · exact hr
      | _ => exact hr

/-- A run of the client alone. -/
theorem Fed.ofRun (hr : RunIf clientMachine RegistersOnce s₀ h s) :
    Fed s₀ h s .new := by
  induction hr with
  | nil => exact .start
  | snoc _ hs hok ih => exact .client ih hs hok

/-- Polls one after another. -/
def EventStream.polls (w : DapClient) :
    List SidePoll → EventStream → Option EventStream
  | [], es => some es
  | p :: ps, es => (es.poll p w).bind (EventStream.polls w ps)

theorem Fed.polls {ps : List SidePoll} {es' : EventStream} (hr : Fed s₀ h s es)
    (hp : es.polls s.world ps = some es') : Fed s₀ h s es' := by
  induction ps generalizing es with
  | nil =>
      cases hp
      exact hr
  | cons p ps ih =>
      obtain ⟨es₁, h₁, hp⟩ := Option.bind_eq_some_iff.mp hp
      exact ih (.poll p hr h₁) hp

end

instance RegistersOnce.decidable (h : ClientHistory) :
    ∀ ev, Decidable (RegistersOnce h ev)
  | .act i op _ _ _ => inferInstanceAs (Decidable
      (op.registersStop = true → hasRegistered i h = false))
  | .env _ _ _ => .isTrue trivial

/-- One caller, which registers a stop waiter. -/
def oneWaiter : Pool ClientOp Unit DapClient where
  world := .new
  prog i := if i = 0 then some (client .registerStop) else none

/-- It registers; then an output, the exit with code 3, `terminated` and
the end of the stream are read. -/
def shortSession : List (Action Reply ClientMove) :=
  [.step 0 .sync,
    .env (.frame (.event (.output ⟨1, "event", "output", "stdout", "hi"⟩))),
    .env (.reader 0),
    .env (.frame (.event (.exited ⟨2, "event", "exited", 3⟩))),
    .env (.reader 0), .env (.reader 0), .env (.reader 0),
    .env (.frame (.event .terminated)),
    .env (.reader 0), .env (.reader 0),
    .env .eof, .env (.reader 0), .env (.reader 0), .env (.reader 0),
    .env (.reader 0)]

/-- The stream polled to its end, the signal before the output. -/
def signalFirst : List SidePoll := [.signal, .signal, .output, .output, .close]

end DebugMcp
