/-
The event stream of the WinDbg backend, next to the engine thread.

A turn of the stream looks at the output channel, then at the engine's
termination signal, then at the backend's drop signal, and between two
looks the engine thread runs on. A line that is sent after the first
look, before the signal is fired, is lost when the second look sees the
signal (`raced`); and a signal that is fired after the second look loses
its code when the third sees the drop (`overtaken`). Once the drop was
seen, a line that is sent before the signal is fired reaches no one.
`stream_whole_when_in_order` is what holds in every run in which none of
this happens.
-/
import DebugMcp.Core
import DebugMcp.Dap.Client
import Mathlib.Logic.Relation

namespace DebugMcp

-- =============================================================== stream

/-- The kinds of DbgEng's output. -/
inductive OutputKind
  | normal | error | warning | prompt
  | other (mask : UInt32)
  deriving DecidableEq

/-- `category_for`. -/
def categoryFor : OutputKind → String
  | .normal => "stdout"
  | .error | .warning => "stderr"
  | .prompt => "console"
  | .other _ => "console"

/-- A line of output. -/
abbrev OutputLine := OutputKind × String

/-- What a line becomes. -/
def lineEvent (line : OutputLine) : BackendEvent :=
  .output (categoryFor line.1) line.2

/-- What the stream looks at next: the three channels of a turn, the
`terminate` future alone once the output channel is closed, or nothing,
after the terminal event and at the end. -/
inductive Look
  | output | signal | drop | lastSignal | lastDrop | terminated | ended
  deriving DecidableEq

/-- The channels and the stream. `sent` are all lines ever sent, of which
the first `received` were received; the engine thread has its
termination sender as long as `senderLeft`. -/
structure StreamState where
  sent : List OutputLine
  outputOpen : Bool
  signal : Oneshot (Option Int)
  senderLeft : Bool
  backendDropped : Bool
  received : Nat
  look : Look
  yielded : List BackendEvent
  deriving DecidableEq

/-- A new stream, with its channels. -/
def StreamState.new : StreamState where
  sent := []
  outputOpen := true
  signal := .empty
  senderLeft := true
  backendDropped := false
  received := 0
  look := .output
  yielded := []

/-- A step: of the engine thread, of the backend, or a look of the
stream. -/
inductive StreamMove
  | send (line : OutputLine)
  | closeOutput
  | fire (code : Option Int)
  | dropSender
  | dropBackend
  | poll
  deriving DecidableEq

namespace StreamState

variable (s : StreamState)

/-- The terminal event, with the code. The receiver of the signal goes
with the `terminate` future. -/
def terminate (code : Option Int) : StreamState := { s with
  yielded := s.yielded ++ [.terminated code]
  signal := s.signal.drop
  look := .terminated }

/-- The look at the signal: a sender that was dropped gives no code. -/
def lookSignal (next : Look) : StreamState :=
  match s.signal.recv with
  | some (.ok code) => s.terminate code
  | some (.error ()) => s.terminate none
  | none => { s with look := next }

theorem lookSignal_empty {next : Look} (he : s.signal = .empty) :
    s.lookSignal next = { s with look := next } := by
  rw [lookSignal, he]
  rfl

theorem lookSignal_closed {next : Look} (he : s.signal = .closed) :
    s.lookSignal next = s.terminate none := by
  rw [lookSignal, he]
  rfl

theorem lookSignal_sent {next : Look} {code : Option Int}
    (he : s.signal = .sent code) :
    s.lookSignal next = s.terminate code := by
  rw [lookSignal, he]
  rfl

/-- The look at the backend's drop. -/
def lookDrop (next : Look) : StreamState :=
  if s.backendDropped then s.terminate none else { s with look := next }

/-- The look at the output channel. -/
def lookOutput : StreamState :=
  match s.sent[s.received]? with
  | some line => { s with
      received := s.received + 1, yielded := s.yielded ++ [lineEvent line] }
  | none => { s with look := if s.outputOpen then .signal else .lastSignal }

/-- The next look. -/
def poll : Option StreamState :=
  match s.look with
  | .output => some s.lookOutput
  | .signal => some (s.lookSignal .drop)
  | .drop => some (s.lookDrop .output)
  | .lastSignal => some (s.lookSignal .lastDrop)
  | .lastDrop => some (s.lookDrop .lastSignal)
  | .terminated => some { s with look := .ended }
  | .ended => none

/-- One step. Firing uses the sender up, also where the receiver is
gone. -/
def move : StreamMove → Option StreamState
  | .send line =>
      if s.outputOpen then some { s with sent := s.sent ++ [line] } else none
  | .closeOutput =>
      if s.outputOpen then some { s with outputOpen := false } else none
  | .fire code =>
      if s.senderLeft then
        some { s with signal := s.signal.send code, senderLeft := false }
      else none
  | .dropSender =>
      if s.senderLeft then
        some { s with signal := s.signal.close, senderLeft := false }
      else none
  | .dropBackend =>
      if s.backendDropped then none else some { s with backendDropped := true }
  | .poll => s.poll

/-- Is there a termination to see, or was it seen already? -/
def Triggered : Prop :=
  s.signal.recv.isSome ∨ s.backendDropped = true ∨
    s.look = .terminated ∨ s.look = .ended

/-- The outputs that were yielded. -/
def outputs : List BackendEvent := s.yielded.filter BackendEvent.isOutput

/-- The terminal events that were yielded. -/
def terminations : List BackendEvent :=
  s.yielded.filter fun e => !e.isOutput

end StreamState

-- ================================================================= runs

/-- The steps of a run, newest first, each with the state before it. -/
abbrev StreamHistory := List (StreamMove × StreamState)

/-- The runs whose steps all meet a condition. -/
inductive StreamRun (ok : StreamHistory → StreamState → StreamMove → Prop) :
    StreamHistory → StreamState → Prop
  | start : StreamRun ok [] .new
  | step {h : StreamHistory} {s s' : StreamState} {m : StreamMove}
      (hr : StreamRun ok h s) (hm : s.move m = some s') (hok : ok h s m) :
      StreamRun ok ((m, s) :: h) s'

/-- The code the signal was fired with, and the state before. -/
def signalFired : StreamHistory → Option (Option Int × StreamState)
  | [] => none
  | (.fire code, s) :: _ => some (code, s)
  | _ :: h => signalFired h

/-- Was a line sent since the stream last looked at the output? -/
def sentSince : StreamHistory → Bool
  | [] => false
  | (.send _, _) :: _ => true
  | (.poll, s) :: h => if s.look = .output then false else sentSince h
  | _ :: h => sentSince h

/-- Was a line sent since then, and after it the signal fired? -/
def raced : StreamHistory → Bool
  | [] => false
  | (.fire _, _) :: h => sentSince h
  | (.poll, s) :: h => if s.look = .output then false else raced h
  | _ :: h => raced h

/-- Was the signal fired with a code since the stream last looked at
it? -/
def overtaken : StreamHistory → Bool
  | [] => false
  | (.fire code, _) :: _ => code.isSome
  | (.poll, s) :: h =>
      if s.look = .signal ∨ s.look = .lastSignal then false
      else overtaken h
  | _ :: h => overtaken h

/-- The stream has said nothing of the termination yet. -/
def Look.open : Look → Bool
  | terminated | ended => false
  | _ => true

/-- Is it the fire of the signal? -/
def StreamMove.isFire : StreamMove → Bool
  | fire _ => true
  | _ => false

/-- A look that sees the termination sees it in order: no line was sent,
and then the signal fired, since its turn saw the output channel empty;
and when it sees the drop, no code was fired since it looked at the
signal. A signal that is fired after the stream has ended, by the drop,
is not fired after a line that came too late for it. -/
def InOrder (h : StreamHistory) (s : StreamState) (m : StreamMove) : Prop :=
  (m = .poll →
    (s.look = .signal → s.signal.recv.isSome → raced h = false) ∧
    (s.look = .drop → s.backendDropped = true → raced h = false) ∧
    (s.look = .drop ∨ s.look = .lastDrop → s.backendDropped = true →
      overtaken h = false)) ∧
  (m.isFire = true → s.look.open = false → sentSince h = false)

-- ============================================================ invariant

/-- What is known of every state of a run in which the termination is
seen in order. -/
structure StreamOrder (h : StreamHistory) (s : StreamState) : Prop where
  received : s.received ≤ s.sent.length
  /-- What was sent before the signal was sent first. -/
  before : ∀ code fired, signalFired h = some (code, fired) →
    fired.sent <+: s.sent
  /-- Who has the sender has not fired the signal. -/
  sender : s.senderLeft = true → signalFired h = none ∧
    (s.look.open = true → s.signal = .empty)
  /-- Before the termination is seen, the outputs are all there is. -/
  going : s.look.open = true →
    s.yielded = (s.sent.take s.received).map lineEvent
  /-- The signal holds what was fired. -/
  signal : s.look.open = true →
    (signalFired h = none ∧ (s.signal = .empty ∨ s.signal = .closed)) ∨
    ∃ code fired, signalFired h = some (code, fired) ∧
      s.signal = .sent code
  /-- In the rest of a turn, what was not received was sent since. -/
  turn : s.look = .signal ∨ s.look = .drop →
    (sentSince h = false → s.received = s.sent.length) ∧
    (raced h = false → ∀ code fired,
      signalFired h = some (code, fired) → fired.sent.length ≤ s.received)
  /-- A closed channel is empty when the turn goes on. -/
  last : s.look = .lastSignal ∨ s.look = .lastDrop →
    s.outputOpen = false ∧ s.received = s.sent.length
  /-- Between the looks at the signal and at the drop, only a code that
  overtakes can have been fired. -/
  between : s.look = .drop ∨ s.look = .lastDrop → overtaken h = false →
    ∀ code fired, signalFired h = some (code, fired) → code = none
  /-- The terminal event comes last, with the code if that was fired in
  time, after every output that was sent before the signal. -/
  told : s.look.open = false → s.signal = .dropped ∧
    (sentSince h = false → s.received = s.sent.length) ∧ ∃ code,
    s.yielded = (s.sent.take s.received).map lineEvent
      ++ [.terminated code] ∧
    ∀ c fired, signalFired h = some (c, fired) →
      (fired.terminations = [] → code = c) ∧
      fired.sent.length ≤ s.received

theorem streamOrder_new : StreamOrder [] .new where
  received := Nat.le_refl _
  before _ _ h := by cases h
  sender _ := ⟨rfl, fun _ => rfl⟩
  going _ := rfl
  signal _ := .inl ⟨rfl, .inl rfl⟩
  turn h := by rcases h with h | h <;> cases h
  last h := by rcases h with h | h <;> cases h
  between h := by rcases h with h | h <;> cases h
  told h := by cases h

namespace StreamOrder

variable {h : StreamHistory} {s : StreamState}

/-- What was received stays the first part of what was sent. -/
theorem take_send (hs : StreamOrder h s) (line : OutputLine) :
    (s.sent ++ [line]).take s.received = s.sent.take s.received :=
  List.take_append_of_le_length hs.received

/-- A line is sent. -/
theorem send (hs : StreamOrder h s) (line : OutputLine)
    (hopen : s.outputOpen = true) :
    StreamOrder ((.send line, s) :: h)
      { s with sent := s.sent ++ [line] } where
  received := by
    show s.received ≤ (s.sent ++ [line]).length
    rw [List.length_append]
    exact Nat.le_add_right_of_le hs.received
  before c ls hf := (hs.before c ls hf).trans (List.prefix_append _ _)
  sender := hs.sender
  going ho := by
    show s.yielded = ((s.sent ++ [line]).take s.received).map lineEvent
    rw [hs.take_send]
    exact hs.going ho
  signal := hs.signal
  turn hl := ⟨fun h => (by cases h), (hs.turn hl).2⟩
  last hl := by
    have hc := (hs.last hl).1
    rw [hopen] at hc
    cases hc
  between := hs.between
  told ho := by
    show s.signal = .dropped ∧ _ ∧ ∃ code,
      s.yielded = ((s.sent ++ [line]).take s.received).map lineEvent
        ++ [.terminated code] ∧ _
    rw [hs.take_send]
    obtain ⟨hd, -, hy⟩ := hs.told ho
    exact ⟨hd, fun h => (by cases h), hy⟩

/-- The output channel is closed. -/
theorem close (hs : StreamOrder h s) :
    StreamOrder ((.closeOutput, s) :: h) { s with outputOpen := false } where
  received := hs.received
  before := hs.before
  sender := hs.sender
  going := hs.going
  signal := hs.signal
  turn := hs.turn
  last hl := ⟨rfl, (hs.last hl).2⟩
  between := hs.between
  told := hs.told

/-- The backend is dropped. -/
theorem dropBackend (hs : StreamOrder h s) :
    StreamOrder ((.dropBackend, s) :: h) { s with backendDropped := true }
    where
  received := hs.received
  before := hs.before
  sender := hs.sender
  going := hs.going
  signal := hs.signal
  turn := hs.turn
  last := hs.last
  between := hs.between
  told := hs.told

/-- A stream that has ended told the termination. -/
theorem terminations_ne (hs : StreamOrder h s)
    (hn : s.look.open = false) : s.terminations ≠ [] := by
  obtain ⟨-, -, code, hy, -⟩ := hs.told hn
  rw [StreamState.terminations, hy, List.filter_append]
  apply List.append_ne_nil_of_right_ne_nil
  exact List.cons_ne_nil _ _

/-- The signal is fired while the stream goes on. -/
theorem fire (hs : StreamOrder h s) (code : Option Int)
    (ho : s.look.open = true) (he : s.signal = .empty) :
    StreamOrder ((.fire code, s) :: h)
      { s with signal := s.signal.send code, senderLeft := false } := by
  refine ⟨hs.received, ?_, fun hl => (by cases hl), hs.going, ?_, ?_,
    hs.last, ?_, ?_⟩
  · intro c fired hc
    cases hc
    exact List.prefix_refl _
  · intro _
    refine .inr ⟨code, s, rfl, ?_⟩
    rw [he]
    rfl
  · intro hl
    refine ⟨(hs.turn hl).1, fun hr c fired hc => ?_⟩
    cases hc
    -- nothing was sent since the empty look, so all of it is received
    exact ((hs.turn hl).1 hr).ge
  · intro _ hov c fired hc
    cases hc
    exact Option.not_isSome_iff_eq_none.mp (Bool.eq_false_iff.mp hov)
  · intro hn
    exact absurd (ho.symm.trans hn) (by decide)

/-- It is fired after the end: of what was sent by then nothing is
missing. -/
theorem fire_late (hs : StreamOrder h s) (code : Option Int)
    (hn : s.look.open = false) (hsince : sentSince h = false) :
    StreamOrder ((.fire code, s) :: h)
      { s with signal := s.signal.send code, senderLeft := false } := by
  obtain ⟨hd, hall, c, hy, -⟩ := hs.told hn
  have hne (l : Look) (ho : l.open = true) : s.look ≠ l := by
    rintro rfl
    exact absurd (ho.symm.trans hn) (by decide)
  refine ⟨hs.received, ?_, fun hl => (by cases hl), hs.going, ?_, ?_,
    hs.last, ?_, ?_⟩
  · intro c fired hc
    cases hc
    exact List.prefix_refl _
  · exact fun ho => absurd (ho.symm.trans hn) (by decide)
  · rintro (hl | hl) <;> exact absurd hl (hne _ rfl)
  · rintro (hl | hl) <;> exact absurd hl (hne _ rfl)
  · refine fun _ => ⟨?_, fun _ => hall hsince, c, hy, fun c' fired hc => ?_⟩
    · show s.signal.send code = .dropped
      rw [hd]
      rfl
    · cases hc
      exact ⟨fun ht => absurd ht (hs.terminations_ne hn),
        (hall hsince).ge⟩

/-- The sender is dropped. -/
theorem dropSender (hs : StreamOrder h s) :
    StreamOrder ((.dropSender, s) :: h)
      { s with signal := s.signal.close, senderLeft := false } where
  received := hs.received
  before := hs.before
  sender hl := by cases hl
  going := hs.going
  signal ho := by
    rcases hs.signal ho with ⟨hf, he | he⟩ | ⟨c, ls, hf, he⟩
    · exact .inl ⟨hf, .inr (congrArg Oneshot.close he)⟩
    · exact .inl ⟨hf, .inr (congrArg Oneshot.close he)⟩
    · exact .inr ⟨c, ls, hf, congrArg Oneshot.close he⟩
  turn := hs.turn
  last := hs.last
  between := hs.between
  told ho := ⟨congrArg Oneshot.close (hs.told ho).1, (hs.told ho).2⟩

/-- The next line is received. -/
theorem receive (hs : StreamOrder h s) (hl : s.look = .output)
    {line : OutputLine} (hn : s.sent[s.received]? = some line) :
    StreamOrder ((.poll, s) :: h) { s with
      received := s.received + 1
      yielded := s.yielded ++ [lineEvent line] } := by
  have ho : s.look.open = true := by rw [hl]; rfl
  have hne : ∀ l, l ≠ .output → s.look ≠ l := by
    rintro l hl' rfl
    exact hl' hl
  refine ⟨?_, hs.before, hs.sender, fun _ => ?_, hs.signal, ?_, ?_, ?_,
    ?_⟩
  · exact (List.getElem?_eq_some_iff.mp hn).1
  · show s.yielded ++ [lineEvent line]
      = (s.sent.take (s.received + 1)).map lineEvent
    rw [hs.going ho, List.take_add_one, hn, List.map_append]
    rfl
  · rintro (hl' | hl') <;> exact absurd hl' (hne _ (by decide))
  · rintro (hl' | hl') <;> exact absurd hl' (hne _ (by decide))
  · rintro (hl' | hl') <;> exact absurd hl' (hne _ (by decide))
  · exact fun hn => absurd (ho.symm.trans hn) (by decide)

/-- The output channel is seen empty: everything is received. -/
theorem seen_empty (hs : StreamOrder h s) (hl : s.look = .output)
    (hn : s.sent[s.received]? = none) :
    StreamOrder ((.poll, s) :: h)
      { s with look := if s.outputOpen then .signal else .lastSignal } := by
  have ho : s.look.open = true := by rw [hl]; rfl
  have hall : s.received = s.sent.length :=
    Nat.le_antisymm hs.received (List.getElem?_eq_none_iff.mp hn)
  refine ⟨hs.received, hs.before,
    fun hl => ⟨(hs.sender hl).1, fun _ => (hs.sender hl).2 ho⟩,
    fun _ => hs.going ho, fun _ => hs.signal ho, ?_, ?_, ?_, ?_⟩
  · refine fun _ => ⟨fun _ => hall, fun _ c ls hc => ?_⟩
    rw [hall]
    exact (hs.before c ls hc).length_le
  · intro hl'
    refine ⟨?_, hall⟩
    cases hopen : s.outputOpen with
    | true => simp [hopen] at hl'
    | false => rfl
  · intro hl'
    cases hopen : s.outputOpen <;> simp [hopen] at hl'
  · intro hl'
    cases hopen : s.outputOpen <;> simp [hopen, Look.open] at hl'

/-- A look that finds nothing: to the next one of the turn, or of the
`terminate` future alone. -/
theorem look_on (hs : StreamOrder h s) {next : Look}
    (ho : s.look.open = true) (hno : next.open = true)
    (hturn : next = .signal ∨ next = .drop → s.look = .signal)
    (hlast : next = .lastSignal ∨ next = .lastDrop →
      s.look = .lastSignal ∨ s.look = .lastDrop)
    (hfired : next = .drop ∨ next = .lastDrop → signalFired h = none) :
    StreamOrder ((.poll, s) :: h) { s with look := next } := by
  have hsince (hl : s.look = .signal) :
      sentSince ((.poll, s) :: h) = sentSince h ∧
      raced ((.poll, s) :: h) = raced h := by
    have hne : s.look ≠ .output := by rw [hl]; decide
    exact ⟨if_neg hne, if_neg hne⟩
  refine ⟨hs.received, hs.before,
    fun hl => ⟨(hs.sender hl).1, fun _ => (hs.sender hl).2 ho⟩,
    fun _ => hs.going ho, fun _ => hs.signal ho, ?_,
    fun hl => hs.last (hlast hl), ?_, ?_⟩
  · intro hl
    have hsig := hturn hl
    rw [(hsince hsig).1, (hsince hsig).2]
    exact hs.turn (.inl hsig)
  · intro hl _ c ls hc
    exact absurd ((hfired hl).symm.trans hc) (by simp)
  · exact fun hn => absurd (hno.symm.trans hn) (by decide)

/-- The terminal event: it has the code that was fired, and every line
that was sent before is out. -/
theorem terminate (hs : StreamOrder h s) (code : Option Int)
    (ho : s.look.open = true) (hout : s.look ≠ .output)
    (hall : sentSince h = false → s.received = s.sent.length)
    (htold : ∀ c fired, signalFired h = some (c, fired) →
      code = c ∧ fired.sent.length ≤ s.received) :
    StreamOrder ((.poll, s) :: h) (s.terminate code) := by
  have hsince : sentSince ((.poll, s) :: h) = sentSince h := if_neg hout
  refine ⟨hs.received, hs.before,
    fun hl => ⟨(hs.sender hl).1, fun hn => (by cases hn)⟩, ?_, ?_, ?_, ?_,
    ?_, fun _ => ?_⟩
  · exact fun h => (by cases h)
  · exact fun h => (by cases h)
  · rintro (hl | hl) <;> cases hl
  · rintro (hl | hl) <;> cases hl
  · rintro (hl | hl) <;> cases hl
  · refine ⟨by cases hd : s.signal <;> rfl, hsince ▸ hall, code, ?_,
      fun c fired hf => ⟨fun _ => (htold c fired hf).1,
        (htold c fired hf).2⟩⟩
    show s.yielded ++ [_] = (s.sent.take s.received).map lineEvent ++ [_]
    rw [hs.going ho]

/-- In the rest of a turn in which nothing raced, what was sent before
the signal is out. -/
theorem out_turn (hs : StreamOrder h s)
    (hl : s.look = .signal ∨ s.look = .drop) (hr : raced h = false)
    (c : Option Int) (fired : StreamState)
    (hf : signalFired h = some (c, fired)) :
    fired.sent.length ≤ s.received :=
  (hs.turn hl).2 hr c fired hf

/-- Once the output channel is closed, everything is out. -/
theorem out_last (hs : StreamOrder h s)
    (hl : s.look = .lastSignal ∨ s.look = .lastDrop)
    (c : Option Int) (fired : StreamState)
    (hf : signalFired h = some (c, fired)) :
    fired.sent.length ≤ s.received := by
  rw [(hs.last hl).2]
  exact (hs.before c fired hf).length_le

/-- After the output channel was seen empty, what is not received was
sent since. -/
theorem seen (hs : StreamOrder h s) (ho : s.look.open = true)
    (hout : s.look ≠ .output) (hsince : sentSince h = false) :
    s.received = s.sent.length := by
  cases hl : s.look with
  | output => exact absurd hl hout
  | signal => exact (hs.turn (.inl hl)).1 hsince
  | drop => exact (hs.turn (.inr hl)).1 hsince
  | lastSignal => exact (hs.last (.inl hl)).2
  | lastDrop => exact (hs.last (.inr hl)).2
  | terminated | ended =>
    rw [hl] at ho
    cases ho

/-- The look at the signal. -/
theorem look_signal (hs : StreamOrder h s) {next : Look}
    (hl : s.look = .signal ∧ next = .drop ∨
      s.look = .lastSignal ∧ next = .lastDrop)
    (hr : s.look = .signal → s.signal.recv.isSome → raced h = false) :
    StreamOrder ((.poll, s) :: h) (s.lookSignal next) := by
  have ho : s.look.open = true := by
    rcases hl with ⟨hl, -⟩ | ⟨hl, -⟩ <;> rw [hl] <;> rfl
  have hne : s.look ≠ .output := by
    rcases hl with ⟨hl, -⟩ | ⟨hl, -⟩ <;> rw [hl] <;> decide
  have hout (hsome : s.signal.recv.isSome) (c fired)
      (hf : signalFired h = some (c, fired)) :
      fired.sent.length ≤ s.received := by
    rcases hl with ⟨hl, -⟩ | ⟨hl, -⟩
    · exact hs.out_turn (.inl hl) (hr hl hsome) c fired hf
    · exact hs.out_last (.inl hl) c fired hf
  rcases hs.signal ho with ⟨hf, he | he⟩ | ⟨code, fired, hf, he⟩
  · rw [s.lookSignal_empty he]
    apply hs.look_on ho
    · rcases hl with ⟨-, rfl⟩ | ⟨-, rfl⟩ <;> rfl
    · rcases hl with ⟨hl, rfl⟩ | ⟨-, rfl⟩
      · exact fun _ => hl
      · rintro (hn | hn) <;> cases hn
    · rcases hl with ⟨-, rfl⟩ | ⟨hl, rfl⟩
      · rintro (hn | hn) <;> cases hn
      · exact fun _ => .inl hl
    · exact fun _ => hf
  · rw [s.lookSignal_closed he]
    refine hs.terminate none ho hne (hs.seen ho hne) fun c fired hc => ?_
    cases hf.symm.trans hc
  · have hsome : s.signal.recv.isSome := by rw [he]; rfl
    rw [s.lookSignal_sent he]
    refine hs.terminate code ho hne (hs.seen ho hne) fun c fired' hc => ?_
    cases hf.symm.trans hc
    exact ⟨rfl, hout hsome code fired hf⟩

/-- The look at the backend's drop. -/
theorem look_drop (hs : StreamOrder h s) {next : Look}
    (hl : s.look = .drop ∧ next = .output ∨
      s.look = .lastDrop ∧ next = .lastSignal)
    (hr : s.look = .drop → s.backendDropped = true → raced h = false)
    (hov : s.backendDropped = true → overtaken h = false) :
    StreamOrder ((.poll, s) :: h) (s.lookDrop next) := by
  have hl' : s.look = .drop ∨ s.look = .lastDrop :=
    hl.imp And.left And.left
  have ho : s.look.open = true := by
    rcases hl' with hl | hl <;> rw [hl] <;> rfl
  have hne : s.look ≠ .output := by
    rcases hl' with hl | hl <;> rw [hl] <;> decide
  unfold StreamState.lookDrop
  by_cases hd : s.backendDropped = true
  · rw [if_pos hd]
    refine hs.terminate none ho hne (hs.seen ho hne) fun c fired hf =>
      ⟨?_, ?_⟩
    · exact (hs.between hl' (hov hd) c fired hf).symm
    · rcases hl' with hl | hl
      · exact hs.out_turn (.inr hl) (hr hl hd) c fired hf
      · exact hs.out_last (.inr hl) c fired hf
  · rw [if_neg hd]
    apply hs.look_on ho
    · rcases hl with ⟨-, rfl⟩ | ⟨-, rfl⟩ <;> rfl
    · rcases hl with ⟨-, rfl⟩ | ⟨-, rfl⟩ <;> rintro (hn | hn) <;> cases hn
    · rcases hl with ⟨-, rfl⟩ | ⟨hl, rfl⟩
      · rintro (hn | hn) <;> cases hn
      · exact fun _ => .inr hl
    · rcases hl with ⟨-, rfl⟩ | ⟨-, rfl⟩ <;> rintro (hn | hn) <;> cases hn

/-- The poll after the terminal event. -/
theorem finish (hs : StreamOrder h s) (hl : s.look = .terminated) :
    StreamOrder ((.poll, s) :: h) { s with look := .ended } := by
  have hn : s.look.open = false := by rw [hl]; rfl
  have hsince : sentSince ((.poll, s) :: h) = sentSince h :=
    if_neg (by rw [hl]; decide)
  refine ⟨hs.received, hs.before,
    fun hl => ⟨(hs.sender hl).1, fun ho => (by cases ho)⟩, ?_, ?_, ?_, ?_,
    ?_, fun _ => hsince ▸ hs.told hn⟩
  · exact fun h => (by cases h)
  · exact fun h => (by cases h)
  · rintro (hl | hl) <;> cases hl
  · rintro (hl | hl) <;> cases hl
  · rintro (hl | hl) <;> cases hl

/-- A look in order keeps the invariant. -/
theorem poll (hs : StreamOrder h s) {s' : StreamState}
    (hp : s.poll = some s') (hok : InOrder h s .poll) :
    StreamOrder ((.poll, s) :: h) s' := by
  obtain ⟨hsig, hdrop, hov⟩ := hok.1 rfl
  unfold StreamState.poll at hp
  cases hl : s.look with
  | output =>
    rw [hl] at hp
    cases hp
    unfold StreamState.lookOutput
    cases hn : s.sent[s.received]? with
    | some line => exact hs.receive hl hn
    | none => exact hs.seen_empty hl hn
  | signal =>
    rw [hl] at hp
    cases hp
    exact hs.look_signal (.inl ⟨hl, rfl⟩) hsig
  | drop =>
    rw [hl] at hp
    cases hp
    exact hs.look_drop (.inl ⟨hl, rfl⟩) hdrop (hov (.inl hl))
  | lastSignal =>
    rw [hl] at hp
    cases hp
    exact hs.look_signal (.inr ⟨hl, rfl⟩) hsig
  | lastDrop =>
    rw [hl] at hp
    cases hp
    exact hs.look_drop (.inr ⟨hl, rfl⟩) hdrop (hov (.inr hl))
  | terminated =>
    rw [hl] at hp
    cases hp
    exact hs.finish hl
  | ended =>
    rw [hl] at hp
    cases hp

/-- Every step keeps the invariant. -/
theorem step (hs : StreamOrder h s) {m : StreamMove} {s' : StreamState}
    (hm : s.move m = some s') (hok : InOrder h s m) :
    StreamOrder ((m, s) :: h) s' := by
  cases m with
  | send line =>
    obtain ⟨hopen, hs'⟩ := Option.ite_none_right_eq_some.mp hm
    cases hs'
    exact hs.send line hopen
  | closeOutput =>
    obtain ⟨-, hs'⟩ := Option.ite_none_right_eq_some.mp hm
    cases hs'
    exact hs.close
  | fire code =>
    obtain ⟨hleft, hs'⟩ := Option.ite_none_right_eq_some.mp hm
    cases hs'
    cases ho : s.look.open with
    | true => exact hs.fire code ho ((hs.sender hleft).2 ho)
    | false => exact hs.fire_late code ho (hok.2 rfl ho)
  | dropSender =>
    obtain ⟨-, hs'⟩ := Option.ite_none_right_eq_some.mp hm
    cases hs'
    exact hs.dropSender
  | dropBackend =>
    obtain ⟨-, hs'⟩ := Option.ite_none_left_eq_some.mp hm
    cases hs'
    exact hs.dropBackend
  | poll => exact hs.poll hm hok

end StreamOrder

/-- The invariant holds in every run that is in order. -/
theorem StreamRun.ordered {h : StreamHistory} {s : StreamState}
    (hr : StreamRun InOrder h s) : StreamOrder h s := by
  induction hr with
  | start => exact streamOrder_new
  | step _ hm hok ih => exact ih.step hm hok

-- ============================================================= progress

namespace StreamState

/-- How many polls are left once there is a termination to see. -/
def pollsLeft (s : StreamState) : Nat :=
  match s.look with
  | .output => 4 + (s.sent.length - s.received)
  | .signal | .lastSignal => 3
  | .drop => if s.backendDropped then 2
      else 5 + (s.sent.length - s.received)
  | .lastDrop => if s.backendDropped then 2 else 4
  | .terminated => 1
  | .ended => 0

/-- The termination is seen. -/
theorem terminate_progress (s : StreamState) (code : Option Int) :
    (s.terminate code).pollsLeft = 1 ∧ (s.terminate code).Triggered :=
  ⟨rfl, .inr (.inr (.inl rfl))⟩

/-- The look at the signal sees it, unless it is the drop that there is
to see. -/
theorem lookSignal_progress {s : StreamState} {next : Look}
    (ht : s.signal.recv.isSome ∨ s.backendDropped = true)
    (hn : next = .drop ∨ next = .lastDrop) :
    (s.lookSignal next).pollsLeft < 3 ∧ (s.lookSignal next).Triggered := by
  have htold (code : Option Int) :
      (s.terminate code).pollsLeft < 3 ∧ (s.terminate code).Triggered := by
    refine ⟨?_, (s.terminate_progress code).2⟩
    rw [(s.terminate_progress code).1]
    decide
  unfold lookSignal
  cases hrecv : s.signal.recv with
  | some r => cases r <;> exact htold _
  | none =>
    have hd : s.backendDropped = true := by
      rcases ht with ht | hd
      · rw [hrecv] at ht
        cases ht
      · exact hd
    refine ⟨?_, .inr (.inl hd)⟩
    rcases hn with rfl | rfl <;> simp [pollsLeft, hd]

/-- The look at the drop sees it, unless it is the signal that there is
to see. -/
theorem lookDrop_progress {s : StreamState} {next : Look} {n : Nat}
    (ht : s.signal.recv.isSome ∨ s.backendDropped = true)
    (hd : s.backendDropped = true → 1 < n)
    (hs : s.backendDropped = false → { s with look := next }.pollsLeft < n) :
    (s.lookDrop next).pollsLeft < n ∧ (s.lookDrop next).Triggered := by
  unfold lookDrop
  by_cases hdrop : s.backendDropped = true
  · rw [if_pos hdrop, (s.terminate_progress none).1]
    exact ⟨hd hdrop, (s.terminate_progress none).2⟩
  · rw [if_neg hdrop]
    exact ⟨hs (Bool.eq_false_iff.mpr hdrop), .inl (ht.resolve_right hdrop)⟩

/-- The look at the output receives a line or finds there is none. -/
theorem lookOutput_progress {s : StreamState} (hl : s.look = .output)
    (ht : s.signal.recv.isSome ∨ s.backendDropped = true) :
    s.lookOutput.pollsLeft < s.pollsLeft ∧ s.lookOutput.Triggered := by
  have hleft : s.pollsLeft = 4 + (s.sent.length - s.received) := by
    rw [pollsLeft, hl]
  have ht' : s.signal.recv.isSome ∨ s.backendDropped = true ∨
      s.look = .terminated ∨ s.look = .ended := ht.imp_right .inl
  rw [hleft]
  unfold lookOutput
  cases hn : s.sent[s.received]? with
  | some line =>
    have hlt : s.received < s.sent.length :=
      (List.getElem?_eq_some_iff.mp hn).1
    refine ⟨?_, ht'⟩
    simp only [pollsLeft, hl]
    omega
  | none =>
    refine ⟨?_, ht.imp_right .inl⟩
    cases s.outputOpen <;> simp [pollsLeft] <;> omega

/-- Once there is a termination to see, every poll comes closer to the
end. -/
theorem poll_progress {s : StreamState} (ht : s.Triggered)
    (hne : s.look ≠ .ended) :
    ∃ s', s.poll = some s' ∧ s'.pollsLeft < s.pollsLeft ∧ s'.Triggered := by
  have hopen (ho : s.look ≠ .terminated) :
      s.signal.recv.isSome ∨ s.backendDropped = true :=
    (or_assoc.mpr ht).resolve_right fun h => h.elim ho hne
  unfold poll
  cases hl : s.look with
  | output =>
    exact ⟨_, rfl, lookOutput_progress hl (hopen (by rw [hl]; decide))⟩
  | signal =>
    have hleft : s.pollsLeft = 3 := by rw [pollsLeft, hl]
    rw [hleft]
    exact ⟨_, rfl, lookSignal_progress (hopen (by rw [hl]; decide))
      (.inl rfl)⟩
  | lastSignal =>
    have hleft : s.pollsLeft = 3 := by rw [pollsLeft, hl]
    rw [hleft]
    exact ⟨_, rfl, lookSignal_progress (hopen (by rw [hl]; decide))
      (.inr rfl)⟩
  | drop =>
    refine ⟨_, rfl, lookDrop_progress (hopen (by rw [hl]; decide)) ?_ ?_⟩
    · exact fun hd => by simp [pollsLeft, hl, hd]
    · intro hd
      simp only [pollsLeft, hl, hd, if_neg Bool.false_ne_true]
      omega
  | lastDrop =>
    refine ⟨_, rfl, lookDrop_progress (hopen (by rw [hl]; decide)) ?_ ?_⟩
    · exact fun hd => by simp [pollsLeft, hl, hd]
    · exact fun hd => by simp [pollsLeft, hl, hd]
  | terminated =>
    refine ⟨_, rfl, ?_, .inr (.inr (.inr rfl))⟩
    simp [pollsLeft, hl]
  | ended => exact absurd hl hne

/-- The polls of a consumer that goes on reach the end of a stream with a
termination to see. -/
theorem polls_end (n : Nat) (s : StreamState) (hn : s.pollsLeft ≤ n)
    (ht : s.Triggered) :
    ∃ s', Relation.ReflTransGen (fun a b => a.poll = some b) s s' ∧
      s'.look = .ended := by
  induction n generalizing s with
  | zero =>
    refine ⟨s, .refl, ?_⟩
    by_contra hne
    obtain ⟨s', -, hlt, -⟩ := poll_progress ht hne
    omega
  | succ n ih =>
    by_cases hl : s.look = .ended
    · exact ⟨s, .refl, hl⟩
    · obtain ⟨s', hp, hlt, ht'⟩ := poll_progress ht hl
      obtain ⟨e, hreach, hend⟩ := ih s' (by omega) ht'
      exact ⟨e, .head hp hreach, hend⟩

end StreamState

-- ============================================================== results

/-- A stream that loses nothing and ends properly. -/
structure StreamWhole (h : StreamHistory) (s : StreamState) : Prop where
  /-- The outputs are the first of the lines, in the order they were
  sent. -/
  inOrder : s.outputs = (s.sent.take s.received).map lineEvent
  /-- What was sent before the signal comes before the terminal event. -/
  drained : s.terminations ≠ [] → ∀ code fired,
    signalFired h = some (code, fired) →
    fired.sent.map lineEvent <+: s.outputs
  /-- Nothing follows the terminal event. -/
  last : s.yielded = s.outputs ++ s.terminations
  once : s.terminations.length ≤ 1
  ended : s.look = .ended → s.terminations.length = 1
  /-- The terminal event has the code that was fired before it. -/
  code : ∀ code fired, signalFired h = some (code, fired) →
    fired.terminations = [] → ∀ e ∈ s.terminations, e = .terminated code
  /-- The end comes, if the consumer goes on. -/
  ends : s.Triggered →
    ∃ s', Relation.ReflTransGen (fun a b => a.poll = some b) s s' ∧
      s'.look = .ended

/-- Lines are outputs. -/
theorem filter_lineEvents (lines : List OutputLine) :
    (lines.map lineEvent).filter BackendEvent.isOutput
      = lines.map lineEvent ∧
    (lines.map lineEvent).filter (fun e => !e.isOutput) = [] := by
  constructor
  · apply List.filter_eq_self.mpr
    intro e he
    obtain ⟨line, -, rfl⟩ := List.mem_map.mp he
    rfl
  · apply List.filter_eq_nil_iff.mpr
    intro e he
    obtain ⟨line, -, rfl⟩ := List.mem_map.mp he
    exact Bool.false_ne_true

/-- In a run in which a termination is seen in order, the stream is
whole. -/
theorem stream_whole_when_in_order {h : StreamHistory} {s : StreamState}
    (hr : StreamRun InOrder h s) : StreamWhole h s := by
  have hs := hr.ordered
  have hends := StreamState.polls_end s.pollsLeft s (Nat.le_refl _)
  have hlines := filter_lineEvents (s.sent.take s.received)
  cases ho : s.look.open with
  | true =>
    have hout : s.outputs = (s.sent.take s.received).map lineEvent := by
      rw [StreamState.outputs, hs.going ho, hlines.1]
    have hterm : s.terminations = [] := by
      rw [StreamState.terminations, hs.going ho, hlines.2]
    refine ⟨hout, fun hne => absurd hterm hne, ?_, ?_, ?_, ?_, hends⟩
    · rw [hout, hterm, List.append_nil]
      exact hs.going ho
    · rw [hterm]
      exact Nat.zero_le _
    · intro hl
      rw [hl] at ho
      cases ho
    · intro _ _ _ _ e he
      rw [hterm] at he
      cases he
  | false =>
    obtain ⟨-, -, code, hy, hcode⟩ := hs.told ho
    have hout : s.outputs = (s.sent.take s.received).map lineEvent := by
      rw [StreamState.outputs, hy, List.filter_append, hlines.1]
      exact List.append_nil _
    have hterm : s.terminations = [.terminated code] := by
      rw [StreamState.terminations, hy, List.filter_append, hlines.2]
      rfl
    refine ⟨hout, ?_, ?_, ?_, ?_, ?_, hends⟩
    · intro _ c fired hf
      have hle := (hcode c fired hf).2
      have hpre := hs.before c fired hf
      rw [hout, List.prefix_iff_eq_take.mp hpre]
      apply List.IsPrefix.map
      exact List.take_prefix_take_left hle
    · rw [hout, hterm]
      exact hy
    · rw [hterm]
      exact Nat.le_refl _
    · intro _
      rw [hterm]
      rfl
    · intro c fired hf hnone e he
      rw [hterm] at he
      rw [List.mem_singleton.mp he, (hcode c fired hf).1 hnone]

instance (h : StreamHistory) (s : StreamState) (m : StreamMove) :
    Decidable (InOrder h s m) := by
  unfold InOrder
  infer_instance

/-- Replay the steps of a run. -/
def replayStream (ok : StreamHistory → StreamState → StreamMove → Prop)
    [∀ h s m, Decidable (ok h s m)] :
    List StreamMove → StreamHistory → StreamState →
    Option (StreamHistory × StreamState)
  | [], h, s => some (h, s)
  | m :: ms, h, s =>
      if ok h s m then
        (s.move m).bind fun s' => replayStream ok ms ((m, s) :: h) s'
      else none

/-- A replay is a run. -/
theorem StreamRun.replay
    {ok : StreamHistory → StreamState → StreamMove → Prop}
    [∀ h s m, Decidable (ok h s m)] (ms : List StreamMove)
    {h h' : StreamHistory} {s s' : StreamState} (hr : StreamRun ok h s)
    (he : replayStream ok ms h s = some (h', s')) : StreamRun ok h' s' := by
  induction ms generalizing h s with
  | nil =>
    cases he
    exact hr
  | cons m ms ih =>
    obtain ⟨hok, he⟩ := Option.ite_none_right_eq_some.mp he
    obtain ⟨s₁, hm, he⟩ := Option.bind_eq_some_iff.mp he
    exact ih (hr.step hm hok) he

/-- The run of a script, and what is read off its last state. -/
theorem StreamRun.of_replay
    (ok : StreamHistory → StreamState → StreamMove → Prop)
    [∀ h s m, Decidable (ok h s m)] {β : Type} (ms : List StreamMove)
    (f : StreamHistory → StreamState → β) {b : β}
    (he : (replayStream ok ms [] .new).map (fun p => f p.1 p.2) = some b) :
    ∃ h s, StreamRun ok h s ∧ f h s = b := by
  obtain ⟨p, hp, hb⟩ := Option.map_eq_some_iff.mp he
  exact ⟨p.1, p.2, .replay ms .start hp, hb⟩

/-- A session that prints a line and exits, and a consumer that goes on
to the end. -/
def plainSession : List StreamMove :=
  [.poll, .send (.normal, "bye"), .poll, .poll, .poll, .closeOutput,
    .fire (some 0), .dropBackend, .poll, .poll, .poll]

theorem plain_session_streamed :
    ∃ h s, StreamRun InOrder h s ∧ StreamWhole h s ∧
      s.yielded = [.output "stdout" "bye", .terminated (some 0)] ∧
      s.look = .ended := by
  obtain ⟨h, s, hr, hs⟩ := StreamRun.of_replay InOrder plainSession
    (fun _ s => (s.yielded, s.look))
    (b := ([.output "stdout" "bye", .terminated (some 0)], .ended))
    (by decide +kernel)
  exact ⟨h, s, hr, stream_whole_when_in_order hr, (Prod.mk.inj hs).1,
    (Prod.mk.inj hs).2⟩

/-- The line is sent after the stream saw the output channel empty, and
the signal fired before it looks at the signal. -/
def racedSession : List StreamMove :=
  [.poll, .send (.normal, "bye"), .closeOutput, .fire (some 0), .poll]

/-- Any order: the tail of the output can be lost. -/
theorem tail_lost_in_race :
    ¬ ∀ h s, StreamRun (fun _ _ _ => True) h s → StreamWhole h s := by
  intro hall
  obtain ⟨h, s, hr, hs⟩ := StreamRun.of_replay (fun _ _ _ => True)
    racedSession
    (fun h s => (s.yielded, (signalFired h).map fun p => p.2.sent))
    (b := ([.terminated (some 0)], some [(.normal, "bye")]))
    (by decide +kernel)
  obtain ⟨hy, hfired⟩ := Prod.mk.inj hs
  obtain ⟨⟨code, fired⟩, hf, hsent⟩ := Option.map_eq_some_iff.mp hfired
  have hout : s.outputs = [] := by
    rw [StreamState.outputs, hy]
    rfl
  have hterm : s.terminations ≠ [] := by
    rw [StreamState.terminations, hy]
    decide
  have hpre := (hall h s hr).drained hterm code fired hf
  rw [hout, hsent] at hpre
  exact absurd (List.prefix_nil.mp hpre) (by decide)

end DebugMcp
