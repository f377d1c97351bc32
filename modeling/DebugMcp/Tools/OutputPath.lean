/-
What DbgEng prints, from its callback to the tools' responses.

A text that DbgEng prints goes two ways under one lock: into a buffer that
the engine's own commands take, and through a sink into the channel of
the event stream. The stream hands its events to the session's pump, the
pump appends to the session's buffer, and the tools drain that. Printing,
the engine's commands, the looks of the stream, the pump and the tools'
handlers interleave in any order.

`output_arrives`: at every moment the responses that drained, and then
what is still buffered, have in each bucket the texts DbgEng printed
while the sink was there, from the first the pump took since the last
clear to the last it took, once and in order; and the commands' buffer
has all that was printed since a command took it.
-/
import DebugMcp.Tools.OutputOnce
import DebugMcp.WinDbg.EventStream

namespace DebugMcp

open Conc

-- ============================================================= callbacks

/-- `OutputKind::from_mask`. -/
def OutputKind.fromMask (mask : UInt32) : OutputKind :=
  if mask &&& 0x2 != 0 then .error
  else if mask &&& 0x4 != 0 then .warning
  else if mask &&& 0x10 != 0 then .prompt
  else if mask &&& 0x1 != 0 then .normal
  else .other mask

/-- The server, the stream of its backend, and the output half of the
callbacks' state; `taken` are the events the pump has taken. -/
structure PathWorld where
  server : ToolServer
  stream : StreamState
  taken : Nat
  captured : String
  sink : Bool

/-- Before anything is connected. -/
def PathWorld.new : PathWorld where
  server := .new
  stream := .new
  taken := 0
  captured := ""
  sink := false

/-- What goes on beside the handlers: DbgEng prints, the sink is
installed, a command takes the buffer, the stream moves, the pump takes
an event. -/
inductive PathMove
  | print (mask : UInt32) (text : String)
  | setSink
  | takeOutput
  | stream (m : StreamMove)
  | pump

namespace PathWorld

variable (w : PathWorld)

/-- `record_output`. The sink sends as long as there is a channel. -/
def recordOutput (line : OutputLine) : PathWorld := { w with
  captured := w.captured ++ line.2
  stream := if w.sink then (w.stream.move (.send line)).getD w.stream
    else w.stream }

/-- `Output`: an empty text is nothing. -/
def output (mask : UInt32) (text : String) : PathWorld :=
  if text.isEmpty then w else w.recordOutput (.fromMask mask, text)

/-- Does the stream move by itself? Lines are sent by the sink alone. -/
def free : StreamMove → Bool
  | .send _ => false
  | _ => true

/-- A move; `k` is the pump of the stream. -/
def move (k : Nat) : PathMove → Option PathWorld
  | .print mask text => some (w.output mask text)
  | .setSink => some { w with sink := true }
  | .takeOutput => some { w with captured := "" }
  | .stream m =>
      if free m then
        (w.stream.move m).map fun stream => { w with stream }
      else none
  | .pump =>
      match w.stream.yielded[w.taken]? with
      | some ev =>
          (ToolServer.envMove (.pump k ev) w.server).map fun server =>
            { w with server, taken := w.taken + 1 }
      | none => none

end PathWorld

/-- The server with the path of its output as a machine. -/
def pathMachine (k : Nat) : Machine ToolOp Answer PathMove PathWorld where
  run _ op a w :=
    (w.server.run op a).map fun r => (r.1, { w with server := r.2 })
  env m w := w.move k m

/-- An event of a run. -/
abbrev PathEvent := Event ToolOp PathMove PathWorld

/-- A history, newest first. -/
abbrev PathHistory := List PathEvent

/-- The calls, none of which has started. -/
def pathPool (host : Host) (calls : Nat → Call) :
    Pool ToolOp ToolOutcome PathWorld where
  world := .new
  prog := (callPool host calls .new).prog

-- =============================================================== history

/-- The event as one of the server alone. -/
def serverEvent (k : Nat) : PathEvent → Option ToolEvent
  | .act i op b pre post => some (.act i op b pre.server post.server)
  | .env .pump pre post =>
      (pre.stream.yielded[pre.taken]?).map fun ev =>
        .env (.pump k ev) pre.server post.server
  | .env _ _ _ => none

/-- The server's part of a history. -/
def serverPart (k : Nat) (h : PathHistory) : History :=
  h.filterMap (serverEvent k)

/-- The line an event gives the sink, if it does. -/
def told : PathEvent → Option OutputLine
  | .env (.print mask text) pre _ =>
      if text.isEmpty = false ∧ pre.sink = true ∧
          pre.stream.outputOpen = true then
        some (.fromMask mask, text)
      else none
  | _ => none

/-- The lines the sink was given, in order. -/
def toldLines : PathHistory → List OutputLine
  | [] => []
  | ev :: h => toldLines h ++ (told ev).toList

/-- The texts printed since a command took the buffer, in order. -/
def capturedTexts : PathHistory → List String
  | [] => []
  | .env .takeOutput _ _ :: _ => []
  | .env (.print _ text) _ _ :: h => capturedTexts h ++ [text]
  | _ :: h => capturedTexts h

/-- How much the pump had taken at the last clear. -/
def clearedAt (k : Nat) : PathHistory → Nat
  | [] => 0
  | ev :: h =>
      if (serverEvent k ev).any (clears (serverPart k h)) then ev.pre.taken
      else clearedAt k h

/-- The entry a line becomes. -/
def lineEntry (line : OutputLine) : OutputEntry :=
  ⟨categoryFor line.1, line.2⟩

/-- The entries an event becomes. -/
def eventEntries : BackendEvent → List OutputEntry
  | .output category text => [⟨category, text⟩]
  | .terminated _ => []

-- ================================================================ stream

/-- What was yielded: the lines received, and maybe the end. -/
structure Yields (s : StreamState) : Prop where
  yielded : ∃ tail : List BackendEvent,
    s.yielded = (s.sent.take s.received).map lineEvent ++ tail ∧
    (∀ ev ∈ tail, ev.isOutput = false) ∧ (s.look.open = true → tail = [])
  received : s.received ≤ s.sent.length

theorem yields_new : Yields .new where
  yielded := ⟨[], rfl, by simp, fun _ => rfl⟩
  received := Nat.le_refl _

namespace Yields

variable {s s' : StreamState}

/-- What is sent later is not received yet. -/
theorem send (h : Yields s) (line : OutputLine) :
    Yields { s with sent := s.sent ++ [line] } where
  yielded := by
    show ∃ tail, s.yielded
      = ((s.sent ++ [line]).take s.received).map lineEvent ++ tail ∧ _
    rw [List.take_append_of_le_length h.received]
    exact h.yielded
  received := by
    show s.received ≤ (s.sent ++ [line]).length
    rw [List.length_append]
    exact Nat.le_add_right_of_le h.received

/-- The end is yielded after the lines. -/
theorem terminate (h : Yields s) (code : Option Int) :
    Yields (s.terminate code) where
  yielded := by
    obtain ⟨tail, hy, htail, -⟩ := h.yielded
    refine ⟨tail ++ [.terminated code], ?_, ?_, ?_⟩
    · show s.yielded ++ _ = _
      rw [hy, List.append_assoc]
      rfl
    · intro ev hev
      rcases List.mem_append.mp hev with hev | hev
      · exact htail ev hev
      · rw [List.mem_singleton.mp hev]
        rfl
    · intro ho
      cases ho
  received := h.received

/-- A look that yields nothing. -/
theorem look (h : Yields s) (ho : s.look.open = true) (next : Look) :
    Yields { s with look := next } where
  yielded := by
    obtain ⟨tail, hy, htail, hopen⟩ := h.yielded
    exact ⟨tail, hy, htail, fun _ => hopen ho⟩
  received := h.received

/-- A line is received. -/
theorem receive (h : Yields s) (ho : s.look.open = true) {line : OutputLine}
    (hline : s.sent[s.received]? = some line) :
    Yields { s with
      received := s.received + 1
      yielded := s.yielded ++ [lineEvent line] } where
  yielded := by
    obtain ⟨tail, hy, -, hopen⟩ := h.yielded
    refine ⟨[], ?_, by simp, fun _ => rfl⟩
    show s.yielded ++ [lineEvent line]
      = (s.sent.take (s.received + 1)).map lineEvent ++ []
    rw [List.take_add_one, hline, hy, hopen ho]
    simp
  received := by
    show s.received + 1 ≤ s.sent.length
    have hlt := (List.getElem?_eq_some_iff.mp hline).1
    omega

theorem lookOutput (h : Yields s) (ho : s.look.open = true) :
    Yields s.lookOutput := by
  unfold StreamState.lookOutput
  cases hline : s.sent[s.received]? with
  | some line => exact h.receive ho hline
  | none => exact h.look ho _

theorem lookSignal (h : Yields s) (ho : s.look.open = true) (next : Look) :
    Yields (s.lookSignal next) := by
  unfold StreamState.lookSignal
  split
  · exact h.terminate _
  · exact h.terminate _
  · exact h.look ho _

theorem lookDrop (h : Yields s) (ho : s.look.open = true) (next : Look) :
    Yields (s.lookDrop next) := by
  unfold StreamState.lookDrop
  split
  · exact h.terminate _
  · exact h.look ho _

theorem poll (h : Yields s) (hp : s.poll = some s') : Yields s' := by
  unfold StreamState.poll at hp
  cases hl : s.look with
  | output =>
      rw [hl] at hp
      cases hp
      exact h.lookOutput (by rw [hl]; rfl)
  | signal | lastSignal =>
      rw [hl] at hp
      cases hp
      exact h.lookSignal (by rw [hl]; rfl) _
  | drop | lastDrop =>
      rw [hl] at hp
      cases hp
      exact h.lookDrop (by rw [hl]; rfl) _
  | terminated =>
      rw [hl] at hp
      cases hp
      obtain ⟨tail, hy, htail, -⟩ := h.yielded
      exact ⟨⟨tail, hy, htail, fun ho => by cases ho⟩, h.received⟩
  | ended =>
      rw [hl] at hp
      cases hp

theorem move (h : Yields s) {m : StreamMove} (hm : s.move m = some s') :
    Yields s' := by
  cases m with
  | send line =>
      simp only [StreamState.move] at hm
      split at hm
      · cases hm
        exact h.send line
      · cases hm
  | poll => exact h.poll hm
  | closeOutput | fire _ | dropSender =>
      simp only [StreamState.move] at hm
      split at hm
      · cases hm
        exact ⟨h.yielded, h.received⟩
      · cases hm
  | dropBackend =>
      simp only [StreamState.move] at hm
      split at hm
      · cases hm
      · cases hm
        exact ⟨h.yielded, h.received⟩

end Yields

/-- A look sends nothing, and takes nothing back that was yielded. -/
theorem poll_keeps {s s' : StreamState} (hp : s.poll = some s') :
    s'.sent = s.sent ∧ s.yielded <+: s'.yielded := by
  unfold StreamState.poll at hp
  cases hl : s.look with
  | output =>
      rw [hl] at hp
      cases hp
      unfold StreamState.lookOutput
      split
      · exact ⟨rfl, List.prefix_append _ _⟩
      · exact ⟨rfl, List.prefix_rfl⟩
  | signal | lastSignal =>
      rw [hl] at hp
      cases hp
      unfold StreamState.lookSignal
      split
      · exact ⟨rfl, List.prefix_append _ _⟩
      · exact ⟨rfl, List.prefix_append _ _⟩
      · exact ⟨rfl, List.prefix_rfl⟩
  | drop | lastDrop =>
      rw [hl] at hp
      cases hp
      unfold StreamState.lookDrop
      split
      · exact ⟨rfl, List.prefix_append _ _⟩
      · exact ⟨rfl, List.prefix_rfl⟩
  | terminated =>
      rw [hl] at hp
      cases hp
      exact ⟨rfl, List.prefix_rfl⟩
  | ended =>
      rw [hl] at hp
      cases hp

theorem move_keeps {s s' : StreamState} {m : StreamMove}
    (hfree : PathWorld.free m = true) (hm : s.move m = some s') :
    s'.sent = s.sent ∧ s.yielded <+: s'.yielded := by
  cases m with
  | send line => cases hfree
  | poll => exact poll_keeps hm
  | closeOutput | fire _ | dropSender =>
      simp only [StreamState.move] at hm
      split at hm
      · cases hm
        exact ⟨rfl, List.prefix_rfl⟩
      · cases hm
  | dropBackend =>
      simp only [StreamState.move] at hm
      split at hm
      · cases hm
      · cases hm
        exact ⟨rfl, List.prefix_rfl⟩

-- ============================================================= projection

section

variable {k : Nat} {w w' : PathWorld} {h : PathHistory}

/-- What an event that is not the server's leaves of its part. -/
theorem serverPart_none {ev : PathEvent} (hev : serverEvent k ev = none) :
    serverPart k (ev :: h) = serverPart k h :=
  List.filterMap_cons_none hev

theorem serverPart_some {ev : PathEvent} {ev' : ToolEvent}
    (hev : serverEvent k ev = some ev') :
    serverPart k (ev :: h) = ev' :: serverPart k h :=
  List.filterMap_cons_some hev

/-- The pump takes the next event, and the server is moved by it. -/
theorem pump_move (hm : w.move k .pump = some w') :
    ∃ ev server, w.stream.yielded[w.taken]? = some ev ∧
      ToolServer.envMove (.pump k ev) w.server = some server ∧
      w' = { w with server, taken := w.taken + 1 } := by
  unfold PathWorld.move at hm
  cases hev : w.stream.yielded[w.taken]? with
  | none =>
      rw [hev] at hm
      cases hm
  | some ev =>
      rw [hev] at hm
      obtain ⟨server, hserver, rfl⟩ := Option.map_eq_some_iff.mp hm
      exact ⟨ev, server, rfl, hserver, rfl⟩

/-- The stream moves, and sends nothing. -/
theorem stream_move {m : StreamMove} (hm : w.move k (.stream m) = some w') :
    ∃ stream, PathWorld.free m = true ∧ w.stream.move m = some stream ∧
      w' = { w with stream } := by
  obtain ⟨hfree, hmove⟩ := Option.ite_none_right_eq_some.mp hm
  obtain ⟨stream, hstream, rfl⟩ := Option.map_eq_some_iff.mp hmove
  exact ⟨stream, hfree, hstream, rfl⟩

/-- Printing is nothing to the server. -/
theorem output_server (mask : UInt32) (text : String) :
    (w.output mask text).server = w.server := by
  unfold PathWorld.output
  split
  · rfl
  · rfl

/-- The server's part of a run is a run of the server. -/
theorem server_run {host : Host} {calls : Nat → Call}
    {s : Pool ToolOp ToolOutcome PathWorld}
    (hr : Run (pathMachine k) (pathPool host calls) h s) :
    ToolRun host calls .new (serverPart k h) ⟨s.world.server, s.prog⟩ := by
  induction hr with
  | nil => exact .nil
  | @snoc h s s' ev hr hs _ ih =>
      cases hs with
      | act hp hrun =>
          obtain ⟨r, hr', he⟩ := Option.map_eq_some_iff.mp hrun
          cases he
          exact .snoc ih (.act hp hr') trivial
      | @env e w' he =>
          cases e with
          | print mask text =>
              cases he
              rw [serverPart_none rfl]
              show ToolRun _ _ _ _ ⟨(s.world.output mask text).server, _⟩
              rw [output_server]
              exact ih
          | setSink | takeOutput =>
              cases he
              exact ih
          | stream m =>
              obtain ⟨stream, -, -, rfl⟩ := stream_move (k := k) he
              exact ih
          | pump =>
              obtain ⟨ev, server, hev, hserver, rfl⟩ := pump_move he
              have hpart : serverEvent k (.env .pump s.world
                    { s.world with server, taken := s.world.taken + 1 })
                  = some (.env (.pump k ev) s.world.server server) := by
                simp [serverEvent, hev]
              rw [serverPart_some hpart]
              exact .snoc ih (.env hserver) trivial

-- ============================================================= invariant

/-- Where everything printed is. -/
structure PathInv (k : Nat) (w : PathWorld) (h : PathHistory) : Prop where
  yields : Yields w.stream
  told : w.stream.sent = toldLines h
  taken : w.taken ≤ w.stream.yielded.length
  cleared : clearedAt k h ≤ w.taken
  printed : printed (serverPart k h)
    = ((w.stream.yielded.take w.taken).drop (clearedAt k h)).flatMap
        eventEntries
  captured : w.captured = String.join (capturedTexts h)

theorem pathInv_new : PathInv k .new [] where
  yields := yields_new
  told := rfl
  taken := Nat.le_refl _
  cleared := Nat.le_refl _
  printed := rfl
  captured := rfl

namespace PathInv

/-- A handler's step: a clear starts the count over. -/
theorem act {β : Type} {i : Nat} {op : ToolOp β} {b : β}
    {server : ToolServer} (hI : PathInv k w h) :
    PathInv k { w with server }
      (.act i op b w { w with server } :: h) where
  yields := hI.yields
  told := hI.told.trans (List.append_nil _).symm
  taken := hI.taken
  cleared := by
    show (if _ then w.taken else clearedAt k h) ≤ w.taken
    split
    · exact Nat.le_refl _
    · exact hI.cleared
  printed := by
    rw [serverPart_some rfl]
    show (if clears (serverPart k h) (.act i op b w.server server) = true
        then [] else DebugMcp.printed (serverPart k h) ++ [])
      = ((w.stream.yielded.take w.taken).drop
          (if clears (serverPart k h) (.act i op b w.server server) = true
            then w.taken else clearedAt k h)).flatMap eventEntries
    split
    · rw [List.drop_of_length_le (List.length_take_le _ _)]
      rfl
    · rw [List.append_nil]
      exact hI.printed
  captured := hI.captured

/-- What is only the callbacks' is nothing to the rest. -/
theorem aside {m : PathMove} {captured : String} {sink : Bool}
    (hI : PathInv k w h) (hserver : serverEvent k (.env m w w') = none)
    (htold : DebugMcp.told (.env m w w') = none)
    (hcaptured : captured = String.join (capturedTexts (.env m w w' :: h))) :
    PathInv k { w with captured, sink } (.env m w w' :: h) where
  yields := hI.yields
  told := by
    rw [toldLines, htold]
    exact hI.told.trans (List.append_nil _).symm
  taken := hI.taken
  cleared := by
    rw [clearedAt, hserver]
    exact hI.cleared
  printed := by
    rw [serverPart_none hserver, clearedAt, hserver]
    exact hI.printed
  captured := hcaptured

/-- The stream moves: what the pump has taken stays. -/
theorem stream {m : StreamMove} {s : StreamState} (hI : PathInv k w h)
    (hfree : PathWorld.free m = true) (hm : w.stream.move m = some s) :
    PathInv k { w with stream := s }
      (.env (.stream m) w { w with stream := s } :: h) := by
  obtain ⟨hsent, hpre⟩ := move_keeps hfree hm
  exact {
    yields := hI.yields.move hm
    told := by
      rw [toldLines]
      exact (hsent.trans hI.told).trans (List.append_nil _).symm
    taken := hI.taken.trans hpre.length_le
    cleared := hI.cleared
    printed := by
      rw [serverPart_none rfl]
      show _ = ((s.yielded.take w.taken).drop (clearedAt k h)).flatMap _
      obtain ⟨rest, hrest⟩ := hpre
      rw [← hrest, List.take_append_of_le_length hI.taken]
      exact hI.printed
    captured := hI.captured }

/-- The pump takes the next event. -/
theorem pump {ev : BackendEvent} {server : ToolServer}
    (hI : PathInv k w h) (hev : w.stream.yielded[w.taken]? = some ev) :
    PathInv k { w with server, taken := w.taken + 1 }
      (.env .pump w { w with server, taken := w.taken + 1 } :: h) := by
  have hpart : serverEvent k
      (.env .pump w { w with server, taken := w.taken + 1 })
      = some (.env (.pump k ev) w.server server) := by
    simp [serverEvent, hev]
  have happended : appended (.env (.pump k ev) w.server server)
      = eventEntries ev := by
    cases ev <;> rfl
  have hlt := (List.getElem?_eq_some_iff.mp hev).1
  have hcleared : clearedAt k (.env .pump w
      { w with server, taken := w.taken + 1 } :: h) = clearedAt k h := by
    rw [clearedAt, hpart]
    rfl
  exact {
    yields := hI.yields
    told := hI.told.trans (List.append_nil _).symm
    taken := hlt
    cleared := by
      rw [hcleared]
      exact Nat.le_succ_of_le hI.cleared
    printed := by
      rw [serverPart_some hpart, printed_cons rfl, happended, hcleared,
        hI.printed, List.take_add_one, hev]
      show _ = List.flatMap _ (List.drop _ (_ ++ [ev]))
      rw [List.drop_append_of_le_length, List.flatMap_append]
      · simp
      · rw [List.length_take_of_le hI.taken]
        exact hI.cleared
    captured := hI.captured }

/-- A text is buffered, and sent if the sink has a channel. -/
theorem recordOutput {mask : UInt32} {text : String} (hI : PathInv k w h)
    (htext : text.isEmpty = false) :
    PathInv k (w.recordOutput (.fromMask mask, text))
      (.env (.print mask text) w (w.recordOutput (.fromMask mask, text))
        :: h) := by
  have hcaptured : w.captured ++ text
      = String.join (capturedTexts h ++ [text]) := by
    rw [String.join_append, ← hI.captured]
    simp
  by_cases hsent : w.sink = true ∧ w.stream.outputOpen = true
  · have hout : w.recordOutput (.fromMask mask, text) = { w with
        captured := w.captured ++ text
        stream := { w.stream with
          sent := w.stream.sent ++ [(.fromMask mask, text)] } } := by
      simp [PathWorld.recordOutput, StreamState.move, hsent]
    rw [hout]
    exact {
      yields := hI.yields.send _
      told := by
        simp [toldLines, DebugMcp.told, htext, hsent, hI.told]
      taken := hI.taken
      cleared := hI.cleared
      printed := hI.printed
      captured := hcaptured }
  · have hout : w.recordOutput (.fromMask mask, text)
        = { w with captured := w.captured ++ text } := by
      cases hsink : w.sink with
      | false => simp [PathWorld.recordOutput, hsink]
      | true =>
          have hopen : w.stream.outputOpen = false :=
            Bool.eq_false_iff.mpr fun ho => hsent ⟨hsink, ho⟩
          simp [PathWorld.recordOutput, StreamState.move, hsink, hopen]
    rw [hout]
    apply hI.aside rfl _ hcaptured
    exact if_neg fun hc => hsent hc.2

/-- A text is printed. -/
theorem output {mask : UInt32} {text : String} (hI : PathInv k w h) :
    PathInv k (w.output mask text)
      (.env (.print mask text) w (w.output mask text) :: h) := by
  cases htext : text.isEmpty with
  | false =>
      have hout : w.output mask text
          = w.recordOutput (.fromMask mask, text) := if_neg (by simp [htext])
      rw [hout]
      exact hI.recordOutput htext
  | true =>
      have hout : w.output mask text = w := if_pos htext
      rw [hout]
      apply hI.aside rfl (by simp [DebugMcp.told, htext])
      rw [hI.captured, capturedTexts, String.join_append]
      simp [String.isEmpty_iff.mp htext]

end PathInv

/-- Every step keeps the invariant. -/
theorem pathInv_of_run {host : Host} {calls : Nat → Call}
    {s : Pool ToolOp ToolOutcome PathWorld}
    (hr : Run (pathMachine k) (pathPool host calls) h s) :
    PathInv k s.world h := by
  induction hr with
  | nil => exact pathInv_new
  | @snoc h s s' ev hr hs _ ih =>
      cases hs with
      | act hp hrun =>
          obtain ⟨r, -, he⟩ := Option.map_eq_some_iff.mp hrun
          cases he
          exact ih.act
      | @env e w' he =>
          cases e with
          | print mask text =>
              cases he
              exact ih.output
          | setSink =>
              cases he
              exact ih.aside rfl rfl ih.captured
          | takeOutput =>
              cases he
              exact ih.aside rfl rfl rfl
          | stream m =>
              obtain ⟨stream, hfree, hm, rfl⟩ := stream_move (k := k) he
              exact ih.stream hfree hm
          | pump =>
              obtain ⟨ev, server, hev, -, rfl⟩ := pump_move he
              exact ih.pump hev

end

-- =============================================================== arrival

/-- A part of what was yielded, as lines. -/
theorem Yields.entries {s : StreamState} (h : Yields s)
    (taken cleared : Nat) :
    ((s.yielded.take taken).drop cleared).flatMap eventEntries
      = ((s.sent.take (min taken s.received)).drop cleared).map
          lineEntry := by
  obtain ⟨tail, hy, htail, -⟩ := h.yielded
  have hrest : ∀ evs : List BackendEvent, evs.Sublist tail →
      evs.flatMap eventEntries = [] := by
    intro evs hsub
    apply List.flatMap_eq_nil_iff.mpr
    intro ev hev
    cases ev with
    | output c t => cases htail _ (hsub.subset hev)
    | terminated code => rfl
  have hlines : ∀ lines : List OutputLine,
      (lines.map lineEvent).flatMap eventEntries = lines.map lineEntry := by
    intro lines
    rw [List.flatMap_map]
    exact List.map_eq_flatMap.symm
  rw [hy, List.take_append, List.drop_append, List.flatMap_append,
    hrest _ ((List.drop_sublist _ _).trans (List.take_sublist _ _)),
    List.append_nil, ← List.map_take, ← List.map_drop, hlines,
    List.take_take]

/-- What is drained and then what is buffered is what the sink was given,
from the clear on and as far as the pump has taken it; and the commands'
buffer has what was printed since it was taken. -/
theorem output_arrives {k : Nat} {host : Host} {calls : Nat → Call}
    {h : PathHistory} {s : Pool ToolOp ToolOutcome PathWorld}
    (hr : Run (pathMachine k) (pathPool host calls) h s)
    (hm : marked (serverPart k h) = false)
    (ht : s.world.server.session.output.truncated = false) (b : Bucket) :
    String.join ((drainers (serverPart k h)).map
          (b.response ⟨s.world.server, s.prog⟩))
        ++ b.of s.world.server.session.output.entries
      = b.of ((((toldLines h).take
          (min s.world.taken s.world.stream.received)).drop
            (clearedAt k h)).map lineEntry) ∧
    s.world.captured = String.join (capturedTexts h) := by
  have hP := pathInv_of_run hr
  refine ⟨?_, hP.captured⟩
  have hserver := server_run hr
  have hinit : LedgerInv .new (fun _ => .fresh) [] :=
    ⟨nofun, fun _ => iff_of_false nofun nofun, fun _ _ => rfl⟩
  obtain ⟨φ, hI, hobey⟩ := hserver.invariant ledgerInv
    (fun i p hp => Option.some.inj hp ▸ (calls i).reports host) hinit
  have hresp : (drainers (serverPart k h)).map
        (b.response ⟨s.world.server, s.prog⟩)
      = (drainers (serverPart k h)).map fun i => b.of (φ i).entries := by
    apply List.map_congr_left
    intro i hi
    obtain ⟨es, hφ⟩ := hI.drained i hi
    rw [response_of_drained hφ hobey (hserver.prog_isSome rfl) b, hφ]
    rfl
  calc
    _ = b.of (printed (serverPart k h)) := by
        rw [hresp, ← b.of_flatMap, ← b.of_append, hI.balance hm ht]
    _ = _ := by
        rw [hP.printed, hP.yields.entries, hP.told]

/-- `n` steps of call `i` that answer by themselves. -/
def pathSync (i n : Nat) : List (Action Answer PathMove) :=
  List.replicate n (.step i .sync)

/-- DbgEng prints a text, the stream receives it, and the pump takes
it. -/
def pathPrint (mask : UInt32) (text : String) :
    List (Action Answer PathMove) :=
  [.env (.print mask text), .env (.stream .poll), .env .pump]

/-- An attach, a `continue` that stops, and a read while it waits. The
last text is still in the channel. -/
def pathSteps : List (Action Answer PathMove) :=
  [.env .setSink] ++ pathSync 0 2 ++ [.step 0 (.connect (.ok ()))]
    ++ pathSync 0 4
    ++ [.step 0 (.attach (some (.ok (.stopped entryStop))))]
    ++ pathSync 0 5 ++ pathSync 1 6 ++ pathPrint 1 "a" ++ pathSync 2 2
    ++ [.env .takeOutput] ++ pathPrint 2 "x" ++ pathPrint 1 "b"
    ++ [.step 1 (.stop (some (.ok (.stopped entryStop))))]
    ++ pathSync 1 3 ++ pathPrint 1 "c" ++ [.env (.print 1 "d")]

/-- Two responses and the buffer have what the pump has taken; the
commands' buffer has what was printed since it was taken. -/
theorem output_arrived :
    ∃ h s, Run (pathMachine 0) (pathPool winOnlyHost readerCalls) h s ∧
      drainers (serverPart 0 h) = [2, 1] ∧
      String.join ((drainers (serverPart 0 h)).map
            (Bucket.stdout.response ⟨s.world.server, s.prog⟩))
          ++ Bucket.stdout.of s.world.server.session.output.entries
        = "abc" ∧
      s.world.captured = "xbcd" := by
  obtain ⟨h, s, hr, hm, ht, hd, htext, hcaptured⟩ := exec_witness
    (pathMachine 0) (pathPool winOnlyHost readerCalls) pathSteps
    (fun h s => marked (serverPart 0 h) = false ∧
      s.world.server.session.output.truncated = false ∧
      drainers (serverPart 0 h) = [2, 1] ∧
      Bucket.stdout.of ((((toldLines h).take
        (min s.world.taken s.world.stream.received)).drop
          (clearedAt 0 h)).map lineEntry) = "abc" ∧
      String.join (capturedTexts h) = "xbcd")
    (by decide +kernel)
  obtain ⟨harrived, htaken⟩ := output_arrives hr hm ht .stdout
  exact ⟨h, s, hr, hd, harrived.trans htext, htaken.trans hcaptured⟩

end DebugMcp
