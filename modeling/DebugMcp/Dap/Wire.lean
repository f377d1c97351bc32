/-
The DAP messages the client exchanges, and their decoding from a framed
body.

The JSON library is a parameter: what it parses a body to, for each of
the shapes the code asks it for. Which shapes are asked for, and in what
order, is the code's.
-/
import DebugMcp.Json

namespace DebugMcp

/-- Bytes on the wire. -/
abbrev Bytes := List UInt8

-- ============================================================ messages

/-- The base-protocol envelope. -/
structure Envelope where
  seq : Int
  ty : String
  command : Option String
  event : Option String

/-- A response; the correlation key is `requestSeq`. -/
structure Response where
  seq : Int
  ty : String
  requestSeq : Int
  success : Bool
  command : String
  message : String
  body : Option Json

/-- The body of a stopped event. -/
structure StoppedBody where
  reason : String
  description : String
  threadId : Int
  text : String
  allThreadsStopped : Bool
  hitBreakpointIds : List Int

/-- A stopped event. -/
structure StoppedEvent where
  seq : Int
  ty : String
  event : String
  body : StoppedBody

/-- An output event, with the fields of its body. -/
structure OutputEvent where
  seq : Int
  ty : String
  event : String
  category : String
  output : String

/-- An exited event, with the field of its body. -/
structure ExitedEvent where
  seq : Int
  ty : String
  event : String
  exitCode : Int

/-- The recognized events. -/
inductive DapEvent
  | initialized
  | stopped (e : StoppedEvent)
  | output (e : OutputEvent)
  | exited (e : ExitedEvent)
  | terminated
  | thread
  | breakpoint
  | process
  | continued
  | module
  | capabilities

/-- A decoded message. -/
inductive DapMessage
  | response (r : Response)
  | event (e : DapEvent)
  | other (e : Envelope)

-- ============================================================== errors

/-- The I/O failures of the reader. -/
inductive IoError
  | unexpectedEof | invalidData
  deriving DecidableEq

/-- A failure in the wire layer. -/
inductive WireError
  | eof
  | io (e : IoError)
  | missingContentLength
  | invalidContentLength (value : String)
  | json (e : String)
  deriving DecidableEq

-- ============================================================ decoding

/-- What the JSON library parses a body to, and what it prints a message
of type `T` as. -/
structure JsonWire (T : Type) where
  toVec : T → Except String Bytes
  envelope : Bytes → Except String Envelope
  response : Bytes → Except String Response
  stopped : Bytes → Except String StoppedEvent
  output : Bytes → Except String OutputEvent
  exited : Bytes → Except String ExitedEvent

namespace JsonWire

variable {T : Type} (json : JsonWire T)

/-- `Event::from_envelope`: decode an event by its name; `none` for one
that is not modelled. -/
def eventFromEnvelope (bytes : Bytes) (envelope : Envelope) :
    Except WireError (Option DapEvent) :=
  match envelope.event with
  | none => .ok none
  | some "initialized" => .ok (some .initialized)
  | some "stopped" =>
      match json.stopped bytes with
      | .ok e => .ok (some (.stopped e))
      | .error e => .error (.json e)
  | some "output" =>
      match json.output bytes with
      | .ok e => .ok (some (.output e))
      | .error e => .error (.json e)
  | some "exited" =>
      match json.exited bytes with
      | .ok e => .ok (some (.exited e))
      | .error e => .error (.json e)
  | some "terminated" => .ok (some .terminated)
  | some "thread" => .ok (some .thread)
  | some "breakpoint" => .ok (some .breakpoint)
  | some "process" => .ok (some .process)
  | some "continued" => .ok (some .continued)
  | some "module" => .ok (some .module)
  | some "capabilities" => .ok (some .capabilities)
  | some _ => .ok none

/-- `DapMessage::from_slice`: decode framed bytes by the envelope's
type. -/
def fromSlice (bytes : Bytes) : Except WireError DapMessage :=
  match json.envelope bytes with
  | .error e => .error (.json e)
  | .ok envelope =>
      if envelope.ty = "response" then
        match json.response bytes with
        | .ok r => .ok (.response r)
        | .error e => .error (.json e)
      else if envelope.ty = "event" then
        match json.eventFromEnvelope bytes envelope with
        | .ok (some event) => .ok (.event event)
        | .ok none => .ok (.other envelope)
        | .error e => .error e
      else .ok (.other envelope)

end JsonWire

-- ====================================================== classification

/-- What a message is decoded as. -/
inductive MessageClass
  | response
  | event (name : String)
  | other
  deriving DecidableEq

/-- The name of a recognized event on the wire. -/
def DapEvent.name : DapEvent → String
  | initialized => "initialized"
  | stopped _ => "stopped"
  | output _ => "output"
  | exited _ => "exited"
  | terminated => "terminated"
  | thread => "thread"
  | breakpoint => "breakpoint"
  | process => "process"
  | continued => "continued"
  | module => "module"
  | capabilities => "capabilities"

/-- The class of a decoded message. -/
def DapMessage.class : DapMessage → MessageClass
  | response _ => .response
  | event e => .event e.name
  | other _ => .other

/-- The names of the recognized events. -/
def modelledEvents : List String :=
  ["initialized", "stopped", "output", "exited", "terminated", "thread",
    "breakpoint", "process", "continued", "module", "capabilities"]

/-- The class an envelope's `type` and `event` select. -/
def classOf (ty : String) (event : Option String) : MessageClass :=
  if ty = "response" then .response
  else if ty = "event" then
    match event with
    | some name => if name ∈ modelledEvents then .event name else .other
    | none => .other
  else .other

section

variable {T : Type} {json : JsonWire T} {bytes : Bytes}

/-- A decoded event has the envelope's name; an event that is not
decoded has none that is modelled. -/
theorem eventFromEnvelope_class {envelope : Envelope}
    {event : Option DapEvent}
    (h : json.eventFromEnvelope bytes envelope = .ok event) :
    classOf "event" envelope.event
      = (event.map fun e => MessageClass.event e.name).getD .other := by
  unfold classOf
  rw [if_neg (by decide), if_pos rfl]
  unfold JsonWire.eventFromEnvelope at h
  split at h
  · next hn =>
      cases h
      rw [hn]
      rfl
  all_goals first
    | next hn =>
        -- A name that decodes without a body.
        cases h
        rw [hn]
        exact if_pos (by decide)
    | next hn =>
        -- A name whose body is decoded too.
        split at h
        · cases h
          rw [hn]
          exact if_pos (by decide)
        · cases h
    | next name h1 h2 h3 h4 h5 h6 h7 h8 h9 h10 h11 hn =>
        cases h
        rw [hn]
        refine if_neg ?_
        simp only [modelledEvents, List.mem_cons, List.not_mem_nil,
          or_false, not_or]
        exact ⟨h1, h2, h3, h4, h5, h6, h7, h8, h9, h10, h11⟩

/-- A body is classified by the `type` and `event` of its envelope. -/
theorem fromSlice_class {m : DapMessage}
    (h : json.fromSlice bytes = .ok m) :
    ∃ envelope, json.envelope bytes = .ok envelope ∧
      m.class = classOf envelope.ty envelope.event := by
  unfold JsonWire.fromSlice at h
  split at h
  · cases h
  · next envelope henv =>
      refine ⟨envelope, henv, ?_⟩
      split at h
      · next hty =>
          split at h
          · cases h
            rw [hty]
            rfl
          · cases h
      · next hty =>
          split at h
          · next hev =>
              rw [hev]
              split at h
              · next event hdec =>
                  cases h
                  rw [eventFromEnvelope_class hdec]
                  rfl
              · next hdec =>
                  cases h
                  rw [eventFromEnvelope_class hdec]
                  rfl
              · cases h
          · next hev =>
              cases h
              unfold classOf
              rw [if_neg hty, if_neg hev]
              rfl

end

end DebugMcp
