/-
The lldb backend as seen from the adapter: what an operation asks reaches
it, and what it answers comes back.

An operation sends one request, checks that the answer is a response that
succeeded, and reads its body. On the other side stands an adapter, which
reads a request as the protocol has it (`readRequest`) and writes its
answer, a neutral value, with the members in any order, others beside
them, and the default ones left out or not (`DapAnswered.Writes`).
`adapter_answers` is that between the two nothing is changed: the adapter
is asked what the operation was called with, and the operation returns
what it answered. The one exception is the debugger command: it is asked
without a frame, and escaped for an adapter that has no command mode.

# Representation

- A response carries its body as `Json`, which does not keep integers
  apart from other numbers. The body is read from a document, beside it.
-/
import DebugMcp.Lib.Base64
import DebugMcp.Lldb.Backend
import DebugMcp.Lldb.Bodies

namespace DebugMcp

open Doc

-- ============================================================ operations

/-- An operation that asks lldb-dap for something. -/
inductive LldbQuery : Type → Type
  | threads : LldbQuery (List ThreadInfo)
  | stackTrace (threadId start levels : Int) : LldbQuery (List Frame × Int)
  | scopes (frameId : Int) : LldbQuery (List Scope)
  | variablesOf (variablesReference : Int) : LldbQuery (List Variable)
  | evaluate (expr : String) (frameId : Option Int) (mode : EvalMode) :
      LldbQuery EvalResult
  | readMemory (address : String) (count : Int) : LldbQuery MemoryRead
  | disassemble (address : String) (count : Int) :
      LldbQuery (List Instruction)
  | setSourceBreakpoints (file : String) (bps : List SourceBp) :
      LldbQuery (List BreakpointResult)
  | setFunctionBreakpoints (bps : List FunctionBp) :
      LldbQuery (List BreakpointResult)
  | pause : LldbQuery Unit

/-- What the libraries give: the JSON library's text for a value that is
not of a type, and base64's decoding, or the text of its error. -/
structure BodyLibs where
  json : Value → String
  base64 : String → Except String (List UInt8)

/-- `decode`. -/
def decodeBody {α : Type} (libs : BodyLibs) (r : Reader α)
    (body : Option Value) : Except BackendError α :=
  let value := body.getD (.obj [])
  match r value with
  | some a => .ok a
  | none => .error (.dap s!"malformed response body: {libs.json value}")

/-- A debugger command, as the adapter takes it: an adapter without a
command mode wants it escaped. -/
def replCommand (isLldbDap : Bool) (expr : String) : String :=
  if isLldbDap then expr else "`" ++ expr

namespace LldbQuery

variable {α : Type}

/-- The verb of its errors. -/
def verb : LldbQuery α → String
  | threads => "threads"
  | stackTrace .. => "stackTrace"
  | scopes _ => "scopes"
  | variablesOf _ => "variables"
  | evaluate .. => "evaluate"
  | readMemory .. => "readMemory"
  | disassemble .. => "disassemble"
  | setSourceBreakpoints .. => "setBreakpoints"
  | setFunctionBreakpoints _ => "setFunctionBreakpoints"
  | pause => "pause"

/-- Its request. -/
def request (isLldbDap : Bool) : LldbQuery α → DapRequest
  | threads => Requests.threads
  | stackTrace threadId start levels =>
      Requests.stackTrace threadId start levels
  | scopes frameId => Requests.scopes frameId
  | variablesOf variablesReference =>
      Requests.variablesOf variablesReference
  | evaluate expr frameId .expression =>
      Requests.evaluate expr frameId "variables"
  | evaluate expr _ .repl =>
      Requests.evaluate (replCommand isLldbDap expr) none "repl"
  | readMemory address count => Requests.readMemory address count
  | disassemble address count => Requests.disassemble address count
  | setSourceBreakpoints file bps => Requests.setBreakpoints file bps
  | setFunctionBreakpoints bps => Requests.setFunctionBreakpoints bps
  | pause => Requests.pause

/-- What it makes of the body. -/
def decode (libs : BodyLibs) :
    LldbQuery α → Option Value → Except BackendError α
  | threads, body => do
      return (← decodeBody libs ThreadsBody.read body).neutral
  | stackTrace .., body => do
      return (← decodeBody libs StackTraceBody.read body).neutral
  | scopes _, body => do
      return (← decodeBody libs ScopesBody.read body).neutral
  | variablesOf _, body => do
      return (← decodeBody libs VariablesBody.read body).neutral
  | evaluate .., body => do
      return (← decodeBody libs EvaluateBody.read body).neutral
  | readMemory .., body => do
      (← decodeBody libs ReadMemoryBody.read body).neutral libs.base64
  | disassemble .., body => do
      return (← decodeBody libs DisassembleBody.read body).neutral
  | setSourceBreakpoints .., body | setFunctionBreakpoints _, body => do
      return (← decodeBody libs SetBreakpointsBody.read body).neutral
  | pause, _ => return ()

/-- `send_checked`, and then the body; `answer` is what `send` gives. -/
def run (libs : BodyLibs) (stderr : String) (q : LldbQuery α)
    (answer : Except BackendError (DapMessage × Option Value)) :
    Except BackendError α := do
  let (m, body) ← answer.mapError (dapErr s!"{q.verb} request failed")
  let _ ← checkResponse stderr q.verb m
  q.decode libs body

end LldbQuery

-- =============================================================== adapter

/-- An integer. -/
def Json.asInt : Json → Option Int
  | num q => if q.den = 1 then some q.num else none
  | _ => none

/-- The members of an object. -/
def Json.members : Json → Option JsonMap
  | obj m => some m
  | _ => none

/-- A list of objects, each read as it is. -/
def Json.objects {α : Type} (read : JsonMap → Option α) :
    Json → Option (List α)
  | arr xs => xs.mapM fun x => x.members >>= read
  | _ => none

namespace JsonMap

variable (m : JsonMap) (key : String)

def getInt : Option Int := m.get? key >>= Json.asInt

def getStr : Option String := m.get? key >>= Json.asStr

/-- A string that may be left out, then empty. -/
def getStrOrEmpty : Option String :=
  match m.get? key with
  | some v => v.asStr
  | none => some ""

/-- An integer that may be left out. -/
def getInt? : Option (Option Int) :=
  match m.get? key with
  | some v => v.asInt.map some
  | none => some none

end JsonMap

/-- What an adapter is asked for. -/
inductive DapAsked
  | threads
  | stackTrace (threadId start levels : Int)
  | scopes (frameId : Int)
  | variablesOf (variablesReference : Int)
  | evaluate (expr : String) (frameId : Option Int) (context : String)
  | readMemory (memoryReference : String) (count : Int)
  | disassemble (memoryReference : String) (instructionCount : Int)
  | setBreakpoints (path : String) (bps : List SourceBp)
  | setFunctionBreakpoints (bps : List FunctionBp)
  | pause (threadId : Int)

/-- A source breakpoint of a request. -/
def readSourceBp (m : JsonMap) : Option SourceBp := do
  return ⟨← m.getInt "line", ← m.getStrOrEmpty "condition"⟩

/-- A function breakpoint of a request. -/
def readFunctionBp (m : JsonMap) : Option FunctionBp := do
  return ⟨← m.getStr "name", ← m.getStrOrEmpty "condition"⟩

/-- A request, as an adapter reads it. -/
def readRequest (r : DapRequest) : Option DapAsked := do
  let m ← (r.arguments.getD (.obj [])).members
  match r.command with
  | "threads" => return .threads
  | "stackTrace" =>
      return .stackTrace (← m.getInt "threadId") (← m.getInt "startFrame")
        (← m.getInt "levels")
  | "scopes" => return .scopes (← m.getInt "frameId")
  | "variables" => return .variablesOf (← m.getInt "variablesReference")
  | "evaluate" =>
      return .evaluate (← m.getStr "expression") (← m.getInt? "frameId")
        (← m.getStr "context")
  | "readMemory" =>
      return .readMemory (← m.getStr "memoryReference") (← m.getInt "count")
  | "disassemble" =>
      return .disassemble (← m.getStr "memoryReference")
        (← m.getInt "instructionCount")
  | "setBreakpoints" =>
      let source ← m.get? "source" >>= Json.members
      return .setBreakpoints (← source.getStr "path")
        (← m.get? "breakpoints" >>= Json.objects readSourceBp)
  | "setFunctionBreakpoints" =>
      return .setFunctionBreakpoints
        (← m.get? "breakpoints" >>= Json.objects readFunctionBp)
  | "pause" => return .pause (← m.getInt "threadId")
  | _ => none

/-- The command it comes under. -/
def DapAsked.command : DapAsked → String
  | threads => "threads"
  | stackTrace .. => "stackTrace"
  | scopes _ => "scopes"
  | variablesOf _ => "variables"
  | evaluate .. => "evaluate"
  | readMemory .. => "readMemory"
  | disassemble .. => "disassemble"
  | setBreakpoints .. => "setBreakpoints"
  | setFunctionBreakpoints _ => "setFunctionBreakpoints"
  | pause _ => "pause"

/-- What an operation asks for. A debugger command is asked without a
frame, and with a backtick before it where there is no command mode. -/
def LldbQuery.asked {α : Type} (isLldbDap : Bool) : LldbQuery α → DapAsked
  | threads => .threads
  | stackTrace threadId start levels => .stackTrace threadId start levels
  | scopes frameId => .scopes frameId
  | variablesOf variablesReference => .variablesOf variablesReference
  | evaluate expr frameId .expression =>
      .evaluate expr frameId "variables"
  | evaluate expr _ .repl =>
      .evaluate ((if isLldbDap then "" else "`") ++ expr) none "repl"
  | readMemory address count => .readMemory address count
  | disassemble address count => .disassemble address count
  | setSourceBreakpoints file bps => .setBreakpoints file bps
  | setFunctionBreakpoints bps => .setFunctionBreakpoints bps
  | pause => .pause 0

/-- What an adapter answers, in the neutral form. -/
inductive DapAnswered
  | threads (threads : List ThreadInfo)
  | stackTrace (frames : List Frame) (total : Int)
  | scopes (scopes : List Scope)
  | variablesOf (vars : List Variable)
  | evaluate (result : EvalResult)
  | readMemory (memory : MemoryRead)
  | disassemble (insts : List Instruction)
  | breakpoints (results : List BreakpointResult)
  | done

/-- How it is written, with base64 for the bytes of memory: as records
that stand for it. -/
def DapAnswered.Writes (encode : List UInt8 → String) :
    DapAnswered → Value → Prop
  | threads xs, v =>
      ∃ b : ThreadsBody, b.Writes v ∧ List.Forall₂ DapThread.Says b xs
  | stackTrace frames total, v =>
      ∃ b : StackTraceBody, b.Writes v ∧ b.Says frames total
  | scopes xs, v =>
      ∃ b : ScopesBody, b.Writes v ∧ List.Forall₂ DapScope.Says b xs
  | variablesOf xs, v =>
      ∃ b : VariablesBody, b.Writes v ∧ List.Forall₂ DapVariable.Says b xs
  | evaluate x, v => ∃ b : EvaluateBody, b.Writes v ∧ b.Says x
  | readMemory x, v =>
      ∃ b : ReadMemoryBody, b.Writes v ∧ b.Says encode x
  | disassemble xs, v =>
      ∃ b : DisassembleBody, b.Writes v ∧
        List.Forall₂ DapInstruction.Says b xs
  | breakpoints xs, v =>
      ∃ b : SetBreakpointsBody, b.Writes v ∧
        List.Forall₂ DapBreakpoint.Says b xs
  | done, _ => True

/-- The answer that an operation is for. -/
def LldbQuery.answer? {α : Type} : LldbQuery α → DapAnswered → Option α
  | threads, .threads xs => some xs
  | stackTrace .., .stackTrace frames total => some (frames, total)
  | scopes _, .scopes xs => some xs
  | variablesOf _, .variablesOf xs => some xs
  | evaluate .., .evaluate x => some x
  | readMemory .., .readMemory x => some x
  | disassemble .., .disassemble xs => some xs
  | setSourceBreakpoints .., .breakpoints xs => some xs
  | setFunctionBreakpoints _, .breakpoints xs => some xs
  | pause, .done => some ()
  | _, _ => none

-- ============================================================== requests

section

variable {α : Type} {isLldbDap : Bool}

@[simp] theorem get?_nil (key : String) : JsonMap.get? [] key = none := rfl

@[simp] theorem asInt_int (n : Int) : (Json.int n).asInt = some n := by
  simp [Json.int, Json.asInt]

/-- A list of objects is read back. -/
theorem objects_map {β : Type} {read : JsonMap → Option β} {f : β → Json}
    (h : ∀ b, (f b).members >>= read = some b) (bs : List β) :
    (Json.arr (bs.map f)).objects read = some bs := by
  show (bs.map f).mapM (fun x => x.members >>= read) = some bs
  induction bs with
  | nil => rfl
  | cons b bs ih =>
      rw [List.map_cons, List.mapM_cons, h b, ih]
      rfl

/-- So is the condition of a breakpoint, left out or not. -/
theorem getStrOrEmpty_condition {key : String} (hkey : key ≠ "condition")
    (v : Json) (condition : String) :
    ∃ m : JsonMap, Requests.breakpoint key v condition = .obj m ∧
      m.get? key = some v ∧
      m.getStrOrEmpty "condition" = some condition := by
  unfold Requests.breakpoint jsonObject member
  refine ⟨_, rfl, ?_, ?_⟩
  · by_cases hc : condition.isEmpty <;>
      simp [hc, JsonMap.get?_insert, hkey.symm]
  · by_cases hc : condition.isEmpty
    · have hempty : condition = "" := by simpa using hc
      subst hempty
      simp [JsonMap.getStrOrEmpty, JsonMap.get?_insert, hkey]
    · simp [hc, JsonMap.getStrOrEmpty, JsonMap.get?_insert, Json.asStr]

theorem readSourceBp_breakpoint (b : SourceBp) :
    (Requests.breakpoint "line" (.int b.line) b.condition).members
      >>= readSourceBp = some b := by
  obtain ⟨m, hm, hkey, hcond⟩ :=
    getStrOrEmpty_condition (by decide : "line" ≠ "condition")
      (.int b.line) b.condition
  rw [hm]
  show readSourceBp m = some b
  unfold readSourceBp JsonMap.getInt
  rw [hkey, hcond]
  simp

theorem readFunctionBp_breakpoint (b : FunctionBp) :
    (Requests.breakpoint "name" (.str b.name) b.condition).members
      >>= readFunctionBp = some b := by
  obtain ⟨m, hm, hkey, hcond⟩ :=
    getStrOrEmpty_condition (by decide : "name" ≠ "condition")
      (.str b.name) b.condition
  rw [hm]
  show readFunctionBp m = some b
  unfold readFunctionBp JsonMap.getStr
  rw [hkey, hcond]
  rfl

theorem replCommand_eq (expr : String) :
    replCommand isLldbDap expr
      = (if isLldbDap then "" else "`") ++ expr := by
  unfold replCommand
  cases isLldbDap with
  | true => simp
  | false => rfl

/-- An adapter is asked what the operation was called with. -/
theorem readRequest_request (q : LldbQuery α) :
    readRequest (q.request isLldbDap) = some (q.asked isLldbDap) := by
  unfold LldbQuery.request LldbQuery.asked
  cases q with
  | threads => rfl
  | stackTrace threadId start levels =>
      simp [Requests.stackTrace, readRequest, DapRequest.new, jsonObject,
        Json.members, JsonMap.getInt, JsonMap.get?_insert]
  | scopes frameId =>
      simp [Requests.scopes, readRequest, DapRequest.new, jsonObject,
        Json.members, JsonMap.getInt, JsonMap.get?_insert]
  | variablesOf variablesReference =>
      simp [Requests.variablesOf, readRequest, DapRequest.new, jsonObject,
        Json.members, JsonMap.getInt, JsonMap.get?_insert]
  | evaluate expr frameId mode =>
      cases mode with
      | expression =>
          cases frameId with
          | none =>
              simp [Requests.evaluate, readRequest, DapRequest.new,
                jsonObject, member, Json.members, JsonMap.getStr,
                JsonMap.getInt?, JsonMap.get?_insert, Json.asStr]
          | some id =>
              simp [Requests.evaluate, readRequest, DapRequest.new,
                jsonObject, member, Json.members, JsonMap.getStr,
                JsonMap.getInt?, JsonMap.get?_insert, Json.asStr]
      | repl =>
          simp [Requests.evaluate, readRequest, DapRequest.new, jsonObject,
            member, Json.members, JsonMap.getStr, JsonMap.getInt?,
            JsonMap.get?_insert, Json.asStr, replCommand_eq]
  | readMemory address count =>
      simp [Requests.readMemory, readRequest, DapRequest.new, jsonObject,
        Json.members, JsonMap.getInt, JsonMap.getStr, JsonMap.get?_insert,
        Json.asStr]
  | disassemble address count =>
      simp [Requests.disassemble, readRequest, DapRequest.new, jsonObject,
        Json.members, JsonMap.getInt, JsonMap.getStr, JsonMap.get?_insert,
        Json.asStr]
  | setSourceBreakpoints file bps =>
      simp [Requests.setBreakpoints, readRequest, DapRequest.new,
        jsonObject, Json.members, JsonMap.getStr, JsonMap.get?_insert,
        Json.asStr, objects_map readSourceBp_breakpoint]
  | setFunctionBreakpoints bps =>
      simp [Requests.setFunctionBreakpoints, readRequest, DapRequest.new,
        jsonObject, Json.members, JsonMap.get?_insert,
        objects_map readFunctionBp_breakpoint]
  | pause =>
      simp [Requests.pause, readRequest, DapRequest.new, jsonObject,
        Json.members, JsonMap.getInt, JsonMap.get?_insert]

-- =============================================================== answers

/-- A body that is written is read. -/
theorem decodeBody_ok {β : Type} {libs : BodyLibs} {r : Reader β} {b : β}
    {body : Option Value} (h : r (body.getD (.obj [])) = some b) :
    decodeBody libs r body = .ok b := by
  unfold decodeBody
  simp only [h]

/-- And then made what it says. -/
theorem decoded_ok {β γ : Type} {libs : BodyLibs} {r : Reader β} {b : β}
    {neutral : β → γ} {x : γ} {body : Option Value}
    (h : r (body.getD (.obj [])) = some b) (hx : neutral b = x) :
    (decodeBody libs r body >>= fun b => pure (neutral b)) = .ok x := by
  rw [decodeBody_ok h, ← hx]
  rfl

/-- The operation returns what the adapter answered. -/
theorem decode_writes {libs : BodyLibs} {encode : List UInt8 → String}
    (hlaws : Base64Laws encode libs.base64) (q : LldbQuery α)
    {ans : DapAnswered} {a : α} {body : Option Value}
    (hfit : q.answer? ans = some a)
    (hbody : ans.Writes encode (body.getD (.obj []))) :
    q.decode libs body = .ok a := by
  cases q with
  | threads =>
      cases ans with
      | threads xs =>
          cases hfit
          obtain ⟨b, hwrites, hsays⟩ := hbody
          exact decoded_ok (b.read_writes _ hwrites)
            (ThreadsBody.neutral_of_says hsays)
      | _ => cases hfit
  | stackTrace threadId start levels =>
      cases ans with
      | stackTrace frames total =>
          cases hfit
          obtain ⟨b, hwrites, hsays⟩ := hbody
          exact decoded_ok (b.read_writes _ hwrites)
            (StackTraceBody.neutral_of_says hsays)
      | _ => cases hfit
  | scopes frameId =>
      cases ans with
      | scopes xs =>
          cases hfit
          obtain ⟨b, hwrites, hsays⟩ := hbody
          exact decoded_ok (b.read_writes _ hwrites)
            (ScopesBody.neutral_of_says hsays)
      | _ => cases hfit
  | variablesOf variablesReference =>
      cases ans with
      | variablesOf xs =>
          cases hfit
          obtain ⟨b, hwrites, hsays⟩ := hbody
          exact decoded_ok (b.read_writes _ hwrites)
            (VariablesBody.neutral_of_says hsays)
      | _ => cases hfit
  | evaluate expr frameId mode =>
      cases ans with
      | evaluate x =>
          cases hfit
          obtain ⟨b, hwrites, hsays⟩ := hbody
          exact decoded_ok (b.read_writes _ hwrites)
            (EvaluateBody.neutral_of_says hsays)
      | _ => cases hfit
  | readMemory address count =>
      cases ans with
      | readMemory x =>
          cases hfit
          obtain ⟨b, hwrites, hsays⟩ := hbody
          rw [LldbQuery.decode, decodeBody_ok (b.read_writes _ hwrites)]
          exact ReadMemoryBody.neutral_of_says hlaws hsays
      | _ => cases hfit
  | disassemble address count =>
      cases ans with
      | disassemble xs =>
          cases hfit
          obtain ⟨b, hwrites, hsays⟩ := hbody
          exact decoded_ok (b.read_writes _ hwrites)
            (DisassembleBody.neutral_of_says hsays)
      | _ => cases hfit
  | setSourceBreakpoints file bps =>
      cases ans with
      | breakpoints xs =>
          cases hfit
          obtain ⟨b, hwrites, hsays⟩ := hbody
          exact decoded_ok (b.read_writes _ hwrites)
            (SetBreakpointsBody.neutral_of_says hsays)
      | _ => cases hfit
  | setFunctionBreakpoints bps =>
      cases ans with
      | breakpoints xs =>
          cases hfit
          obtain ⟨b, hwrites, hsays⟩ := hbody
          exact decoded_ok (b.read_writes _ hwrites)
            (SetBreakpointsBody.neutral_of_says hsays)
      | _ => cases hfit
  | pause =>
      cases ans with
      | done =>
          cases hfit
          rfl
      | _ => cases hfit

/-- An adapter: what it does with what it is asked for. -/
abbrev DapAdapter := DapAsked → Except String DapAnswered

/-- The responses an adapter may give to a request, with their bodies; a
refused one may say anything beside its message. -/
inductive DapAdapter.Gives (encode : List UInt8 → String)
    (adapter : DapAdapter) (r : DapRequest) :
    Response → Option Value → Prop
  | answer {asked : DapAsked} {ans : DapAnswered} {resp : Response}
      {body : Option Value} (hasked : readRequest r = some asked)
      (hans : adapter asked = .ok ans) (hok : resp.success = true)
      (hbody : ans.Writes encode (body.getD (.obj []))) :
      Gives encode adapter r resp body
  | refuse {asked : DapAsked} {message : String} {resp : Response}
      {body : Option Value} (hasked : readRequest r = some asked)
      (hans : adapter asked = .error message) (hfail : resp.success = false)
      (hmsg : resp.message = message) : Gives encode adapter r resp body

/-- The text of a refusal: the command, and what the adapter says; if
nothing, what it wrote to stderr, and if that is nothing too, so. -/
def refusalText (stderr command message : String) : String :=
  command ++ " failed: " ++
    if message ≠ "" then message
    else if stderr ≠ "" then stderr
    else "no error message provided by lldb-dap"

/-- What an operation should return of an adapter. -/
def LldbQuery.expected (stderr : String) (isLldbDap : Bool)
    (q : LldbQuery α) (adapter : DapAdapter) :
    Option (Except BackendError α) :=
  match adapter (q.asked isLldbDap) with
  | .ok ans => (q.answer? ans).map .ok
  | .error message => some (.error
      (.dap (refusalText stderr (q.asked isLldbDap).command message)))

/-- A refused response becomes the refusal. -/
theorem checkResponse_refused (stderr : String) (isLldbDap : Bool)
    (q : LldbQuery α) {resp : Response} (hfail : resp.success = false) :
    checkResponse stderr q.verb (.response resp) = .error
      (.dap (refusalText stderr (q.asked isLldbDap).command
        resp.message)) := by
  have hverb : q.verb = (q.asked isLldbDap).command := by
    cases q with
    | evaluate expr frameId mode => cases mode <;> rfl
    | threads | stackTrace | scopes | variablesOf | readMemory
    | disassemble | setSourceBreakpoints | setFunctionBreakpoints
    | pause => rfl
  have htext : diagnostic stderr resp.message =
      if resp.message ≠ "" then resp.message
      else if stderr ≠ "" then stderr
      else "no error message provided by lldb-dap" := by
    unfold diagnostic
    simp
  rw [checkResponse, if_neg (by simp [hfail]), hverb, htext]
  rfl

/-- Between an operation and an adapter nothing is changed: whatever the
adapter does, and however it writes its answer, it is asked what the
operation was called with, and the operation returns what it answers to
that, or its refusal. -/
theorem adapter_answers {libs : BodyLibs} {encode : List UInt8 → String}
    (hlaws : Base64Laws encode libs.base64) (stderr : String)
    (isLldbDap : Bool) (q : LldbQuery α) (adapter : DapAdapter) :
    readRequest (q.request isLldbDap) = some (q.asked isLldbDap) ∧
      ∀ (resp : Response) (body : Option Value)
        (result : Except BackendError α),
        adapter.Gives encode (q.request isLldbDap) resp body →
        q.expected stderr isLldbDap adapter = some result →
          q.run libs stderr (.ok (.response resp, body)) = result := by
  have hread : readRequest (q.request isLldbDap)
      = some (q.asked isLldbDap) := readRequest_request q
  refine ⟨hread, ?_⟩
  intro resp body result hgives hresult
  unfold LldbQuery.expected at hresult
  cases hgives with
  | answer hasked hans hok hbody =>
      rw [hread] at hasked
      cases hasked
      rw [hans] at hresult
      obtain ⟨a, hfit, rfl⟩ := Option.map_eq_some_iff.mp hresult
      have hcheck : checkResponse stderr q.verb (.response resp)
          = .ok resp := by
        rw [checkResponse, if_pos hok]
      show (checkResponse stderr q.verb (.response resp) >>= fun _ =>
        q.decode libs body) = .ok a
      rw [hcheck]
      exact decode_writes hlaws q hfit hbody
  | refuse hasked hans hfail hmsg =>
      rw [hread] at hasked
      cases hasked
      rw [hans] at hresult
      cases hresult
      show (checkResponse stderr q.verb (.response resp) >>= fun _ =>
        q.decode libs body) = _
      rw [checkResponse_refused stderr isLldbDap q hfail, hmsg]
      rfl

end

/-- An adapter that is in `main`, has two bytes of memory and nothing
else. -/
def inMain : DapAdapter
  | .stackTrace .. => .ok (.stackTrace
      [⟨0, 1000, "main", some "/a.c", 12, none⟩] 1)
  | .readMemory .. => .ok (.readMemory ⟨"0x1000", [72, 255]⟩)
  | _ => .error ""

/-- Its stack as it writes it: the members in an order of its own, others
beside them, and the empty reference left out. -/
def inMainBody : Value := .obj [
  ("totalFrames", .int 1),
  ("stackFrames", .arr [.obj [
    ("line", .int 12), ("column", .int 3), ("name", .str "main"),
    ("source", .obj [("name", .str "a.c"), ("path", .str "/a.c")]),
    ("id", .int 1000)]])]

/-- Its memory as it writes it. -/
def memoryBody : Value := .obj [
  ("data", .str "SP8="), ("address", .str "0x1000")]

/-- The libraries, with base64 as the standard has it. -/
def standardLibs : BodyLibs where
  json _ := ""
  base64 s := (Base64.decode s.toList).elim (.error "invalid") .ok

def encodeBase64 (data : List UInt8) : String :=
  String.ofList (Base64.encode data)

theorem standard_laws : Base64Laws encodeBase64 standardLibs.base64 where
  empty := rfl
  decodes data := by
    unfold encodeBase64 standardLibs
    simp only [String.toList_ofList, Base64.decode_encode]
    rfl

/-- A response of the adapter, without its body. -/
def inMainResponse (command : String) (success : Bool) : Response where
  seq := 9
  ty := "response"
  requestSeq := 4
  success := success
  command := command
  message := ""
  body := none

theorem in_main_answered :
    ((LldbQuery.stackTrace 7 0 20).run standardLibs ""
        (.ok (.response (inMainResponse "stackTrace" true),
          some inMainBody))
      = .ok ([⟨0, 1000, "main", some "/a.c", 12, none⟩], 1)) ∧
    ((LldbQuery.readMemory "0x1000" 2).run standardLibs ""
        (.ok (.response (inMainResponse "readMemory" true),
          some memoryBody))
      = .ok ⟨"0x1000", [72, 255]⟩) ∧
    ((LldbQuery.evaluate "bt" (some 3) .repl).run standardLibs "gone"
        (.ok (.response (inMainResponse "evaluate" false), none))
      = .error (.dap "evaluate failed: gone")) := by
  refine ⟨?_, ?_, ?_⟩
  · have hframe : DapStackFrame.Writes
        ⟨1000, "main", some ⟨"/a.c"⟩, 12, ""⟩
        (.obj [("line", .int 12), ("column", .int 3), ("name", .str "main"),
          ("source", .obj [("name", .str "a.c"), ("path", .str "/a.c")]),
          ("id", .int 1000)]) := by
      refine ⟨_, rfl, ?_⟩
      simp only [List.forall_mem_cons]
      refine ⟨.inl ⟨_, rfl, rfl⟩, .inl ⟨_, rfl, rfl⟩, .inl ⟨_, rfl, ?_⟩,
        .inl ⟨_, rfl, rfl⟩, .inr ⟨rfl, rfl⟩, by simp⟩
      refine ⟨by simp, _, rfl, ?_⟩
      simp only [List.forall_mem_cons]
      exact ⟨.inl ⟨_, rfl, rfl⟩, by simp⟩
    have hwrites : StackTraceBody.Writes
        ⟨[⟨1000, "main", some ⟨"/a.c"⟩, 12, ""⟩], 1⟩ inMainBody := by
      refine ⟨_, rfl, ?_⟩
      simp only [List.forall_mem_cons]
      exact ⟨.inl ⟨_, rfl, _, rfl, .cons hframe .nil⟩, .inl ⟨_, rfl, rfl⟩,
        by simp⟩
    have hsays : StackTraceBody.Says
        ⟨[⟨1000, "main", some ⟨"/a.c"⟩, 12, ""⟩], 1⟩
        [⟨0, 1000, "main", some "/a.c", 12, none⟩] 1 := by
      refine ⟨.cons ?_ .nil, ?_, rfl⟩
      · exact ⟨rfl, rfl, .inr ⟨by decide, rfl⟩, rfl, .inl ⟨rfl, rfl⟩⟩
      · intro i x hx
        cases i with
        | zero => cases hx; rfl
        | succ i => cases hx
    exact (adapter_answers standard_laws _ true _ inMain).2 _ _ _
      (.answer rfl rfl rfl ⟨_, hwrites, hsays⟩) rfl
  · have hwrites : ReadMemoryBody.Writes ⟨"0x1000", "SP8="⟩ memoryBody := by
      refine ⟨_, rfl, ?_⟩
      simp only [List.forall_mem_cons]
      exact ⟨.inl ⟨_, rfl, rfl⟩, .inl ⟨_, rfl, rfl⟩, by simp⟩
    exact (adapter_answers standard_laws _ true _ inMain).2 _ _ _
      (.answer rfl rfl rfl ⟨_, hwrites, rfl, by decide⟩) rfl
  · exact (adapter_answers standard_laws _ true _ inMain).2 _ _ _
      (.refuse rfl rfl rfl rfl) rfl

end DebugMcp
