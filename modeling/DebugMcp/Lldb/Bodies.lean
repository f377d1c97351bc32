/-
The bodies of lldb-dap's answers, and what the backend makes of them.

Each body has the record it is read into and the neutral value that is
made of it, as the source has them. Beside these stands the protocol's
side. `Writes` is how an adapter writes a record: which members, and which
of them it may leave out; their order, and others beside them, are the
adapter's own. `Says` is which neutral value a record stands for, field by
field. What is written is what is read (`read_writes`), and what is made
of a record is what it says (`neutral_of_says`).

# Representation

- The JSON library's text for a value that is not of a type, and the
  base64 library's decoder, are parameters.
-/
import DebugMcp.Lib.Document
import DebugMcp.Tools.Inspection
import DebugMcp.Tools.ReadMemory

namespace DebugMcp

open Doc

-- =============================================================== sources

/-- A source reference. -/
structure DapSource where
  path : String

namespace DapSource

def read : Reader DapSource := record do
  return ⟨← field "path" Reader.str (some "")⟩

/-- How it is written. -/
def Writes (s : DapSource) : Value → Prop := Doc.Writes [.text "path" s.path]

theorem read_writes (s : DapSource) (v : Value) (h : s.Writes v) :
    read v = some s := by
  apply record_writes h
  intro ms h
  simp only [List.forall_mem_cons] at h
  rw [text_bind h.1]
  rfl

end DapSource

/-- The path of a source reference, unless it is empty. -/
def sourcePath (s : Option DapSource) : Option String :=
  (s.map DapSource.path).filter fun p => !p.isEmpty

/-- A text stands for itself, and an empty one for none. -/
def SaysText (s : String) (x : Option String) : Prop :=
  (s = "" ∧ x = none) ∨ (s ≠ "" ∧ x = some s)

/-- A source reference stands for its path; one that has none, and no
reference at all, stand for no path. -/
def SaysPath : Option DapSource → Option String → Prop
  | none, x => x = none
  | some source, x => SaysText source.path x

theorem sourcePath_of_says {s : Option DapSource} {x : Option String}
    (h : SaysPath s x) : sourcePath s = x := by
  cases s with
  | none => exact h.symm
  | some source =>
      rcases h with ⟨hempty, rfl⟩ | ⟨hpath, rfl⟩
      · simp [sourcePath, hempty]
      · simp [sourcePath, hpath]

-- ================================================================= lists

/-- A body that is one list. -/
def listBody {α : Type} (key : String) (r : Reader α) : Reader (List α) :=
  record do return ← field key (.list r) (some [])

/-- How it is written. -/
def WritesListBody {α : Type} (key : String) (form : α → Value → Prop)
    (as : List α) : Value → Prop :=
  Doc.Writes [.elements key form as]

theorem listBody_writes {α : Type} {key : String} {r : Reader α}
    {form : α → Value → Prop} (hform : ∀ a u, form a u → r u = some a)
    (as : List α) (v : Value) (h : WritesListBody key form as v) :
    listBody key r v = some as := by
  apply record_writes h
  intro ms h
  simp only [List.forall_mem_cons] at h
  exact elements_in hform h.1

/-- What is made of a list, element by element. -/
theorem map_of_says {α β : Type} {Says : α → β → Prop} {f : α → β}
    (hf : ∀ a b, Says a b → f a = b) {as : List α} {bs : List β}
    (h : List.Forall₂ Says as bs) : as.map f = bs := by
  induction h with
  | nil => rfl
  | cons hab _ ih => rw [List.map_cons, hf _ _ hab, ih]

-- ================================================================ frames

structure DapStackFrame where
  id : Int64
  name : String
  source : Option DapSource
  line : Int64
  instructionPointerReference : String

namespace DapStackFrame

def read : Reader DapStackFrame := record do
  return {
    id := ← field "id" Reader.int64 none
    name := ← field "name" Reader.str (some "")
    source := ← field "source" (.option DapSource.read) (some none)
    line := ← field "line" Reader.int64 (some 0)
    instructionPointerReference :=
      ← field "instructionPointerReference" Reader.str (some "") }

/-- How it is written. -/
def Writes (f : DapStackFrame) : Value → Prop := Doc.Writes [
  .needed "id" f.id, .text "name" f.name,
  .perhaps "source" DapSource.Writes f.source, .number "line" f.line,
  .text "instructionPointerReference" f.instructionPointerReference]

theorem read_writes (f : DapStackFrame) (v : Value) (h : f.Writes v) :
    read v = some f := by
  apply record_writes h
  intro ms h
  simp only [List.forall_mem_cons] at h
  obtain ⟨hid, hname, hsource, hline, hip, -⟩ := h
  rw [needed_bind hid, text_bind hname,
    perhaps_bind DapSource.read_writes hsource, number_bind hline,
    text_bind hip]
  rfl

/-- The neutral frame at a place of the list. -/
def neutral (i : Nat) (f : DapStackFrame) : Frame where
  index := i
  id := f.id.toInt
  name := f.name
  sourcePath := sourcePath f.source
  line := f.line.toInt
  instructionPointer :=
    if f.instructionPointerReference.isEmpty then none
    else some f.instructionPointerReference

/-- The frame it stands for, wherever it is in the list. -/
def Says (f : DapStackFrame) (x : Frame) : Prop :=
  f.id.toInt = x.id ∧ f.name = x.name ∧ SaysPath f.source x.sourcePath ∧
    f.line.toInt = x.line ∧
    SaysText f.instructionPointerReference x.instructionPointer

theorem neutral_of_says {i : Nat} {f : DapStackFrame} {x : Frame}
    (h : f.Says x) (hi : x.index = i) : f.neutral i = x := by
  obtain ⟨hid, hname, hsource, hline, hip⟩ := h
  cases x
  simp only at hi hid hname hsource hline hip
  unfold neutral
  rw [hid, hname, hline, sourcePath_of_says hsource, hi]
  rcases hip with ⟨hempty, rfl⟩ | ⟨href, rfl⟩
  · simp [hempty]
  · simp [href]

end DapStackFrame

structure StackTraceBody where
  stackFrames : List DapStackFrame
  totalFrames : Int64

namespace StackTraceBody

def read : Reader StackTraceBody := record do
  return {
    stackFrames := ← field "stackFrames" (.list DapStackFrame.read) (some [])
    totalFrames := ← field "totalFrames" Reader.int64 (some 0) }

/-- How it is written. -/
def Writes (b : StackTraceBody) : Value → Prop := Doc.Writes [
  .elements "stackFrames" DapStackFrame.Writes b.stackFrames,
  .number "totalFrames" b.totalFrames]

theorem read_writes (b : StackTraceBody) (v : Value) (h : b.Writes v) :
    read v = some b := by
  apply record_writes h
  intro ms h
  simp only [List.forall_mem_cons] at h
  obtain ⟨hframes, htotal, -⟩ := h
  rw [bind_in (elements_in DapStackFrame.read_writes hframes),
    number_bind htotal]
  rfl

/-- `stack_trace`. -/
def neutral (b : StackTraceBody) : List Frame × Int :=
  (b.stackFrames.mapIdx DapStackFrame.neutral, b.totalFrames.toInt)

/-- The stack it stands for: each frame has its place as its index. -/
def Says (b : StackTraceBody) (frames : List Frame) (total : Int) : Prop :=
  List.Forall₂ DapStackFrame.Says b.stackFrames frames ∧
    (∀ (i : Nat) (x : Frame), frames[i]? = some x → x.index = i) ∧
    b.totalFrames.toInt = total

theorem neutral_of_says {b : StackTraceBody} {frames : List Frame}
    {total : Int} (h : b.Says frames total) :
    b.neutral = (frames, total) := by
  obtain ⟨hframes, hindex, htotal⟩ := h
  unfold neutral
  rw [htotal]
  congr 1
  apply List.ext_getElem?
  intro i
  rw [List.getElem?_mapIdx]
  have hlen := hframes.length_eq
  by_cases hi : i < frames.length
  · have hi' : i < b.stackFrames.length := by omega
    rw [List.getElem?_eq_getElem hi, List.getElem?_eq_getElem hi',
      Option.map_some]
    congr 1
    apply DapStackFrame.neutral_of_says
    · exact hframes.get hi' hi
    · exact hindex i _ (List.getElem?_eq_getElem hi)
  · rw [List.getElem?_eq_none (by omega), List.getElem?_eq_none (by omega)]
    rfl

end StackTraceBody

-- =============================================================== threads

structure DapThread where
  id : Int64
  name : String

namespace DapThread

def read : Reader DapThread := record do
  return {
    id := ← field "id" Reader.int64 none
    name := ← field "name" Reader.str (some "") }

/-- How it is written. -/
def Writes (t : DapThread) : Value → Prop :=
  Doc.Writes [.needed "id" t.id, .text "name" t.name]

theorem read_writes (t : DapThread) (v : Value) (h : t.Writes v) :
    read v = some t := by
  apply record_writes h
  intro ms h
  simp only [List.forall_mem_cons] at h
  obtain ⟨hid, hname, -⟩ := h
  rw [needed_bind hid, text_bind hname]
  rfl

/-- The thread it stands for. -/
def Says (t : DapThread) (x : ThreadInfo) : Prop :=
  t.id.toInt = x.id ∧ t.name = x.name

end DapThread

/-- The list is all there is. -/
abbrev ThreadsBody := List DapThread

namespace ThreadsBody

def read : Reader ThreadsBody := listBody "threads" DapThread.read

/-- How it is written. -/
def Writes : ThreadsBody → Value → Prop :=
  WritesListBody "threads" DapThread.Writes

theorem read_writes (b : ThreadsBody) (v : Value) (h : b.Writes v) :
    read v = some b :=
  listBody_writes DapThread.read_writes b v h

/-- `threads`. -/
def neutral (b : ThreadsBody) : List ThreadInfo :=
  b.map fun t => ⟨t.id.toInt, t.name⟩

theorem neutral_of_says {b : ThreadsBody} {xs : List ThreadInfo}
    (h : List.Forall₂ DapThread.Says b xs) : b.neutral = xs := by
  apply map_of_says ?_ h
  rintro t x ⟨hid, hname⟩
  rw [hid, hname]

end ThreadsBody

-- ================================================================ scopes

structure DapScope where
  name : String
  variablesReference : Int64

namespace DapScope

def read : Reader DapScope := record do
  return {
    name := ← field "name" Reader.str (some "")
    variablesReference :=
      ← field "variablesReference" Reader.int64 (some 0) }

/-- How it is written. -/
def Writes (s : DapScope) : Value → Prop := Doc.Writes [
  .text "name" s.name, .number "variablesReference" s.variablesReference]

theorem read_writes (s : DapScope) (v : Value) (h : s.Writes v) :
    read v = some s := by
  apply record_writes h
  intro ms h
  simp only [List.forall_mem_cons] at h
  obtain ⟨hname, href, -⟩ := h
  rw [text_bind hname, number_bind href]
  rfl

/-- The scope it stands for. -/
def Says (s : DapScope) (x : Scope) : Prop :=
  s.name = x.name ∧ s.variablesReference.toInt = x.variablesReference

end DapScope

/-- The list is all there is. -/
abbrev ScopesBody := List DapScope

namespace ScopesBody

def read : Reader ScopesBody := listBody "scopes" DapScope.read

/-- How it is written. -/
def Writes : ScopesBody → Value → Prop :=
  WritesListBody "scopes" DapScope.Writes

theorem read_writes (b : ScopesBody) (v : Value) (h : b.Writes v) :
    read v = some b :=
  listBody_writes DapScope.read_writes b v h

/-- `scopes`. -/
def neutral (b : ScopesBody) : List Scope :=
  b.map fun s => ⟨s.name, s.variablesReference.toInt⟩

theorem neutral_of_says {b : ScopesBody} {xs : List Scope}
    (h : List.Forall₂ DapScope.Says b xs) : b.neutral = xs := by
  apply map_of_says ?_ h
  rintro s x ⟨hname, href⟩
  rw [hname, href]

end ScopesBody

-- ============================================================= variables

structure DapVariable where
  name : String
  value : String
  ty : String
  variablesReference : Int64
  namedVariables : Int64
  indexedVariables : Int64

namespace DapVariable

def read : Reader DapVariable := record do
  return {
    name := ← field "name" Reader.str (some "")
    value := ← field "value" Reader.str (some "")
    ty := ← field "type" Reader.str (some "")
    variablesReference :=
      ← field "variablesReference" Reader.int64 (some 0)
    namedVariables := ← field "namedVariables" Reader.int64 (some 0)
    indexedVariables := ← field "indexedVariables" Reader.int64 (some 0) }

/-- How it is written. -/
def Writes (x : DapVariable) : Value → Prop := Doc.Writes [
  .text "name" x.name, .text "value" x.value, .text "type" x.ty,
  .number "variablesReference" x.variablesReference,
  .number "namedVariables" x.namedVariables,
  .number "indexedVariables" x.indexedVariables]

theorem read_writes (x : DapVariable) (v : Value) (h : x.Writes v) :
    read v = some x := by
  apply record_writes h
  intro ms h
  simp only [List.forall_mem_cons] at h
  obtain ⟨hname, hvalue, hty, href, hnamed, hindexed, -⟩ := h
  rw [text_bind hname, text_bind hvalue, text_bind hty, number_bind href,
    number_bind hnamed, number_bind hindexed]
  rfl

/-- The neutral variable. -/
def neutral (x : DapVariable) : Variable where
  name := x.name
  value := x.value
  ty := x.ty
  variablesReference := x.variablesReference.toInt
  named := x.namedVariables.toInt
  indexed := x.indexedVariables.toInt

/-- The variable it stands for. -/
def Says (d : DapVariable) (x : Variable) : Prop :=
  d.name = x.name ∧ d.value = x.value ∧ d.ty = x.ty ∧
    d.variablesReference.toInt = x.variablesReference ∧
    d.namedVariables.toInt = x.named ∧ d.indexedVariables.toInt = x.indexed

theorem neutral_of_says {d : DapVariable} {x : Variable} (h : d.Says x) :
    d.neutral = x := by
  obtain ⟨hname, hvalue, hty, href, hnamed, hindexed⟩ := h
  unfold neutral
  rw [hname, hvalue, hty, href, hnamed, hindexed]

end DapVariable

/-- The list is all there is. -/
abbrev VariablesBody := List DapVariable

namespace VariablesBody

def read : Reader VariablesBody := listBody "variables" DapVariable.read

/-- How it is written. -/
def Writes : VariablesBody → Value → Prop :=
  WritesListBody "variables" DapVariable.Writes

theorem read_writes (b : VariablesBody) (v : Value) (h : b.Writes v) :
    read v = some b :=
  listBody_writes DapVariable.read_writes b v h

/-- `variables`. -/
def neutral (b : VariablesBody) : List Variable :=
  b.map DapVariable.neutral

theorem neutral_of_says {b : VariablesBody} {xs : List Variable}
    (h : List.Forall₂ DapVariable.Says b xs) : b.neutral = xs := by
  apply map_of_says ?_ h
  intro d x hsays
  exact DapVariable.neutral_of_says hsays

end VariablesBody

-- ============================================================ evaluation

structure EvaluateBody where
  result : String
  ty : String
  variablesReference : Int64

namespace EvaluateBody

def read : Reader EvaluateBody := record do
  return {
    result := ← field "result" Reader.str (some "")
    ty := ← field "type" Reader.str (some "")
    variablesReference :=
      ← field "variablesReference" Reader.int64 (some 0) }

/-- How it is written. -/
def Writes (b : EvaluateBody) : Value → Prop := Doc.Writes [
  .text "result" b.result, .text "type" b.ty,
  .number "variablesReference" b.variablesReference]

theorem read_writes (b : EvaluateBody) (v : Value) (h : b.Writes v) :
    read v = some b := by
  apply record_writes h
  intro ms h
  simp only [List.forall_mem_cons] at h
  obtain ⟨hresult, hty, href, -⟩ := h
  rw [text_bind hresult, text_bind hty, number_bind href]
  rfl

/-- `evaluate`. -/
def neutral (b : EvaluateBody) : EvalResult where
  result := b.result
  ty := b.ty
  variablesReference := b.variablesReference.toInt

/-- The result it stands for. -/
def Says (b : EvaluateBody) (x : EvalResult) : Prop :=
  b.result = x.result ∧ b.ty = x.ty ∧
    b.variablesReference.toInt = x.variablesReference

theorem neutral_of_says {b : EvaluateBody} {x : EvalResult}
    (h : b.Says x) : b.neutral = x := by
  obtain ⟨hresult, hty, href⟩ := h
  unfold neutral
  rw [hresult, hty, href]

end EvaluateBody

-- ================================================================ memory

/-- What is relied on of the base64 library: the empty list of bytes is
the empty text, and what is encoded is decoded. -/
structure Base64Laws (encode : List UInt8 → String)
    (decode : String → Except String (List UInt8)) : Prop where
  empty : encode [] = ""
  decodes : ∀ data, decode (encode data) = .ok data

/-- So only that list is. -/
theorem Base64Laws.eq_nil {encode : List UInt8 → String}
    {decode : String → Except String (List UInt8)}
    (h : Base64Laws encode decode) {data : List UInt8}
    (hdata : encode data = "") : data = [] := by
  have hok : Except.ok (ε := String) data = .ok [] := by
    rw [← h.decodes data, ← h.decodes [], hdata, h.empty]
  exact Except.ok.inj hok

structure ReadMemoryBody where
  address : String
  data : String

namespace ReadMemoryBody

def read : Reader ReadMemoryBody := record do
  return {
    address := ← field "address" Reader.str (some "")
    data := ← field "data" Reader.str (some "") }

/-- How it is written. -/
def Writes (b : ReadMemoryBody) : Value → Prop :=
  Doc.Writes [.text "address" b.address, .text "data" b.data]

theorem read_writes (b : ReadMemoryBody) (v : Value) (h : b.Writes v) :
    read v = some b := by
  apply record_writes h
  intro ms h
  simp only [List.forall_mem_cons] at h
  obtain ⟨haddress, hdata, -⟩ := h
  rw [text_bind haddress, text_bind hdata]
  rfl

/-- `read_memory`; `base64` decodes, or gives the text of its error. -/
def neutral (base64 : String → Except String (List UInt8))
    (b : ReadMemoryBody) : Except BackendError MemoryRead :=
  if b.data.isEmpty then .ok ⟨b.address, []⟩
  else match base64 b.data with
    | .ok data => .ok ⟨b.address, data⟩
    | .error text =>
        .error (.dap s!"failed to decode memory data: {text}")

/-- The memory it stands for, where `encode` writes base64. -/
def Says (encode : List UInt8 → String) (b : ReadMemoryBody)
    (x : MemoryRead) : Prop :=
  b.address = x.address ∧ b.data = encode x.data

theorem neutral_of_says {encode : List UInt8 → String}
    {base64 : String → Except String (List UInt8)}
    (hlaws : Base64Laws encode base64) {b : ReadMemoryBody}
    {x : MemoryRead} (h : b.Says encode x) :
    b.neutral base64 = .ok x := by
  obtain ⟨haddress, hdata⟩ := h
  unfold neutral
  rw [haddress, hdata]
  split_ifs with hempty
  · have hnil : x.data = [] := hlaws.eq_nil (by simpa using hempty)
    rw [← hnil]
  · rw [hlaws.decodes]

end ReadMemoryBody

-- ========================================================== instructions

structure DapInstruction where
  address : String
  instruction : String
  instructionBytes : String
  symbol : String
  location : Option DapSource
  line : Int64

namespace DapInstruction

def read : Reader DapInstruction := record do
  return {
    address := ← field "address" Reader.str (some "")
    instruction := ← field "instruction" Reader.str (some "")
    instructionBytes := ← field "instructionBytes" Reader.str (some "")
    symbol := ← field "symbol" Reader.str (some "")
    location := ← field "location" (.option DapSource.read) (some none)
    line := ← field "line" Reader.int64 (some 0) }

/-- How it is written. -/
def Writes (i : DapInstruction) : Value → Prop := Doc.Writes [
  .text "address" i.address, .text "instruction" i.instruction,
  .text "instructionBytes" i.instructionBytes, .text "symbol" i.symbol,
  .perhaps "location" DapSource.Writes i.location, .number "line" i.line]

theorem read_writes (i : DapInstruction) (v : Value) (h : i.Writes v) :
    read v = some i := by
  apply record_writes h
  intro ms h
  simp only [List.forall_mem_cons] at h
  obtain ⟨haddress, hinst, hbytes, hsymbol, hlocation, hline, -⟩ := h
  rw [text_bind haddress, text_bind hinst, text_bind hbytes,
    text_bind hsymbol, perhaps_bind DapSource.read_writes hlocation,
    number_bind hline]
  rfl

/-- The neutral instruction. -/
def neutral (i : DapInstruction) : Instruction where
  address := i.address
  instruction := i.instruction
  bytes := i.instructionBytes
  symbol := i.symbol
  sourcePath := DebugMcp.sourcePath i.location
  line := i.line.toInt

/-- The instruction it stands for. -/
def Says (i : DapInstruction) (x : Instruction) : Prop :=
  i.address = x.address ∧ i.instruction = x.instruction ∧
    i.instructionBytes = x.bytes ∧ i.symbol = x.symbol ∧
    SaysPath i.location x.sourcePath ∧ i.line.toInt = x.line

theorem neutral_of_says {i : DapInstruction} {x : Instruction}
    (h : i.Says x) : i.neutral = x := by
  obtain ⟨haddress, hinst, hbytes, hsymbol, hlocation, hline⟩ := h
  unfold neutral
  rw [haddress, hinst, hbytes, hsymbol, sourcePath_of_says hlocation,
    hline]

end DapInstruction

/-- The list is all there is. -/
abbrev DisassembleBody := List DapInstruction

namespace DisassembleBody

def read : Reader DisassembleBody := listBody "instructions" DapInstruction.read

/-- How it is written. -/
def Writes : DisassembleBody → Value → Prop :=
  WritesListBody "instructions" DapInstruction.Writes

theorem read_writes (b : DisassembleBody) (v : Value) (h : b.Writes v) :
    read v = some b :=
  listBody_writes DapInstruction.read_writes b v h

/-- `disassemble`. -/
def neutral (b : DisassembleBody) : List Instruction :=
  b.map DapInstruction.neutral

theorem neutral_of_says {b : DisassembleBody} {xs : List Instruction}
    (h : List.Forall₂ DapInstruction.Says b xs) : b.neutral = xs := by
  apply map_of_says ?_ h
  intro d x hsays
  exact DapInstruction.neutral_of_says hsays

end DisassembleBody

-- =========================================================== breakpoints

structure DapBreakpoint where
  id : Int64
  verified : Bool
  line : Int64
  message : String

namespace DapBreakpoint

def read : Reader DapBreakpoint := record do
  return {
    id := ← field "id" Reader.int64 (some 0)
    verified := ← field "verified" Reader.bool (some false)
    line := ← field "line" Reader.int64 (some 0)
    message := ← field "message" Reader.str (some "") }

/-- How it is written. -/
def Writes (b : DapBreakpoint) : Value → Prop := Doc.Writes [
  .number "id" b.id, .flag "verified" b.verified, .number "line" b.line,
  .text "message" b.message]

theorem read_writes (b : DapBreakpoint) (v : Value) (h : b.Writes v) :
    read v = some b := by
  apply record_writes h
  intro ms h
  simp only [List.forall_mem_cons] at h
  obtain ⟨hid, hverified, hline, hmessage, -⟩ := h
  rw [number_bind hid, flag_bind hverified, number_bind hline,
    text_bind hmessage]
  rfl

/-- The neutral result: lldb rejects none. -/
def neutral (b : DapBreakpoint) : BreakpointResult where
  id := b.id.toInt
  verified := b.verified
  line := b.line.toInt
  message := b.message
  rejected := false

/-- The result it stands for. -/
def Says (b : DapBreakpoint) (x : BreakpointResult) : Prop :=
  b.id.toInt = x.id ∧ b.verified = x.verified ∧ b.line.toInt = x.line ∧
    b.message = x.message ∧ x.rejected = false

theorem neutral_of_says {b : DapBreakpoint} {x : BreakpointResult}
    (h : b.Says x) : b.neutral = x := by
  obtain ⟨hid, hverified, hline, hmessage, hrejected⟩ := h
  unfold neutral
  rw [hid, hverified, hline, hmessage, ← hrejected]

end DapBreakpoint

/-- The list is all there is. -/
abbrev SetBreakpointsBody := List DapBreakpoint

namespace SetBreakpointsBody

def read : Reader SetBreakpointsBody := listBody "breakpoints" DapBreakpoint.read

/-- How it is written. -/
def Writes : SetBreakpointsBody → Value → Prop :=
  WritesListBody "breakpoints" DapBreakpoint.Writes

theorem read_writes (b : SetBreakpointsBody) (v : Value) (h : b.Writes v) :
    read v = some b :=
  listBody_writes DapBreakpoint.read_writes b v h

/-- `breakpoints`. -/
def neutral (b : SetBreakpointsBody) : List BreakpointResult :=
  b.map DapBreakpoint.neutral

theorem neutral_of_says {b : SetBreakpointsBody} {xs : List BreakpointResult}
    (h : List.Forall₂ DapBreakpoint.Says b xs) : b.neutral = xs := by
  apply map_of_says ?_ h
  intro d x hsays
  exact DapBreakpoint.neutral_of_says hsays

end SetBreakpointsBody

end DebugMcp
