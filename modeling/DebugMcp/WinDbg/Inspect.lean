/-
What the engine reads of a stopped target: threads, stacks, locals,
memory, code and modules.

DbgEng is a third-party component. `DbgApi` is what it answers, as a
function of the target; texts are as `cstr_from_buf` decodes them. Two
things of DbgEng's own state matter, because a command here changes them
and must put them back: the current thread, which `stack_trace` switches,
and the symbol scope, which `locals` sets.
-/
import DebugMcp.Dap.Framing
import DebugMcp.Tools.Inspection
import DebugMcp.Tools.ReadMemory
import DebugMcp.WinDbg.EngineBps

namespace DebugMcp

-- =============================================================== DbgEng

/-- `DEBUG_STACK_FRAME`, as far as it is read. -/
structure StackFrame where
  instructionOffset : UInt64
  returnOffset : UInt64
  frameOffset : UInt64
  stackOffset : UInt64
  deriving DecidableEq

/-- A symbol group: how many symbols it has, and their texts. -/
structure SymbolGroup where
  getNumberSymbols : Except String UInt32
  getSymbolName : Nat → Option String
  getSymbolValueText : Nat → Option String
  getSymbolTypeName : Nat → Option String

/-- What DbgEng answers of a target `τ`. -/
structure DbgApi (τ : Type) where
  getNumberThreads : τ → Except String UInt32
  /-- Engine and system ids. -/
  getThreadIdsByIndex : τ → UInt32 → Except String (List (UInt32 × UInt32))
  /-- Does `GetCurrentThreadId` answer? -/
  hasCurrentThread : τ → Bool
  setCurrentThreadId : τ → UInt32 → Except String Unit
  /-- The stack of a thread, up to so many frames. -/
  getStackTrace : τ → UInt32 → Nat → Except String (List StackFrame)
  getNameByOffset : τ → UInt64 → Option (String × UInt64)
  getLineByOffset : τ → UInt64 → Option (String × UInt32)
  setScope : τ → StackFrame → Except String Unit
  /-- Does `ResetScope` succeed? -/
  resetsScope : τ → Bool
  /-- The locals of a thread in a scope; its top frame's by default. -/
  getScopeSymbolGroup2 : τ → UInt32 → Option StackFrame →
    Except String SymbolGroup
  readVirtual : τ → UInt64 → Nat → Except String (List UInt8)
  /-- The text of an instruction, and where the next one starts. -/
  disassemble : τ → UInt64 → Option (String × UInt64)
  getInstructionOffset : τ → UInt32 → Except String UInt64

/-- The engine of a target, between two commands. -/
structure DbgEngine (τ : Type) where
  target : τ
  /-- The current thread. -/
  thread : UInt32
  /-- The scope, if one is set. -/
  scope : Option StackFrame
  deriving DecidableEq

-- ================================================================ types

/-- A loaded module. -/
structure ModuleInfo where
  name : String
  base : String
  size : String
  symbolStatus : String
  deriving DecidableEq

/-- `i64 as u32`. -/
def asU32 (n : Int) : UInt32 := UInt32.ofNat (n % 2 ^ 32).toNat

/-- `0x{:016X}`. -/
def hexAddress (offset : UInt64) : String :=
  "0x" ++ hexUpper 16 offset.toNat

namespace DbgEngine

variable {τ : Type} (api : DbgApi τ) (e : DbgEngine τ)

-- =============================================================== threads

/-- `threads`. -/
def threads : Except EngineError (List ThreadInfo) := do
  let count ← EngineError.op "GetNumberThreads"
    (api.getNumberThreads e.target)
  if count = 0 then return []
  let ids ← EngineError.op "GetThreadIdsByIndex"
    (api.getThreadIdsByIndex e.target count)
  return ids.map fun (eng, sys) => ⟨eng.toNat, s!"sys={sys}"⟩

-- ================================================================ stacks

/-- `symbolicate`. -/
def symbolicate (offset : UInt64) : Option String :=
  match api.getNameByOffset e.target offset with
  | none => none
  | some (name, displacement) =>
      if name.isEmpty then none
      else if displacement > 0 then
        some (name ++ "+0x" ++ hexUpper 0 displacement.toNat)
      else some name

/-- `line_at`. -/
def lineAt (offset : UInt64) : Option String × Int :=
  match api.getLineByOffset e.target offset with
  | none => (none, 0)
  | some (file, line) =>
      if file.isEmpty then (none, 0) else (some file, line.toNat)

/-- The frame in a place of the stack. -/
def frameAt (i : Nat) (frame : StackFrame) : Frame where
  index := i
  id := i
  name := (e.symbolicate api frame.instructionOffset).getD
    (hexAddress frame.instructionOffset)
  sourcePath := (e.lineAt api frame.instructionOffset).1
  line := (e.lineAt api frame.instructionOffset).2
  instructionPointer := some (hexAddress frame.instructionOffset)

/-- `SetCurrentThreadId`, whose failure is ignored. -/
def restoreThread (id : UInt32) : DbgEngine τ :=
  match api.setCurrentThreadId e.target id with
  | .error _ => e
  | .ok () => { e with thread := id }

/-- `stack_trace`: the thread is switched to, and back before an error is
passed on. -/
def stackTrace (threadId max : Int) :
    Except EngineError (List Frame) × DbgEngine τ :=
  let maxFrames := (min (Max.max max 1) 1024).toNat
  let prevThread :=
    if api.hasCurrentThread e.target then e.thread else asU32 threadId
  match api.setCurrentThreadId e.target (asU32 threadId) with
  | .error detail => (.error (.com "SetCurrentThreadId" detail), e)
  | .ok () =>
      let e := { e with thread := asU32 threadId }
      let trace := api.getStackTrace e.target e.thread maxFrames
      let e := e.restoreThread api prevThread
      match trace with
      | .error detail => (.error (.com "GetStackTrace" detail), e)
      | .ok frames =>
          (.ok ((frames.take maxFrames).mapIdx (e.frameAt api)), e)

-- ================================================================ locals

/-- A symbol of the group; a text that does not come is empty. -/
def groupVariable (group : SymbolGroup) (i : Nat) : Variable where
  name := (group.getSymbolName i).getD ""
  value := (group.getSymbolValueText i).getD ""
  ty := (group.getSymbolTypeName i).getD ""
  variablesReference := 0
  named := 0
  indexed := 0

/-- `read_scope_locals`. -/
def readScopeLocals : Except EngineError (List Variable) := do
  let group ← EngineError.op "GetScopeSymbolGroup2"
    (api.getScopeSymbolGroup2 e.target e.thread e.scope)
  let count ← EngineError.op "GetNumberSymbols" group.getNumberSymbols
  return (List.range count.toNat).map (groupVariable group)

/-- `ResetScope`, whose failure is ignored. -/
def resetScope : DbgEngine τ :=
  if api.resetsScope e.target then { e with scope := none } else e

/-- `locals`: for a frame that is not the top one the scope is set, and
reset. -/
def locals (frameIndex : Int) :
    Except EngineError (List Variable) × DbgEngine τ :=
  if frameIndex > 0 then
    let want := (frameIndex + 1).toNat
    match api.getStackTrace e.target e.thread want with
    | .error detail => (.error (.com "GetStackTrace" detail), e)
    | .ok frames =>
        let frames := frames.take want
        match frames[frameIndex.toNat]? with
        | none => (.error (.engine (s!"locals: frame {frameIndex} is out "
            ++ s!"of range ({frames.length} frames)")), e)
        | some frame =>
            match api.setScope e.target frame with
            | .error detail => (.error (.com "SetScope" detail), e)
            | .ok () =>
                let e := { e with scope := some frame }
                (e.readScopeLocals api, e.resetScope api)
  else (e.readScopeLocals api, e)

-- ================================================================ memory

/-- `read_memory`; the buffer has room for `size` bytes. -/
def readMemory (address : UInt64) (size : Nat) :
    Except EngineError MemoryRead := do
  let size := min size (2 ^ 32 - 1)
  let data ← EngineError.op "ReadVirtual"
    (api.readVirtual e.target address size)
  return ⟨hexAddress address, data.take size⟩

/-- `current_source_location`. -/
def currentSourceLocation : Except EngineError (Option (String × Int)) := do
  let ip ← EngineError.op "GetInstructionOffset"
    (api.getInstructionOffset e.target e.thread)
  let (file, line) := e.lineAt api ip
  return file.map fun f => (f, line)

-- ================================================================== code

/-- `str::split_whitespace`. -/
def splitWhitespace (cs : List Char) : List (List Char) :=
  (cs.splitOnP isWhitespace).filter (!·.isEmpty)

/-- `parse_disasm_text`: what follows the address and the bytes. -/
def parseDisasmText (line : String) : String :=
  let trimmed := trim line.toList
  let rest := (splitWhitespace trimmed).drop 2
  if rest.isEmpty then String.ofList trimmed
  else String.ofList ([' '].intercalate rest)

/-- The instruction at an offset, of its text. -/
def instructionAt (offset : UInt64) (text : String) : Instruction where
  address := hexAddress offset
  instruction := parseDisasmText text
  bytes := ""
  symbol := ""
  sourcePath := none
  line := 0

/-- The loop of `disassemble`: it stops where DbgEng fails or does not
advance. -/
def disassembleFrom : Nat → UInt64 → List Instruction
  | 0, _ => []
  | n + 1, offset =>
      match api.disassemble e.target offset with
      | none => []
      | some (text, endOffset) =>
          instructionAt offset text ::
            if endOffset ≤ offset then [] else disassembleFrom n endOffset

/-- `disassemble`; `none` where the vector's capacity, of 128 bytes each,
overflows, and the thread panics. -/
def disassemble (address : UInt64) (count : Int) :
    Option (List Instruction) :=
  let n := (max count 0).toNat
  if 128 * n < 2 ^ 63 then some (disassembleFrom api e n address) else none

-- ============================================================== results

variable {api e} in
/-- The frames of a walk that succeeds are those DbgEng gives of the
thread asked for. -/
theorem stackTrace_ok {threadId max : Int} {frames : List Frame}
    (h : (e.stackTrace api threadId max).1 = .ok frames) :
    ∃ trace, api.getStackTrace e.target (asU32 threadId)
        (min (Max.max max 1) 1024).toNat = .ok trace ∧
      frames = (trace.take (min (Max.max max 1) 1024).toNat).mapIdx
        (e.frameAt api) := by
  simp only [DbgEngine.stackTrace] at h
  split at h
  · cases h
  · have hframe {id : UInt32} : (({ e with thread := asU32 threadId } :
        DbgEngine τ).restoreThread api id).frameAt api = e.frameAt api := by
      unfold restoreThread
      split <;> rfl
    split at h
    · cases h
    · rename_i trace htrace
      rw [hframe] at h
      exact ⟨trace, htrace, (Except.ok.inj h).symm⟩

-- ============================================================ restoring

/-- An engine that can be put back as it is: no scope is set, and the
current thread is known and can be set again. -/
structure Settled : Prop where
  scope : e.scope = none
  known : api.hasCurrentThread e.target = true
  thread : api.setCurrentThreadId e.target e.thread = .ok ()
  resets : api.resetsScope e.target = true

variable {api e}

/-- A walk of any thread's stack leaves a settled engine as it was. -/
theorem Settled.stackTrace (h : e.Settled api) (threadId max : Int) :
    (e.stackTrace api threadId max).2 = e := by
  simp only [DbgEngine.stackTrace, h.known, if_true]
  split
  · rfl
  · have hback : ({ e with thread := asU32 threadId } :
        DbgEngine τ).restoreThread api e.thread = e := by
      simp only [restoreThread, h.thread]
    split
    · exact hback
    · exact hback

/-- A look at any frame's locals leaves a settled engine as it was. -/
theorem Settled.locals (h : e.Settled api) (frameIndex : Int) :
    (e.locals api frameIndex).2 = e := by
  unfold DbgEngine.locals
  split_ifs
  · dsimp only
    split
    · rfl
    · split
      · rfl
      · split
        · rfl
        · simp only [resetScope, h.resets, if_true]
          rw [← h.scope]
  · rfl

end DbgEngine

-- =============================================================== modules

/-- What DbgEng says of one module: its base, its name, and its size and
kind of symbols. -/
structure ModuleAnswer where
  base : Option UInt64
  name : Option String
  params : Option (UInt32 × UInt32)

/-- `symbol_status`. -/
def symbolStatus (symbolType : UInt32) : String :=
  -- PDB, CODEVIEW, COFF, SYM and DIA
  if symbolType ∈ [3, 2, 1, 6, 7] then "pdb"
  else if symbolType = 4 then "export"
  else if symbolType = 5 then "deferred"
  else "none"

/-- A module of the list; one whose base does not come is skipped. -/
def moduleInfo (m : ModuleAnswer) : Option ModuleInfo :=
  m.base.map fun base => {
    name := m.name.getD ""
    base := hexAddress base
    size := toString ((m.params.map Prod.fst).getD 0)
    symbolStatus := (m.params.map fun p => symbolStatus p.2).getD "none" }

/-- `modules`. -/
def modules (answers : Except String (List ModuleAnswer)) :
    Except EngineError (List ModuleInfo) :=
  (EngineError.op "GetNumberModules" answers).map
    (·.filterMap moduleInfo)

/-- A target of one thread, whose stack has two frames and whose code two
instructions. -/
def smallTarget : DbgApi Unit where
  getNumberThreads _ := .ok 1
  getThreadIdsByIndex _ _ := .ok [(1, 1)]
  hasCurrentThread _ := true
  setCurrentThreadId _ _ := .ok ()
  getStackTrace _ _ n := .ok ([⟨4096, 0, 0, 0⟩, ⟨8192, 0, 0, 0⟩].take n)
  getNameByOffset _ _ := none
  getLineByOffset _ _ := none
  setScope _ _ := .ok ()
  resetsScope _ := true
  getScopeSymbolGroup2 _ _ _ :=
    .ok ⟨.ok 1, fun _ => some "n", fun _ => some "7", fun _ => some "int"⟩
  readVirtual _ _ _ := .ok []
  disassemble _ offset :=
    if offset = 4096 then some ("00001000 55 push rbp", 4097)
    else if offset = 4097 then some ("00001001 c3 ret", 4098)
    else none
  getInstructionOffset _ _ := .ok 4096

/-- Its engine. -/
def smallEngine : DbgEngine Unit := ⟨(), 1, none⟩

end DebugMcp
