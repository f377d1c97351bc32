/-
`disassemble`: the instructions from the current one on, or from an
address.

Three layers format and parse one address. The engine writes the
instruction pointer of the top frame, the handler passes it on and keeps
it to mark the current instruction, the backend parses it, and the engine
writes it again before the instruction it decodes there.
`disassembly_sweeps` is what comes out over the WinDbg backend: the
instructions that follow one another from where the listing starts, and
the mark on the first of them exactly when nobody asked for an address.
-/
import DebugMcp.Tools.ReadMemory
import DebugMcp.WinDbg.Marshal
import Mathlib.Data.List.Chain

namespace DebugMcp

-- =============================================================== handler

/-- `DEFAULT_DISASSEMBLE_COUNT`. -/
def defaultDisassembleCount : Int := 20

/-- The number of instructions asked for. -/
def instructionCountArg (args : Args) : Int :=
  match args.getF64 "instruction_count" with
  | some ic => if ic > 0 then f64ToI64 ic else defaultDisassembleCount
  | none => defaultDisassembleCount

/-- What the handler uses of a backend. -/
structure CodeReader where
  stackTrace : Int → Int → Int → Except BackendError (List Frame × Int)
  disassemble : String → Int → Except BackendError (List Instruction)

/-- An instruction of the response; what is empty is left out. -/
def Instruction.toJson (currentPc : String) (inst : Instruction) : Json :=
  let entry := (RespBuilder.new.set "address" (.str inst.address)).set
    "instruction" (.str inst.instruction)
  let entry := entry.setIf (!inst.bytes.isEmpty) "bytes" (.str inst.bytes)
  let entry := entry.setIf (!inst.symbol.isEmpty) "symbol"
    (.str inst.symbol)
  let entry := match inst.sourcePath.filter fun p => !p.isEmpty with
    | some path =>
        (entry.set "file" (.str path)).set "line" (.int inst.line)
    | none => entry
  (entry.setIf (!currentPc.isEmpty && inst.address == currentPc)
    "is_current_pc" (.bool true)).build

/-- The response with these instructions. -/
def disassembly (items : List Json) (startAddress : String) : Json :=
  (((RespBuilder.new.set "instructions" (.arr items)).set
    "count" (.int items.length)).set
    "start_address" (.str startAddress)).build

/-- Where the listing starts, and the current instruction if it starts
there: an address, or the top frame's. -/
def startAddress (address : String) (last : Option StopInfo)
    (b : CodeReader) : Except String (String × String) :=
  if address.isEmpty then
    match b.stackTrace ((last.map StopInfo.threadId).getD 1) 0 1 with
    | .error e => .error (OpError.stackTrace.render e)
    | .ok (frames, _) =>
        match (frames.head?.bind Frame.instructionPointer).filter
          fun ip => !ip.isEmpty with
        | some ip => .ok (ip, ip)
        | none =>
            .error "no instruction pointer available for current frame"
  else .ok (address, "")

/-- `normalize_hex`, of a string. -/
def normalizeAddress (address : String) : String :=
  String.ofList (normalizeHex address.toList)

/-- `handle_disassemble`, over what its guard, the session and the slot
give. -/
def handleDisassemble (guard : Except String Unit) (args : Args)
    (last : Option StopInfo) (backend : Option CodeReader) :
    Except String Json := do
  guard
  match backend with
  | none => .error OpError.disassemble.requestFailed
  | some b =>
      let (address, currentPc) ←
        startAddress (args.getString "address" "") last b
      let address := normalizeAddress address
      let currentPc := if currentPc.isEmpty then currentPc
        else normalizeAddress currentPc
      match b.disassemble address (instructionCountArg args) with
      | .error e => .error (OpError.disassemble.render e)
      | .ok instructions =>
          .ok (disassembly (instructions.map (Instruction.toJson currentPc))
            address)

-- =============================================================== WinDbg

/-- The WinDbg backend as the handler uses it, over an engine that nobody
else changes meanwhile; where the thread panics the caller is told that
it is gone. -/
def windbgCodeReader {τ : Type} (api : DbgApi τ) (e : DbgEngine τ) :
    CodeReader where
  stackTrace threadId start levels :=
    match (e.stackTrace api threadId (Marshal.fetchMax start levels)).1 with
    | .error err => .error (mapEngineErr err)
    | .ok frames => .ok (Marshal.window start frames)
  disassemble address count :=
    match parseAddress address.toList with
    | .error err => .error err
    | .ok parsed =>
        match e.disassemble api parsed count with
        | none => .error .closed
        | some is => .ok is

-- ============================================================= addresses

/-- The digits of an address. -/
def addressDigits (n : Nat) : List Char :=
  List.leftpad 16 '0' ((Nat.toDigits 16 n).map Char.toUpper)

theorem hexAddress_toList (offset : UInt64) :
    (hexAddress offset).toList
      = '0' :: 'x' :: addressDigits offset.toNat := by
  simp only [hexAddress, hexUpper, String.toList_append,
    String.toList_ofList]
  rfl

/-- The digits of an address read as the address. -/
theorem value_addressDigits (n : Nat) :
    Hex.value (addressDigits n) = some n := by
  have hne : addressDigits n ≠ [] := by
    intro h
    have hnil := (List.append_eq_nil_iff.mp h).2
    exact Nat.toDigits_ne_nil (List.map_eq_nil_iff.mp hnil)
  rw [Hex.value, if_neg hne, addressDigits, List.leftpad,
    Hex.valueFrom_zeros]
  exact Hex.valueFrom_map (fun d hd => Hex.digitValue_upper hd) n

/-- An address that was written is a numeral. -/
theorem hexNumeral_addressDigits (offset : UInt64) :
    HexNumeral (addressDigits offset.toNat) :=
  ⟨_, _, .inl rfl, value_addressDigits _, offset.toNat_lt⟩

/-- The parser reads an address that was written as the address. -/
theorem fromStrRadix_addressDigits (offset : UInt64) :
    fromStrRadix 16 (addressDigits offset.toNat) = .ok offset := by
  obtain ⟨hne, hv⟩ := value_eq_some.mp (value_addressDigits offset.toNat)
  generalize addressDigits offset.toNat = cs at hne hv
  have hsign {c : Char} (hc : Hex.digitValue c = none) :
      cs.head? ≠ some c := by
    intro h
    have hsome := Hex.isSome_of_valueFrom hv c (List.mem_of_mem_head? h)
    rw [hc] at hsome
    cases hsome
  have hplus := hsign (c := '+') rfl
  have hminus := hsign (c := '-') rfl
  have hno : ¬ (cs = ['+'] ∨ cs = ['-']) := by
    rintro (rfl | rfl)
    · exact hplus rfl
    · exact hminus rfl
  have hdigits := (radixDigits_eq_ok (by decide)).mpr ⟨hv, offset.toNat_lt⟩
  rw [fromStrRadix, if_neg hne, if_neg hno, if_neg hplus, hdigits]
  show Except.ok (UInt64.ofNat offset.toNat) = _
  rw [UInt64.ofNat_toNat]

/-- An address is passed on as it was written. -/
theorem normalizeAddress_hexAddress (offset : UInt64) :
    normalizeAddress (hexAddress offset) = hexAddress offset := by
  have hx : normalizeHex (hexAddress offset).toList
      = (hexAddress offset).toList := by
    rw [hexAddress_toList]
    rfl
  rw [normalizeAddress, hx, String.ofList_toList]

/-- An address that the engine writes is the one the backend reads. -/
theorem parseAddress_hexAddress (offset : UInt64) :
    parseAddress (hexAddress offset).toList = .ok offset := by
  have hblank := (hexNumeral_addressDigits offset).not_whitespace
  have hkeep : (addressDigits offset.toNat).rdropWhile isWhitespace
      = addressDigits offset.toNat := by
    rw [List.rdropWhile_eq_self_iff]
    intro hne
    rw [hblank _ (List.getLast_mem hne)]
    exact Bool.false_ne_true
  rw [hexAddress_toList, parseAddress, trim_prefixed (.inl rfl), hkeep,
    afterHexPrefix_cons (.inl rfl)]
  simp only [fromStrRadix_addressDigits]
  rfl

/-- Two addresses that are written alike are one. -/
theorem hexAddress_inj {a b : UInt64} (h : hexAddress a = hexAddress b) :
    a = b := by
  have hp := parseAddress_hexAddress a
  rw [h, parseAddress_hexAddress b] at hp
  exact (Except.ok.inj hp).symm

-- =============================================================== sweeps

/-- The instructions at `offsets` follow one another from `address`. There
are `n` of them, unless none follows the last one: what stands after it
does not decode, or it does not advance. -/
structure Sweep (step : UInt64 → Option (String × UInt64))
    (address : UInt64) (n : Nat) (offsets : List UInt64) : Prop where
  starts : ∀ o ∈ offsets.head?, o = address
  decodes : ∀ o ∈ offsets, (step o).isSome
  follows : offsets.IsChain fun a b =>
    a < b ∧ ∃ text, step a = some (text, b)
  atMost : offsets.length ≤ n
  nothing : offsets = [] → n = 0 ∨ step address = none
  ends : offsets.length < n → ∀ o ∈ offsets.getLast?, ∀ text after,
    step o = some (text, after) → after ≤ o ∨ step after = none

namespace Sweep

variable {step : UInt64 → Option (String × UInt64)} {address : UInt64}
  {n : Nat} {offsets : List UInt64}

/-- The addresses of a listing increase. -/
theorem increasing (h : Sweep step address n offsets) :
    offsets.Pairwise (· < ·) :=
  List.isChain_iff_pairwise.mp (h.follows.imp fun _ _ hab => hab.1)

/-- A listing shows the address it starts at once, at its head. -/
theorem eq_address_iff (h : Sweep step address n offsets) {i : Nat}
    (hi : i < offsets.length) : offsets[i] = address ↔ i = 0 := by
  have hpos : 0 < offsets.length := Nat.zero_lt_of_lt hi
  have hhead : offsets[0] = address :=
    h.starts _ (by simp [List.head?_eq_getElem?, hpos])
  constructor
  · intro hx
    by_contra hne
    have hlt := List.pairwise_iff_getElem.mp h.increasing 0 i hpos hi
      (Nat.pos_of_ne_zero hne)
    rw [hhead, hx] at hlt
    exact UInt64.lt_irrefl _ hlt
  · rintro rfl
    exact hhead

/-- Nothing is listed when nothing is asked for. -/
theorem zero : Sweep step address 0 [] where
  starts _ h := nomatch h
  decodes _ h := nomatch h
  follows := .nil
  atMost := le_rfl
  nothing _ := .inl rfl
  ends h := absurd h (Nat.not_lt_zero _)

/-- Nothing is listed where nothing decodes. -/
theorem undecoded (h : step address = none) : Sweep step address n [] where
  starts _ h := nomatch h
  decodes _ h := nomatch h
  follows := .nil
  atMost := Nat.zero_le _
  nothing _ := .inr h
  ends _ _ h := nomatch h

/-- The listing ends at an instruction that does not advance. -/
theorem stuck {text : String} {after : UInt64}
    (h : step address = some (text, after)) (hle : after ≤ address) :
    Sweep step address (n + 1) [address] where
  starts o ho := (Option.mem_some.mp ho).symm
  decodes o ho := by
    rw [List.mem_singleton.mp ho, h]
    rfl
  follows := .singleton _
  atMost := Nat.le_add_left _ _
  nothing h := nomatch h
  ends _ o ho text' after' hx := by
    obtain rfl : address = o := Option.mem_some.mp ho
    rw [h] at hx
    cases hx
    exact .inl hle

/-- The instruction before a listing's first one extends it. -/
theorem cons {text : String} {after : UInt64}
    (h : step address = some (text, after)) (hlt : address < after)
    (hs : Sweep step after n offsets) :
    Sweep step address (n + 1) (address :: offsets) where
  starts o ho := (Option.mem_some.mp ho).symm
  decodes o ho := by
    rcases List.mem_cons.mp ho with rfl | ho
    · rw [h]
      rfl
    · exact hs.decodes o ho
  follows := by
    refine List.isChain_cons.mpr ⟨fun b hb => ?_, hs.follows⟩
    rw [hs.starts b hb]
    exact ⟨hlt, text, h⟩
  atMost := Nat.succ_le_succ hs.atMost
  nothing h := nomatch h
  ends hshort o ho text' after' hx := by
    have hshort : offsets.length < n := Nat.lt_of_succ_lt_succ hshort
    cases offsets with
    | nil =>
        obtain rfl : address = o := Option.mem_some.mp ho
        rw [h] at hx
        cases hx
        rcases hs.nothing rfl with hn | hn
        · exact absurd hshort (by rw [hn]; exact Nat.not_lt_zero _)
        · exact .inr hn
    | cons b rest => exact hs.ends hshort o ho text' after' hx

end Sweep

section

variable {τ : Type} {api : DbgApi τ} {e : DbgEngine τ}

/-- The text of the instruction at an offset. -/
def textAt (step : UInt64 → Option (String × UInt64)) (offset : UInt64) :
    String :=
  ((step offset).map Prod.fst).getD ""

/-- The engine's loop lists the instructions that follow one another. -/
theorem disassembleFrom_sweep (api : DbgApi τ) (e : DbgEngine τ) (n : Nat)
    (address : UInt64) :
    ∃ offsets, Sweep (api.disassemble e.target) address n offsets ∧
      e.disassembleFrom api n address = offsets.map fun o =>
        DbgEngine.instructionAt o
          (textAt (api.disassemble e.target) o) := by
  induction n generalizing address with
  | zero => exact ⟨[], .zero, rfl⟩
  | succ n ih =>
      rw [DbgEngine.disassembleFrom]
      cases hx : api.disassemble e.target address with
      | none => exact ⟨[], .undecoded hx, rfl⟩
      | some decoded =>
          obtain ⟨text, after⟩ := decoded
          have htext : textAt (api.disassemble e.target) address = text := by
            rw [textAt, hx]
            rfl
          by_cases hle : after ≤ address
          · refine ⟨[address], .stuck hx hle, ?_⟩
            simp only [if_pos hle, List.map_cons, List.map_nil, htext]
          · obtain ⟨offsets, hs, heq⟩ := ih after
            refine ⟨address :: offsets,
              hs.cons hx (UInt64.not_le.mp hle), ?_⟩
            simp only [if_neg hle, List.map_cons, htext, heq]

-- ============================================================= responses

/-- The item of the instruction at an offset. -/
def codeItem (step : UInt64 → Option (String × UInt64)) (current : Bool)
    (offset : UInt64) : Json :=
  let entry := (RespBuilder.new.set "address"
    (.str (hexAddress offset))).set "instruction"
      (.str (DbgEngine.parseDisasmText (textAt step offset)))
  (entry.setIf current "is_current_pc" (.bool true)).build

/-- Where a listing starts, under which text, and whether that is the
current instruction: it is the top frame's when no address is given. -/
inductive Starts (api : DbgApi τ) (e : DbgEngine τ) (args : Args)
    (last : Option StopInfo) : UInt64 → String → Bool → Prop
  | top {frame : StackFrame} {rest : List StackFrame}
      (absent : args.getString "address" "" = "")
      (walk : api.getStackTrace e.target
        (asU32 ((last.map StopInfo.threadId).getD 1)) 1
          = .ok (frame :: rest)) :
      Starts api e args last frame.instructionOffset
        (hexAddress frame.instructionOffset) true
  | given {start : UInt64}
      (stated : args.getString "address" "" ≠ "")
      (parses : parseAddress
        (normalizeHex (args.getString "address" "").toList) = .ok start) :
      Starts api e args last start
        (normalizeAddress (args.getString "address" "")) false

-- ================================================================ result

/-- An instruction of the engine's in the response. -/
theorem toJson_instructionAt
    (step : UInt64 → Option (String × UInt64)) (pc : String)
    (offset : UInt64) :
    (DbgEngine.instructionAt offset (textAt step offset)).toJson pc
      = codeItem step (!pc.isEmpty && hexAddress offset == pc) offset := by
  have hempty : ("" : String).isEmpty = true := rfl
  simp only [Instruction.toJson, DbgEngine.instructionAt, codeItem, hempty,
    RespBuilder.setIf, Option.filter_none, Bool.not_true,
    Bool.false_eq_true, if_false]

theorem hexAddress_not_empty (offset : UInt64) :
    (hexAddress offset).isEmpty = false := by
  rw [String.isEmpty_eq_false_iff]
  intro h
  have hl := hexAddress_toList offset
  rw [h] at hl
  cases hl

/-- The mark of the current instruction is on the listing's first one. -/
theorem Sweep.mark {step : UInt64 → Option (String × UInt64)}
    {start : UInt64} {n : Nat} {offsets : List UInt64}
    (h : Sweep step start n offsets) {i : Nat} (hi : i < offsets.length) :
    (!(hexAddress start).isEmpty
      && hexAddress offsets[i] == hexAddress start) = (i == 0) := by
  rw [hexAddress_not_empty, Bool.not_false, Bool.true_and, Bool.eq_iff_iff,
    beq_iff_eq, beq_iff_eq, ← h.eq_address_iff hi]
  exact ⟨hexAddress_inj, congrArg hexAddress⟩

/-- The listing the backend gives, of the address the handler passed. -/
theorem disassemble_ok {address : String} {count : Int}
    {is : List Instruction}
    (h : (windbgCodeReader api e).disassemble address count = .ok is) :
    ∃ start offsets, parseAddress address.toList = .ok start ∧
      Sweep (api.disassemble e.target) start (max count 0).toNat offsets ∧
      is = offsets.map fun o => DbgEngine.instructionAt o
        (textAt (api.disassemble e.target) o) := by
  simp only [windbgCodeReader] at h
  cases hp : parseAddress address.toList with
  | error err =>
      rw [hp] at h
      cases h
  | ok start =>
      rw [hp] at h
      obtain ⟨offsets, hs, heq⟩ :=
        disassembleFrom_sweep api e (max count 0).toNat start
      refine ⟨start, offsets, rfl, hs, ?_⟩
      rw [← heq]
      dsimp only [DbgEngine.disassemble] at h
      split_ifs at h
      · cases h
        rfl

/-- Where the handler starts without an address. -/
theorem startAddress_top {address pc : String} {args : Args}
    {last : Option StopInfo} (absent : args.getString "address" "" = "")
    (h : startAddress (args.getString "address" "") last
      (windbgCodeReader api e) = .ok (address, pc)) :
    ∃ frame rest, api.getStackTrace e.target
        (asU32 ((last.map StopInfo.threadId).getD 1)) 1
          = .ok (frame :: rest) ∧
      address = hexAddress frame.instructionOffset ∧ pc = address := by
  have hnone : (args.getString "address" "").isEmpty = true := by
    rw [absent]
    rfl
  rw [startAddress, if_pos hnone] at h
  generalize (last.map StopInfo.threadId).getD 1 = threadId at h ⊢
  simp only [windbgCodeReader] at h
  cases hw : (e.stackTrace api threadId (Marshal.fetchMax 0 1)).1 with
  | error err =>
      rw [hw] at h
      cases h
  | ok frames =>
      obtain ⟨trace, htrace, rfl⟩ := DbgEngine.stackTrace_ok hw
      rw [hw] at h
      cases trace with
      | nil => cases h
      | cons frame rest =>
          have hip := hexAddress_not_empty frame.instructionOffset
          refine ⟨frame, rest, htrace, ?_⟩
          have h : (match (some (hexAddress frame.instructionOffset)).filter
              fun ip => !ip.isEmpty with
            | some ip => Except.ok (ip, ip)
            | none => .error
                "no instruction pointer available for current frame")
              = Except.ok (address, pc) := h
          rw [Option.filter_some, hip] at h
          cases h
          exact ⟨rfl, rfl⟩

/-- Where the handler starts with an address. -/
theorem startAddress_given {args : Args} {last : Option StopInfo}
    {b : CodeReader} (stated : args.getString "address" "" ≠ "") :
    startAddress (args.getString "address" "") last b
      = .ok (args.getString "address" "", "") := by
  rw [startAddress, if_neg]
  rw [String.isEmpty_iff]
  exact stated

/-- The items of a listing whose marks are these. -/
theorem map_toJson {step : UInt64 → Option (String × UInt64)}
    {offsets : List UInt64} {pc : String} {mark : Nat → Bool}
    (h : ∀ (i : Nat) (hi : i < offsets.length),
      (!pc.isEmpty && hexAddress offsets[i] == pc) = mark i) :
    (offsets.map fun o =>
      DbgEngine.instructionAt o (textAt step o)).map (Instruction.toJson pc)
      = offsets.mapIdx fun i o => codeItem step (mark i) o := by
  refine List.ext_getElem (by simp) fun i hi _ => ?_
  have hi : i < offsets.length := by simpa using hi
  rw [List.getElem_map, List.getElem_map, List.getElem_mapIdx,
    toJson_instructionAt, h i hi]

/-- What the handler lists: the instructions that follow one another from
where the listing starts, the first of them marked when that is the
current instruction, and no other. -/
theorem disassembly_sweeps {args : Args} {last : Option StopInfo}
    {r : Json} (h : handleDisassemble (.ok ()) args last
      (some (windbgCodeReader api e)) = .ok r) :
    ∃ start text current offsets,
      Starts api e args last start text current ∧
      Sweep (api.disassemble e.target) start
        (max (instructionCountArg args) 0).toNat offsets ∧
      r = disassembly (offsets.mapIdx fun i o =>
        codeItem (api.disassemble e.target) (current && i == 0) o) text := by
  have h : ((startAddress (args.getString "address" "") last
      (windbgCodeReader api e)).bind fun p => _) = .ok r := h
  cases hstart : startAddress (args.getString "address" "") last
      (windbgCodeReader api e) with
  | error err =>
      rw [hstart] at h
      cases h
  | ok p =>
      obtain ⟨address, pc⟩ := p
      rw [hstart] at h
      simp only [Except.bind] at h
      cases hd : (windbgCodeReader api e).disassemble
          (normalizeAddress address) (instructionCountArg args) with
      | error err =>
          rw [hd] at h
          cases h
      | ok is =>
          rw [hd] at h
          obtain ⟨start, offsets, hp, hs, rfl⟩ := disassemble_ok hd
          rw [← Except.ok.inj h]
          by_cases absent : args.getString "address" "" = ""
          · obtain ⟨frame, rest, walk, rfl, rfl⟩ :=
              startAddress_top absent hstart
            have hstay := normalizeAddress_hexAddress
              frame.instructionOffset
            rw [hstay, parseAddress_hexAddress] at hp
            cases hp
            refine ⟨_, _, true, offsets, .top absent walk, hs, ?_⟩
            rw [hexAddress_not_empty, if_neg Bool.false_ne_true, hstay]
            rw [map_toJson fun i hi => hs.mark hi]
            simp only [Bool.true_and]
          · rw [startAddress_given absent] at hstart
            cases hstart
            rw [normalizeAddress, String.toList_ofList] at hp
            refine ⟨_, _, false, offsets, .given absent hp, hs, ?_⟩
            have hmark (i : Nat) (hi : i < offsets.length) :
                (!("" : String).isEmpty && hexAddress offsets[i] == "")
                  = (false && i == 0) := rfl
            have hempty : ("" : String).isEmpty = true := rfl
            rw [if_pos hempty, map_toJson hmark]

end

/-- The listing from the current instruction on. -/
theorem disassembly_sweeps_top :
    ∃ r, handleDisassemble (.ok ()) ⟨[]⟩ none
        (some (windbgCodeReader smallTarget smallEngine)) = .ok r ∧
      ∃ start text current offsets,
        Starts smallTarget smallEngine ⟨[]⟩ none start text current ∧
        Sweep (smallTarget.disassemble ()) start
          (max (instructionCountArg ⟨[]⟩) 0).toNat offsets ∧
        r = disassembly (offsets.mapIdx fun i o =>
          codeItem (smallTarget.disassemble ()) (current && i == 0) o)
            text := by
  have h : ∃ r, handleDisassemble (.ok ()) ⟨[]⟩ none
      (some (windbgCodeReader smallTarget smallEngine)) = .ok r :=
    ⟨_, rfl⟩
  obtain ⟨r, hr⟩ := h
  exact ⟨r, hr, disassembly_sweeps hr⟩

end DebugMcp
