/-
The engine's own breakpoint operations, one DbgEng call at a time.

Each is a chain of calls of which any may fail, with an update of
`breakpoint_conditions` beside it. `breakpoint_ops_atomic_iff` says
exactly when a failure leaves no trace. A breakpoint that was added is
not taken back when a later call on it fails; and a removal drops the
condition before DbgEng has agreed to it, so that a conditional
breakpoint can be left behind without its condition.
-/
import DebugMcp.Lib.Fallible
import DebugMcp.WinDbg.Breakpoints
import DebugMcp.WinDbg.Wait

namespace DebugMcp

open Fallible

-- =============================================================== DbgEng

/-- A breakpoint object of DbgEng. -/
structure EngineBp where
  id : UInt32
  offset : UInt64
  enabled : Bool
  deriving DecidableEq

/-- DbgEng's breakpoints, newest first, and the conditions the engine
keeps beside them. -/
structure EngineBps where
  breakpoints : List EngineBp
  breakpointConditions : AList fun _ : UInt32 => String
  deriving DecidableEq

/-- What DbgEng answers to the calls of one operation: the value, or what
the system says of the failure. -/
structure DbgEngAnswers where
  getOffsetByLine : UInt32 → String → Except String UInt64
  getOffsetByName : String → Except String UInt64
  getNumberModules : Except String UInt32
  getModuleNameString : UInt32 → Option String
  addBreakpoint : Except String UInt32
  setOffset : Except String Unit
  addFlags : Except String Unit
  getId : Except String Unit
  getBreakpointById : Except String Unit
  removeBreakpoint : Except String Unit

/-- Answers when nothing fails; the new breakpoint gets this id. -/
def DbgEngAnswers.healthy (id : UInt32) : DbgEngAnswers where
  getOffsetByLine := fun _ _ => .ok 0x1000
  getOffsetByName := fun _ => .ok 0x1000
  getNumberModules := .ok 0
  getModuleNameString := fun _ => none
  addBreakpoint := .ok id
  setOffset := .ok ()
  addFlags := .ok ()
  getId := .ok ()
  getBreakpointById := .ok ()
  removeBreakpoint := .ok ()

/-- An operation of the engine. -/
abbrev EngineCall (α : Type) := Comp EngineError EngineBps α

/-- `EngineError::op`. -/
def EngineError.op {α : Type} (context : String) :
    Except String α → Except EngineError α :=
  Except.mapError (.com context)

/-- The breakpoints with a change of the one with an id. -/
def EngineBps.change (id : UInt32) (f : EngineBp → EngineBp)
    (e : EngineBps) : EngineBps :=
  { e with breakpoints := e.breakpoints.map fun bp =>
      if bp.id = id then f bp else bp }

section

variable (d : DbgEngAnswers)

/-- `AddBreakpoint(DEBUG_BREAKPOINT_CODE, DEBUG_ANY_ID)`: a breakpoint
nowhere, not enabled. -/
def addBreakpoint : EngineCall UInt32 :=
  attempt (EngineError.op "AddBreakpoint" d.addBreakpoint) fun id e =>
    { e with breakpoints := ⟨id, 0, false⟩ :: e.breakpoints }

/-- `SetOffset`. -/
def setOffset (bp : UInt32) (addr : UInt64) : EngineCall Unit :=
  attempt (EngineError.op "SetOffset" d.setOffset) fun _ =>
    EngineBps.change bp fun x => { x with offset := addr }

/-- `AddFlags(DEBUG_BREAKPOINT_ENABLED)`. -/
def addFlags (bp : UInt32) : EngineCall Unit :=
  attempt (EngineError.op "AddFlags(ENABLED)" d.addFlags) fun _ =>
    EngineBps.change bp fun x => { x with enabled := true }

/-- `GetId`. -/
def getId (bp : UInt32) : EngineCall UInt32 :=
  lift (Except.map (fun _ => bp) (EngineError.op "GetId" d.getId))

/-- `GetBreakpointById`. -/
def getBreakpointById (id : UInt32) : EngineCall UInt32 :=
  lift (Except.map (fun _ => id)
    (EngineError.op "GetBreakpointById" d.getBreakpointById))

/-- `RemoveBreakpoint`. -/
def removeBreakpointCall (bp : UInt32) : EngineCall Unit :=
  attempt (EngineError.op "RemoveBreakpoint" d.removeBreakpoint) fun _ e =>
    { e with breakpoints := e.breakpoints.filter fun x => x.id ≠ bp }

-- =========================================================== resolution

/-- A turn of the loop over the modules. -/
def offsetInModule (name : String) (i : Nat) : Option UInt64 :=
  match d.getModuleNameString (UInt32.ofNat i) with
  | none => none
  | some modName =>
      let qualified := modName ++ "!" ++ name
      if '\x00' ∈ qualified.toList then none
      else (d.getOffsetByName qualified).toOption

/-- The loop over the modules, for a name that is not qualified. -/
def offsetInModules (name : String) : Option UInt64 :=
  if '!' ∈ name.toList then none
  else match d.getNumberModules with
    | .error _ => none
    | .ok loaded => (List.range loaded.toNat).findSome? (offsetInModule d name)

/-- `resolve_function`. -/
def resolveFunction (name : String) : Except EngineError UInt64 :=
  if '\x00' ∈ name.toList then .error (.engine
    "set_breakpoint: function name contains an interior NUL byte")
  else match d.getOffsetByName name with
    | .ok offset => .ok offset
    | .error detail =>
        match offsetInModules d name with
        | some offset => .ok offset
        | none => .error (.com "GetOffsetByName" detail)

/-- `resolve_bp_loc`. -/
def resolveBpLoc : BpLoc → Except EngineError (UInt64 × Option UInt32)
  | .address addr => .ok (addr, none)
  | .fileLine file line =>
      if '\x00' ∈ file.toList then .error (.engine
        "set_breakpoint: file path contains an interior NUL byte")
      else (EngineError.op "GetOffsetByLine"
        (d.getOffsetByLine line file)).map fun offset => (offset, some line)
  | .function name => (resolveFunction d name).map fun offset => (offset, none)

-- =========================================================== operations

/-- A condition that is not empty is stored. -/
def storeCondition (id : UInt32) (condition : String) (e : EngineBps) :
    EngineBps :=
  if condition.isEmpty then e
  else { e with
    breakpointConditions := e.breakpointConditions.insert id condition }

/-- `set_breakpoint`, once the breakpoint is added. -/
def completeBreakpoint (condition : String) (addr : UInt64)
    (line : Option UInt32) (bp : UInt32) : EngineCall BreakpointResult := do
  setOffset d bp addr
  addFlags d bp
  let id ← getId d bp
  update (storeCondition id condition)
  return { id := id.toNat, verified := true,
           line := ((line.map UInt32.toNat).getD 0 : Nat), message := "",
           rejected := false }

/-- `set_breakpoint`. -/
def Engine.setBreakpoint (loc : BpLoc) (condition : String) :
    EngineCall BreakpointResult := do
  let resolved ← lift (resolveBpLoc d loc)
  let bp ← addBreakpoint d
  completeBreakpoint d condition resolved.1 resolved.2 bp

/-- `remove_breakpoint`. -/
def Engine.removeBreakpoint (id : Int) : EngineCall Unit := do
  let bpId := UInt32.ofInt id
  let bp ← getBreakpointById d bpId
  update fun e => { e with
    breakpointConditions := e.breakpointConditions.erase bpId }
  removeBreakpointCall d bp

-- ============================================================ condition

/-- Do the calls on a new breakpoint succeed? -/
def DbgEngAnswers.Completes : Prop :=
  d.setOffset = .ok () ∧ d.addFlags = .ok () ∧ d.getId = .ok ()

/-- The breakpoint is added, and a later call on it fails. -/
def DbgEngAnswers.LeavesBehind (loc : BpLoc) : Prop :=
  (∃ r, resolveBpLoc d loc = .ok r) ∧ (∃ id, d.addBreakpoint = .ok id) ∧
    ¬ d.Completes

/-- The breakpoint is there with a condition, and DbgEng does not remove
it. -/
def DbgEngAnswers.Unconditions (id : Int) (e : EngineBps) : Prop :=
  d.getBreakpointById = .ok () ∧ d.removeBreakpoint ≠ .ok () ∧
    UInt32.ofInt id ∈ e.breakpointConditions

variable {d}

/-- A call fails when its answer is a failure. -/
theorem EngineError.op_ok {α : Type} {context : String}
    {x : Except String α} {a : α} :
    EngineError.op context x = .ok a ↔ x = .ok a := by
  cases x with
  | ok b =>
      rw [EngineError.op, Except.mapError, Except.ok.injEq, Except.ok.injEq]
  | error detail => exact ⟨fun h => (by cases h), fun h => (by cases h)⟩

/-- A call on a breakpoint gives that breakpoint. -/
theorem EngineError.op_map_ok {context : String} {x : Except String Unit}
    {bp id : UInt32} :
    (EngineError.op context x).map (fun _ => bp) = .ok id ↔
      x = .ok () ∧ bp = id := by
  cases x with
  | ok u =>
      constructor
      · intro h
        cases h
        exact ⟨rfl, rfl⟩
      · rintro ⟨_, rfl⟩
        rfl
  | error detail => exact ⟨fun h => (by cases h), fun h => (by cases h.1)⟩

/-- The breakpoints there are keep their number. -/
def Numbers (n : Nat) (e : EngineBps) : Prop := e.breakpoints.length = n

theorem keeps_change {n : Nat} (x : Except EngineError Unit) (bp : UInt32)
    (f : EngineBp → EngineBp) :
    Keeps (Numbers n) (attempt x fun _ => EngineBps.change bp f) := by
  apply keeps_attempt
  intro _ e he
  exact (List.length_map _).trans he

/-- What is done once the breakpoint is added takes nothing back. -/
theorem keeps_completeBreakpoint {n : Nat} (condition : String)
    (addr : UInt64) (line : Option UInt32) (bp : UInt32) :
    Keeps (Numbers n) (completeBreakpoint d condition addr line bp) := by
  apply keeps_bind (keeps_change _ bp _)
  intro _
  apply keeps_bind (keeps_change _ bp _)
  intro _
  refine keeps_bind (m := getId d bp) (keeps_lift _) ?_
  intro id e he
  show Numbers n (storeCondition id condition e)
  unfold storeCondition
  split
  · exact he
  · exact he

/-- It is done if DbgEng does its part. -/
theorem succeeds_completeBreakpoint {condition : String} {addr : UInt64}
    {line : Option UInt32} {bp : UInt32} {e : EngineBps} :
    Succeeds (completeBreakpoint d condition addr line bp) e ↔
      d.Completes := by
  unfold completeBreakpoint setOffset addFlags getId
  rw [succeeds_attempt_bind]
  simp only [succeeds_attempt_bind, succeeds_lift_bind,
    EngineError.op_ok, EngineError.op_map_ok]
  constructor
  · rintro ⟨_, hset, _, hflags, _, ⟨hid, _⟩, _⟩
    exact ⟨hset, hflags, hid⟩
  · rintro ⟨hset, hflags, hid⟩
    exact ⟨(), hset, (), hflags, bp, ⟨hid, rfl⟩, _, _, rfl⟩

/-- Once the breakpoint is added, only success leaves nothing behind. -/
theorem failsTo_completeBreakpoint_iff {condition : String} {addr : UInt64}
    {line : Option UInt32} {id : UInt32} {e : EngineBps} :
    FailsTo (completeBreakpoint d condition addr line id)
      { e with breakpoints := ⟨id, 0, false⟩ :: e.breakpoints } e ↔
      d.Completes := by
  rw [failsTo_iff_succeeds
    (keeps_completeBreakpoint condition addr line id) rfl]
  · exact succeeds_completeBreakpoint
  · exact Nat.ne_of_lt (Nat.lt_succ_self _)

/-- A breakpoint that cannot be completed stays. -/
theorem atomic_setBreakpoint_iff {loc : BpLoc} {condition : String}
    {e : EngineBps} :
    Atomic (Engine.setBreakpoint d loc condition) e ↔ ¬ d.LeavesBehind loc := by
  unfold Engine.setBreakpoint addBreakpoint
  rw [atomic_lift_bind]
  simp only [atomic_attempt_bind, EngineError.op_ok,
    failsTo_completeBreakpoint_iff]
  constructor
  · rintro h ⟨⟨r, hr⟩, ⟨id, hid⟩, hfail⟩
    exact hfail (h r hr id hid)
  · intro h r hr id hid
    by_contra hfail
    exact h ⟨⟨r, hr⟩, ⟨id, hid⟩, hfail⟩

/-- Dropping a condition changes nothing where there is none. -/
theorem erase_eq_self_iff {id : UInt32} {e : EngineBps} :
    { e with breakpointConditions := e.breakpointConditions.erase id } = e ↔
      id ∉ e.breakpointConditions := by
  constructor
  · intro h hmem
    have hcond := congrArg EngineBps.breakpointConditions h
    rw [← hcond, AList.mem_erase] at hmem
    exact hmem.1 rfl
  · intro h
    have hcond : e.breakpointConditions.erase id = e.breakpointConditions :=
      AList.ext (List.kerase_of_notMem_keys h)
    rw [hcond]

/-- A failed removal keeps everything but the condition. -/
theorem atomic_removeBreakpoint_iff {id : Int} {e : EngineBps} :
    Atomic (Engine.removeBreakpoint d id) e ↔ ¬ d.Unconditions id e := by
  unfold Engine.removeBreakpoint getBreakpointById removeBreakpointCall
  rw [atomic_lift_bind]
  simp only [EngineError.op_map_ok, Atomic, failsTo_update_bind,
    failsTo_attempt, erase_eq_self_iff]
  constructor
  · rintro h ⟨hget, hrem, hmem⟩
    cases hr : d.removeBreakpoint with
    | ok u => exact hrem hr
    | error detail =>
        refine h _ ⟨hget, rfl⟩ (.com "RemoveBreakpoint" detail) ?_ hmem
        rw [hr]
        rfl
  · rintro h bp ⟨hget, rfl⟩ err herr hmem
    refine h ⟨hget, ?_, hmem⟩
    intro hr
    rw [hr] at herr
    cases herr

end

-- =============================================================== result

/-- A failed operation leaves the breakpoints and the conditions as they
were, except in two cases: a breakpoint that was added cannot be
completed, and one that has a condition is not removed. -/
theorem breakpoint_ops_atomic_iff (d : DbgEngAnswers) (e : EngineBps) :
    (∀ loc condition, Atomic (Engine.setBreakpoint d loc condition) e ↔
      ¬ d.LeavesBehind loc) ∧
    (∀ id, Atomic (Engine.removeBreakpoint d id) e ↔ ¬ d.Unconditions id e) :=
  ⟨fun _ _ => atomic_setBreakpoint_iff, fun _ => atomic_removeBreakpoint_iff⟩

/-- An engine with one breakpoint, which has a condition. -/
def conditionalBp : EngineBps where
  breakpoints := [⟨3, 0x1000, true⟩]
  breakpointConditions := .insert 3 "x > 1" ∅

/-- A breakpoint that cannot be enabled stays in the engine, and one that
is not removed stays without its condition. -/
theorem failed_ops_leave_traces :
    (∃ err e', Engine.setBreakpoint
        { DbgEngAnswers.healthy 4 with addFlags := .error "0x80004005" }
        (.address 0x2000) "y = 2" conditionalBp = (.error err, e') ∧
      ⟨4, 0x2000, false⟩ ∈ e'.breakpoints) ∧
    (∃ err e', Engine.removeBreakpoint
        { DbgEngAnswers.healthy 4 with
          removeBreakpoint := .error "0x80004005" }
        3 conditionalBp = (.error err, e') ∧
      e'.breakpoints = conditionalBp.breakpoints ∧
      e'.breakpointConditions.lookup 3 = none) := by
  refine ⟨⟨.com "AddFlags(ENABLED)" "0x80004005", _, rfl, ?_⟩,
    .com "RemoveBreakpoint" "0x80004005", _, rfl, rfl, ?_⟩
  · decide +kernel
  · decide +kernel

/-- What is left stops at every hit, whatever the condition was. -/
theorem unconditioned_stops {d : DbgEngAnswers} {id : Int} {e : EngineBps}
    (h : d.Unconditions id e) :
    ∃ err e', Engine.removeBreakpoint d id e = (.error err, e') ∧
      e'.breakpoints = e.breakpoints ∧
      ∀ (engine : Engine) evaluate,
        engine.breakpointConditions = e'.breakpointConditions →
        engine.breakpointConditionMet evaluate (.ofInt id) = true := by
  obtain ⟨hget, hrem, -⟩ := h
  cases hr : d.removeBreakpoint with
  | ok u => exact absurd hr hrem
  | error detail =>
      refine ⟨.com "RemoveBreakpoint" detail, { e with
        breakpointConditions :=
          e.breakpointConditions.erase (UInt32.ofInt id) }, ?_, rfl, ?_⟩
      · unfold Engine.removeBreakpoint getBreakpointById removeBreakpointCall
        rw [hget, hr]
        rfl
      · intro engine evaluate heq
        unfold Engine.breakpointConditionMet
        rw [heq, AList.lookup_erase]

-- ============================================================== history

/-- What is asked of the engine. -/
inductive BpOp
  | set (loc : BpLoc) (condition : String)
  | remove (id : Int)

/-- The operation that is asked for. -/
def BpOp.run (d : DbgEngAnswers) : BpOp → EngineCall (Option BreakpointResult)
  | set loc condition => do
      let result ← Engine.setBreakpoint d loc condition
      return some result
  | remove id => do
      Engine.removeBreakpoint d id
      return none

/-- Does the operation fail halfway? -/
def BpOp.Torn (d : DbgEngAnswers) (e : EngineBps) : BpOp → Prop
  | set loc _ => d.LeavesBehind loc
  | remove id => d.Unconditions id e

/-- An operation leaves a trace of its failure only if it is torn. -/
theorem BpOp.atomic_iff {d : DbgEngAnswers} {op : BpOp} {e : EngineBps} :
    Atomic (op.run d) e ↔ ¬ op.Torn d e := by
  cases op with
  | set loc condition =>
      exact atomic_bind_pure.trans atomic_setBreakpoint_iff
  | remove id => exact atomic_bind_pure.trans atomic_removeBreakpoint_iff

/-- A list of operations, each with what DbgEng answers to it. -/
abbrev BpHistory := List (DbgEngAnswers × BpOp)

/-- The state after a history. -/
def BpHistory.after : BpHistory → EngineBps → EngineBps
  | [], e => e
  | x :: xs, e => BpHistory.after xs (x.2.run x.1 e).2

/-- The operations of a history that succeed. -/
def BpHistory.succeeding : BpHistory → EngineBps → BpHistory
  | [], _ => []
  | x :: xs, e =>
      if (x.2.run x.1 e).1.toBool then
        x :: BpHistory.succeeding xs (x.2.run x.1 e).2
      else BpHistory.succeeding xs (x.2.run x.1 e).2

/-- No operation of the history fails halfway. -/
def BpHistory.Whole : BpHistory → EngineBps → Prop
  | [], _ => True
  | x :: xs, e =>
      ¬ x.2.Torn x.1 e ∧ BpHistory.Whole xs (x.2.run x.1 e).2

/-- Where nothing fails halfway, the failures might as well not have been
tried. -/
theorem BpHistory.after_succeeding {xs : BpHistory} {e : EngineBps}
    (h : xs.Whole e) : (xs.succeeding e).after e = xs.after e := by
  induction xs generalizing e with
  | nil => rfl
  | cons x xs ih =>
      have hrest := ih h.2
      rw [succeeding, after]
      cases hr : x.2.run x.1 e with
      | mk r e' =>
          rw [hr] at hrest
          cases r with
          | ok result =>
              simp only [Except.toBool, ↓reduceIte]
              rw [after, hr]
              exact hrest
          | error err =>
              have he : e' = e := BpOp.atomic_iff.mpr h.1 err e' hr
              rw [he] at hrest
              simp only [Except.toBool, Bool.false_eq_true, ↓reduceIte, he]
              exact hrest

end DebugMcp
