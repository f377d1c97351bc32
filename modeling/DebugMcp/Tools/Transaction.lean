/-
A breakpoint call that runs alone.

`set_breakpoint`, `set_function_breakpoint` and `remove_breakpoint` send
the backend the list they propose before they change anything, and
change the session only once it was accepted. `BpEnd` says what one such
call can do to the breakpoint tables, what it can return and which list
it sent, whatever the arguments, the session and the backend's answers:
one lemma per handler proves it, and the results about sequential runs
of these tools start from it.

# Result

`failed_edit_changes_nothing`: a call that returns an error leaves every
breakpoint table exactly as it was.
-/
import DebugMcp.Tools.BreakpointTable

namespace DebugMcp

open Conc

-- ============================================================== tables

/-- The breakpoint tables of a session: the active lists, the tracked
ids, the pending lists. -/
structure Tables where
  sourceBps : SourceMap
  functionBps : List FunctionBp
  bpResponses : AList fun _ : Int => BreakpointInfo
  pendingSourceBps : SourceMap
  pendingFunctionBps : List FunctionBp
  deriving DecidableEq

/-- The breakpoint tables a session holds. -/
def SessionManager.tables (s : SessionManager) : Tables where
  sourceBps := s.inner.sourceBps
  functionBps := s.inner.functionBps
  bpResponses := s.inner.bpResponses
  pendingSourceBps := s.inner.pendingSourceBps
  pendingFunctionBps := s.inner.pendingFunctionBps

/-- Can the lock section write a breakpoint table? -/
def SessionOp.writesTables {β : Type} : SessionOp β → Bool
  | .resetInner | .flushPendingBreakpoints => true
  | .addSourceBreakpoint _ _ _ | .addFunctionBreakpoint _ _ => true
  | .addPendingSourceBreakpoint _ _ _ => true
  | .addPendingFunctionBreakpoint _ _ => true
  | .addBreakpointResponse _ | .removeBreakpointById _ => true
  | _ => false

/-- A lock section that cannot write the tables leaves them. -/
theorem SessionOp.run_tables {β : Type} (op : SessionOp β)
    (s : SessionManager) (h : op.writesTables = false) :
    (op.run s).2.tables = s.tables := by
  cases op with
  | setStateIfGeneration g st =>
      simp only [SessionOp.run, SessionManager.setStateIfGeneration]
      split <;> rfl
  | terminateIfGeneration g code =>
      simp only [SessionOp.run, SessionManager.terminateIfGeneration]
      split <;> rfl
  | resetInner | flushPendingBreakpoints | addSourceBreakpoint
  | addFunctionBreakpoint | addPendingSourceBreakpoint
  | addPendingFunctionBreakpoint | addBreakpointResponse
  | removeBreakpointById => cases h
  | _ => rfl

/-- A pump writes no table. -/
theorem tables_env {w w' : ToolServer} {e : EnvMove}
    (he : w.envMove e = some w') :
    w'.session.tables = w.session.tables := by
  cases delivers_env he <;> rfl

section

variable {s s' : SessionManager}

/-- What a session tracks in a column is in its tables. -/
theorem tracked_of_tables (h : s'.tables = s.tables) (κ : Column) :
    s'.tracked κ = s.tracked κ := by
  have hs : s'.inner.sourceBps = s.inner.sourceBps :=
    congrArg Tables.sourceBps h
  have hf : s'.inner.functionBps = s.inner.functionBps :=
    congrArg Tables.functionBps h
  cases κ with
  | file f =>
      simp only [SessionManager.tracked,
        SessionManager.sourceBreakpointsForFile, hs]
  | functions => simp only [SessionManager.tracked, hf]

/-- So is the entry of an id. -/
theorem breakpointInfo_of_tables (h : s'.tables = s.tables) (id : Int) :
    s'.breakpointInfo id = s.breakpointInfo id :=
  congrArg (fun t : Tables => t.bpResponses.lookup id) h

end

-- ============================================================= changes

namespace SessionManager

variable (s : SessionManager)

/-- Track a request. -/
def add : Request → SessionManager
  | .source f bp => s.addSourceBreakpoint f bp.line bp.condition
  | .function bp => s.addFunctionBreakpoint bp.name bp.condition

/-- Buffer a request for the next launch. -/
def buffer : Request → SessionManager
  | .source f bp => s.addPendingSourceBreakpoint f bp.line bp.condition
  | .function bp => s.addPendingFunctionBreakpoint bp.name bp.condition

end SessionManager

/-- The entry recorded for a request whose result is `res`. -/
def BreakpointResult.entry (res : BreakpointResult) :
    Request → BreakpointInfo
  | .source f bp => res.sourceEntry f bp
  | .function bp => res.functionEntry bp

/-- What a lock section does to the tables depends on nothing else. -/
theorem SessionOp.run_tables_congr {β : Type} (op : SessionOp β)
    {s s' : SessionManager} (h : s'.tables = s.tables) :
    (op.run s').2.tables = (op.run s).2.tables := by
  cases hw : op.writesTables with
  | false => rw [op.run_tables s' hw, op.run_tables s hw, h]
  | true =>
      simp only [SessionManager.tables, Tables.mk.injEq] at h
      obtain ⟨hs, hf, hr, hp, hq⟩ := h
      cases op with
      | resetInner => rfl
      | removeBreakpointById id =>
          simp only [SessionOp.run, SessionManager.removeBreakpointById,
            hr]
          cases hl : s.inner.bpResponses.lookup id with
          | none => simp [SessionManager.tables, hs, hf, hr, hp, hq]
          | some info =>
              cases hty : info.ty <;>
                simp [SessionManager.tables, hs, hf, hp, hq, hty]
      | flushPendingBreakpoints =>
          simp [SessionOp.run, SessionManager.flushPendingBreakpoints,
            SessionManager.tables, hs, hf, hr, hp, hq]
      | addSourceBreakpoint f l c =>
          simp [SessionOp.run, SessionManager.addSourceBreakpoint,
            SessionManager.tables, hs, hf, hr, hp, hq]
      | addFunctionBreakpoint n c =>
          simp [SessionOp.run, SessionManager.addFunctionBreakpoint,
            SessionManager.tables, hs, hf, hr, hp, hq]
      | addBreakpointResponse info =>
          simp [SessionOp.run, SessionManager.addBreakpointResponse,
            SessionManager.tables, hs, hf, hr, hp, hq]
      | addPendingSourceBreakpoint f l c =>
          simp [SessionOp.run, SessionManager.addPendingSourceBreakpoint,
            SessionManager.tables, hs, hf, hr, hp, hq]
      | addPendingFunctionBreakpoint n c =>
          simp [SessionOp.run, SessionManager.addPendingFunctionBreakpoint,
            SessionManager.tables, hs, hf, hr, hp, hq]
      | _ => cases hw

/-- A removal that fails changes nothing. -/
theorem removeBreakpointById_error {s : SessionManager} {id : Int}
    {e : String} (h : (s.removeBreakpointById id).1 = .error e) :
    (s.removeBreakpointById id).2 = s := by
  rw [SessionManager.removeBreakpointById] at h ⊢
  cases hl : s.inner.bpResponses.lookup id with
  | none => rfl
  | some info =>
      rw [hl] at h
      dsimp only at h
      cases hty : info.ty <;> rw [hty] at h <;> cases h

-- ========================================================== what a call
-- can do

/-- The list an event sends to the backend. -/
def sentIn : ToolEvent → Option (Column × List Request)
  | .act _ (.inr (.setSourceBreakpoints _ f bps)) _ _ _ =>
      some (.file f, bps.map (.source f))
  | .act _ (.inr (.setFunctionBreakpoints _ bps)) _ _ _ =>
      some (.functions, bps.map .function)
  | _ => none

/-- The lists a run sent to the backend, newest first. -/
def sent (h : History) : List (Column × List Request) :=
  h.filterMap sentIn

/-- What a call asks for. -/
inductive Aim
  | set (r : Request)
  | remove (id : Int)
  deriving DecidableEq

/-- The request a `set_breakpoint` asks for. -/
def Args.sourceRequest (args : Args) : Option Request :=
  match args.requireString "file", args.requirePositiveInt "line" with
  | .ok file, .ok line =>
      some (.source file ⟨line, args.getString "condition" ""⟩)
  | _, _ => none

/-- The request a `set_function_breakpoint` asks for. -/
def Args.functionRequest (args : Args) : Option Request :=
  match args.requireString "name" with
  | .ok name => some (.function ⟨name, args.getString "condition" ""⟩)
  | .error _ => none

/-- What a breakpoint call asks for; nothing when its arguments are
refused. -/
def Call.aim : Call → Option Aim
  | setBreakpoint args => args.sourceRequest.map .set
  | setFunctionBreakpoint args => args.functionRequest.map .set
  | removeBreakpoint args =>
      (args.requireInt "breakpoint_id").toOption.map .remove
  | _ => none

/-- The breakpoint id a response reports. -/
def ToolOutcome.breakpointId : ToolOutcome → Option Int
  | .json (.obj m) =>
      match JsonMap.get? m "breakpoint_id" with
      | some (.num q) => some q.num
      | _ => none
  | _ => none

/-- The backend acknowledged `requests` for a column with `replies`,
when the tables were those of `s`, in an event that met `ok`. -/
def Acked (ok : ToolEvent → Prop) (s : SessionManager)
    (a : Ack) : Prop :=
  ∃ ev, ok ev ∧ ackOf ev = some a ∧ ev.pre.session.tables = s.tables

/-- What a breakpoint call that starts in the session `s` and runs alone
can return, leave in the tables, and have sent. -/
inductive BpEnd (ok : ToolEvent → Prop) (s : SessionManager) :
    Option Aim → ToolOutcome → Tables → List (Column × List Request) →
      Prop
  | failed (aim : Option Aim) (e : String)
      (L : List (Column × List Request)) :
      BpEnd ok s aim (.error e) s.tables L
  | buffered (r : Request) (v : Json)
      (hid : (ToolOutcome.json v).breakpointId = none) :
      BpEnd ok s (some (.set r)) (.json v) (s.buffer r).tables []
  | set (r : Request) (rs : List BreakpointResult)
      (res : BreakpointResult) (v : Json)
      (hack : Acked ok s ⟨r.column, s.tracked r.column ++ [r], rs⟩)
      (hgo : Ack.goesOn ⟨r.column, s.tracked r.column ++ [r], rs⟩ false
        = true)
      (hsel : Ack.selected ⟨r.column, s.tracked r.column ++ [r], rs⟩ r
        = some res)
      (hid : (ToolOutcome.json v).breakpointId = some res.id) :
      BpEnd ok s (some (.set r)) (.json v)
        ((s.add r).addBreakpointResponse (res.entry r)).tables
        [(r.column, s.tracked r.column ++ [r])]
  | setUnlisted (bp : FunctionBp) (v : Json)
      (hack : Acked ok s
        ⟨.functions, s.tracked .functions ++ [.function bp], []⟩) :
      BpEnd ok s (some (.set (.function bp))) (.json v)
        (s.add (.function bp)).tables
        [(.functions, s.tracked .functions ++ [.function bp])]
  | removed (id : Int) (info : BreakpointInfo) (v : Json)
      (hinfo : s.breakpointInfo id = some info) :
      BpEnd ok s (some (.remove id)) (.json v)
        (s.removeBreakpointById id).2.tables
        [(info.target.column,
          (Edit.cut info.target).apply (s.tracked info.target.column))]

-- =============================================================== rules

/-- The tables are those of `s`, and the lists in `L` were sent. -/
def TablesHeld (s : SessionManager) (L : List (Column × List Request)) :
    Assertion ToolOp EnvMove ToolServer :=
  fun w h => w.session.tables = s.tables ∧ sent h = L

/-- The call ends as `BpEnd` says. -/
def EndsAs (ok : ToolEvent → Prop) (s : SessionManager)
    (aim : Option Aim) (o : ToolOutcome) :
    Assertion ToolOp EnvMove ToolServer :=
  fun w h => BpEnd ok s aim o w.session.tables (sent h)

/-- What holds of a breakpoint call, or a part of one, that runs alone
from tables `s`, having sent `L`; `s₀` and `aim` are the whole call's. -/
abbrev EndsFrom (ok : ToolEvent → Prop) (s₀ : SessionManager)
    (aim : Option Aim) (p : ToolProg ToolOutcome) (s : SessionManager)
    (L : List (Column × List Request)) : Prop :=
  Ensures toolMachine (fun _ ev => ok ev) (EndsAs ok s₀ aim) p
    (TablesHeld s L)

section

variable {ok : ToolEvent → Prop} {s₀ s : SessionManager}
  {aim : Option Aim} {L : List (Column × List Request)}

theorem tablesHeld_stable :
    Stable toolMachine (fun _ ev => ok ev) (TablesHeld s L) := by
  intro w w' h e hw he _
  exact ⟨(tables_env he).trans hw.1, hw.2⟩

/-- A value the call may return here. -/
theorem EndsFrom.returns {o : ToolOutcome}
    (h : BpEnd ok s₀ aim o s.tables L) :
    EndsFrom ok s₀ aim (.ret o) s L := by
  intro w h' hw
  show BpEnd ok s₀ aim o w.session.tables (sent h')
  rw [hw.1, hw.2]
  exact h

/-- A lock section: it answers as on some session with these tables. -/
theorem EndsFrom.lock {β : Type} {op : SessionOp β}
    {k : β → ToolProg ToolOutcome}
    (hk : ∀ s', s'.tables = s.tables →
      EndsFrom ok s₀ aim (k (op.run s').1) (op.run s).2 L) :
    EndsFrom ok s₀ aim (session op >>= k) s L := by
  refine Ensures.write
    (fun b w h => (∃ s', s'.tables = s.tables ∧ (op.run s').1 = b) ∧
      TablesHeld (op.run s).2 L w h) ?_ ?_ ?_
  · exact fun b _ _ _ _ hw he hok => ⟨hw.1, tablesHeld_stable hw.2 he hok⟩
  · intro b a w w' h hw hr _
    have hr : w.run (.inl op) a = some (b, w') := hr
    obtain ⟨hb, hw'⟩ := ToolServer.run_inl hr
    refine ⟨⟨w.session, hw.1, hb⟩, ?_, hw.2⟩
    rw [hw']
    exact op.run_tables_congr hw.1
  · intro b
    refine .fact ?_
    rintro ⟨s', hs, rfl⟩
    exact hk s' hs

/-- A lock section that cannot write the tables. -/
theorem EndsFrom.read {β : Type} {op : SessionOp β}
    {k : β → ToolProg ToolOutcome} (hop : op.writesTables = false)
    (hk : ∀ s', s'.tables = s.tables →
      EndsFrom ok s₀ aim (k (op.run s').1) s L) :
    EndsFrom ok s₀ aim (session op >>= k) s L := by
  refine .lock fun s' hs => (hk s' hs).pre fun w h hw => ?_
  exact ⟨hw.1.trans (op.run_tables s hop), hw.2⟩

/-- A server operation that sends no list. -/
theorem EndsFrom.ask {β : Type} {op : ServerOp β}
    {k : β → ToolProg ToolOutcome}
    (hop : ∀ b w w', sentIn (.act 0 (.inr op) b w w') = none)
    (hk : ∀ b, EndsFrom ok s₀ aim (k b) s L) :
    EndsFrom ok s₀ aim (server op >>= k) s L := by
  refine Ensures.keep tablesHeld_stable (fun b a w w' h hw hr _ => ?_) hk
  refine ⟨?_, ?_⟩
  · rw [ToolServer.run_inr (a := a) hr]
    exact hw.1
  · rw [sent, List.filterMap_cons_none (hop b w w')]
    exact hw.2

/-- A list sent to the backend. -/
theorem EndsFrom.send
    {op : ServerOp (Except BackendError (List BreakpointResult))}
    {k : Except BackendError (List BreakpointResult) →
      ToolProg ToolOutcome} (κ : Column) (rs : List Request)
    (hsent : ∀ b w w', sentIn (.act 0 (.inr op) b w w') = some (κ, rs))
    (hack : ∀ as w w', ackOf (.act 0 (.inr op) (.ok as) w w')
      = some ⟨κ, rs, as⟩)
    (herr : ∀ e, EndsFrom ok s₀ aim (k (.error e)) s ((κ, rs) :: L))
    (hok : ∀ as, Acked ok s ⟨κ, rs, as⟩ →
      EndsFrom ok s₀ aim (k (.ok as)) s ((κ, rs) :: L)) :
    EndsFrom ok s₀ aim (server op >>= k) s L := by
  refine Ensures.write
    (fun b w h => (∀ as, b = .ok as → Acked ok s ⟨κ, rs, as⟩) ∧
      TablesHeld s ((κ, rs) :: L) w h) ?_ ?_ ?_
  · exact fun b _ _ _ _ hw he hok => ⟨hw.1, tablesHeld_stable hw.2 he hok⟩
  · intro b a w w' h hw hr hev
    refine ⟨?_, ?_, ?_⟩
    · rintro as rfl
      exact ⟨_, hev, hack as w w', hw.1⟩
    · rw [ToolServer.run_inr (a := a) hr]
      exact hw.1
    · rw [sent, List.filterMap_cons_some (hsent b w w')]
      exact congrArg _ hw.2
  · intro b
    refine .fact fun hacked => ?_
    cases b with
    | error e => exact herr e
    | ok as => exact hok as (hacked as rfl)

end

-- ============================================================ handlers

section

variable {ok : ToolEvent → Prop} {s : SessionManager}

/-- A response with a breakpoint id reports it. -/
theorem breakpointId_source (id : Int) (verified : Bool) (file : String)
    (line : Int) (message : String) :
    ∃ v, (((((RespBuilder.new.set "breakpoint_id" (.int id)).set
        "verified" (.bool verified)).set "file" (.str file)).set
        "line" (.int line)).setIf (!message.isEmpty) "message"
        (.str message)).intoOutcome = .json v ∧
      (ToolOutcome.json v).breakpointId = some id := by
  refine ⟨_, rfl, ?_⟩
  cases hm : message.isEmpty <;> rfl

theorem breakpointId_function (name : String) (id : Int)
    (verified : Bool) (message : String) :
    ∃ v, functionResponse name id verified message = .json v ∧
      (ToolOutcome.json v).breakpointId = some id := by
  refine ⟨_, rfl, ?_⟩
  rfl

theorem setBreakpointStopped_ends (file : String) (line : Int)
    (condition : String) :
    EndsFrom ok s (some (.set (.source file ⟨line, condition⟩)))
      (setBreakpointStopped file line condition) s [] := by
  refine .ask (fun _ _ _ => rfl) fun b => ?_
  cases b with
  | none => exact .returns (.failed _ _ _)
  | some b =>
      refine .read rfl fun s' hs => ?_
      have hreqs : (s'.sourceBreakpointsForFile file
          ++ [(⟨line, condition⟩ : SourceBp)]).map (.source file)
          = s.tracked (.file file)
            ++ [.source file ⟨line, condition⟩] := by
        rw [List.map_append]
        exact congrArg (· ++ _) (tracked_of_tables hs (.file file))
      refine .send (.file file) _
        (fun _ _ _ => congrArg (fun l => some (Column.file file, l)) hreqs)
        (fun as _ _ => congrArg
          (fun l => some (Ack.mk (.file file) l as)) hreqs)
        (fun e => .returns (.failed _ _ _)) fun rs hack => ?_
      dsimp only
      cases hm : matchedResult rs line with
      | none => exact .returns (.failed _ _ _)
      | some bp =>
          obtain ⟨v, hv, hid⟩ := breakpointId_source bp.id bp.verified file
            bp.line bp.message
          have hne : (!rs.isEmpty) = true := by
            cases rs with
            | nil => cases hm
            | cons r rs => rfl
          refine .lock fun _ _ => .lock fun _ _ => ?_
          rw [hv]
          exact .returns (.set (.source file ⟨line, condition⟩) rs bp v
            hack hne hm hid)

/-- A breakpoint handler that returns from its guard, or goes on. -/
private theorem guard_ends {aim : Option Aim} {allowed : List State}
    {k : Except String Unit → ToolProg ToolOutcome}
    (herr : ∀ e, k (.error e) = pure (.error e))
    (hok : EndsFrom ok s aim (k (.ok ())) s []) :
    EndsFrom ok s aim (session (.checkState allowed) >>= k) s [] := by
  refine .read rfl fun s' hs => ?_
  cases hc : ((SessionOp.checkState allowed).run s').1 with
  | error e =>
      rw [herr e]
      exact .returns (.failed _ _ _)
  | ok u => exact hok

theorem handleSetBreakpoint_ends (args : Args) :
    EndsFrom ok s (Call.aim (.setBreakpoint args))
      (handleSetBreakpoint args) s [] := by
  refine guard_ends (fun _ => rfl) ?_
  dsimp only
  rw [Call.aim, Args.sourceRequest]
  cases hf : args.requireString "file" with
  | error e => exact .returns (.failed _ _ _)
  | ok file =>
      cases hl : args.requirePositiveInt "line" with
      | error e => exact .returns (.failed _ _ _)
      | ok line =>
          refine .read rfl fun s' hs => ?_
          dsimp only [Option.map_some]
          by_cases hst : ((SessionOp.state).run s').1 = .idle
          · rw [if_pos hst]
            refine .lock fun _ _ => ?_
            exact .returns (.buffered (.source file _) _ rfl)
          · rw [if_neg hst]
            exact setBreakpointStopped_ends _ _ _

theorem setFunctionBreakpointStopped_ends (name condition : String) :
    EndsFrom ok s (some (.set (.function ⟨name, condition⟩)))
      (setFunctionBreakpointStopped name condition) s [] := by
  refine .ask (fun _ _ _ => rfl) fun b => ?_
  cases b with
  | none => exact .returns (.failed _ _ _)
  | some b =>
      refine .read rfl fun s' hs => ?_
      have hreqs : (s'.inner.functionBps
          ++ [(⟨name, condition⟩ : FunctionBp)]).map .function
          = s.tracked .functions ++ [.function ⟨name, condition⟩] := by
        rw [List.map_append]
        exact congrArg (· ++ _) (tracked_of_tables hs .functions)
      refine .send .functions _
        (fun _ _ _ => congrArg (fun l => some (Column.functions, l)) hreqs)
        (fun as _ _ => congrArg
          (fun l => some (Ack.mk .functions l as)) hreqs)
        (fun e => .returns (.failed _ _ _)) fun rs hack => ?_
      dsimp only
      cases hl : rs.getLast? with
      | none =>
          rw [List.getLast?_eq_none_iff] at hl
          subst hl
          exact .lock fun _ _ => .returns
            (.setUnlisted ⟨name, condition⟩ _ hack)
      | some bp =>
          dsimp only
          cases hr : bp.rejected with
          | true => exact .returns (.failed _ _ _)
          | false =>
              obtain ⟨v, hv, hid⟩ := breakpointId_function name bp.id
                bp.verified bp.message
              have hgo : (!rs.getLast?.any (·.rejected)) = true := by
                simp [hl, hr]
              refine .lock fun _ _ => .lock fun _ _ => ?_
              rw [hv]
              exact .returns (.set (.function ⟨name, condition⟩) rs bp v
                hack hgo hl hid)

theorem handleSetFunctionBreakpoint_ends (args : Args) :
    EndsFrom ok s (Call.aim (.setFunctionBreakpoint args))
      (handleSetFunctionBreakpoint args) s [] := by
  refine guard_ends (fun _ => rfl) ?_
  dsimp only
  rw [Call.aim, Args.functionRequest]
  cases hn : args.requireString "name" with
  | error e => exact .returns (.failed _ _ _)
  | ok name =>
      refine .read rfl fun s' hs => ?_
      dsimp only [Option.map_some]
      by_cases hst : ((SessionOp.state).run s').1 = .idle
      · rw [if_pos hst]
        refine .lock fun _ _ => ?_
        exact .returns (.buffered (.function _) _ rfl)
      · rw [if_neg hst]
        exact setFunctionBreakpointStopped_ends _ _

/-- The commit of a removal of a tracked id. -/
private theorem commitRemoval_ends {id : Int} {info : BreakpointInfo}
    (hinfo : s.breakpointInfo id = some info) :
    EndsFrom ok s (some (.remove id)) (commitRemoval id) s
      [(info.target.column,
        (Edit.cut info.target).apply (s.tracked info.target.column))] := by
  refine .lock fun s' hs => ?_
  cases hr : ((SessionOp.removeBreakpointById id).run s').1 with
  | error e =>
      have hsame : (s'.removeBreakpointById id).2.tables
          = (s.removeBreakpointById id).2.tables :=
        (SessionOp.removeBreakpointById id).run_tables_congr hs
      have hkept : (s.removeBreakpointById id).2.tables = s.tables := by
        rw [← hsame, removeBreakpointById_error hr, hs]
      refine .returns ?_
      show BpEnd ok s _ _ (s.removeBreakpointById id).2.tables _
      rw [hkept]
      exact .failed _ _ _
  | ok r => exact .returns (.removed id info _ hinfo)

/-- What the removal of a source breakpoint sends. -/
private theorem cutFile_sent {s' : SessionManager} {info : BreakpointInfo}
    (hty : info.ty = .source) (hs : s'.tables = s.tables) :
    (Column.file info.file, (SessionManager.eraseLine info.line
        (s'.sourceBreakpointsForFile info.file)).map
          (Request.source info.file))
      = (info.target.column,
        (Edit.cut info.target).apply (s.tracked info.target.column)) := by
  have ht : info.target = .line info.file info.line := by
    rw [BreakpointInfo.target, hty]
  rw [ht, map_eraseLine]
  exact congrArg (fun l => (Column.file info.file, Edit.apply _ l))
    (tracked_of_tables hs (.file info.file))

/-- What the removal of a function breakpoint sends. -/
private theorem cutNames_sent {s' : SessionManager}
    {info : BreakpointInfo} (hty : info.ty = .function)
    (hs : s'.tables = s.tables) :
    (Column.functions, (SessionManager.eraseName info.function
        s'.inner.functionBps).map Request.function)
      = (info.target.column,
        (Edit.cut info.target).apply (s.tracked info.target.column)) := by
  have ht : info.target = .name info.function := by
    rw [BreakpointInfo.target, hty]
  rw [ht, map_eraseName]
  exact congrArg (fun l => (Column.functions, Edit.apply _ l))
    (tracked_of_tables hs .functions)

theorem removeBreakpoint_ends (id : Int) :
    EndsFrom ok s (some (.remove id)) (removeBreakpoint id) s [] := by
  refine .read rfl fun s' hs => ?_
  have hinfo : ((SessionOp.breakpointInfo id).run s').1
      = s.breakpointInfo id := breakpointInfo_of_tables hs id
  rw [hinfo]
  cases hi : s.breakpointInfo id with
  | none => exact .returns (.failed _ _ _)
  | some info =>
      refine .ask (fun _ _ _ => rfl) fun b => ?_
      cases b with
      | none => exact .returns (.failed _ _ _)
      | some b =>
          cases hty : info.ty with
          | source =>
              dsimp only
              rw [if_neg (by decide)]
              refine .read rfl fun s'' hs' => ?_
              have hlist := cutFile_sent hty hs'
              exact .send _ _ (fun _ _ _ => congrArg some hlist)
                (fun as _ _ => congrArg (fun x : Column × List Request =>
                  some (Ack.mk x.1 x.2 as)) hlist)
                (fun e => .returns (.failed _ _ _))
                fun _ _ => commitRemoval_ends hi
          | function =>
              dsimp only
              rw [if_pos (by decide)]
              refine .read rfl fun s'' hs' => ?_
              have hlist := cutNames_sent hty hs'
              exact .send _ _ (fun _ _ _ => congrArg some hlist)
                (fun as _ _ => congrArg (fun x : Column × List Request =>
                  some (Ack.mk x.1 x.2 as)) hlist)
                (fun e => .returns (.failed _ _ _))
                fun _ _ => commitRemoval_ends hi

theorem handleRemoveBreakpoint_ends (args : Args) :
    EndsFrom ok s (Call.aim (.removeBreakpoint args))
      (handleRemoveBreakpoint args) s [] := by
  refine guard_ends (fun _ => rfl) ?_
  dsimp only
  rw [Call.aim]
  cases hid : args.requireInt "breakpoint_id" with
  | error e => exact .returns (.failed _ _ _)
  | ok id => exact removeBreakpoint_ends id

/-- A breakpoint call that runs alone ends as `BpEnd` says. -/
theorem breakpointCall_ends {host : Host} {c : Call} {w : ToolServer}
    {h : History} {p : Pool ToolOp ToolOutcome ToolServer}
    {o : ToolOutcome} (hc : c.editsBreakpoints = true)
    (hr : RunIf toolMachine (fun _ ev => ok ev)
      (solo (c.prog host) w) h p)
    (ho : p.returned 0 = some o) :
    BpEnd ok w.session c.aim o p.world.session.tables (sent h) := by
  have hends : EndsFrom ok w.session c.aim (c.prog host) w.session [] := by
    cases c with
    | setBreakpoint args => exact handleSetBreakpoint_ends args
    | setFunctionBreakpoint args =>
        exact handleSetFunctionBreakpoint_ends args
    | removeBreakpoint args => exact handleRemoveBreakpoint_ends args
    | _ => cases hc
  exact hends.sound tablesHeld_stable ⟨rfl, rfl⟩ hr ho

end

-- =========================================================== the result

/-- A breakpoint call that runs alone and returns an error leaves every
breakpoint table as it was, for every session, every arguments and every
behaviour of the backend. -/
theorem failed_edit_changes_nothing (host : Host) (c : Call)
    (w : ToolServer) (hc : c.editsBreakpoints = true) {h : History}
    {p : Pool ToolOp ToolOutcome ToolServer} {o : ToolOutcome}
    (hr : Run toolMachine (solo (c.prog host) w) h p)
    (ho : p.returned 0 = some o) (herr : o.isError = true) :
    p.world.session.tables = w.session.tables := by
  have hend : BpEnd (fun _ => True) w.session c.aim o
      p.world.session.tables (sent h) := breakpointCall_ends hc hr ho
  generalize c.aim = aim at hend
  generalize p.world.session.tables = T at hend ⊢
  generalize sent h = L at hend
  cases hend with
  | failed => rfl
  | buffered | set | setUnlisted | removed => cases herr

/-- A second breakpoint the backend rejects. -/
theorem failed_edit_witness :
    ∃ h p o, Run toolMachine
        (solo ((Call.setFunctionBreakpoint
          ⟨[("name", .str "0x1000")]⟩).prog lldbHost) stoppedServer) h p ∧
      p.returned 0 = some o ∧ o.isError = true ∧
      p.world.session.tables = stoppedServer.session.tables := by
  obtain ⟨h, p, hr, he⟩ :=
    exec_witness toolMachine
      (solo ((Call.setFunctionBreakpoint
        ⟨[("name", .str "0x1000")]⟩).prog lldbHost) stoppedServer)
      (sync 0 4 ++ [.step 0 (.results (.ok
        [⟨0, false, 0, "use a symbol", true⟩]))])
      (fun _ p => (p.returned 0).any (·.isError) = true)
      (by decide +kernel)
  obtain ⟨o, ho, herr⟩ := (Option.any_eq_true _ _).mp he
  exact ⟨h, p, o, hr, ho, herr,
    failed_edit_changes_nothing _ _ _ rfl hr ho herr⟩

end DebugMcp
