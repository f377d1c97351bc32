/-
What the session tracks, column by column.

A *column* is a list the backend is always sent as a whole: the source
breakpoints of one file, or the function breakpoints. The session's two
tables of requests are read here as one table of columns, and every lock
section's effect on it as an *edit*: append a request, or drop the first
one a removal's target names. `SessionOp.run_tracked` is the one lemma
the breakpoint proofs use about lock sections.
-/
import DebugMcp.Tools.History

namespace DebugMcp

open Conc

-- ============================================================ requests

/-- A tracked breakpoint request. -/
inductive Request
  | source (file : String) (bp : SourceBp)
  | function (bp : FunctionBp)
  deriving DecidableEq

/-- A list that is sent to the backend as a whole. -/
inductive Column
  | file (f : String)
  | functions
  deriving DecidableEq

/-- The column a request is in. -/
def Request.column : Request → Column
  | source f _ => .file f
  | function _ => .functions

/-- The requests the session tracks in a column. -/
def SessionManager.tracked (s : SessionManager) : Column → List Request
  | .file f => (s.sourceBreakpointsForFile f).map (.source f)
  | .functions => s.inner.functionBps.map .function

-- =============================================================== edits

/-- What a removal looks for: a line of a file, or a name. -/
inductive Target
  | line (file : String) (line : Int)
  | name (name : String)
  deriving DecidableEq

/-- The column a target is in. -/
def Target.column : Target → Column
  | line f _ => .file f
  | name _ => .functions

/-- Is the request one the target names? The condition is not looked
at. -/
def Target.names : Target → Request → Bool
  | line _ l, .source _ bp => bp.line == l
  | name n, .function bp => bp.name == n
  | _, _ => false

/-- What the removal of a tracked entry looks for. -/
def BreakpointInfo.target (info : BreakpointInfo) : Target :=
  match info.ty with
  | .source => .line info.file info.line
  | .function => .name info.function

/-- A change of one column. -/
inductive Edit
  | add (r : Request)
  | cut (t : Target)
  deriving DecidableEq

namespace Edit

/-- The column an edit changes. -/
def column : Edit → Column
  | add r => r.column
  | cut t => t.column

/-- The column after the edit. -/
def apply : Edit → List Request → List Request
  | add r, rs => rs ++ [r]
  | cut t, rs => rs.eraseP t.names

end Edit

-- ====================================================== lock sections

/-- Does the lock section change more than one request? -/
def SessionOp.reshapes {β : Type} : SessionOp β → Bool
  | .resetInner => true
  | .flushPendingBreakpoints => true
  | _ => false

/-- The edit a lock section makes. -/
def SessionOp.edit {β : Type} (s : SessionManager) :
    SessionOp β → Option Edit
  | .addSourceBreakpoint f l c => some (.add (.source f ⟨l, c⟩))
  | .addFunctionBreakpoint n c => some (.add (.function ⟨n, c⟩))
  | .removeBreakpointById id =>
      (s.breakpointInfo id).map fun info => .cut info.target
  | _ => none

/-- An edit, made or not, as seen from one column. -/
def editColumn (e : Option Edit) (κ : Column) (rs : List Request) :
    List Request :=
  match e with
  | some e => if e.column = κ then e.apply rs else rs
  | none => rs

theorem editColumn_self (e : Edit) (rs : List Request) :
    editColumn (some e) e.column rs = e.apply rs := if_pos rfl

theorem editColumn_ne {e : Edit} {κ : Column} (rs : List Request)
    (h : κ ≠ e.column) : editColumn (some e) κ rs = rs :=
  if_neg (Ne.symm h)

/-- Cutting a line out of a file's list. -/
theorem map_eraseLine (f : String) (l : Int) (bps : List SourceBp) :
    (SessionManager.eraseLine l bps).map (Request.source f)
      = (Edit.cut (.line f l)).apply (bps.map (.source f)) := by
  simp only [SessionManager.eraseLine, Edit.apply, List.eraseP_map]
  rfl

/-- Cutting a name out of the function list. -/
theorem map_eraseName (n : String) (bps : List FunctionBp) :
    (SessionManager.eraseName n bps).map Request.function
      = (Edit.cut (.name n)).apply (bps.map .function) := by
  simp only [SessionManager.eraseName, Edit.apply, List.eraseP_map]
  rfl

/-- An append to one file, as seen from every column. -/
theorem tracked_addSourceBreakpoint (s : SessionManager) (f : String)
    (l : Int) (c : String) (κ : Column) :
    (s.addSourceBreakpoint f l c).tracked κ
      = editColumn (some (.add (.source f ⟨l, c⟩))) κ (s.tracked κ) := by
  cases κ with
  | functions => rfl
  | file f' =>
      by_cases hf : f = f'
      · subst hf
        simp [SessionManager.tracked, editColumn, Edit.column,
          Request.column, Edit.apply, SessionManager.addSourceBreakpoint,
          SessionManager.sourceBreakpointsForFile]
      · have hne : Edit.column (.add (.source f ⟨l, c⟩)) ≠ .file f' := by
          intro hc
          cases hc
          exact hf rfl
        simp only [SessionManager.tracked, editColumn, if_neg hne,
          SessionManager.addSourceBreakpoint,
          SessionManager.sourceBreakpointsForFile]
        rw [SourceMap.forFile_modify_ne _ _ (Ne.symm hf)]

/-- The list of a file after a removal from the file's list. -/
theorem forFile_eraseLine (m : SourceMap) (f f' : String) (l : Int) :
    SourceMap.forFile
      (match m.lookup f with
        | none => m
        | some bps => m.insert f (SessionManager.eraseLine l bps)) f'
      = if f = f' then SessionManager.eraseLine l (m.forFile f')
        else m.forFile f' := by
  by_cases hf : f = f'
  · subst hf
    rw [if_pos rfl]
    cases hl : m.lookup f with
    | none => simp [SourceMap.forFile, hl, SessionManager.eraseLine]
    | some bps => simp [SourceMap.forFile, hl]
  · rw [if_neg hf]
    cases hl : m.lookup f with
    | none => rfl
    | some bps =>
        simp [SourceMap.forFile, AList.lookup_insert_ne (Ne.symm hf)]

/-- A removal, as seen from every column. -/
theorem tracked_removeBreakpointById (s : SessionManager) (id : Int)
    (κ : Column) :
    (s.removeBreakpointById id).2.tracked κ
      = editColumn ((s.breakpointInfo id).map fun info =>
          .cut info.target) κ (s.tracked κ) := by
  rw [SessionManager.removeBreakpointById, SessionManager.breakpointInfo]
  cases hl : s.inner.bpResponses.lookup id with
  | none => rfl
  | some info =>
      simp only [Option.map_some, editColumn, Edit.column,
        BreakpointInfo.target]
      cases hty : info.ty with
      | source =>
          cases κ with
          | functions => rfl
          | file f =>
              have hlist :=
                forFile_eraseLine s.inner.sourceBps info.file f info.line
              simp only [SessionManager.tracked, Target.column,
                SessionManager.sourceBreakpointsForFile,
                Column.file.injEq]
              by_cases hf : info.file = f
              · subst hf
                rw [if_pos rfl] at hlist ⊢
                exact (congrArg _ hlist).trans (map_eraseLine _ _ _)
              · rw [if_neg hf] at hlist ⊢
                exact congrArg _ hlist
      | function =>
          cases κ with
          | functions =>
              simp only [SessionManager.tracked, Target.column]
              exact map_eraseName _ _
          | file f => rfl

/-- What a lock section does to a column: its edit, if that is in the
column. -/
theorem SessionOp.run_tracked {β : Type} (op : SessionOp β)
    (s : SessionManager) (h : op.reshapes = false) (κ : Column) :
    (op.run s).2.tracked κ = editColumn (op.edit s) κ (s.tracked κ) := by
  cases op with
  | addSourceBreakpoint f l c => exact tracked_addSourceBreakpoint s f l c κ
  | addFunctionBreakpoint n c =>
      cases κ with
      | functions =>
          simp [SessionOp.run, SessionManager.addFunctionBreakpoint,
            SessionManager.tracked, SessionOp.edit, editColumn,
            Edit.column, Request.column, Edit.apply]
      | file f => rfl
  | removeBreakpointById id => exact tracked_removeBreakpointById s id κ
  | resetInner => cases h
  | flushPendingBreakpoints => cases h
  | setStateIfGeneration g st =>
      simp only [SessionOp.run, SessionManager.setStateIfGeneration]
      split <;> cases κ <;> rfl
  | terminateIfGeneration g code =>
      simp only [SessionOp.run, SessionManager.terminateIfGeneration]
      split <;> cases κ <;> rfl
  | _ => cases κ <;> rfl

/-- A pump changes no column. -/
theorem tracked_env {w w' : ToolServer} {e : EnvMove}
    (he : w.envMove e = some w') (κ : Column) :
    w'.session.tracked κ = w.session.tracked κ := by
  cases delivers_env he <;> cases κ <;> rfl

end DebugMcp
