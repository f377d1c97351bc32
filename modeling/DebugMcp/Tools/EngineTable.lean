/-
The breakpoints of a session over WinDbg, call by call.

The tools' session tracks requests and entries, the WinDbg backend keeps
a table of its own, and DbgEng has the breakpoints. The handlers run one
after the other over both: a connect makes a new backend, a launch
flushes what was pending into it, and a setter is answered by it. Output
and the end of the target come in at any time.

`InStep` is what holds between two calls, `StackHeld` what holds within one
that connects nothing. `held_step` is their step lemma; the connects, and
whole runs, are next to come.
-/
import DebugMcp.Tools.Requested

namespace DebugMcp

open Conc

-- ============================================================= machine

/-- The server, and the WinDbg backend it connected last. -/
structure WinStack where
  server : ToolServer
  windbg : WinDbg

/-- Before anything is connected. -/
def WinStack.new : WinStack where
  server := .new
  windbg := .new

/-- The answer to an operation, and what a launch that is cancelled, or a
disconnect, leaves of the engine. -/
abbrev StackAnswer := Answer × WinDbg

namespace WinStack

variable (e : EngineModel) (w : WinStack)

/-- An operation that is the server's alone. -/
def aside {β : Type} (r : Option (β × ToolServer)) :
    Option (β × WinStack) :=
  r.map fun r => (r.1, { w with server := r.2 })

/-- An operation of the server; a connect hands out a new backend. -/
def runServer {β : Type} (op : ServerOp β) (a : StackAnswer) :
    Option (β × WinStack) :=
  match op with
  | .connect f =>
      (w.server.runServer (.connect f) a.1).map fun r => (r.1, ⟨r.2, .new⟩)
  | .launch _ spec =>
      match a.1 with
      | .launch none => some (none, { w with windbg := a.2 })
      | _ =>
          let (out, windbg) := winDbgLaunch e spec w.windbg
          some (some out, { w with windbg })
  | .disconnect b t =>
      (w.server.runServer (.disconnect b t) a.1).map fun r =>
        (r.1, ⟨r.2, a.2⟩)
  | .setSourceBreakpoints _ file bps =>
      let (out, windbg) := setSourceBreakpoints e file bps w.windbg
      some (out, { w with windbg })
  | .setFunctionBreakpoints _ bps =>
      let (out, windbg) := setFunctionBreakpoints e bps w.windbg
      some (out, { w with windbg })
  | op => w.aside (w.server.runServer op a.1)

/-- One operation of a handler. -/
def run {β : Type} (op : ToolOp β) (a : StackAnswer) :
    Option (β × WinStack) :=
  match op with
  | .inl op => w.aside (w.server.run (.inl op) a.1)
  | .inr op => w.runServer e op a

end WinStack

/-- The server over WinDbg as a machine. -/
def stackMachine (e : EngineModel) :
    Machine ToolOp StackAnswer EnvMove WinStack where
  run _ op a w := w.run e op a
  env m w := (w.server.envMove m).map fun server => { w with server }

/-- An event of a run. -/
abbrev StackEvent := Event ToolOp EnvMove WinStack

/-- A history, newest first. -/
abbrev StackHistory := List StackEvent

/-- What is launched in an event. -/
def launchedIn : StackEvent → Option LaunchSpec
  | .act _ (.inr (.launch _ spec)) _ _ _ => some spec
  | _ => none

/-- The setter that is called in an event. -/
def setIn : StackEvent → Option BpCall
  | .act _ (.inr (.setSourceBreakpoints _ file bps)) _ _ _ =>
      some (.source file bps)
  | .act _ (.inr (.setFunctionBreakpoints _ bps)) _ _ _ =>
      some (.function bps)
  | _ => none

/-- Where an event sets breakpoints, it sets none twice, and drops none
that has the engine id 0. -/
def CarefulStep (e : EngineModel) (ev : StackEvent) : Prop :=
  (∀ spec ∈ launchedIn ev, CarefulLaunch e spec) ∧
    ∀ c ∈ setIn ev, Careful e c ev.pre.windbg

instance (e : EngineModel) (ev : StackEvent) :
    Decidable (CarefulStep e ev) :=
  inferInstanceAs (Decidable (_ ∧ _))

-- =========================================================== invariant

/-- Nothing is tracked, and nothing listed. -/
structure NoTables (s : SessionManager) : Prop where
  columns : ∀ κ, s.tracked κ = []
  entries : s.inner.bpResponses = ∅

/-- Between two calls: an idle session has no backend, without one
nothing is tracked, and with one, as long as its thread is there, the
tools track what the engine has. -/
structure InStep (w : WinStack) : Prop where
  idle : w.server.session.inner.state = .idle → w.server.backend = none
  empty : w.server.backend = none → NoTables w.server.session
  engine : w.server.backend ≠ none → w.windbg.engine.gone = false →
    OnEngine w.server.session.tracked w.server.session.inner.bpResponses
      w.windbg

/-- There is a session, with a backend. -/
def Live (w : WinStack) : Prop :=
  w.server.backend ≠ none ∧ w.server.session.inner.state ≠ .idle

/-- There is a request for an entry that is to be recorded, and it is a
breakpoint of the engine if it is verified. -/
structure Recordable (cols : Columns) (entries : EntryTable) (d : WinDbg)
    (info : BreakpointInfo) : Prop where
  room : entriesFor entries info.target + 1
    ≤ requestsFor cols info.target
  placed : info.verified = true →
    ∃ loc, info.target.loc? = some loc ∧ (info.id, loc) ∈ d.engine.live

/-- An acknowledged edit, and an entry that is to be recorded after
it. -/
def Adding (r : Request) (info : BreakpointInfo) (w : WinStack) : Prop :=
  Live w ∧ (w.windbg.engine.gone = false →
    OnEngine (edited (.add r) w.server.session.tracked)
        w.server.session.inner.bpResponses w.windbg ∧
      Recordable (edited (.add r) w.server.session.tracked)
        w.server.session.inner.bpResponses w.windbg info)

/-- What holds while a breakpoint handler is under way. -/
def BpHeld (w : WinStack) : BpPhase → Prop
  | .start | .guarded | .done => InStep w
  | .ready _ => InStep w ∧ Live w
  | .readFile _ f bps => InStep w ∧ Live w ∧
      w.server.session.tracked (.file f) = bps.map (.source f)
  | .readNames _ bps => InStep w ∧ Live w ∧
      w.server.session.tracked .functions = bps.map .function
  | .addFile f bp info => Adding (.source f bp) info w
  | .addName bp (some info) => Adding (.function bp) info w
  | .addName _ none => Live w ∧ w.windbg.engine.gone = true
  | .added info => Live w ∧ (w.windbg.engine.gone = false →
      OnEngine w.server.session.tracked
          w.server.session.inner.bpResponses w.windbg ∧
        Recordable w.server.session.tracked
          w.server.session.inner.bpResponses w.windbg info)
  | .peeked id info => InStep w ∧
      w.server.session.breakpointInfo id = some info
  | .peekedReady id info _ => InStep w ∧ Live w ∧
      w.server.session.breakpointInfo id = some info
  | .cutFile id info _ bps => InStep w ∧ Live w ∧
      w.server.session.breakpointInfo id = some info ∧
      info.ty = .source ∧
      w.server.session.tracked (.file info.file)
        = bps.map (.source info.file)
  | .cutNames id info _ bps => InStep w ∧ Live w ∧
      w.server.session.breakpointInfo id = some info ∧
      info.ty = .function ∧
      w.server.session.tracked .functions = bps.map .function
  | .removing id info => Live w ∧
      w.server.session.breakpointInfo id = some info ∧
      (w.windbg.engine.gone = false →
        OnEngine (edited (.cut info.target) w.server.session.tracked)
          (w.server.session.inner.bpResponses.erase id) w.windbg)

/-- What holds while a disconnect is under way. -/
def DiscHeld (w : WinStack) : DiscPhase → Prop
  | .start | .done => InStep w
  | .guarded => True
  | .taken => w.server.backend = none
  | .wiped => w.server.backend = none ∧ NoTables w.server.session

/-- What holds while a call is under way that connects nothing. -/
def StackHeld (w : WinStack) : Phase → Prop
  | .bp q => BpHeld w q
  | .disc q => DiscHeld w q
  | .res _ | .other => InStep w
  | .conn _ => False

-- =============================================================== frame

/-- Nothing of it is touched: the tables, the slot, the engine; and the
session does not become idle. -/
structure Untouched (w w' : WinStack) : Prop where
  tables : SameTables w.server.session w'.server.session
  slot : w'.server.backend = w.server.backend
  windbg : w'.windbg = w.windbg
  idle : w'.server.session.inner.state = .idle →
    w.server.session.inner.state = .idle

section

variable {e : EngineModel} {w w' : WinStack}

namespace Untouched

theorem columns (h : Untouched w w') :
    w'.server.session.tracked = w.server.session.tracked :=
  funext h.tables.columns

theorem entry (h : Untouched w w') (id : Int) :
    w'.server.session.breakpointInfo id
      = w.server.session.breakpointInfo id :=
  congrArg (AList.lookup id) h.tables.table

theorem empty (h : Untouched w w') (hn : NoTables w.server.session) :
    NoTables w'.server.session where
  columns κ := (h.tables.columns κ).trans (hn.columns κ)
  entries := h.tables.table.trans hn.entries

theorem inStep (h : Untouched w w') (hI : InStep w) : InStep w' where
  idle hidle := h.slot.trans (hI.idle (h.idle hidle))
  empty hb := h.empty (hI.empty (h.slot ▸ hb))
  engine hb hg := by
    rw [h.columns, h.tables.table, h.windbg]
    exact hI.engine (h.slot ▸ hb) (h.windbg ▸ hg)

theorem live (h : Untouched w w') (hl : Live w) : Live w' :=
  ⟨h.slot ▸ hl.1, fun hidle => hl.2 (h.idle hidle)⟩

theorem adding {r : Request} {info : BreakpointInfo}
    (h : Untouched w w') (ha : Adding r info w) : Adding r info w' := by
  refine ⟨h.live ha.1, ?_⟩
  rw [h.columns, h.tables.table, h.windbg]
  exact ha.2

theorem bpHeld {q : BpPhase} (h : Untouched w w') (hq : BpHeld w q) :
    BpHeld w' q := by
  cases q with
  | start | guarded | done => exact h.inStep hq
  | ready b => exact ⟨h.inStep hq.1, h.live hq.2⟩
  | readFile b f bps | readNames b bps =>
      obtain ⟨hI, hl, hbps⟩ := hq
      exact ⟨h.inStep hI, h.live hl, (h.tables.columns _).trans hbps⟩
  | addFile f bp info => exact h.adding hq
  | addName bp info =>
      cases info with
      | some info => exact h.adding hq
      | none =>
          refine ⟨h.live hq.1, ?_⟩
          rw [h.windbg]
          exact hq.2
  | added info =>
      refine ⟨h.live hq.1, ?_⟩
      rw [h.columns, h.tables.table, h.windbg]
      exact hq.2
  | peeked id info =>
      exact ⟨h.inStep hq.1, (h.entry id).trans hq.2⟩
  | peekedReady id info b =>
      obtain ⟨hI, hl, hinfo⟩ := hq
      exact ⟨h.inStep hI, h.live hl, (h.entry id).trans hinfo⟩
  | cutFile id info b bps | cutNames id info b bps =>
      obtain ⟨hI, hl, hinfo, hty, hbps⟩ := hq
      exact ⟨h.inStep hI, h.live hl, (h.entry id).trans hinfo, hty,
        (h.tables.columns _).trans hbps⟩
  | removing id info =>
      obtain ⟨hl, hinfo, hs⟩ := hq
      refine ⟨h.live hl, (h.entry id).trans hinfo, ?_⟩
      rw [h.columns, h.tables.table, h.windbg]
      exact hs

theorem held {q : Phase} (h : Untouched w w') (hq : StackHeld w q) :
    StackHeld w' q := by
  cases q with
  | bp q => exact h.bpHeld hq
  | disc q =>
      cases q with
      | start | done => exact h.inStep hq
      | guarded => trivial
      | taken => exact h.slot.trans hq
      | wiped => exact ⟨h.slot.trans hq.1, h.empty hq.2⟩
  | res q => exact h.inStep hq
  | other => exact h.inStep hq
  | conn q => cases hq

end Untouched

/-- Is the operation none of the slot's, a connect or a disconnect, or
answered by the engine? -/
def ServerOp.spares {β : Type} : ServerOp β → Bool
  | .connect _ | .setSlot _ | .clearSlot | .takeSlot => false
  | .disconnect _ _ | .launch _ _ | .setSourceBreakpoints _ _ _
  | .setFunctionBreakpoints _ _ => false
  | _ => true

/-- Does the operation touch neither the tables nor the slot nor the
engine? -/
def ToolOp.spares {β : Type} : ToolOp β → Bool
  | .inl op => op.isPlain
  | .inr op => op.spares

/-- A lock section of the session. -/
theorem WinStack.run_inl {β : Type} {op : SessionOp β} {a : StackAnswer}
    {x : β} (hr : w.run e (.inl op) a = some (x, w')) :
    (op.run w.server.session).1 = x ∧
      w' = { w with server := { w.server with
        session := (op.run w.server.session).2 } } := by
  cases hr
  exact ⟨rfl, rfl⟩

/-- Such an operation leaves it all. -/
theorem untouched_run {β : Type} {op : ToolOp β} {a : StackAnswer}
    {x : β} (hr : w.run e op a = some (x, w'))
    (hspares : op.spares = true) (hidle : op.target ≠ some .idle) :
    Untouched w w' := by
  cases op with
  | inl op =>
      have hplain : op.isPlain = true := hspares
      rw [(WinStack.run_inl hr).2]
      refine ⟨op.sameTables _ hplain, rfl, rfl, fun hstate => ?_⟩
      have hreset : op.isReset = false := by
        cases op <;> first | rfl | cases hplain
      rcases op.run_state w.server.session hreset with hs | hs
      · exact hs.symm.trans hstate
      · exact absurd (hs.trans (congrArg some hstate)) hidle
  | inr op =>
      have hspares : op.spares = true := hspares
      have hrun : w.aside (w.server.runServer op a.1) = some (x, w') := by
        rw [← hr]
        cases op <;> first | rfl | cases hspares
      obtain ⟨⟨x, server⟩, hserver, he⟩ := Option.map_eq_some_iff.mp hrun
      cases he
      have hsession := ToolServer.runServer_session hserver
      have hslot : server.backend = w.server.backend := by
        cases op with
        | connect | setSlot | clearSlot | takeSlot | disconnect =>
            cases hspares
        | currentBackend | setName | spawnEventPump | dropBackend =>
            cases hserver
            rfl
        | _ => rw [map_pair_snd hserver]
      refine ⟨?_, hslot, rfl, ?_⟩
      · show SameTables _ server.session
        rw [hsession]
        exact ⟨rfl, fun _ => rfl⟩
      · show server.session.inner.state = _ → _
        rw [hsession]
        exact id

/-- Nor is anything touched by what a pump delivers. -/
theorem untouched_env {m : EnvMove}
    (he : (stackMachine e).env m w = some w') : Untouched w w' := by
  obtain ⟨server, hserver, rfl⟩ := Option.map_eq_some_iff.mp he
  refine ⟨sameTables_env hserver, backend_env hserver, rfl, ?_⟩
  intro hidle
  by_contra hn
  exact state_ne_idle_env hserver hn hidle

end

-- ====================================================== acknowledgements

section

variable {e : EngineModel} {w : WinStack} {d' : WinDbg} {c : BpCall}
  {out : Except BackendError (List BreakpointResult)}

/-- A tracked request is of the column it is tracked in. -/
theorem tracked_column (s : SessionManager) (κ : Column) :
    ∀ r ∈ s.tracked κ, r.column = κ :=
  fun _ => column_of_mem_tracked

/-- A setter that left the engine there found it there. -/
theorem InStep.before [e.Fresh] (hI : InStep w) (hl : Live w)
    (hrun : c.run e w.windbg = (out, d')) (hg : d'.engine.gone = false) :
    OnEngine w.server.session.tracked w.server.session.inner.bpResponses
      w.windbg :=
  hI.engine hl.1 (c.run_alive hrun hg)

variable [e.Fresh] [e.SetsWhole] [e.Removes]

/-- A column was sent with a request more. -/
theorem acked_add {r : Request} (hI : InStep w) (hl : Live w)
    (hcol : c.column = r.column)
    (hsent : c.sent = w.server.session.tracked r.column ++ [r])
    (hcare : Careful e c w.windbg)
    (hrun : c.run e w.windbg = (out, d')) (hg : d'.engine.gone = false) :
    OnEngine (edited (.add r) w.server.session.tracked)
        w.server.session.inner.bpResponses d' ∧
      ∃ results, out = .ok results ∧
        List.Forall₂ (Given d') c.sent results := by
  have hE := hI.before hl hrun hg
  rw [← update_edited (.add r) hcol hsent]
  apply hE.replace hcare hrun hg id
  intro t
  rw [update_edited (.add r) hcol hsent, requestsFor_add]
  exact (hE.counted t).trans (Nat.le_add_right _ _)

/-- The entry of a request more can be recorded. -/
theorem OnEngine.recordable {cols : Columns} {entries : EntryTable}
    {d : WinDbg} {r : Request} {info : BreakpointInfo}
    (h : OnEngine cols entries d) (htarget : info.target = r.target)
    (hplaced : info.verified = true → ∃ loc, r.target.loc? = some loc ∧
      (info.id, loc) ∈ d'.engine.live) :
    Recordable (edited (.add r) cols) entries d' info := by
  refine ⟨?_, ?_⟩
  · rw [htarget, requestsFor_add, if_pos rfl]
    exact Nat.add_le_add_right (h.counted r.target) 1
  · rw [htarget]
    exact hplaced

/-- A column was sent without the request an entry names. -/
theorem acked_cut {id : Int} {info : BreakpointInfo} (hI : InStep w)
    (hl : Live w) (hinfo : w.server.session.breakpointInfo id = some info)
    (hcol : c.column = info.target.column)
    (hsent : c.sent = (Edit.cut info.target).apply
      (w.server.session.tracked info.target.column))
    (hcare : Careful e c w.windbg)
    (hrun : c.run e w.windbg = (out, d')) (hg : d'.engine.gone = false) :
    OnEngine (edited (.cut info.target) w.server.session.tracked)
        (w.server.session.inner.bpResponses.erase id) d' ∧
      ∃ results, out = .ok results := by
  have hE := hI.before hl hrun hg
  have hsub : ∀ {id' : Int} {info' : BreakpointInfo},
      (w.server.session.inner.bpResponses.erase id).lookup id'
        = some info' →
      w.server.session.inner.bpResponses.lookup id' = some info' := by
    intro id' info' hlook
    by_cases hid : id' = id
    · subst hid
      rw [AList.lookup_erase] at hlook
      cases hlook
    · rwa [AList.lookup_erase_ne hid] at hlook
  have hcount : ∀ t,
      entriesFor (w.server.session.inner.bpResponses.erase id) t
        ≤ requestsFor (Function.update w.server.session.tracked c.column
            c.sent) t := by
    intro t
    rw [update_edited (.cut info.target) hcol hsent]
    have hentries := entriesFor_erase (t := t) hinfo
    have hle := hE.counted t
    have hcut := requestsFor_cut info.target t
      (tracked_column w.server.session)
    omega
  obtain ⟨hE', results, ho, -⟩ := hE.replace hcare hrun hg hsub hcount
  rw [update_edited (.cut info.target) hcol hsent] at hE'
  exact ⟨hE', results, ho⟩

/-- The last of what is related to a list is related to its last. -/
theorem forall₂_concat {α β : Type} {R : α → β → Prop} {l : List α}
    {a : α} {l' : List β} (h : List.Forall₂ R (l ++ [a]) l') :
    ∃ b, l'.getLast? = some b ∧ R a b := by
  have hrev := List.forall₂_reverse_iff.mpr h
  rw [List.reverse_append] at hrev
  cases hl : l'.reverse with
  | nil =>
      rw [hl] at hrev
      cases hrev
  | cons b bs =>
      rw [hl] at hrev
      cases hrev with
      | cons hab _ =>
          refine ⟨b, ?_, hab⟩
          rw [List.getLast?_eq_head?_reverse, hl]
          rfl

/-- What is related to a list is related to its members. -/
theorem forall₂_mem {α β : Type} {R : α → β → Prop} {l : List α}
    {l' : List β} (h : List.Forall₂ R l l') :
    ∀ b ∈ l', ∃ a ∈ l, R a b := by
  induction h with
  | nil => exact fun b hb => (List.not_mem_nil hb).elim
  | @cons a b l l' hab _ ih =>
      intro b' hb'
      rcases List.mem_cons.mp hb' with rfl | hb'
      · exact ⟨a, List.mem_cons_self .., hab⟩
      · obtain ⟨a', ha', hab'⟩ := ih b' hb'
        exact ⟨a', List.mem_cons_of_mem _ ha', hab'⟩

/-- The result a line search selects is on the line, and is a breakpoint
there if it is verified. -/
theorem selected_given {f : String} {bps : List SourceBp} {bp : SourceBp}
    {results : List BreakpointResult} {r : BreakpointResult}
    (h : List.Forall₂ (Given d') ((bps ++ [bp]).map (.source f)) results)
    (hm : matchedResult results bp.line = some r) :
    r.line = bp.line ∧ (r.verified = true →
      ∃ loc, (Target.line f bp.line).loc? = some loc ∧
        (r.id, loc) ∈ d'.engine.live) := by
  have hfind : results.find? (fun r => r.line == bp.line) = some r := by
    cases hf : results.find? fun r => r.line == bp.line with
    | some r' =>
        rw [matchedResult, hf] at hm
        exact hm
    | none =>
        rw [List.map_append] at h
        obtain ⟨last, hlast, hgiven⟩ := forall₂_concat h
        have hnot := List.find?_eq_none.mp hf last
          (List.mem_of_getLast? hlast)
        have hline : last.line = bp.line := hgiven.own
        rw [hline] at hnot
        exact absurd (beq_self_eq_true _) hnot
  have hline : r.line = bp.line := by
    simpa using List.find?_some hfind
  refine ⟨hline, ?_⟩
  obtain ⟨req, hreq, hgiven⟩ :=
    forall₂_mem h r (List.mem_of_find?_eq_some hfind)
  obtain ⟨bp', -, rfl⟩ := List.mem_map.mp hreq
  have hline' : r.line = bp'.line := hgiven.own
  rw [← hline, hline']
  exact hgiven.placed

-- ============================================================ the steps

/-- The engine is another, and the tools still track what it has. -/
theorem InStep.answered (hI : InStep w)
    (hE : d'.engine.gone = false →
      OnEngine w.server.session.tracked
        w.server.session.inner.bpResponses d') :
    InStep { w with windbg := d' } where
  idle := hI.idle
  empty := hI.empty
  engine _ hg := hE hg

/-- A setter that fails found the engine gone, or leaves it so. -/
theorem InStep.failed {err : BackendError} (hI : InStep w) (hl : Live w)
    (hcare : Careful e c w.windbg)
    (hrun : c.run e w.windbg = (.error err, d')) :
    InStep { w with windbg := d' } := by
  apply hI.answered
  intro hg
  have hE := hI.before hl hrun hg
  obtain ⟨results, ho, -⟩ :=
    c.run_reconciled hE.consistent hcare hrun hg
  cases ho

/-- A live session is in step if the tools track what the engine has. -/
theorem Live.inStep (hl : Live w)
    (hE : w.windbg.engine.gone = false →
      OnEngine w.server.session.tracked
        w.server.session.inner.bpResponses w.windbg) : InStep w where
  idle hidle := absurd hidle hl.2
  empty hb := absurd hb hl.1
  engine _ hg := hE hg

end

section

variable {e : EngineModel} {w w' : WinStack} {β : Type} {op : ToolOp β}
  {a : StackAnswer} {x : β} {i : Nat}

/-- A column is sent. -/
theorem run_setter {b : BackendId} {file : String} {bps : List SourceBp}
    {out : Except BackendError (List BreakpointResult)}
    (hr : w.run e (.inr (.setSourceBreakpoints b file bps)) a
      = some (out, w')) :
    ∃ d', (BpCall.source file bps).run e w.windbg = (out, d') ∧
      w' = { w with windbg := d' } := by
  cases hr
  exact ⟨_, rfl, rfl⟩

/-- The function breakpoints are sent. -/
theorem run_functions {b : BackendId} {bps : List FunctionBp}
    {out : Except BackendError (List BreakpointResult)}
    (hr : w.run e (.inr (.setFunctionBreakpoints b bps)) a
      = some (out, w')) :
    ∃ d', (BpCall.function bps).run e w.windbg = (out, d') ∧
      w' = { w with windbg := d' } := by
  cases hr
  exact ⟨_, rfl, rfl⟩

/-- A session that has a backend is live. -/
theorem InStep.live (hI : InStep w) {b : BackendId}
    (hb : w.server.backend = some b) : Live w := by
  have hne : w.server.backend ≠ none := by
    rw [hb]
    exact Option.some_ne_none b
  exact ⟨hne, fun hidle => hne (hI.idle hidle)⟩

/-- The slot that is read is the slot. -/
theorem run_current {b : Option BackendId}
    (hr : w.run e (.inr .currentBackend) a = some (b, w')) :
    w.server.backend = b ∧ w' = w := by
  cases hr
  exact ⟨rfl, rfl⟩

/-- What is sent of a file with a line more. -/
theorem sent_source {s : SessionManager} {f : String}
    {bps : List SourceBp} (hbps : s.tracked (.file f) = bps.map (.source f))
    (bp : SourceBp) : (BpCall.source f (bps ++ [bp])).sent
      = s.tracked (.file f) ++ [.source f bp] := by
  rw [hbps]
  exact List.map_append

variable [e.Fresh] [e.SetsWhole] [e.Removes]

/-- A file's column is sent with a line more, and answered. -/
theorem sendFile_held {b : BackendId} {f : String} {bps : List SourceBp}
    {bp : SourceBp} {r : BreakpointResult} {rs : List BreakpointResult}
    (hm : matchedResult rs bp.line = some r)
    (hI : BpHeld w (.readFile b f bps))
    (hr : w.run e (.inr (.setSourceBreakpoints b f (bps ++ [bp]))) a
      = some (.ok rs, w'))
    (hcare : Careful e (.source f (bps ++ [bp])) w.windbg) :
    BpHeld w' (.addFile f bp (r.sourceEntry f bp)) := by
  obtain ⟨hI, hl, hbps⟩ := hI
  obtain ⟨d', hrun, rfl⟩ := run_setter hr
  refine ⟨hl, fun hg => ?_⟩
  obtain ⟨hE, results, ho, hgiven⟩ := acked_add (r := .source f bp) hI hl
    rfl (sent_source hbps bp) hcare hrun hg
  cases ho
  obtain ⟨hline, hplaced⟩ := selected_given hgiven hm
  have htarget : (r.sourceEntry f bp).target = .line f bp.line :=
    congrArg (Target.line f) hline
  exact ⟨hE, (hI.before hl hrun hg).recordable htarget hplaced⟩

/-- The function breakpoints are sent with one more, and answered. -/
theorem sendNames_held {b : BackendId} {bps : List FunctionBp}
    {bp : FunctionBp} {rs : List BreakpointResult}
    (hI : BpHeld w (.readNames b bps))
    (hr : w.run e (.inr (.setFunctionBreakpoints b (bps ++ [bp]))) a
      = some (.ok rs, w'))
    (hcare : Careful e (.function (bps ++ [bp])) w.windbg) :
    BpHeld w' (.addName bp (rs.getLast?.map (·.functionEntry bp))) ∧
      ((∃ r ∈ rs.getLast?, r.rejected = true) → InStep w') := by
  obtain ⟨hI, hl, hbps⟩ := hI
  obtain ⟨d', hrun, rfl⟩ := run_functions hr
  have hsent : (BpCall.function (bps ++ [bp])).sent
      = w.server.session.tracked .functions ++ [.function bp] := by
    rw [hbps]
    exact List.map_append
  have hacked : d'.engine.gone = false →
      OnEngine (edited (.add (.function bp)) w.server.session.tracked)
          w.server.session.inner.bpResponses d' ∧
        ∃ r, rs.getLast? = some r ∧ Given d' (.function bp) r := by
    intro hg
    obtain ⟨hE, results, ho, hgiven⟩ :=
      acked_add (r := .function bp) hI hl rfl hsent hcare hrun hg
    cases ho
    rw [hsent] at hgiven
    exact ⟨hE, forall₂_concat hgiven⟩
  constructor
  · cases hlast : rs.getLast? with
    | none =>
        refine ⟨hl, ?_⟩
        by_contra hg
        obtain ⟨-, r, hr', -⟩ := hacked (Bool.eq_false_of_not_eq_true hg)
        cases hr'.symm.trans hlast
    | some r =>
        refine ⟨hl, fun hg => ?_⟩
        obtain ⟨hE, r', hr', hgiven⟩ := hacked hg
        cases hr'.symm.trans hlast
        exact ⟨hE, (hI.before hl hrun hg).recordable rfl hgiven.placed⟩
  · rintro ⟨r, hlast, hrejected⟩
    apply hI.answered
    intro hg
    obtain ⟨hE, r', hr', hgiven⟩ := hacked hg
    cases hr'.symm.trans hlast
    -- The request that was rejected is for no location.
    have hbare : isBareAddressName bp.name = true :=
      hgiven.own.symm.trans hrejected
    apply hE.forget (hI.before hl hrun hg).counted
    intro r hmem hloc
    by_cases hcol : r.column = .functions
    · rw [edited, hcol] at hmem
      rcases List.mem_append.mp hmem with hmem | hmem
      · exact hcol ▸ hmem
      · rw [List.mem_singleton.mp hmem] at hloc
        simp [Request.target, Target.loc?, hbare] at hloc
    · rwa [edited, editColumn_ne _ hcol] at hmem

/-- A column is sent without the request of an entry, and answered. -/
theorem sendCut_held {id : Int} {info : BreakpointInfo} {c : BpCall}
    {rs : List BreakpointResult} {d' : WinDbg} (hI : InStep w)
    (hl : Live w) (hinfo : w.server.session.breakpointInfo id = some info)
    (hcol : c.column = info.target.column)
    (hsent : c.sent = (Edit.cut info.target).apply
      (w.server.session.tracked info.target.column))
    (hcare : Careful e c w.windbg)
    (hrun : c.run e w.windbg = (.ok rs, d')) :
    BpHeld { w with windbg := d' } (.removing id info) :=
  ⟨hl, hinfo, fun hg =>
    (acked_cut hI hl hinfo hcol hsent hcare hrun hg).1⟩

/-- An acknowledged edit is made, and the entry is still to be
recorded. -/
theorem Adding.added {r : Request} {info : BreakpointInfo}
    {s' : SessionManager} (h : Adding r info w)
    (hcols : ∀ κ, s'.tracked κ
      = editColumn (some (.add r)) κ (w.server.session.tracked κ))
    (hentries : s'.inner.bpResponses
      = w.server.session.inner.bpResponses)
    (hstate : s'.inner.state = w.server.session.inner.state) :
    BpHeld { w with server := { w.server with session := s' } }
      (.added info) := by
  obtain ⟨hl, h⟩ := h
  have hcols : s'.tracked = edited (.add r) w.server.session.tracked :=
    funext hcols
  refine ⟨⟨hl.1, fun hidle => hl.2 (hstate.symm.trans hidle)⟩, ?_⟩
  show _ → OnEngine s'.tracked s'.inner.bpResponses w.windbg ∧
    Recordable s'.tracked s'.inner.bpResponses w.windbg info
  rw [hcols, hentries]
  exact h

/-- A step of a breakpoint handler. -/
theorem bpHeld_step {q q' : BpPhase} (hq : BpNext q op x q')
    (hH : BpHeld w q) (hr : w.run e op a = some (x, w'))
    (hcare : CarefulStep e (.act i op x w w')) : BpHeld w' q' := by
  have hquiet : op.spares = true → op.target ≠ some .idle →
      Untouched w w' := untouched_run hr
  cases hq with
  | guardOk | guardErr | state | pendFile | pendName | peekNone =>
      exact (hquiet rfl nofun).inStep hH
  | current b =>
      obtain ⟨hb, rfl⟩ := run_current hr
      exact ⟨hH, hH.live hb⟩
  | noBackend =>
      obtain ⟨-, rfl⟩ := run_current hr
      exact hH
  | readFile b f bps =>
      cases hr
      exact ⟨hH.1, hH.2, rfl⟩
  | readNames b bps =>
      cases hr
      exact ⟨hH.1, hH.2, rfl⟩
  | sendFile b f bps bp r rs hm =>
      exact sendFile_held hm hH hr (hcare.2 _ rfl)
  | sendFileEmpty b f bps bp =>
      obtain ⟨hI, hl, hbps⟩ := hH
      obtain ⟨d', hrun, rfl⟩ := run_setter hr
      apply hI.answered
      intro hg
      obtain ⟨-, results, ho, hgiven⟩ := acked_add (r := .source f bp) hI
        hl rfl (sent_source hbps bp) (hcare.2 _ rfl) hrun hg
      cases ho
      -- Every request has its result.
      rw [sent_source hbps bp] at hgiven
      obtain ⟨r, hlast, -⟩ := forall₂_concat hgiven
      cases hlast
  | sendFileErr b f bps bp err =>
      obtain ⟨d', hrun, rfl⟩ := run_setter hr
      exact hH.1.failed hH.2.1 (hcare.2 _ rfl) hrun
  | addFile f bp info =>
      rw [(WinStack.run_inl hr).2]
      exact hH.added
        (tracked_addSourceBreakpoint _ f bp.line bp.condition) rfl rfl
  | sendNames b bps bp rs hrej =>
      exact (sendNames_held hH hr (hcare.2 _ rfl)).1
  | sendNamesRejected b bps bp rs hrej =>
      exact (sendNames_held hH hr (hcare.2 _ rfl)).2 hrej
  | sendNamesErr b bps bp err =>
      obtain ⟨d', hrun, rfl⟩ := run_functions hr
      exact hH.1.failed hH.2.1 (hcare.2 _ rfl) hrun
  | addName bp info =>
      rw [(WinStack.run_inl hr).2]
      exact Adding.added hH
        ((SessionOp.addFunctionBreakpoint bp.name bp.condition).run_tracked
          _ rfl) rfl rfl
  | addNameOnly bp =>
      obtain ⟨hl, hgone⟩ := hH
      rw [(WinStack.run_inl hr).2]
      refine Live.inStep ⟨hl.1, hl.2⟩ fun hg => ?_
      cases hgone.symm.trans hg
  | record info =>
      obtain ⟨hl, h⟩ := hH
      rw [(WinStack.run_inl hr).2]
      refine Live.inStep ⟨hl.1, hl.2⟩ fun hg => ?_
      obtain ⟨hE, hrec⟩ := h hg
      have hcols : (w.server.session.addBreakpointResponse info).tracked
          = w.server.session.tracked := by
        funext κ
        cases κ <;> rfl
      show OnEngine
        (w.server.session.addBreakpointResponse info).tracked _ _
      rw [hcols]
      exact hE.record hrec.room hrec.placed
  | peek id info =>
      exact ⟨(hquiet rfl nofun).inStep hH,
        ((hquiet rfl nofun).entry id).trans (WinStack.run_inl hr).1⟩
  | peekedCurrent id info b =>
      obtain ⟨hb, rfl⟩ := run_current hr
      exact ⟨hH.1, hH.1.live hb, hH.2⟩
  | peekedNoBackend id info =>
      obtain ⟨-, rfl⟩ := run_current hr
      exact hH.1
  | cutFile id info b bps hty =>
      obtain ⟨hI, hl, hinfo⟩ := hH
      cases hr
      exact ⟨hI, hl, hinfo, hty, rfl⟩
  | cutNames id info b bps hty =>
      obtain ⟨hI, hl, hinfo⟩ := hH
      cases hr
      exact ⟨hI, hl, hinfo, hty, rfl⟩
  | sendCutFile id info b bps rs =>
      obtain ⟨hI, hl, hinfo, hty, hbps⟩ := hH
      obtain ⟨d', hrun, rfl⟩ := run_setter hr
      have htarget : info.target = .line info.file info.line := by
        rw [BreakpointInfo.target, hty]
      apply sendCut_held hI hl hinfo _ _ (hcare.2 _ rfl) hrun
      · rw [htarget]
        rfl
      · rw [htarget]
        exact (map_eraseLine info.file info.line bps).trans
          (congrArg _ hbps.symm)
  | sendCutFileErr id info b bps err =>
      obtain ⟨d', hrun, rfl⟩ := run_setter hr
      exact hH.1.failed hH.2.1 (hcare.2 _ rfl) hrun
  | sendCutNames id info b bps rs =>
      obtain ⟨hI, hl, hinfo, hty, hbps⟩ := hH
      obtain ⟨d', hrun, rfl⟩ := run_functions hr
      have htarget : info.target = .name info.function := by
        rw [BreakpointInfo.target, hty]
      apply sendCut_held hI hl hinfo _ _ (hcare.2 _ rfl) hrun
      · rw [htarget]
        rfl
      · rw [htarget]
        exact (map_eraseName info.function bps).trans
          (congrArg _ hbps.symm)
  | sendCutNamesErr id info b bps err =>
      obtain ⟨d', hrun, rfl⟩ := run_functions hr
      exact hH.1.failed hH.2.1 (hcare.2 _ rfl) hrun
  | remove id info r =>
      obtain ⟨hl, hinfo, h⟩ := hH
      rw [(WinStack.run_inl hr).2]
      have hstate : (w.server.session.removeBreakpointById id).2.inner.state
          = w.server.session.inner.state := by
        rcases (SessionOp.removeBreakpointById id).run_state
          w.server.session rfl with hs | hs
        · exact hs
        · cases hs
      have hcols : (w.server.session.removeBreakpointById id).2.tracked
          = edited (.cut info.target) w.server.session.tracked := by
        funext κ
        rw [tracked_removeBreakpointById, hinfo]
        rfl
      refine Live.inStep ⟨hl.1, fun hidle => ?_⟩ fun hg => ?_
      · exact hl.2 (hstate.symm.trans hidle)
      · show OnEngine
          (w.server.session.removeBreakpointById id).2.tracked
          (w.server.session.removeBreakpointById id).2.inner.bpResponses _
        rw [hcols, bpResponses_removed hinfo]
        exact h hg

/-- Without a backend, and with nothing tracked, all is in step. -/
theorem NoTables.inStep (hn : NoTables w.server.session)
    (hb : w.server.backend = none) : InStep w where
  idle _ := hb
  empty _ := hn
  engine hne := absurd hb hne

/-- After a reset nothing is tracked. -/
theorem NoTables.reset (s : SessionManager) : NoTables s.resetInner where
  columns κ := by cases κ <;> rfl
  entries := rfl

omit [e.Fresh] [e.SetsWhole] [e.Removes] in
/-- A step of a disconnect. -/
theorem discHeld_step {q q' : DiscPhase} (hq : DiscNext q op x q')
    (hH : DiscHeld w q) (hr : w.run e op a = some (x, w')) :
    DiscHeld w' q' := by
  have hquiet : op.spares = true → op.target ≠ some .idle →
      Untouched w w' := untouched_run hr
  cases hq with
  | guardErr => exact (hquiet rfl nofun).inStep hH
  | guardOk | current | disconnect => trivial
  | take b =>
      cases hr
      rfl
  | name | drop => exact (hquiet rfl nofun).slot.trans hH
  | reset =>
      rw [(WinStack.run_inl hr).2]
      exact ⟨hH, .reset _⟩
  | drain es =>
      have hu := hquiet rfl nofun
      exact (hu.empty hH.2).inStep (hu.slot.trans hH.1)

/-- A resume touches nothing. -/
theorem ResNext.spares {q q' : ResPhase} (hq : ResNext q op x q') :
    op.spares = true := by
  cases hq with
  | cancelled g op h | err g op h | stop g op h | exit g op h
  | terminate g op h => cases h <;> rfl
  | _ => rfl

/-- A step of a call that connects nothing. -/
theorem held_step {q q' : Phase} (hq : ToolNext q op x q')
    (hH : StackHeld w q) (hr : w.run e op a = some (x, w'))
    (hcare : CarefulStep e (.act i op x w w')) : StackHeld w' q' := by
  have hidle : op.target ≠ some .idle :=
    fun htarget => hq.target_ne htarget rfl
  cases hq with
  | conn hq => cases hH
  | disc hq => exact discHeld_step hq hH hr
  | res hq => exact (untouched_run hr hq.spares hidle).inStep hH
  | bp hq => exact bpHeld_step hq hH hr hcare
  | otherGuard | otherCurrent | otherPause | otherDrain | otherList =>
      exact (untouched_run hr rfl hidle).inStep hH

end

end DebugMcp
