/-
The breakpoint table.

`bp_responses` maps the ids the backend assigned to what they were
assigned for; `list_breakpoints` shows it and `remove_breakpoint` looks
ids up in it. It is kept beside the tracked requests, by different code
on each path: an add records the result a line search selects, a removal
drops the first request its entry names, and a launch moves the pending
requests into the tracked lists without recording anything.

# Result

A backend that answers positionally and never gives two requests one id
determines a function `owner` from ids to requests. The ids of the next
backend are its own, so there is one such function for each generation of
the session: a reset takes the backend out and moves on. `listed_removable`:
after every sequential run of calls in which an add's line search
selects the new request's own result, its id has no entry yet, a removal
finds the request its id was assigned to first, and a launch flushes
nothing, the ids in the table are in one-to-one correspondence with the
tracked requests. `launch_unlisted` is a launch that flushes one.
-/
import DebugMcp.Lib.Alone
import DebugMcp.Tools.BreakpointSync

namespace DebugMcp

open Conc

-- ======================================================== all requests

/-- Every tracked request, whatever its column. -/
def SessionManager.requests (s : SessionManager) : List Request :=
  (s.inner.sourceBps.entries.flatMap fun e => e.2.map (.source e.1))
    ++ s.inner.functionBps.map .function

/-- A request in a column's list is of that column. -/
theorem column_of_mem_tracked {s : SessionManager} {κ : Column}
    {r : Request} (hr : r ∈ s.tracked κ) : r.column = κ := by
  cases κ with
  | file f =>
      obtain ⟨bp, -, rfl⟩ := List.mem_map.mp hr
      rfl
  | functions =>
      obtain ⟨bp, -, rfl⟩ := List.mem_map.mp hr
      rfl

/-- How often a source request occurs in a table with unique files: as
often as in its file's list. -/
private theorem count_sources (f : String) (bp : SourceBp)
    (l : List (Sigma fun _ : String => List SourceBp))
    (hn : l.NodupKeys) :
    (l.flatMap fun e => e.2.map (Request.source e.1)).count
        (.source f bp)
      = (((l.dlookup f).getD []).map (Request.source f)).count
        (.source f bp) := by
  induction l with
  | nil => rfl
  | cons e l ih =>
      obtain ⟨f', bps⟩ := e
      rw [List.nodupKeys_cons] at hn
      obtain ⟨hnot, hn⟩ := hn
      rw [List.flatMap_cons, List.count_append, ih hn]
      by_cases hf : f = f'
      · subst hf
        have hnone : l.dlookup f = none := List.dlookup_eq_none.mpr hnot
        rw [List.dlookup_cons_eq, hnone]
        rfl
      · have hzero : (bps.map (Request.source f')).count (.source f bp)
            = 0 := by
          refine List.count_eq_zero.mpr fun hmem => ?_
          obtain ⟨bp', -, heq⟩ := List.mem_map.mp hmem
          cases heq
          exact hf rfl
        rw [hzero, Nat.zero_add, List.dlookup_cons_ne _ _ hf]

/-- A request occurs among all as often as in its column. -/
theorem count_requests (s : SessionManager) (r : Request) :
    s.requests.count r = (s.tracked r.column).count r := by
  rw [SessionManager.requests, List.count_append]
  cases r with
  | source f bp =>
      have hzero : (s.inner.functionBps.map Request.function).count
          (.source f bp) = 0 := by
        refine List.count_eq_zero.mpr fun hmem => ?_
        obtain ⟨_, -, heq⟩ := List.mem_map.mp hmem
        cases heq
      rw [hzero, Nat.add_zero,
        count_sources f bp _ s.inner.sourceBps.nodupKeys]
      rfl
  | function bp =>
      have hzero : (s.inner.sourceBps.entries.flatMap fun e =>
          e.2.map (Request.source e.1)).count (.function bp) = 0 := by
        refine List.count_eq_zero.mpr fun hmem => ?_
        obtain ⟨e, -, hmem⟩ := List.mem_flatMap.mp hmem
        obtain ⟨_, -, heq⟩ := List.mem_map.mp hmem
        cases heq
      rw [hzero, Nat.zero_add]
      rfl

section

variable {s s' : SessionManager}

/-- The same columns hold the same requests. -/
theorem requests_congr (h : ∀ κ, s'.tracked κ = s.tracked κ) :
    s'.requests.Perm s.requests := by
  refine List.perm_iff_count.mpr fun x => ?_
  rw [count_requests, count_requests, h]

/-- An add makes one request more. -/
theorem requests_add {r : Request} (h : ∀ κ, s'.tracked κ
    = editColumn (some (.add r)) κ (s.tracked κ)) :
    s'.requests.Perm (r :: s.requests) := by
  refine List.perm_iff_count.mpr fun x => ?_
  rw [count_requests, h, editColumn, List.count_cons, count_requests]
  by_cases hκ : r.column = x.column
  · rw [if_pos (show (Edit.add r).column = x.column from hκ)]
    rw [Edit.apply, List.count_append, List.count_singleton]
  · rw [if_neg (show ¬(Edit.add r).column = x.column from hκ)]
    have hne : (r == x) = false := by
      refine beq_eq_false_iff_ne.mpr ?_
      rintro rfl
      exact hκ rfl
    rw [hne]
    rfl

/-- Cutting the first match leaves the others. -/
theorem perm_eraseP_of_find {α : Type} {p : α → Bool} {l : List α}
    {x : α} (h : l.find? p = some x) : l.Perm (x :: l.eraseP p) := by
  induction l with
  | nil => cases h
  | cons y l ih =>
      cases hy : p y with
      | true =>
          rw [List.find?_cons_of_pos hy] at h
          cases h
          rw [List.eraseP_cons_of_pos hy]
      | false =>
          rw [List.find?_cons_of_neg (by simp [hy])] at h
          rw [List.eraseP_cons_of_neg (by simp [hy])]
          exact ((ih h).cons y).trans (.swap x y _)

/-- A cut that finds a request makes that request less. -/
theorem requests_cut {t : Target} {r : Request}
    (h : ∀ κ, s'.tracked κ
      = editColumn (some (.cut t)) κ (s.tracked κ))
    (hfind : (s.tracked t.column).find? t.names = some r) :
    s.requests.Perm (r :: s'.requests) := by
  have hcol : r.column = t.column :=
    column_of_mem_tracked (List.mem_of_find?_eq_some hfind)
  refine List.perm_iff_count.mpr fun x => ?_
  rw [count_requests, List.count_cons, count_requests, h, editColumn]
  by_cases hκ : t.column = x.column
  · rw [if_pos (show (Edit.cut t).column = x.column from hκ), Edit.apply,
      ← hκ, (perm_eraseP_of_find hfind).count_eq x, List.count_cons]
  · rw [if_neg (show ¬(Edit.cut t).column = x.column from hκ)]
    have hne : (r == x) = false := by
      refine beq_eq_false_iff_ne.mpr ?_
      rintro rfl
      exact hκ hcol.symm
    rw [hne]
    rfl

end

-- =========================================================== the table

/-- The ids in the table are in one-to-one correspondence with the
tracked requests: as many entries are owned by a request as it is
tracked. -/
def OneToOne (owner : Int → Request) (s : SessionManager) : Prop :=
  (s.inner.bpResponses.keys.map owner).Perm s.requests

instance (owner : Int → Request) (s : SessionManager) :
    Decidable (OneToOne owner s) :=
  inferInstanceAs (Decidable (List.Perm _ _))

/-- A tracked request has an entry of its own, which `remove_breakpoint`
accepts. -/
theorem OneToOne.entry {owner : Int → Request} {s : SessionManager}
    (h : OneToOne owner s) {r : Request} (hr : r ∈ s.requests) :
    ∃ id, owner id = r ∧ (s.breakpointInfo id).isSome = true := by
  obtain ⟨id, hid, hown⟩ := List.mem_map.mp (h.mem_iff.mpr hr)
  exact ⟨id, hown, AList.lookup_isSome.mpr hid⟩

/-- The two sessions hold the same table and the same columns. -/
structure SameTables (s s' : SessionManager) : Prop where
  table : s'.inner.bpResponses = s.inner.bpResponses
  columns : ∀ κ, s'.tracked κ = s.tracked κ

theorem OneToOne.congr {owner : Int → Request} {s s' : SessionManager}
    (h : OneToOne owner s) (hs : SameTables s s') : OneToOne owner s' := by
  rw [OneToOne, hs.table]
  exact h.trans (requests_congr hs.columns).symm

/-- Does the lock section write neither table? -/
def SessionOp.isPlain {β : Type} : SessionOp β → Bool
  | .resetInner | .flushPendingBreakpoints => false
  | .addSourceBreakpoint _ _ _ | .addFunctionBreakpoint _ _ => false
  | .addBreakpointResponse _ | .removeBreakpointById _ => false
  | _ => true

/-- A lock section that writes neither table leaves both. -/
theorem SessionOp.sameTables {β : Type} (op : SessionOp β)
    (s : SessionManager) (h : op.isPlain = true) :
    SameTables s (op.run s).2 := by
  refine ⟨?_, fun κ => ?_⟩
  · cases op with
    | setStateIfGeneration g st =>
        simp only [SessionOp.run, SessionManager.setStateIfGeneration]
        split <;> rfl
    | terminateIfGeneration g code =>
        simp only [SessionOp.run, SessionManager.terminateIfGeneration]
        split <;> rfl
    | resetInner | flushPendingBreakpoints | addSourceBreakpoint
    | addFunctionBreakpoint | addBreakpointResponse
    | removeBreakpointById => cases h
    | _ => rfl
  · have hre : op.reshapes = false := by
      cases op <;> first | rfl | cases h
    rw [op.run_tracked s hre κ]
    cases op <;> first | rfl | cases h

/-- A pump writes neither table. -/
theorem sameTables_env {w w' : ToolServer} {e : EnvMove}
    (he : w.envMove e = some w') : SameTables w.session w'.session := by
  refine ⟨?_, tracked_env he⟩
  cases delivers_env he <;> rfl

/-- A reset empties both tables. -/
theorem OneToOne.reset (owner : Int → Request) (s : SessionManager) :
    OneToOne owner s.resetInner := .refl _

/-- A flush of nothing leaves both tables. -/
theorem sameTables_flush {s : SessionManager}
    (hs : s.inner.pendingSourceBps.entries = [])
    (hf : s.inner.pendingFunctionBps = []) :
    SameTables s s.flushPendingBreakpoints.2 := by
  refine ⟨rfl, fun κ => ?_⟩
  cases κ with
  | file f =>
      simp [SessionManager.tracked, SessionManager.flushPendingBreakpoints,
        SessionManager.sourceBreakpointsForFile, hs,
        SessionManager.extendFiles]
  | functions =>
      simp [SessionManager.tracked, SessionManager.flushPendingBreakpoints,
        hf]

/-- An entry for a fresh id joins the table. -/
theorem keys_addBreakpointResponse {s : SessionManager}
    {info : BreakpointInfo} (h : s.breakpointInfo info.id = none) :
    (s.addBreakpointResponse info).inner.bpResponses.keys
      = info.id :: s.inner.bpResponses.keys := by
  have hnot : info.id ∉ s.inner.bpResponses.keys :=
    AList.lookup_eq_none.mp h
  rw [SessionManager.addBreakpointResponse]
  dsimp only
  rw [AList.keys_insert, List.erase_of_not_mem hnot]

/-- A removal takes the entry out. -/
theorem bpResponses_removed {s : SessionManager} {id : Int}
    {info : BreakpointInfo} (h : s.breakpointInfo id = some info) :
    (s.removeBreakpointById id).2.inner.bpResponses
      = s.inner.bpResponses.erase id := by
  rw [SessionManager.removeBreakpointById,
    show s.inner.bpResponses.lookup id = some info from h]
  dsimp only
  cases info.ty <;> rfl

/-- A removal that finds the request its id was assigned to drops one of
each. -/
theorem OneToOne.remove {owner : Int → Request} {s : SessionManager}
    {id : Int} (h : OneToOne owner s)
    (hfind : ∀ info ∈ s.breakpointInfo id,
      (s.tracked info.target.column).find? info.target.names
        = some (owner id)) :
    OneToOne owner (s.removeBreakpointById id).2 := by
  cases hl : s.breakpointInfo id with
  | none =>
      have hsame : (s.removeBreakpointById id).2 = s := by
        rw [SessionManager.removeBreakpointById,
          show s.inner.bpResponses.lookup id = none from hl]
      rw [hsame]
      exact h
  | some info =>
      have hkeys : (s.removeBreakpointById id).2.inner.bpResponses.keys
          = s.inner.bpResponses.keys.erase id := by
        rw [bpResponses_removed hl]
        exact AList.keys_erase _ _
      have hmem : id ∈ s.inner.bpResponses.keys := by
        refine AList.lookup_isSome.mp ?_
        rw [show s.inner.bpResponses.lookup id = some info from hl]
        rfl
      have htracked : ∀ κ, (s.removeBreakpointById id).2.tracked κ
          = editColumn (some (.cut info.target)) κ (s.tracked κ) := by
        intro κ
        rw [tracked_removeBreakpointById, hl]
        rfl
      have hcut := requests_cut htracked (hfind info hl)
      have hids := (List.perm_cons_erase hmem).map owner
      rw [OneToOne, hkeys]
      exact (hids.symm.trans (h.trans hcut)).cons_inv

-- ============================================================ condition

/-- The result an add records: the one its line search selects, or the
last. -/
def Ack.selected (a : Ack) : Request → Option BreakpointResult
  | .source _ bp => matchedResult a.replies bp.line
  | .function _ => a.replies.getLast?

/-- The backend answers positionally, one result per request, and an id
it does not reject is given to one request only. -/
def Positional (owner : Int → Request) (ev : ToolEvent) : Prop :=
  ∀ a ∈ ackOf ev, a.replies.length = a.requests.length ∧
    ∀ p ∈ a.replies.zip a.requests,
      p.1.rejected = false → owner p.1.id = p.2

instance (owner : Int → Request) (ev : ToolEvent) :
    Decidable (Positional owner ev) :=
  inferInstanceAs (Decidable (∀ a ∈ ackOf ev,
    a.replies.length = a.requests.length ∧
    ∀ p ∈ a.replies.zip a.requests,
      p.1.rejected = false → owner p.1.id = p.2))

/-- The generation of the session that an event finds. -/
def ToolEvent.generation (ev : ToolEvent) : UInt64 :=
  ev.pre.session.inner.generation

/-- Does a launch flush the pending breakpoints in this event? -/
def isFlush : ToolEvent → Bool
  | .act _ (.inl .flushPendingBreakpoints) _ _ _ => true
  | _ => false

/-- An add that goes on to its commit selects the last result, whose id
has no entry yet; a removal's entry names the request of its id first;
a launch flushes nothing. -/
def TablesAgree (owner : Int → Request) (ev : ToolEvent) : Prop :=
  (∀ a ∈ ackOf ev, ∀ r ∈ a.requests.getLast?,
    a.requests.dropLast = ev.pre.session.tracked a.column →
    a.goesOn false = true →
    a.selected r = a.replies.getLast? ∧
    ∀ res ∈ a.replies.getLast?, res.rejected = false ∧
      ev.pre.session.breakpointInfo res.id = none) ∧
  (∀ id ∈ removedId ev, ∀ info ∈ ev.pre.session.breakpointInfo id,
    (ev.pre.session.tracked info.target.column).find? info.target.names
      = some (owner id)) ∧
  (isFlush ev = true →
    ev.pre.session.inner.pendingSourceBps.entries = [] ∧
    ev.pre.session.inner.pendingFunctionBps = [])

instance (owner : Int → Request) (ev : ToolEvent) :
    Decidable (TablesAgree owner ev) :=
  inferInstanceAs (Decidable (
    (∀ a ∈ ackOf ev, ∀ r ∈ a.requests.getLast?,
      a.requests.dropLast = ev.pre.session.tracked a.column →
      a.goesOn false = true →
      a.selected r = a.replies.getLast? ∧
      ∀ res ∈ a.replies.getLast?, res.rejected = false ∧
        ev.pre.session.breakpointInfo res.id = none) ∧
    (∀ id ∈ removedId ev, ∀ info ∈ ev.pre.session.breakpointInfo id,
      (ev.pre.session.tracked info.target.column).find?
        info.target.names = some (owner id)) ∧
    (isFlush ev = true →
      ev.pre.session.inner.pendingSourceBps.entries = [] ∧
      ev.pre.session.inner.pendingFunctionBps = [])))

/-- The last result of a positional reply is the last request's own. -/
theorem own_result {owner : Int → Request} {ev : ToolEvent} {κ : Column}
    {L : List Request} {r : Request} {rs : List BreakpointResult}
    {res : BreakpointResult} (hpos : Positional owner ev)
    (hack : ackOf ev = some ⟨κ, L ++ [r], rs⟩)
    (hlast : rs.getLast? = some res) (hrej : res.rejected = false) :
    owner res.id = r := by
  obtain ⟨hlen, hown⟩ := hpos _ hack
  obtain ⟨rs', rfl⟩ := List.getLast?_eq_some_iff.mp hlast
  have hlen' : rs'.length = L.length := by
    simpa using hlen
  have hmem : (res, r) ∈ (rs' ++ [res]).zip (L ++ [r]) := by
    rw [List.zip_append hlen']
    simp
  exact hown _ hmem hrej

/-- The result of an add that goes on is the new request's own. -/
theorem selected_fresh {owner : Int → Request} {ev : ToolEvent}
    {L : List Request} {r : Request} {rs : List BreakpointResult}
    {res : BreakpointResult} (hpos : Positional owner ev)
    (hagree : TablesAgree owner ev)
    (hack : ackOf ev = some ⟨r.column, L ++ [r], rs⟩)
    (hL : ev.pre.session.tracked r.column = L)
    (hgo : Ack.goesOn ⟨r.column, L ++ [r], rs⟩ false = true)
    (hsel : Ack.selected ⟨r.column, L ++ [r], rs⟩ r = some res) :
    owner res.id = r ∧ ev.pre.session.breakpointInfo res.id = none := by
  have hlast : (L ++ [r]).getLast? = some r := List.getLast?_concat
  obtain ⟨hlastSel, hres⟩ := hagree.1 _ hack r hlast
    (List.dropLast_concat.trans hL.symm) hgo
  have hlastRes : rs.getLast? = some res := hlastSel.symm.trans hsel
  obtain ⟨hrej, hfresh⟩ := hres res hlastRes
  exact ⟨own_result hpos hack hlastRes hrej, hfresh⟩

-- ======================================================= the invariant

/-- The table during a call: in order between calls, one entry short
between an add's two sections. -/
def TableInv (owner : Int → Request) (s : SessionManager) : Phase → Prop
  | .bp (.readFile _ f bps) =>
      OneToOne owner s ∧ s.tracked (.file f) = bps.map (.source f)
  | .bp (.readNames _ bps) =>
      OneToOne owner s ∧ s.tracked .functions = bps.map .function
  | .bp (.addFile f bp info) =>
      OneToOne owner s ∧ owner info.id = .source f bp ∧
        s.breakpointInfo info.id = none
  | .bp (.addName bp info) =>
      OneToOne owner s ∧ ∃ i, info = some i ∧
        owner i.id = .function bp ∧ s.breakpointInfo i.id = none
  | .bp (.added info) =>
      (owner info.id :: s.inner.bpResponses.keys.map owner).Perm
        s.requests ∧ s.breakpointInfo info.id = none
  | _ => OneToOne owner s

/-- The same tables are in the same order. -/
theorem TableInv.congr {owner : Int → Request} {s s' : SessionManager}
    {q : Phase} (hI : TableInv owner s q) (hs : SameTables s s') :
    TableInv owner s' q := by
  have hinfo : ∀ id, s'.breakpointInfo id = s.breakpointInfo id := by
    intro id
    rw [SessionManager.breakpointInfo, hs.table]
    rfl
  have hone : OneToOne owner s → OneToOne owner s' := fun h => h.congr hs
  cases q with
  | bp q =>
      cases q with
      | readFile b f bps => exact ⟨hone hI.1, (hs.columns _).trans hI.2⟩
      | readNames b bps => exact ⟨hone hI.1, (hs.columns _).trans hI.2⟩
      | addFile f bp info =>
          obtain ⟨h, hown, hnone⟩ := hI
          exact ⟨hone h, hown, (hinfo _).trans hnone⟩
      | addName bp info =>
          obtain ⟨h, i, hi, hown, hnone⟩ := hI
          exact ⟨hone h, i, hi, hown, (hinfo _).trans hnone⟩
      | added info =>
          obtain ⟨h, hnone⟩ := hI
          refine ⟨?_, (hinfo _).trans hnone⟩
          rw [hs.table]
          exact h.trans (requests_congr hs.columns).symm
      | _ => exact hone hI
  | _ => exact hone hI

section

variable {owner : Int → Request} {h : History} {i : Nat} {β : Type}
  {op : ToolOp β} {a : Answer} {b : β} {w w' : ToolServer}

/-- A plain operation leaves both tables. -/
private theorem sameTables_run (hr : w.run op a = some (b, w'))
    (hplain : ∀ sop, op = .inl sop → sop.isPlain = true) :
    SameTables w.session w'.session := by
  cases op with
  | inl sop =>
      rw [(ToolServer.run_inl hr).2]
      exact sop.sameTables w.session (hplain sop rfl)
  | inr sop =>
      rw [ToolServer.run_inr hr]
      exact ⟨rfl, fun _ => rfl⟩

/-- A connect handler's step keeps the table in order: its reset empties
both sides, its flush has nothing to flush. -/
private theorem TableInv.conn {q q' : ConnPhase}
    (hI : OneToOne owner w.session) (hq : ConnNext q op b q')
    (hr : w.run op a = some (b, w'))
    (hok : TablesAgree owner (.act i op b w w')) :
    OneToOne owner w'.session := by
  have hquiet : (∀ sop, op = .inl sop → sop.isPlain = true) →
      OneToOne owner w'.session := fun hp => hI.congr (sameTables_run hr hp)
  cases hq with
  | selectFail | failReset | cancelReset =>
      rw [(ToolServer.run_inl hr).2]
      exact .reset owner _
  | flush r =>
      obtain ⟨hs, hf⟩ := hok.2.2 rfl
      rw [(ToolServer.run_inl hr).2]
      exact hI.congr (sameTables_flush hs hf)
  | settle op hs =>
      refine hquiet fun sop hsop => ?_
      cases hs <;> cases hsop <;> rfl
  | _ =>
      refine hquiet fun sop hsop => ?_
      cases hsop <;> rfl

/-- So does a disconnect's. -/
private theorem TableInv.disc {q q' : DiscPhase}
    (hI : OneToOne owner w.session) (hq : DiscNext q op b q')
    (hr : w.run op a = some (b, w')) : OneToOne owner w'.session := by
  have hquiet : (∀ sop, op = .inl sop → sop.isPlain = true) →
      OneToOne owner w'.session := fun hp => hI.congr (sameTables_run hr hp)
  cases hq with
  | reset =>
      rw [(ToolServer.run_inl hr).2]
      exact .reset owner _
  | _ =>
      refine hquiet fun sop hsop => ?_
      cases hsop <;> rfl

/-- A breakpoint handler's step keeps the table in order. -/
private theorem TableInv.bpStep {q q' : BpPhase}
    (hI : TableInv owner w.session (.bp q)) (hq : BpNext q op b q')
    (hr : w.run op a = some (b, w'))
    (hpos : Positional owner (.act i op b w w'))
    (hok : TablesAgree owner (.act i op b w w')) :
    TableInv owner w'.session (.bp q') := by
  have hquiet : (∀ sop, op = .inl sop → sop.isPlain = true) →
      OneToOne owner w.session → OneToOne owner w'.session :=
    fun hp hO => hO.congr (sameTables_run hr hp)
  cases hq with
  | readFile b f bps =>
      cases hr
      exact ⟨hI, rfl⟩
  | readNames b bps =>
      cases hr
      exact ⟨hI, rfl⟩
  | sendFile b f bps bp r rs hm =>
      obtain ⟨hO, hbps⟩ := hI
      have hack : ackOf (.act i
          (.inr (.setSourceBreakpoints b f (bps ++ [bp]))) (.ok rs) w w')
          = some ⟨(Request.source f bp).column,
            bps.map (.source f) ++ [.source f bp], rs⟩ := by
        rw [ackOf, List.map_append]
        rfl
      have hgo : Ack.goesOn ⟨(Request.source f bp).column,
          bps.map (.source f) ++ [.source f bp], rs⟩ false = true := by
        cases rs with
        | nil => cases hm
        | cons r rs => rfl
      obtain ⟨hown, hfresh⟩ := selected_fresh hpos hok hack hbps hgo hm
      have hs := ToolServer.run_inr hr
      rw [hs]
      exact ⟨hO, hown, hfresh⟩
  | sendNames b bps bp rs hrej =>
      obtain ⟨hO, hbps⟩ := hI
      have hs := ToolServer.run_inr hr
      rw [hs]
      refine ⟨hO, ?_⟩
      have hack : ackOf (.act i
          (.inr (.setFunctionBreakpoints b (bps ++ [bp]))) (.ok rs) w w')
          = some ⟨(Request.function bp).column,
            bps.map .function ++ [.function bp], rs⟩ := by
        rw [ackOf, List.map_append]
        rfl
      cases hl : rs.getLast? with
      | none =>
          -- One result per request leaves no empty reply.
          obtain ⟨hlen, -⟩ := hpos _ hack
          rw [List.getLast?_eq_none_iff] at hl
          subst hl
          simp at hlen
      | some r =>
          have hgo : Ack.goesOn ⟨(Request.function bp).column,
              bps.map .function ++ [.function bp], rs⟩ false = true := by
            have hr' := hrej r hl
            simp [Ack.goesOn, Request.column, hl, hr']
          obtain ⟨hown, hfresh⟩ :=
            selected_fresh hpos hok hack hbps hgo hl
          exact ⟨_, rfl, hown, hfresh⟩
  | addFile f bp info =>
      obtain ⟨hO, hown, hnone⟩ := hI
      rw [(ToolServer.run_inl hr).2]
      refine ⟨?_, hnone⟩
      have hadd := requests_add (s := w.session)
        (tracked_addSourceBreakpoint w.session f bp.line bp.condition)
      exact ((hO.cons (owner info.id)).trans (by rw [hown])).trans
        hadd.symm
  | addName bp info =>
      obtain ⟨hO, i', hi', hown, hnone⟩ := hI
      cases hi'
      rw [(ToolServer.run_inl hr).2]
      refine ⟨?_, hnone⟩
      have hadd := requests_add (s := w.session) (r := .function bp)
        ((SessionOp.addFunctionBreakpoint bp.name bp.condition).run_tracked
          w.session rfl)
      exact ((hO.cons (owner info.id)).trans (by rw [hown])).trans
        hadd.symm
  | addNameOnly bp =>
      obtain ⟨-, i', hi', -⟩ := hI
      cases hi'
  | record info =>
      obtain ⟨hP, hnone⟩ := hI
      rw [(ToolServer.run_inl hr).2]
      have hsame : (w.session.addBreakpointResponse info).requests.Perm
          w.session.requests := requests_congr fun κ => by
        cases κ <;> rfl
      show OneToOne owner (w.session.addBreakpointResponse info)
      rw [OneToOne, keys_addBreakpointResponse hnone]
      exact hP.trans hsame.symm
  | remove id info r =>
      rw [(ToolServer.run_inl hr).2]
      exact hI.remove (hok.2.1 id rfl)
  | sendFileEmpty | sendFileErr | sendNamesRejected | sendNamesErr =>
      refine hquiet (fun sop hsop => ?_) hI.1
      cases hsop
  | _ =>
      refine hquiet (fun sop hsop => ?_) hI
      cases hsop <;> rfl

/-- A call's step keeps the table in order. -/
theorem TableInv.step {q q' : Phase} (hI : TableInv owner w.session q)
    (hq : ToolNext q op b q') (hr : w.run op a = some (b, w'))
    (hpos : Positional owner (.act i op b w w'))
    (hok : TablesAgree owner (.act i op b w w')) :
    TableInv owner w'.session q' := by
  cases hq with
  | conn hq => exact TableInv.conn hI hq hr hok
  | disc hq => exact TableInv.disc hI hq hr
  | res hq =>
      refine OneToOne.congr hI (sameTables_run hr fun sop hsop => ?_)
      cases hq <;> cases hsop <;> rfl
  | bp hq => exact hI.bpStep hq hr hpos hok
  | otherGuard | otherCurrent | otherPause | otherDrain | otherList =>
      refine OneToOne.congr hI (sameTables_run hr fun sop hsop => ?_)
      cases hsop <;> rfl

/-- A step that is no reset stays in its generation. -/
theorem generation_unreset (hr : w.run op a = some (b, w'))
    (hreset : isReset (.act i op b w w') = false) :
    w'.session.inner.generation = w.session.inner.generation := by
  cases op with
  | inl sop =>
      have hsop : sop.isReset = false := hreset
      rw [(ToolServer.run_inl hr).2, sop.run_generation, hsop]
      rfl
  | inr sop => rw [ToolServer.run_inr hr]

/-- A reset is a connect's or a disconnect's, and empties the table. -/
theorem TableInv.ofReset {q q' : Phase} (hq : ToolNext q op b q')
    (hr : w.run op a = some (b, w'))
    (hreset : isReset (.act i op b w w') = true) :
    TableInv owner w'.session q' := by
  have hempty : OneToOne owner w'.session := by
    cases op with
    | inl sop =>
        rw [(ToolServer.run_inl hr).2]
        cases sop with
        | resetInner => exact .reset owner _
        | _ => cases hreset
    | inr sop => cases hreset
  cases hq with
  | conn | disc => exact hempty
  | res hq => cases hq <;> cases hreset
  | bp hq => cases hq <;> cases hreset
  | otherGuard | otherCurrent | otherPause | otherDrain | otherList =>
      cases hreset

end

-- =========================================================== the results

/-- The backend answers positionally, and the tables agree, with the owner
of the ids that the session's generation has. -/
def KeepsTable (owners : UInt64 → Int → Request) (ev : ToolEvent) : Prop :=
  Positional (owners ev.generation) ev ∧
    TablesAgree (owners ev.generation) ev

instance (owners : UInt64 → Int → Request) (ev : ToolEvent) :
    Decidable (KeepsTable owners ev) :=
  inferInstanceAs (Decidable (_ ∧ _))

/-- One call leaves the table as it found it: in order. -/
theorem oneToOne_call {host : Host} {owners : UInt64 → Int → Request}
    {c : Call} {w : ToolServer} {h : History}
    {s : Pool ToolOp ToolOutcome ToolServer} {o : ToolOutcome}
    (hw : OneToOne (owners w.session.inner.generation) w.session)
    (hr : RunIf toolMachine (fun _ ev => KeepsTable owners ev)
      (solo (c.prog host) w) h s)
    (ho : s.returned 0 = some o) :
    OneToOne (owners s.world.session.inner.generation)
      s.world.session := by
  have henv : ∀ {q : Phase} {w w' : ToolServer} {e : EnvMove},
      TableInv (owners w.session.inner.generation) w.session q →
      w.envMove e = some w' →
      TableInv (owners w'.session.inner.generation) w'.session q := by
    intro q w w' e hI he
    rw [generation_of_env he]
    exact hI.congr (sameTables_env he)
  have hstep : ∀ {q q' : Phase} {i : Nat} {β : Type} {op : ToolOp β}
      {a : Answer} {b : β} {w w' : ToolServer},
      TableInv (owners w.session.inner.generation) w.session q →
      ToolNext q op b q' → w.run op a = some (b, w') →
      KeepsTable owners (.act i op b w w') →
      TableInv (owners w'.session.inner.generation) w'.session q' := by
    intro q q' i β op a b w w' hI hq hr hok
    cases hreset : isReset (.act i op b w w') with
    | true => exact .ofReset hq hr hreset
    | false =>
        rw [generation_unreset hr hreset]
        exact hI.step hq hr hok.1 hok.2
  have hends : Ensures toolMachine (fun _ ev => KeepsTable owners ev)
      (fun o w _ => ∃ q, Returned q o ∧
        TableInv (owners w.session.inner.generation) w.session q)
      (c.prog host) (fun w _ =>
        TableInv (owners w.session.inner.generation) w.session c.phase₀) :=
    .ofObeys (J := fun q (w : ToolServer) (_ : History) =>
        TableInv (owners w.session.inner.generation) w.session q)
      (fun q _ _ _ _ hI he _ => henv hI he)
      (fun hq _ _ _ _ hI hr hok => hstep hI hq hr hok)
      (c.obeys host)
  have hinit : TableInv (owners w.session.inner.generation) w.session
      c.phase₀ := by
    cases c <;> exact hw
  obtain ⟨q, hret, hI⟩ := hends.sound
    (fun _ _ _ _ hI he _ => henv hI he) hinit hr ho
  cases q with
  | bp q =>
      have hcommitting : q.committing = false := hret
      cases q with
      | addFile | addName | added | removing => cases hcommitting
      | readFile | readNames => exact hI.1
      | _ => exact hI
  | _ => exact hI

/-- After every sequential run of calls from a fresh server whose every
step meets the condition, the table and the tracked requests are in
one-to-one correspondence. -/
theorem listed_removable (host : Host)
    (owners : UInt64 → Int → Request) {cs : List Call} {w : ToolServer}
    (hr : SeqRun toolMachine (fun _ ev => KeepsTable owners ev)
      (Call.prog host) .new cs w) :
    OneToOne (owners w.session.inner.generation) w.session := by
  have hnew : OneToOne (owners ToolServer.new.session.inner.generation)
      ToolServer.new.session := .refl _
  exact SeqRun.invariant
    (J := fun w => OneToOne (owners w.session.inner.generation) w.session)
    (fun hw hr ho => oneToOne_call hw hr ho) hnew hr

-- =========================================================== two runs

/-- The request on a line of the scripts' file. -/
def requestAt (line : Int) : Request := .source "a.c" ⟨line, ""⟩

/-- Ids are lines. -/
def ownerAt (id : Int) : Request := requestAt id

/-- So they are for the first backend; the next one counts from one again,
for the lines from the second on. -/
def ownersAt (generation : UInt64) (id : Int) : Request :=
  ownerAt (id + generation.toNat)

/-- A launch that stops on entry. -/
def launchScript : Call × List (Action Answer EnvMove) :=
  (.launch ⟨[("program", .str "a")]⟩,
    launchSteps 0
      ++ [.step 0 (.launch (some (.ok (.stopped entryStop)))),
        .step 0 .sync, .step 0 (.pid none)] ++ sync 0 3)

/-- A launch, two breakpoints, and the first removed; then another
session, in which id 1 is the second line's: that is tracked and
listed. -/
theorem removed_one_to_one :
    ∃ cs w, SeqRun toolMachine (fun _ ev => KeepsTable ownersAt ev)
        (Call.prog lldbHost) .new cs w ∧
      w.session.requests = [requestAt 2] ∧
      w.session.inner.bpResponses.keys = [1] ∧
      OneToOne (ownersAt w.session.inner.generation) w.session := by
  obtain ⟨cs, w, hr, hreq, hkeys⟩ := seq_witness toolMachine
    (fun _ ev => KeepsTable ownersAt ev) (Call.prog lldbHost) .new
    [launchScript,
      (setBreakpointAt "a.c" 1, sync 0 4 ++ ackSteps 0 [resultAt 1 1]),
      (setBreakpointAt "a.c" 2,
        sync 0 4 ++ ackSteps 0 [resultAt 1 1, resultAt 2 2]),
      (.removeBreakpoint ⟨[("breakpoint_id", .num 1)]⟩,
        sync 0 4 ++ [.step 0 (.results (.ok [resultAt 2 2])),
          .step 0 .sync]),
      (.disconnect ⟨[]⟩, sync 0 8),
      launchScript,
      (setBreakpointAt "a.c" 2, sync 0 4 ++ ackSteps 0 [resultAt 1 2])]
    (fun w => w.session.requests = [requestAt 2] ∧
      w.session.inner.bpResponses.keys = [1]) (by decide +kernel)
  exact ⟨cs, w, hr, hreq, hkeys, listed_removable _ _ hr⟩

/-- A breakpoint set before the launch is flushed into the tracked list
and gets no entry. -/
theorem launch_unlisted :
    ∃ cs w, SeqRun toolMachine (fun _ ev => Positional ownerAt ev)
        (Call.prog lldbHost) .new cs w ∧
      w.session.inner.state = .stopped ∧
      w.session.requests = [requestAt 1] ∧
      w.session.listBreakpoints = [] ∧ ¬ OneToOne ownerAt w.session :=
  seq_witness toolMachine (fun _ ev => Positional ownerAt ev)
    (Call.prog lldbHost) .new
    [(setBreakpointAt "a.c" 1, sync 0 3), launchScript]
    (fun w => w.session.inner.state = .stopped ∧
      w.session.requests = [requestAt 1] ∧
      w.session.listBreakpoints = [] ∧ ¬ OneToOne ownerAt w.session)
    (by decide +kernel)

end DebugMcp
