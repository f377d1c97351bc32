/-
What `remove_breakpoint` removes.

An id is linked to its request only through what the debugger reported
for it: the entry keeps the *reported* line, or the name, and a removal
drops the first tracked request on that line or with that name, once in
the list it sends and once in the list it keeps. The two searches are
the same, so the two lists always agree; but the request they drop need
not be the one whose set call returned the id.

# Result

`removal_exact`: a successful removal drops exactly the request its id
was returned for, in both lists and nothing else, if and only if that is
the first request its entry names; and it is, for every removal of a run
in which each new breakpoint is reported on the line it was asked for,
by its own result first, and no line or name is set twice.
`removal_takes_another` is a run in which the debugger moves a line.
-/
import DebugMcp.Tools.Transaction

namespace DebugMcp

open Conc

-- ==================================================== calls of a run

/-- A call of a sequential run. -/
abbrev ToolCall := Conc.Finished ToolOp EnvMove ToolServer ToolOutcome Call

/-- The request a call set, when it returned `id`. -/
def setAs (id : Int) (aim : Option Aim) (o : ToolOutcome) :
    Option Request :=
  match aim with
  | some (.set r) => if o.breakpointId = some id then some r else none
  | _ => none

/-- The request whose set call returned `id`, the newest one if there
are several. -/
def created (id : Int) (fs : List ToolCall) : Option Request :=
  fs.findSome? fun f => setAs id f.call.aim f.result

/-- The call took `r` out of the tracked lists, changed nothing else,
and sent what was left. -/
def Removes (f : ToolCall) (r : Request) : Prop :=
  ∃ before after,
    f.pre.session.tracked r.column = before ++ r :: after ∧
    f.post.session.tracked r.column = before ++ after ∧
    (∀ κ, κ ≠ r.column →
      f.post.session.tracked κ = f.pre.session.tracked κ) ∧
    sent f.hist = [(r.column, before ++ after)]

/-- The call removed the request its id was returned for. -/
def RemovesCreated (id : Int) (f : ToolCall) (fs : List ToolCall) :
    Prop :=
  ∃ r, created id fs = some r ∧ Removes f r

/-- The first tracked request the entry of `id` names is the one whose
set call returned `id`. -/
def FindsCreated (id : Int) (s : SessionManager) (fs : List ToolCall) :
    Prop :=
  ∃ info r, s.breakpointInfo id = some info ∧ created id fs = some r ∧
    (s.tracked info.target.column).find? info.target.names = some r

-- ============================================================ one removal

/-- A list with its first match cut out is the list without `x` exactly
when `x` is the first match. -/
theorem find?_eq_some_iff_without {α : Type} {p : α → Bool} {l : List α} {x : α} :
    l.find? p = some x ↔
      ∃ l₁ l₂, l = l₁ ++ x :: l₂ ∧ l.eraseP p = l₁ ++ l₂ := by
  constructor
  · intro h
    obtain ⟨hx, l₁, l₂, rfl, hl₁⟩ := List.find?_eq_some_iff_append.mp h
    refine ⟨l₁, l₂, rfl, ?_⟩
    have hnone : ∀ a ∈ l₁, ¬ p a = true := by
      intro a ha
      simpa using hl₁ a ha
    rw [List.eraseP_append_right _ (by simpa using hnone),
      List.eraseP_cons_of_pos hx]
  · rintro ⟨l₁, l₂, hl, her⟩
    cases hf : l.find? p with
    | none =>
        -- Nothing was cut out, so nothing is missing.
        have hsame : l.eraseP p = l := by
          refine List.eraseP_of_forall_not fun a ha => ?_
          exact List.find?_eq_none.mp hf a ha
        have hlen := congrArg List.length (her.symm.trans hsame)
        rw [hl] at hlen
        simp at hlen
    | some y =>
        have hy := perm_eraseP_of_find hf
        have hx : l.Perm (x :: l.eraseP p) := by
          rw [her, hl]
          exact List.perm_middle
        have hxy : [y].Perm [x] := by
          refine (List.perm_append_right_iff (l.eraseP p)).mp ?_
          exact hy.symm.trans hx
        cases List.singleton_perm_singleton.mp hxy
        rfl

/-- What a successful removal does. -/
theorem removal_cuts {ok : ToolEvent → Prop} {id : Int} {f : ToolCall}
    (hend : BpEnd ok f.pre.session (some (.remove id)) f.result
      f.post.session.tables (sent f.hist))
    (hok : f.result.isError = false) :
    ∃ info, f.pre.session.breakpointInfo id = some info ∧
      f.post.session.tables
        = (f.pre.session.removeBreakpointById id).2.tables ∧
      sent f.hist = [(info.target.column,
        (Edit.cut info.target).apply
          (f.pre.session.tracked info.target.column))] := by
  generalize f.post.session.tables = T at hend ⊢
  generalize sent f.hist = L at hend ⊢
  generalize f.result = o at hend hok
  cases hend with
  | failed => cases hok
  | removed id info v hinfo => exact ⟨info, hinfo, rfl, rfl⟩

/-- What a removal leaves in a column. -/
theorem tracked_removed {s s' : SessionManager} {id : Int}
    {info : BreakpointInfo} (hinfo : s.breakpointInfo id = some info)
    (hT : s'.tables = (s.removeBreakpointById id).2.tables) (κ : Column) :
    s'.tracked κ = editColumn (some (.cut info.target)) κ
      (s.tracked κ) := by
  rw [tracked_of_tables hT, tracked_removeBreakpointById, hinfo]
  rfl

/-- A successful removal is right exactly when its entry finds the
request its id was returned for. -/
theorem removes_iff_finds {ok : ToolEvent → Prop} {id : Int}
    {f : ToolCall} {fs : List ToolCall}
    (hend : BpEnd ok f.pre.session (some (.remove id)) f.result
      f.post.session.tables (sent f.hist))
    (hok : f.result.isError = false) :
    RemovesCreated id f fs ↔ FindsCreated id f.pre.session fs := by
  obtain ⟨info, hinfo, hT, hsent⟩ := removal_cuts hend hok
  have hpost := tracked_removed hinfo hT
  have hcol : f.post.session.tracked info.target.column
      = (f.pre.session.tracked info.target.column).eraseP
        info.target.names :=
    (hpost _).trans (editColumn_self (.cut info.target) _)
  have hothers : ∀ κ, κ ≠ info.target.column →
      f.post.session.tracked κ = f.pre.session.tracked κ :=
    fun κ hκ => (hpost κ).trans (editColumn_ne _ hκ)
  constructor
  · rintro ⟨r, hr, before, after, hpre, hpost', -, -⟩
    -- Only the entry's column can have got shorter.
    have hκ : r.column = info.target.column := by
      by_contra hne
      have hlen := congrArg List.length
        ((hothers r.column hne).symm.trans hpost')
      rw [hpre] at hlen
      simp at hlen
    rw [hκ] at hpre hpost'
    exact ⟨info, r, hinfo, hr, find?_eq_some_iff_without.mpr
      ⟨before, after, hpre, hcol.symm.trans hpost'⟩⟩
  · rintro ⟨info', r, hinfo', hr, hfind⟩
    cases hinfo.symm.trans hinfo'
    have hκ : r.column = info.target.column :=
      column_of_mem_tracked (List.mem_of_find?_eq_some hfind)
    obtain ⟨before, after, hpre, hcut⟩ :=
      find?_eq_some_iff_without.mp hfind
    refine ⟨r, hr, before, after, ?_, ?_, ?_, ?_⟩
    · rw [hκ]
      exact hpre
    · rw [hκ, hcol]
      exact hcut
    · rw [hκ]
      exact hothers
    · rw [hκ, hsent]
      exact congrArg (fun l => [(info.target.column, l)]) hcut

-- ========================================================== the condition

/-- The line a request is for. -/
def Request.line? : Request → Option Int
  | .source _ bp => some bp.line
  | .function _ => none

/-- What a removal of the request would look for. -/
def Request.target : Request → Target
  | .source f bp => .line f bp.line
  | .function bp => .name bp.name

/-- A new breakpoint is told apart from the others: an acknowledged add
that goes on names no request tracked in its column, and its own result
is the only one on its line, and is not a rejection. -/
def SetApart (ev : ToolEvent) : Prop :=
  ∀ a ∈ ackOf ev, ∀ r ∈ a.requests.getLast?,
    a.requests.dropLast = ev.pre.session.tracked a.column →
    a.goesOn false = true →
    (∀ r' ∈ a.requests.dropLast, r.target.names r' = false) ∧
    (∀ res ∈ a.replies.getLast?, res.rejected = false ∧
      ∀ l ∈ r.line?, res.line = l) ∧
    ∀ l ∈ r.line?, ∀ res ∈ a.replies.dropLast, res.line ≠ l

instance (ev : ToolEvent) : Decidable (SetApart ev) :=
  inferInstanceAs (Decidable (∀ a ∈ ackOf ev,
    ∀ r ∈ a.requests.getLast?,
    a.requests.dropLast = ev.pre.session.tracked a.column →
    a.goesOn false = true →
    (∀ r' ∈ a.requests.dropLast, r.target.names r' = false) ∧
    (∀ res ∈ a.replies.getLast?, res.rejected = false ∧
      ∀ l ∈ r.line?, res.line = l) ∧
    ∀ l ∈ r.line?, ∀ res ∈ a.replies.dropLast, res.line ≠ l))

/-- A target names exactly the requests of its column whose removal
would look for the same. -/
theorem Target.names_iff {t : Target} {r : Request}
    (h : r.column = t.column) : t.names r = true ↔ r.target = t := by
  cases t with
  | line f l =>
      cases r with
      | source f' bp =>
          cases h
          simp [Target.names, Request.target]
      | function bp => cases h
  | name n =>
      cases r with
      | source f' bp => cases h
      | function bp => simp [Target.names, Request.target]

@[simp] theorem Request.target_column (r : Request) :
    r.target.column = r.column := by
  cases r <;> rfl

/-- Under the condition a search by line finds the last result. -/
theorem matchedResult_last {rs : List BreakpointResult} {line : Int}
    {res : BreakpointResult} (hm : matchedResult rs line = some res)
    (hlast : ∀ r ∈ rs.getLast?, r.line = line)
    (hothers : ∀ r ∈ rs.dropLast, r.line ≠ line) :
    rs.getLast? = some res ∧ res.line = line := by
  cases hl : rs.getLast? with
  | none =>
      rw [List.getLast?_eq_none_iff] at hl
      subst hl
      cases hm
  | some r =>
      obtain ⟨rs', rfl⟩ := List.getLast?_eq_some_iff.mp hl
      have hr : r.line = line := hlast r hl
      rw [List.dropLast_concat] at hothers
      have hnone : rs'.find? (fun bp => bp.line == line) = none := by
        refine List.find?_eq_none.mpr fun x hx => ?_
        simpa using hothers x hx
      have hfind : (rs' ++ [r]).find? (fun bp => bp.line == line)
          = some r := by
        rw [List.find?_append, hnone]
        simp [hr]
      rw [matchedResult, hfind] at hm
      cases hm
      exact ⟨rfl, hr⟩

-- ======================================================= the invariant

/-- Every entry stands for the request its id was returned for: that
request is tracked, it is the only one a removal would look for under
its target, and no other entry stands for it. -/
structure Apart (owner : Int → Request) (made : Int → Option Request)
    (s : SessionManager) : Prop where
  entry : ∀ {id : Int} {info : BreakpointInfo},
    s.breakpointInfo id = some info →
    made id = some (owner id) ∧ info.target = (owner id).target
  tracked : ∀ {id : Int}, (s.breakpointInfo id).isSome = true →
    owner id ∈ s.tracked (owner id).column ∧
    ∀ r ∈ s.tracked (owner id).column,
      r.target = (owner id).target → r = owner id
  distinct : ∀ {id id' : Int}, (s.breakpointInfo id).isSome = true →
    (s.breakpointInfo id').isSome = true → owner id = owner id' →
    id = id'

section

variable {owner : Int → Request} {made made' : Int → Option Request}
  {s s' : SessionManager}

/-- The entries and the columns are all the invariant looks at. -/
theorem Apart.same (hI : Apart owner made s)
    (hm : ∀ id, made' id = made id)
    (hinfo : ∀ id, s'.breakpointInfo id = s.breakpointInfo id)
    (htr : ∀ κ, s'.tracked κ = s.tracked κ) : Apart owner made' s' where
  entry h := by
    rw [hm]
    exact hI.entry ((hinfo _).symm.trans h)
  tracked h := by
    rw [htr]
    exact hI.tracked (hinfo _ ▸ h)
  distinct h h' := hI.distinct (hinfo _ ▸ h) (hinfo _ ▸ h')

/-- A new request under a target of its own. -/
theorem Apart.set {r : Request} {id : Int} {info : BreakpointInfo}
    (hI : Apart owner made s) (howner : owner id = r)
    (htarget : info.target = r.target)
    (hnew : ∀ r' ∈ s.tracked r.column, r'.target ≠ r.target)
    (hmade : made' id = some r)
    (hothers : ∀ id', id' ≠ id → made' id' = made id')
    (hinfo : ∀ id', s'.breakpointInfo id'
      = if id' = id then some info else s.breakpointInfo id')
    (htr : ∀ κ, s'.tracked κ
      = editColumn (some (.add r)) κ (s.tracked κ)) :
    Apart owner made' s' := by
  have hcol : s'.tracked r.column = s.tracked r.column ++ [r] :=
    (htr _).trans (editColumn_self (.add r) _)
  -- The new request is not one that was tracked, so no entry is its.
  have hne : ∀ {id'}, (s.breakpointInfo id').isSome = true →
      owner id' ≠ r := by
    intro id' h' heq
    have hmem := (hI.tracked h').1
    rw [heq] at hmem
    exact hnew r hmem rfl
  have hold : ∀ {id'}, id' ≠ id →
      (s'.breakpointInfo id').isSome = true →
      (s.breakpointInfo id').isSome = true := by
    intro id' hid h'
    rw [hinfo, if_neg hid] at h'
    exact h'
  refine ⟨fun {id' info'} h' => ?_, fun {id'} h' => ?_,
    fun {id₁ id₂} h₁ h₂ heq => ?_⟩
  · rw [hinfo] at h'
    by_cases hid : id' = id
    · rw [if_pos hid] at h'
      cases h'
      rw [hid, howner]
      exact ⟨hmade, htarget⟩
    · rw [if_neg hid] at h'
      rw [hothers id' hid]
      exact hI.entry h'
  · by_cases hid : id' = id
    · rw [hid, howner, hcol]
      refine ⟨by simp, fun r' hr' ht => ?_⟩
      rcases List.mem_append.mp hr' with hr' | hr'
      · exact (hnew r' hr' ht).elim
      · exact List.mem_singleton.mp hr'
    · obtain ⟨hmem, honly⟩ := hI.tracked (hold hid h')
      by_cases hκ : (owner id').column = r.column
      · rw [hκ, hcol]
        rw [hκ] at hmem honly
        refine ⟨List.mem_append_left _ hmem, fun r' hr' ht => ?_⟩
        rcases List.mem_append.mp hr' with hr' | hr'
        · exact honly r' hr' ht
        · cases List.mem_singleton.mp hr'
          exact (hnew _ hmem ht.symm).elim
      · rw [htr, editColumn_ne (e := .add r) _ hκ]
        exact ⟨hmem, honly⟩
  · by_cases hid₁ : id₁ = id
    · by_cases hid₂ : id₂ = id
      · rw [hid₁, hid₂]
      · rw [hid₁, howner] at heq
        exact (hne (hold hid₂ h₂) heq.symm).elim
    · by_cases hid₂ : id₂ = id
      · rw [hid₂, howner] at heq
        exact (hne (hold hid₁ h₁) heq).elim
      · exact hI.distinct (hold hid₁ h₁) (hold hid₂ h₂) heq

/-- An entry and the request it stands for taken out. -/
theorem Apart.remove {id : Int} {info : BreakpointInfo}
    (hI : Apart owner made s) (hid : s.breakpointInfo id = some info)
    (hm : ∀ id, made' id = made id)
    (hinfo : ∀ id', s'.breakpointInfo id'
      = if id' = id then none else s.breakpointInfo id')
    (htr : ∀ κ, s'.tracked κ
      = editColumn (some (.cut info.target)) κ (s.tracked κ)) :
    Apart owner made' s' := by
  have htarget : info.target = (owner id).target := (hI.entry hid).2
  have hold : ∀ {id'}, (s'.breakpointInfo id').isSome = true →
      id' ≠ id ∧ (s.breakpointInfo id').isSome = true := by
    intro id' h'
    rw [hinfo] at h'
    by_cases hne : id' = id
    · rw [if_pos hne] at h'
      cases h'
    · rw [if_neg hne] at h'
      exact ⟨hne, h'⟩
  have hsub : ∀ {κ r}, r ∈ s'.tracked κ → r ∈ s.tracked κ := by
    intro κ r hr
    rw [htr, editColumn] at hr
    split at hr
    · exact List.mem_of_mem_eraseP hr
    · exact hr
  refine ⟨fun {id' info'} h' => ?_, fun {id'} h' => ?_,
    fun h₁ h₂ => hI.distinct (hold h₁).2 (hold h₂).2⟩
  · have hsome : (s'.breakpointInfo id').isSome = true :=
      Option.isSome_of_eq_some h'
    rw [hinfo, if_neg (hold hsome).1] at h'
    rw [hm]
    exact hI.entry h'
  · obtain ⟨hne, hsome⟩ := hold h'
    obtain ⟨hmem, honly⟩ := hI.tracked hsome
    refine ⟨?_, fun r hr => honly r (hsub hr)⟩
    rw [htr]
    by_cases hκ : (owner id').column = info.target.column
    · -- What is cut out is the entry's own request, not this one.
      have hnot : ¬ info.target.names (owner id') = true := by
        rw [Target.names_iff hκ, htarget]
        intro ht
        have hidSome := Option.isSome_of_eq_some hid
        have hcol : (owner id').column = (owner id).column := by
          rw [hκ, htarget, Request.target_column]
        have heq := (hI.tracked hidSome).2 _ (hcol ▸ hmem) ht
        exact hne (hI.distinct hsome hidSome heq)
      rw [hκ] at hmem ⊢
      have hcut := editColumn_self (.cut info.target)
        (s.tracked info.target.column)
      exact hcut.symm ▸ (List.mem_eraseP_of_neg hnot).mpr hmem
    · rw [editColumn_ne (e := .cut info.target) _ hκ]
      exact hmem

/-- A call that runs alone keeps the entries apart. -/
theorem Apart.step {aim : Option Aim} {o : ToolOutcome}
    {L : List (Column × List Request)} (hI : Apart owner made s)
    (hend : BpEnd (fun ev => Positional owner ev ∧ SetApart ev) s aim o
      s'.tables L) :
    Apart owner (fun id => (setAs id aim o).or (made id)) s' := by
  generalize hT : s'.tables = T at hend
  cases hend with
  | failed aim e L =>
      refine hI.same (fun id => ?_) (breakpointInfo_of_tables hT)
        (tracked_of_tables hT)
      have hnone : setAs id aim (.error e) = none := by
        rcases aim with _ | _ | _ <;> rfl
      rw [hnone, Option.none_or]
  | buffered r v hid =>
      refine hI.same (fun id => ?_) (fun id => ?_) fun κ => ?_
      · simp [setAs, hid]
      · rw [breakpointInfo_of_tables hT]
        cases r <;> rfl
      · rw [tracked_of_tables hT]
        cases r <;> cases κ <;> rfl
  | set r rs res v hack hgo hsel hid =>
      obtain ⟨ev, ⟨hpos, hapart⟩, hev, hpre⟩ := hack
      have hlast : (s.tracked r.column ++ [r]).getLast? = some r :=
        List.getLast?_concat
      have hdrop : (s.tracked r.column ++ [r]).dropLast
          = ev.pre.session.tracked r.column := by
        rw [List.dropLast_concat, tracked_of_tables hpre]
      obtain ⟨hnew, hres, hothers⟩ := hapart _ hev r hlast hdrop hgo
      rw [List.dropLast_concat] at hnew
      obtain ⟨hown, htarget⟩ :
          rs.getLast? = some res ∧ (res.entry r).target = r.target := by
        cases r with
        | source f bp =>
            obtain ⟨hl, hline⟩ := matchedResult_last hsel
              (fun x hx => (hres x hx).2 _ rfl) (hothers _ rfl)
            exact ⟨hl, congrArg (Target.line f) hline⟩
        | function bp => exact ⟨hsel, rfl⟩
      have howner : owner res.id = r :=
        own_result hpos hev hown (hres _ hown).1
      refine hI.set howner htarget (fun r' hr' ht => ?_) ?_
        (fun id' hne => ?_) (fun id' => ?_) fun κ => ?_
      · have hnames := (Target.names_iff (t := r.target)
          ((column_of_mem_tracked hr').trans
            r.target_column.symm)).mpr ht
        rw [hnew r' hr'] at hnames
        cases hnames
      · simp [setAs, hid]
      · simp [setAs, hid, Ne.symm hne]
      · rw [breakpointInfo_of_tables hT]
        have hentry : (res.entry r).id = res.id := by
          cases r <;> rfl
        simp only [SessionManager.breakpointInfo,
          SessionManager.addBreakpointResponse, hentry]
        by_cases hne : id' = res.id
        · rw [if_pos hne, hne, AList.lookup_insert]
        · rw [if_neg hne, AList.lookup_insert_ne hne]
          cases r <;> rfl
      · rw [tracked_of_tables hT]
        have hadd : ((s.add r).addBreakpointResponse
            (res.entry r)).tracked κ = (s.add r).tracked κ := by
          cases κ <;> rfl
        rw [hadd]
        cases r with
        | source f bp => exact tracked_addSourceBreakpoint s f _ _ κ
        | function bp =>
            exact (SessionOp.addFunctionBreakpoint bp.name
              bp.condition).run_tracked s rfl κ
  | setUnlisted bp v hack =>
      -- One result per request leaves no empty reply.
      obtain ⟨ev, ⟨hpos, -⟩, hev, -⟩ := hack
      obtain ⟨hlen, -⟩ := hpos _ hev
      simp at hlen
  | removed id info v hid =>
      refine hI.remove hid (fun _ => rfl) (fun id' => ?_)
        (tracked_removed hid hT)
      rw [breakpointInfo_of_tables hT]
      rw [SessionManager.breakpointInfo, bpResponses_removed hid]
      by_cases hne : id' = id
      · rw [if_pos hne, hne, AList.lookup_erase]
      · rw [if_neg hne, AList.lookup_erase_ne hne]
        rfl

end

-- =========================================================== the results

/-- The sequential runs of the breakpoint tools from `w₀` under a
condition on the events. -/
abbrev BpTrace (host : Host) (w₀ : ToolServer) (ok : ToolEvent → Prop) :
    List ToolCall → ToolServer → Prop :=
  SeqTrace toolMachine (fun _ ev => ok ev) (Call.prog host) w₀

section

variable {host : Host} {w₀ w : ToolServer} {ok : ToolEvent → Prop}
  {f : ToolCall} {fs : List ToolCall}

/-- What the last call of a trace did. -/
theorem bpTrace_last (hr : BpTrace host w₀ ok (f :: fs) w)
    (hf : f.call.editsBreakpoints = true) :
    BpTrace host w₀ ok fs f.pre ∧
      BpEnd ok f.pre.session f.call.aim f.result f.post.session.tables
        (sent f.hist) := by
  cases hr with
  | call hw c hr ha => exact ⟨hw, breakpointCall_ends hf hr ha⟩

/-- In every run under the condition the entries stay apart. -/
theorem bpTrace_apart {owner : Int → Request}
    (hw₀ : w₀.session.inner.bpResponses = ∅)
    (htools : ∀ g ∈ fs, g.call.editsBreakpoints = true)
    (hr : BpTrace host w₀
      (fun ev => Positional owner ev ∧ SetApart ev) fs w) :
    Apart owner (fun id => created id fs) w.session := by
  induction hr with
  | nil =>
      have hnone : ∀ id, w₀.session.breakpointInfo id = none := by
        intro id
        rw [SessionManager.breakpointInfo, hw₀]
        rfl
      refine ⟨fun h => ?_, fun h => ?_, fun h => ?_⟩ <;>
        rw [hnone] at h <;> cases h
  | call hw c hr ha ih =>
      have hI := ih fun g hg => htools g (List.mem_cons_of_mem _ hg)
      have hend := breakpointCall_ends
        (htools _ List.mem_cons_self) hr ha
      refine (hI.step hend).same (fun id => ?_) (fun _ => rfl)
        fun _ => rfl
      rw [created, List.findSome?_cons]
      dsimp only
      cases setAs id c.aim _ <;> rfl

end

/-- In every sequential run of the breakpoint tools on a session with no
tracked ids, whose backend answers full lists positionally with an id
for one request only: a successful removal takes the request its id was
returned for out of the tracked list and out of the list it sends, and
nothing else, if and only if that is the first request its entry names.
In a run in which every new breakpoint is told apart from the others
that is so at every removal. -/
theorem removal_exact (host : Host) (owner : Int → Request)
    (w₀ : ToolServer) (hw₀ : w₀.session.inner.bpResponses = ∅)
    {f : ToolCall} {fs : List ToolCall} {w : ToolServer} {id : Int}
    (htools : ∀ g ∈ f :: fs, g.call.editsBreakpoints = true)
    (haim : f.call.aim = some (.remove id))
    (hok : f.result.isError = false) :
    (BpTrace host w₀ (Positional owner) (f :: fs) w →
      (RemovesCreated id f fs ↔ FindsCreated id f.pre.session fs)) ∧
    (BpTrace host w₀ (fun ev => Positional owner ev ∧ SetApart ev)
        (f :: fs) w →
      RemovesCreated id f fs) := by
  have hf := htools f List.mem_cons_self
  constructor
  · intro hr
    obtain ⟨-, hend⟩ := bpTrace_last hr hf
    rw [haim] at hend
    exact removes_iff_finds hend hok
  · intro hr
    obtain ⟨hpre, hend⟩ := bpTrace_last hr hf
    rw [haim] at hend
    have hI := bpTrace_apart hw₀
      (fun g hg => htools g (List.mem_cons_of_mem _ hg)) hpre
    refine (removes_iff_finds hend hok).mpr ?_
    obtain ⟨info, hinfo, -, -⟩ := removal_cuts hend hok
    obtain ⟨hmade, htarget⟩ := hI.entry hinfo
    obtain ⟨hmem, honly⟩ := hI.tracked (Option.isSome_of_eq_some hinfo)
    refine ⟨info, _, hinfo, hmade, ?_⟩
    have hcol : info.target.column = (owner id).column := by
      rw [htarget, Request.target_column]
    rw [hcol]
    -- Whatever the search finds is the entry's own request.
    cases hfind : (f.pre.session.tracked (owner id).column).find?
        info.target.names with
    | none =>
        have hnot := List.find?_eq_none.mp hfind _ hmem
        rw [Target.names_iff hcol.symm] at hnot
        exact (hnot htarget.symm).elim
    | some r =>
        have hr := List.mem_of_find?_eq_some hfind
        have hnames := List.find?_some hfind
        rw [Target.names_iff
          ((column_of_mem_tracked hr).trans hcol.symm), htarget] at hnames
        rw [honly r hr hnames]

-- =========================================================== two runs

instance (id : Int) (s : SessionManager) (fs : List ToolCall) :
    Decidable (FindsCreated id s fs) :=
  decidable_of_iff (∃ info ∈ s.breakpointInfo id, ∃ r ∈ created id fs,
      (s.tracked info.target.column).find? info.target.names = some r)
    ⟨fun ⟨info, hi, r, hr, hf⟩ => ⟨info, r, hi, hr, hf⟩,
      fun ⟨info, r, hi, hr, hf⟩ => ⟨info, hi, r, hr, hf⟩⟩

/-- A removal of `id` that is acknowledged with `rs`. -/
def removeScript (id : Int) (rs : List BreakpointResult) :
    Call × List (Action Answer EnvMove) :=
  (.removeBreakpoint ⟨[("breakpoint_id", .num id)]⟩,
    sync 0 4 ++ [.step 0 (.results (.ok rs)), .step 0 .sync])

/-- Two breakpoints, each reported where it was asked for, and the first
removed. -/
theorem removal_exact_witness :
    ∃ f fs w, BpTrace lldbHost stoppedServer
        (fun ev => Positional ownerAt ev ∧ SetApart ev) (f :: fs) w ∧
      f.call.aim = some (.remove 3) ∧ f.result.isError = false ∧
      f.pre.session.tracked (.file "a.c") = [requestAt 3, requestAt 5] ∧
      RemovesCreated 3 f fs := by
  obtain ⟨f, fs, w, hr, htools, haim, hok, hpre⟩ :=
    trace_witness toolMachine
      (fun _ ev => Positional ownerAt ev ∧ SetApart ev)
      (Call.prog lldbHost) stoppedServer
      [(setBreakpointAt "a.c" 3, sync 0 4 ++ ackSteps 0 [resultAt 3 3]),
        (setBreakpointAt "a.c" 5,
          sync 0 4 ++ ackSteps 0 [resultAt 3 3, resultAt 5 5]),
        removeScript 3 [resultAt 5 5]]
      (fun f fs =>
        (∀ g ∈ f :: fs, g.call.editsBreakpoints = true) ∧
        f.call.aim = some (.remove 3) ∧ f.result.isError = false ∧
        f.pre.session.tracked (.file "a.c")
          = [requestAt 3, requestAt 5])
      (by decide +kernel)
  exact ⟨f, fs, w, hr, haim, hok, hpre,
    (removal_exact lldbHost ownerAt stoppedServer rfl htools haim hok).2
      hr⟩

/-- The debugger puts a breakpoint asked for on line 3 on line 5, where
there is one already; removing it removes the other one. -/
theorem removal_takes_another :
    ∃ f fs w, BpTrace lldbHost stoppedServer (Positional ownerAt)
        (f :: fs) w ∧
      stoppedServer.session.inner.state = .stopped ∧
      stoppedServer.backend = some 0 ∧
      stoppedServer.session.inner.bpResponses = ∅ ∧
      (∀ g ∈ f :: fs, g.call.editsBreakpoints = true) ∧
      f.call.aim = some (.remove 3) ∧ f.result.isError = false ∧
      created 3 fs = some (requestAt 3) ∧
      f.pre.session.tracked (.file "a.c") = [requestAt 5, requestAt 3] ∧
      f.post.session.tracked (.file "a.c") = [requestAt 3] ∧
      sent f.hist = [(.file "a.c", [requestAt 3])] ∧
      ¬ RemovesCreated 3 f fs := by
  obtain ⟨f, fs, w, hr, htools, haim, hok, hmade, hpre, hpost, hsent,
      hnot⟩ :=
    trace_witness toolMachine (fun _ ev => Positional ownerAt ev)
      (Call.prog lldbHost) stoppedServer
      [(setBreakpointAt "a.c" 5, sync 0 4 ++ ackSteps 0 [resultAt 5 5]),
        (setBreakpointAt "a.c" 3,
          sync 0 4 ++ ackSteps 0 [resultAt 5 5, resultAt 3 5]),
        removeScript 3 [resultAt 3 5]]
      (fun f fs =>
        (∀ g ∈ f :: fs, g.call.editsBreakpoints = true) ∧
        f.call.aim = some (.remove 3) ∧ f.result.isError = false ∧
        created 3 fs = some (requestAt 3) ∧
        f.pre.session.tracked (.file "a.c")
          = [requestAt 5, requestAt 3] ∧
        f.post.session.tracked (.file "a.c") = [requestAt 3] ∧
        sent f.hist = [(.file "a.c", [requestAt 3])] ∧
        ¬ FindsCreated 3 f.pre.session fs)
      (by decide +kernel)
  refine ⟨f, fs, w, hr, rfl, rfl, rfl, htools, haim, hok, hmade, hpre,
    hpost, hsent, fun hrem => hnot ?_⟩
  obtain ⟨-, hend⟩ := bpTrace_last hr (htools f List.mem_cons_self)
  rw [haim] at hend
  exact (removes_iff_finds hend hok).mp hrem

end DebugMcp
