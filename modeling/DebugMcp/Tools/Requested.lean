/-
What the session tracks, against what DbgEng has.

The tools send the WinDbg backend a column of requests, whole; the
backend makes the engine's breakpoints match it and answers each request.
`OnEngine` is what then holds of the columns, the table of entries and the
engine: the engine has no breakpoint that no request asks for, a verified
entry is a breakpoint of the engine, and there are at most as many
entries for a target as requests of it.

`OnEngine.replace` is one call of a setter: the column is another one, and
the entries may be fewer.
-/
import DebugMcp.Tools.BreakpointTable
import DebugMcp.Tools.Removal
import DebugMcp.WinDbg.ReplaceAll

namespace DebugMcp

-- =========================================================== locations

/-- Where the backend sets a breakpoint for a target: nowhere, for a line
out of range and for an address. -/
def Target.loc? : Target → Option BpLoc
  | line f l => (tryLine l).map (.fileLine f)
  | name n => if isBareAddressName n then none else some (.function n)

/-- A line in range is the line of its location. -/
theorem tryLine_some {l : Int} {u : UInt32} (h : tryLine l = some u) :
    (u.toNat : Int) = l := by
  obtain ⟨⟨hpos, hlt⟩, hu⟩ := Option.ite_none_right_eq_some.mp h
  have hu : UInt32.ofNat l.toNat = u := Option.some.inj hu
  rw [← hu, UInt32.toNat_ofNat_of_lt']
  · omega
  · show l.toNat < 2 ^ 32
    omega

-- =============================================================== calls

namespace BpCall

/-- The column a call replaces. -/
def column : BpCall → Column
  | source f _ => .file f
  | function _ => .functions

/-- The requests a call sends. -/
def sent : BpCall → List Request
  | source f bps => bps.map (.source f)
  | function bps => bps.map .function

theorem column_of_sent {c : BpCall} {r : Request} (h : r ∈ c.sent) :
    r.column = c.column := by
  cases c with
  | source f bps =>
      obtain ⟨bp, -, rfl⟩ := List.mem_map.mp h
      rfl
  | function bps =>
      obtain ⟨bp, -, rfl⟩ := List.mem_map.mp h
      rfl

/-- The locations of a call are those of its requests. -/
theorem locations_requests (c : BpCall) :
    locations c.requests = c.sent.map fun r => r.target.loc? := by
  cases c with
  | source f bps =>
      simp only [locations, requests, sent, List.map_map]
      apply List.map_congr_left
      intro bp _
      show ((sourceWant f bp).request? _).map Prod.fst
        = (tryLine bp.line).map _
      unfold sourceWant
      cases tryLine bp.line with
      | none => rfl
      | some l => rfl
  | function bps =>
      simp only [locations, requests, sent, List.map_map]
      apply List.map_congr_left
      intro bp _
      show ((functionWant bp).request? _).map Prod.fst
        = if isBareAddressName bp.name then none else _
      unfold functionWant
      split
      · rfl
      · rfl

/-- A location is of the call's category if it is wanted for a target of
its column. -/
theorem category_iff (c : BpCall) {t : Target} {loc : BpLoc}
    (h : t.loc? = some loc) : c.category loc ↔ t.column = c.column := by
  cases t with
  | line f l =>
      obtain ⟨u, -, rfl⟩ := Option.map_eq_some_iff.mp h
      cases c with
      | source g bps =>
          constructor
          · intro hc
            obtain ⟨v, he⟩ := hc
            cases he
            rfl
          · intro hc
            cases hc
            exact ⟨u, rfl⟩
      | function bps =>
          constructor
          · intro hc
            obtain ⟨n, he⟩ := hc
            cases he
          · intro hc
            cases hc
  | name n =>
      obtain ⟨-, he⟩ := Option.ite_none_left_eq_some.mp h
      cases he
      cases c with
      | source g bps =>
          constructor
          · intro hc
            obtain ⟨v, he⟩ := hc
            cases he
          · intro hc
            cases hc
      | function bps => exact ⟨fun _ => rfl, fun _ => ⟨n, rfl⟩⟩

end BpCall

-- ============================================================= results

/-- What the table has is as the engine gave it: on the line of its
location, and not rejected. -/
def PlainTable (t : BreakpointTable) : Prop :=
  ∀ loc r, t.entryAt loc = some r →
    r.line = loc.line ∧ r.rejected = false

/-- A result is its request's own: on its line, and rejected exactly if
it is for an address. -/
def Own : Request → BreakpointResult → Prop
  | .source _ bp, r => r.line = bp.line
  | .function bp, r => r.rejected = isBareAddressName bp.name

/-- The answer to a want: its refusal, or one that is not rejected, on
its line or that of its location. -/
def Want.Fits {κ : Type} (locOf : κ → BpLoc) :
    Want κ → BreakpointResult → Prop
  | refuse result, r => r = result
  | place key _ line, r =>
      r.rejected = false ∧ (r.line = line ∨ r.line = (locOf key).line)

section

variable {e : EngineModel} {κ : Type} [DecidableEq κ] {locOf : κ → BpLoc}

/-- What the engine gives for a location. -/
theorem callSetBreakpoint_plain {loc : BpLoc} {condition : String}
    {w w' : DbgEng} {r : BreakpointResult}
    (h : callSetBreakpoint e loc condition w = (.ok r, w')) :
    r.line = loc.line ∧ r.rejected = false := by
  unfold callSetBreakpoint at h
  split at h
  · cases h
  · split at h
    · cases h
      exact ⟨rfl, rfl⟩
    · cases h
    · cases h

/-- The entries of a map are as the engine gave them. -/
def PlainMap (locOf : κ → BpLoc) (m : BpMap κ) : Prop :=
  ∀ key r, m.lookup key = some r →
    r.line = (locOf key).line ∧ r.rejected = false

theorem PlainMap.insert {m : BpMap κ} {key : κ} {r : BreakpointResult}
    (h : PlainMap locOf m)
    (hr : r.line = (locOf key).line ∧ r.rejected = false) :
    PlainMap locOf (m.insert key r) := by
  intro k r' hk
  rcases lookup_insert_some hk with ⟨rfl, rfl⟩ | ⟨-, hk⟩
  · exact hr
  · exact h _ _ hk

/-- The setters' loop answers every want, and its map is plain. -/
theorem placeAll_fits {prior : BpMap κ} (hprior : PlainMap locOf prior)
    (wants : List (Want κ)) :
    ∀ {newMap : BpMap κ} {w w' : DbgEng}
      {results : List BreakpointResult} {newMap' : BpMap κ},
      PlainMap locOf newMap →
      placeAll e locOf prior wants newMap w
        = (.ok (results, newMap'), w') →
      List.Forall₂ (Want.Fits locOf) wants results ∧
        PlainMap locOf newMap' := by
  induction wants with
  | nil =>
      intro newMap w w' results newMap' hnew h
      cases h
      exact ⟨.nil, hnew⟩
  | cons want wants ih =>
      -- What comes after the first want, whichever way that goes.
      have hrest : ∀ {m : BpMap κ} {w₁ w₂ : DbgEng}
          {r : BreakpointResult} {results : List BreakpointResult}
          {newMap' : BpMap κ}, PlainMap locOf m → want.Fits locOf r →
          placeAll e locOf prior wants m w₁
            = (.ok (results, newMap'), w₂) →
          List.Forall₂ (Want.Fits locOf) (want :: wants) (r :: results) ∧
            PlainMap locOf newMap' := by
        intro m w₁ w₂ r results newMap' hm hr h
        obtain ⟨hfits, hplain⟩ := ih hm h
        exact ⟨.cons hr hfits, hplain⟩
      intro newMap w w' results newMap' hnew h
      cases want with
      | refuse r =>
          unfold placeAll at h
          split at h
          · next hp =>
              cases h
              exact hrest hnew rfl hp
          · cases h
      | place key condition line =>
          unfold placeAll at h
          cases hp : prior.lookup key with
          | some existing =>
              rw [hp] at h
              have hold := hprior _ _ hp
              dsimp only at h
              split at h
              · next hp =>
                  cases h
                  exact hrest (hnew.insert hold) ⟨hold.2, .inr hold.1⟩ hp
              · cases h
          | none =>
              rw [hp] at h
              cases hs : callSetBreakpoint e (locOf key) condition w with
              | mk out w₁ =>
                  rw [hs] at h
                  cases out with
                  | ok r =>
                      have hr := callSetBreakpoint_plain hs
                      simp only [bpResultOrContinue,
                        callSetBreakpoint_verified hs, if_true] at h
                      split at h
                      · next hp =>
                          cases h
                          exact hrest (hnew.insert hr) ⟨hr.2, .inr hr.1⟩ hp
                      · cases h
                  | error err =>
                      cases err with
                      | closed => cases h
                      | _ =>
                          dsimp only [bpResultOrContinue] at h
                          split at h
                          · next hp =>
                              cases h
                              exact hrest hnew ⟨rfl, .inl rfl⟩ hp
                          · cases h

end

/-- A line out of range is refused on that line, and the others are wanted
on theirs. -/
theorem sourceWant_fits {f : String} {bp : SourceBp}
    {r : BreakpointResult}
    (h : (sourceWant f bp).Fits (.fileLine f) r) : Own (.source f bp) r := by
  show r.line = bp.line
  unfold sourceWant at h
  cases hl : tryLine bp.line with
  | none =>
      rw [hl] at h
      have h : r = _ := h
      rw [h]
  | some l =>
      rw [hl] at h
      rcases h.2 with hline | hline
      · exact hline
      · exact hline.trans (tryLine_some hl)

theorem functionWant_fits {bp : FunctionBp} {r : BreakpointResult}
    (h : (functionWant bp).Fits .function r) : Own (.function bp) r := by
  show r.rejected = isBareAddressName bp.name
  unfold functionWant at h
  cases hb : isBareAddressName bp.name with
  | true =>
      rw [hb] at h
      have h : r = _ := h
      rw [h]
  | false =>
      rw [hb] at h
      exact h.1

/-- A setter answers each request with its own result, and its table is
plain. -/
theorem BpCall.run_own {e : EngineModel} [e.Fresh] {c : BpCall}
    {s s' : WinDbg}
    {out : Except BackendError (List BreakpointResult)}
    (hplain : PlainTable s.breakpoints) (h : c.run e s = (out, s'))
    (hg : s'.engine.gone = false) :
    ∃ results, out = .ok results ∧ List.Forall₂ Own c.sent results ∧
      PlainTable s'.breakpoints := by
  cases c with
  | source f bps =>
      rw [BpCall.run, setSourceBreakpoints_eq] at h
      obtain ⟨results, newMap, w₁, rfl, hplace, -, hb⟩ :=
        replaceAll_done h hg
      obtain ⟨hfits, hnew⟩ := placeAll_fits
        (fun line _ hr => hplain (.fileLine f line) _ hr)
        (bps.map (sourceWant f)) (fun _ _ h => by cases h) hplace
      refine ⟨results, rfl, ?_, ?_⟩
      · apply List.forall₂_map_left_iff.mpr
        exact (List.forall₂_map_left_iff.mp hfits).imp
          fun _ _ => sourceWant_fits
      · intro loc r hr
        rw [hb] at hr
        by_cases hl : ∃ line, loc = .fileLine f line
        · obtain ⟨line, rfl⟩ := hl
          rw [entryAt_putFile] at hr
          exact hnew _ _ hr
        · rw [entryAt_putFile_of_ne _ _ fun line he => hl ⟨line, he⟩]
            at hr
          exact hplain _ _ hr
  | function bps =>
      rw [BpCall.run, setFunctionBreakpoints_eq] at h
      obtain ⟨results, newMap, w₁, rfl, hplace, -, hb⟩ :=
        replaceAll_done h hg
      obtain ⟨hfits, hnew⟩ := placeAll_fits
        (fun name _ hr => hplain (.function name) _ hr)
        (bps.map functionWant) (fun _ _ h => by cases h) hplace
      refine ⟨results, rfl, ?_, ?_⟩
      · apply List.forall₂_map_left_iff.mpr
        exact (List.forall₂_map_left_iff.mp hfits).imp
          fun _ _ => functionWant_fits
      · intro loc r hr
        rw [hb] at hr
        cases loc with
        | function name => exact hnew _ _ hr
        | fileLine f line => exact hplain (.fileLine f line) _ hr
        | address addr => cases hr

-- ============================================================== launch

section

variable {e : EngineModel}

/-- The launch flush keeps the table plain. -/
theorem flush_plain (asks : List (BpLoc × String)) :
    ∀ {s : WinDbg}, (∀ x ∈ asks, x.1.Allowed) → PlainTable s.breakpoints →
      PlainTable (flush e asks s).breakpoints := by
  induction asks with
  | nil => exact fun _ h => h
  | cons ask asks ih =>
      intro s hok h
      obtain ⟨loc, condition⟩ := ask
      have hrest : ∀ x ∈ asks, x.1.Allowed :=
        fun x hx => hok x (List.mem_cons_of_mem _ hx)
      rw [flush]
      cases hs : callSetBreakpoint e loc condition s.engine with
      | mk out w =>
          cases out with
          | error err =>
              show PlainTable
                (flush e asks { s with engine := w }).breakpoints
              exact ih hrest h
          | ok r =>
              apply ih hrest
              intro loc' r' hr
              have hloc : loc.Allowed := hok _ (List.mem_cons_self ..)
              have haddr : ∀ addr, loc ≠ .address addr := by
                intro addr he
                rw [he] at hloc
                exact hloc
              rw [entryAt_track _ _ haddr] at hr
              split at hr
              · next he =>
                  cases hr
                  rw [he]
                  exact callSetBreakpoint_plain hs
              · exact h _ _ hr

/-- The requests a launch flushes. -/
def LaunchSpec.requests (spec : LaunchSpec) : List Request :=
  (spec.sourceBreakpoints.flatMap fun (f, bps) => bps.map (.source f))
    ++ spec.functionBreakpoints.map .function

theorem locations_pending (spec : LaunchSpec) :
    locations (pendingRequests spec)
      = spec.requests.map fun r => r.target.loc? := by
  have hfiles : ∀ files : List (String × List SourceBp),
      locations (files.flatMap fun (f, bps) =>
          (BpCall.source f bps).requests)
        = (files.flatMap fun (f, bps) => bps.map (Request.source f)).map
            fun r => r.target.loc? := by
    intro files
    induction files with
    | nil => rfl
    | cons x files ih =>
        rw [List.flatMap_cons, List.flatMap_cons, List.map_append, ← ih,
          locations, List.map_append]
        exact congrArg (· ++ _) (BpCall.source x.1 x.2).locations_requests
  show locations (_ ++ _) = _
  rw [LaunchSpec.requests, List.map_append, ← hfiles, locations,
    List.map_append]
  exact congrArg (_ ++ ·)
    (BpCall.function spec.functionBreakpoints).locations_requests

/-- What a resolved request asked for was asked for. -/
theorem mem_of_resolves {asks : List (BpLoc × String)} {loc : BpLoc} :
    ∀ {w : DbgEng}, loc ∈ resolves e asks w → loc ∈ asks.map Prod.fst := by
  induction asks with
  | nil => exact fun h => h
  | cons ask asks ih =>
      intro w h
      obtain ⟨loc', condition⟩ := ask
      unfold resolves at h
      cases hs : callSetBreakpoint e loc' condition w with
      | mk out w' =>
          rw [hs] at h
          cases out with
          | error err => exact List.mem_cons_of_mem _ (ih h)
          | ok r =>
              rcases List.mem_cons.mp h with rfl | h
              · exact List.mem_cons_self ..
              · exact List.mem_cons_of_mem _ (ih h)

/-- What the engine has after a launch was flushed. -/
theorem launch_flushed [e.Fresh] [e.SetsWhole] {spec : LaunchSpec}
    {out : LaunchOutcome} {s : WinDbg} (hcare : CarefulLaunch e spec)
    (h : winDbgLaunch e spec .new = (.ok out, s)) :
    Consistent s ∧ PlainTable s.breakpoints ∧
      ∀ {id : Int} {loc : BpLoc}, (id, loc) ∈ s.engine.live →
        ∃ r ∈ spec.requests, r.target.loc? = some loc := by
  obtain ⟨hconsistent, hflushed⟩ := winDbgLaunch_flushed hcare
  rw [h] at hconsistent hflushed
  have hnew : PlainTable WinDbg.new.breakpoints := by
    intro loc r hr
    cases loc <;> cases hr
  unfold winDbgLaunch at h
  rw [if_neg (by exact Bool.false_ne_true)] at h
  cases hr : e.launch { program := spec.program, args := spec.args,
                        cwd := spec.cwd } with
  | closed =>
      rw [hr] at h
      cases h
  | failed m =>
      rw [hr] at h
      cases h
  | ok outcome =>
      rw [hr] at h
      cases outcome with
      | exited code | terminated =>
          cases h
          refine ⟨hconsistent, hnew, ?_⟩
          intro id loc hlive
          cases hlive
      | stopped info =>
          have hout : out = .stopped info := by
            cases h
            rfl
          subst hout
          refine ⟨hconsistent, ?_, ?_⟩
          · have hs := congrArg Prod.snd h
            have hs : flushFunction e _ (List.foldl _ _ _) = s := hs
            rw [← hs, flush_launch]
            exact flush_plain _ (pendingRequests_allowed spec) hnew
          · intro id loc hlive
            have hone := hflushed.one rfl loc
            have hpos : 0 < s.engine.count loc :=
              List.length_pos_of_mem (List.mem_filter.mpr
                ⟨hlive, decide_eq_true rfl⟩)
            rw [hone] at hpos
            split at hpos
            · next hres =>
                obtain ⟨x, hx, rfl⟩ :=
                  List.mem_map.mp (mem_of_resolves hres)
                have hx := List.reduceOption_mem_iff.mp hx
                have hloc : some x.1 ∈ locations (pendingRequests spec) :=
                  List.mem_map.mpr ⟨some x, hx, rfl⟩
                rw [locations_pending] at hloc
                exact List.mem_map.mp hloc
            · omega

end

-- ============================================================== counts

/-- The entries of `list_breakpoints`. -/
abbrev EntryTable := AList fun _ : Int => BreakpointInfo

/-- The requests of every column. -/
abbrev Columns := Column → List Request

/-- How many entries there are for a target. -/
def entriesFor (entries : EntryTable) (t : Target) : Nat :=
  entries.entries.countP fun x => x.2.target = t

/-- How many requests there are for a target. -/
def requestsFor (cols : Columns) (t : Target) : Nat :=
  (cols t.column).countP fun r => r.target = t

section

variable {entries : EntryTable} {cols : Columns} {id : Int}
  {info : BreakpointInfo} {t : Target}

/-- An entry is one for its target. -/
theorem entriesFor_pos (h : entries.lookup id = some info) :
    0 < entriesFor entries info.target :=
  List.countP_pos_iff.mpr
    ⟨⟨id, info⟩, AList.mem_lookup_iff.mp h, decide_eq_true rfl⟩

theorem exists_request (h : 0 < requestsFor cols t) :
    ∃ r ∈ cols t.column, r.target = t := by
  obtain ⟨r, hr, ht⟩ := List.countP_pos_iff.mp h
  exact ⟨r, hr, of_decide_eq_true ht⟩

/-- An entry more, in the place of another or not. -/
theorem entriesFor_insert (entries : EntryTable) (id : Int)
    (info : BreakpointInfo) (t : Target) :
    entriesFor (entries.insert id info) t
      ≤ entriesFor entries t + if info.target = t then 1 else 0 := by
  unfold entriesFor
  rw [AList.entries_insert, List.countP_cons]
  have hle : (List.kerase id entries.entries).countP
        (fun x => decide (x.2.target = t))
      ≤ entries.entries.countP fun x => decide (x.2.target = t) :=
    (List.kerase_sublist id entries.entries).countP_le
  simp only [decide_eq_true_eq]
  omega

/-- An entry fewer. -/
theorem entriesFor_erase (h : entries.lookup id = some info) :
    entriesFor (entries.erase id) t + (if info.target = t then 1 else 0)
      = entriesFor entries t := by
  have hkey : id ∈ entries.entries.keys :=
    AList.mem_keys.mp (AList.lookup_isSome.mp (by rw [h]; rfl))
  obtain ⟨info', l₁, l₂, -, he, hk⟩ := List.exists_of_kerase hkey
  have hinfo : info' = info := by
    have hm : (⟨id, info'⟩ : Sigma fun _ : Int => BreakpointInfo)
        ∈ entries.entries := by
      rw [he]
      exact List.mem_append_right _ (List.mem_cons_self ..)
    exact Option.some.inj ((AList.mem_lookup_iff.mpr hm).symm.trans h)
  subst hinfo
  show (List.kerase id entries.entries).countP _ + _ = _
  unfold entriesFor
  rw [hk, he, List.countP_append, List.countP_append, List.countP_cons]
  simp only [decide_eq_true_eq]
  omega

end

-- =========================================================== on engine

/-- What the tools track is what the engine has: each of its breakpoints
is asked for, an entry is listed under its id, a verified one is a
breakpoint, and no target has more entries than requests. -/
structure OnEngine (cols : Columns) (entries : EntryTable) (d : WinDbg) :
    Prop where
  consistent : Consistent d
  plain : PlainTable d.breakpoints
  wanted : ∀ {id loc}, (id, loc) ∈ d.engine.live →
    ∃ r, r ∈ cols r.column ∧ r.target.loc? = some loc
  keyed : ∀ {id info}, entries.lookup id = some info → info.id = id
  listed : ∀ {id info}, entries.lookup id = some info →
    info.verified = true →
    ∃ loc, info.target.loc? = some loc ∧ (id, loc) ∈ d.engine.live
  counted : ∀ t, entriesFor entries t ≤ requestsFor cols t

/-- A result is the request's own, and a verified one is a breakpoint of
the engine, where it was asked for. -/
structure Given (d : WinDbg) (r : Request) (res : BreakpointResult) :
    Prop where
  own : Own r res
  placed : res.verified = true →
    ∃ loc, r.target.loc? = some loc ∧ (res.id, loc) ∈ d.engine.live

section

variable {e : EngineModel} {cols : Columns}
  {entries entries' : EntryTable} {d d' : WinDbg} {c : BpCall}
  {out : Except BackendError (List BreakpointResult)}

/-- A setter is called: its column is replaced, and the entries that are
left have requests left. -/
theorem OnEngine.replace [e.Fresh] [e.SetsWhole] [e.Removes]
    (h : OnEngine cols entries d)
    (hcare : Careful e c d) (hrun : c.run e d = (out, d'))
    (hg : d'.engine.gone = false)
    (hsub : ∀ {id info}, entries'.lookup id = some info →
      entries.lookup id = some info)
    (hcount : ∀ t, entriesFor entries' t
      ≤ requestsFor (Function.update cols c.column c.sent) t) :
    OnEngine (Function.update cols c.column c.sent) entries' d' ∧
      ∃ results, out = .ok results ∧
        List.Forall₂ (Given d') c.sent results := by
  obtain ⟨results, rfl, hconsistent, hrec⟩ :=
    c.run_reconciled h.consistent hcare hrun hg
  obtain ⟨results', ho, hown, hplain⟩ := c.run_own h.plain hrun hg
  cases ho
  have hlocs := c.locations_requests
  refine ⟨⟨hconsistent, hplain, ?_, fun hinfo => h.keyed (hsub hinfo), ?_,
    hcount⟩, results, rfl, ?_⟩
  · intro id loc hlive
    by_cases hcat : c.category loc
    · have hasked : some loc ∈ locations c.requests := by
        by_contra hnot
        exact hrec.dropped hcat hnot id hlive
      rw [hlocs] at hasked
      obtain ⟨r, hr, hloc⟩ := List.mem_map.mp hasked
      refine ⟨r, ?_, hloc⟩
      rw [BpCall.column_of_sent hr, Function.update_self]
      exact hr
    · obtain ⟨r, hr, hloc⟩ := h.wanted ((hrec.apart hcat).mp hlive)
      refine ⟨r, ?_, hloc⟩
      rw [Function.update_of_ne]
      · exact hr
      · intro hc
        apply hcat
        rw [c.category_iff hloc, r.target_column]
        exact hc
  · intro id info hinfo hv
    obtain ⟨loc, hloc, hlive⟩ := h.listed (hsub hinfo) hv
    refine ⟨loc, hloc, ?_⟩
    by_cases hcat : c.category loc
    · apply hrec.kept hlive
      have hpos := (entriesFor_pos hinfo).trans_le (hcount info.target)
      obtain ⟨r, hr, ht⟩ := exists_request hpos
      rw [(c.category_iff hloc).mp hcat, Function.update_self] at hr
      rw [hlocs]
      exact List.mem_map.mpr ⟨r, hr, by rw [ht, hloc]⟩
    · exact (hrec.apart hcat).mpr hlive
  · have hreply := hrec.reply
    rw [hlocs, List.forall₂_map_left_iff] at hreply
    refine List.Forall₂.mp ?_ hown hreply
    intro r res hr hrecorded
    refine ⟨hr, fun hv => ?_⟩
    cases hloc : r.target.loc? with
    | none =>
        rw [hloc] at hrecorded
        have hrecorded : res.verified = false := hrecorded
        cases hv.symm.trans hrecorded
    | some loc =>
        rw [hloc] at hrecorded
        refine ⟨loc, rfl, hconsistent.tracked.held.mpr ?_⟩
        have ht := Iff.mp hrecorded hv
        rw [BreakpointTable.id?, ht]
        rfl

/-- An entry is recorded for which there is a request over. -/
theorem OnEngine.record {info : BreakpointInfo} (h : OnEngine cols entries d)
    (hroom : entriesFor entries info.target + 1
      ≤ requestsFor cols info.target)
    (hplaced : info.verified = true →
      ∃ loc, info.target.loc? = some loc ∧
        (info.id, loc) ∈ d.engine.live) :
    OnEngine cols (entries.insert info.id info) d := by
  refine ⟨h.consistent, h.plain, h.wanted, ?_, ?_, ?_⟩
  · intro id info' hinfo
    by_cases hid : id = info.id
    · subst hid
      rw [AList.lookup_insert] at hinfo
      cases hinfo
      rfl
    · rw [AList.lookup_insert_ne hid] at hinfo
      exact h.keyed hinfo
  · intro id info' hinfo hv
    by_cases hid : id = info.id
    · subst hid
      rw [AList.lookup_insert] at hinfo
      cases hinfo
      exact hplaced hv
    · rw [AList.lookup_insert_ne hid] at hinfo
      exact h.listed hinfo hv
  · intro t
    have hle := entriesFor_insert entries info.id info t
    have hcounted := h.counted t
    split at hle
    · next ht =>
        rw [← ht] at hle ⊢
        omega
    · omega

/-- Requests that are for no location may be forgotten. -/
theorem OnEngine.forget {cols' : Columns} (h : OnEngine cols' entries d)
    (hcount : ∀ t, entriesFor entries t ≤ requestsFor cols t)
    (hcols : ∀ r, r ∈ cols' r.column → (r.target.loc?).isSome →
      r ∈ cols r.column) : OnEngine cols entries d := by
  refine ⟨h.consistent, h.plain, ?_, h.keyed, h.listed, hcount⟩
  intro id loc hlive
  obtain ⟨r, hr, hloc⟩ := h.wanted hlive
  exact ⟨r, hcols r hr (by rw [hloc]; rfl), hloc⟩

end

-- ================================================================ edits

/-- The columns after an edit. -/
def edited (edit : Edit) (cols : Columns) : Columns :=
  fun κ => editColumn (some edit) κ (cols κ)

/-- A call that sends a column as an edit leaves it sends the edited
columns. -/
theorem update_edited (edit : Edit) {cols : Columns} {c : BpCall}
    (hcol : c.column = edit.column)
    (hsent : c.sent = edit.apply (cols edit.column)) :
    Function.update cols c.column c.sent = edited edit cols := by
  funext κ
  by_cases hκ : κ = edit.column
  · subst hκ
    rw [← hcol, Function.update_self, hcol, edited, editColumn_self]
    exact hsent
  · rw [Function.update_of_ne (fun hc => hκ (hc.trans hcol)), edited,
      editColumn_ne _ hκ]

/-- A request more. -/
theorem requestsFor_add (cols : Columns) (r : Request) (t : Target) :
    requestsFor (edited (.add r) cols) t
      = requestsFor cols t + if r.target = t then 1 else 0 := by
  unfold requestsFor edited
  by_cases hcol : t.column = r.column
  · rw [hcol]
    show (editColumn _ (Edit.add r).column _).countP _ = _
    rw [editColumn_self]
    show (cols r.column ++ [r]).countP _ = _
    rw [List.countP_append, List.countP_singleton]
    simp only [decide_eq_true_eq]
  · have hne : r.target ≠ t := by
      intro ht
      rw [← ht, r.target_column] at hcol
      exact hcol rfl
    rw [editColumn_ne _ hcol, if_neg hne]
    rfl

/-- What an erasure leaves to count. -/
theorem countP_eraseP_le {α : Type} (p q : α → Bool) (l : List α) :
    l.countP p ≤ (l.eraseP q).countP p + 1 ∧
      ((∀ x ∈ l, q x = true → p x = false) →
        l.countP p = (l.eraseP q).countP p) := by
  induction l with
  | nil => simp
  | cons x l ih =>
      cases hq : q x with
      | true =>
          rw [List.eraseP_cons_of_pos hq, List.countP_cons]
          constructor
          · split <;> omega
          · intro h
            rw [h x (List.mem_cons_self ..) hq]
            rfl
      | false =>
          rw [List.eraseP_cons_of_neg (by simp [hq]), List.countP_cons,
            List.countP_cons]
          refine ⟨by have := ih.1; omega, fun h => ?_⟩
          rw [ih.2 fun y hy => h y (List.mem_cons_of_mem _ hy)]

/-- A request fewer, if it is one for the target. -/
theorem requestsFor_cut {cols : Columns} (t₀ t : Target)
    (hcols : ∀ κ, ∀ r ∈ cols κ, r.column = κ) :
    requestsFor cols t ≤ requestsFor (edited (.cut t₀) cols) t
      + if t₀ = t then 1 else 0 := by
  unfold requestsFor edited
  by_cases hcol : t.column = t₀.column
  · rw [hcol]
    show _ ≤ (editColumn _ (Edit.cut t₀).column _).countP _ + _
    rw [editColumn_self]
    show (cols t₀.column).countP _
      ≤ ((cols t₀.column).eraseP t₀.names).countP _ + _
    obtain ⟨hle, heq⟩ := countP_eraseP_le
      (fun r : Request => decide (r.target = t)) t₀.names
      (cols t₀.column)
    split
    · exact hle
    · next hne =>
        rw [heq]
        · exact Nat.le_refl _
        · intro r hr hnames
          rw [(Target.names_iff (hcols _ r hr)).mp hnames]
          exact decide_eq_false hne
  · rw [editColumn_ne _ hcol]
    exact Nat.le_add_right _ _

end DebugMcp
