/-
REPLACE-ALL, over a launch and every later call.

A run is a launch followed by calls of the two setters (`BpRun`). After
each of them the engine has exactly the breakpoints the table records,
and one for every location that was asked for and resolved
(`windbg_replace_all`). The conditions are on what is asked: the launch
and the calls resolve no location twice, and drop none that has the
engine id 0. Without them the engine keeps a breakpoint that no call
asked for (`windbg_leaks`).
-/
import DebugMcp.WinDbg.Reconcile
import Mathlib.Data.List.ReduceOption

open Registry

namespace DebugMcp

-- =============================================================== calls

/-- What a request asks for, and on which condition. -/
def Want.request? {κ : Type} (locOf : κ → BpLoc) :
    Want κ → Option (BpLoc × String)
  | refuse _ => none
  | place key condition _ => some (locOf key, condition)

/-- A call of one of the two setters. -/
inductive BpCall
  | source (file : String) (bps : List SourceBp)
  | function (bps : List FunctionBp)
  deriving DecidableEq

namespace BpCall

/-- The locations a call replaces all of. -/
def category : BpCall → BpLoc → Prop
  | source file _, loc => ∃ line, loc = .fileLine file line
  | function _, loc => ∃ name, loc = .function name

/-- What each of a call's requests asks for. -/
def requests : BpCall → List (Option (BpLoc × String))
  | source file bps =>
      (bps.map (sourceWant file)).map (Want.request? (.fileLine file))
  | function bps => (bps.map functionWant).map (Want.request? .function)

/-- A call, run. -/
def run (e : EngineModel) :
    BpCall → WinDbg → Except BackendError (List BreakpointResult) × WinDbg
  | source file bps => setSourceBreakpoints e file bps
  | function bps => setFunctionBreakpoints e bps

end BpCall

/-- The locations asked for. -/
def locations (requests : List (Option (BpLoc × String))) :
    List (Option BpLoc) :=
  requests.map (Option.map Prod.fst)

/-- The requests for what is not tracked. -/
def BreakpointTable.missing (t : BreakpointTable)
    (requests : List (Option (BpLoc × String))) : List (BpLoc × String) :=
  requests.reduceOption.filter fun x => (t.entryAt x.1).isNone

/-- A location a breakpoint may be set at: no address, in either form. -/
def BpLoc.Allowed : BpLoc → Prop
  | address _ => False
  | fileLine _ _ => True
  | function name => ¬AddressName name

/-- The requests of a call are for locations that are allowed. -/
theorem BpCall.allowed (c : BpCall) {loc : BpLoc} {condition : String}
    (h : some (loc, condition) ∈ c.requests) : loc.Allowed := by
  cases c with
  | source file bps =>
      obtain ⟨want, hm, hw⟩ := List.mem_map.mp h
      cases want with
      | refuse r => cases hw
      | place line condition l =>
          cases hw
          trivial
  | function bps =>
      obtain ⟨want, hm, hw⟩ := List.mem_map.mp h
      obtain ⟨bp, -, rfl⟩ := List.mem_map.mp hm
      unfold functionWant at hw
      split at hw
      · cases hw
      · rename_i hbare
        cases hw
        exact fun ha => hbare (isBareAddressName_of_address ha)

/-- What a launch's pending breakpoints ask for. -/
def pendingRequests (spec : LaunchSpec) : List (Option (BpLoc × String)) :=
  (spec.sourceBreakpoints.flatMap fun (file, bps) =>
      (BpCall.source file bps).requests)
    ++ (BpCall.function spec.functionBreakpoints).requests

/-- A launch that satisfies `L`, and calls that satisfy `C`. -/
inductive BpRun (e : EngineModel) (L : LaunchSpec → Prop)
    (C : BpCall → WinDbg → Prop) : WinDbg → Prop
  | launch (spec : LaunchSpec) (h : L spec) :
      BpRun e L C (winDbgLaunch e spec .new).2
  | call {s : WinDbg} (c : BpCall) (hs : BpRun e L C s) (h : C c s) :
      BpRun e L C (c.run e s).2

-- =========================================================== contracts

/-- The number of the engine's breakpoints at a location. -/
def DbgEng.count (w : DbgEng) (loc : BpLoc) : Nat :=
  (w.live.filter fun x => x.2 = loc).length

/-- The answer to a request: it is verified exactly when it is what is
tracked. -/
def Recorded (t : BreakpointTable) : Option BpLoc → BreakpointResult → Prop
  | none, r => r.verified = false
  | some loc, r => r.verified = true ↔ t.entryAt loc = some r

/-- What a call that returns leaves behind. -/
structure Reconciled (e : EngineModel) (category : BpLoc → Prop)
    (requests : List (Option (BpLoc × String))) (s s' : WinDbg)
    (results : List BreakpointResult) : Prop where
  tracked : Matches s'.engine.live s'.breakpoints.id?
  one : ∀ {loc}, category loc → s'.engine.count loc
    = if some loc ∈ locations requests ∧
        ((s.breakpoints.id? loc).isSome ∨
          loc ∈ resolves e (s.breakpoints.missing requests) s.engine)
      then 1 else 0
  kept : ∀ {loc id}, (id, loc) ∈ s.engine.live →
    some loc ∈ locations requests → (id, loc) ∈ s'.engine.live
  dropped : ∀ {loc}, category loc → some loc ∉ locations requests →
    ∀ id, (id, loc) ∉ s'.engine.live
  apart : ∀ {loc id}, ¬category loc →
    ((id, loc) ∈ s'.engine.live ↔ (id, loc) ∈ s.engine.live)
  named : ∀ {name id}, (.function name, id) ∈ s'.engine.asked →
    ¬AddressName name
  reply : List.Forall₂ (Recorded s'.breakpoints) (locations requests)
    results

/-- What a launch leaves behind. -/
structure Flushed (e : EngineModel) (spec : LaunchSpec)
    (out : Except BackendError LaunchOutcome) (s : WinDbg) : Prop where
  tracked : Matches s.engine.live s.breakpoints.id?
  one : ∀ {info}, out = .ok (.stopped info) → ∀ loc, s.engine.count loc
    = if loc ∈ resolves e (pendingRequests spec).reduceOption .new
      then 1 else 0
  named : ∀ {name id}, (.function name, id) ∈ s.engine.asked →
    ¬AddressName name

/-- Does the engine stop when it is asked for this launch? -/
def EngineModel.stops (e : EngineModel) (spec : LaunchSpec) : Bool :=
  match e.launch { program := spec.program, args := spec.args,
                   cwd := spec.cwd } with
  | .ok (.stopped _) => true
  | _ => false

/-- No location is set twice in a launch that stops. -/
def CarefulLaunch (e : EngineModel) (spec : LaunchSpec) : Prop :=
  e.stops spec = true →
    (resolves e (pendingRequests spec).reduceOption .new).Nodup

/-- No location is set twice in a call, and none is dropped that has the
engine id 0. -/
structure Careful (e : EngineModel) (c : BpCall) (s : WinDbg) : Prop where
  once : (resolves e (s.breakpoints.missing c.requests) s.engine).Nodup
  nonzero : ∀ x ∈ s.engine.live, c.category x.2 →
    some x.2 ∉ locations c.requests → 0 < x.1

instance (c : BpCall) (loc : BpLoc) : Decidable (c.category loc) :=
  match c, loc with
  | .source file _, .fileLine file' line =>
      decidable_of_iff (file' = file)
        ⟨fun h => ⟨line, h ▸ rfl⟩,
          fun ⟨_, h⟩ => (BpLoc.fileLine.inj h).1⟩
  | .source _ _, .address _ => isFalse nofun
  | .source _ _, .function _ => isFalse nofun
  | .function _, .function name => isTrue ⟨name, rfl⟩
  | .function _, .address _ => isFalse nofun
  | .function _, .fileLine _ _ => isFalse nofun

instance (e : EngineModel) (c : BpCall) (s : WinDbg) :
    Decidable (Careful e c s) :=
  decidable_of_iff ((resolves e (s.breakpoints.missing c.requests)
      s.engine).Nodup ∧ ∀ x ∈ s.engine.live, c.category x.2 →
        some x.2 ∉ locations c.requests → 0 < x.1)
    ⟨fun h => ⟨h.1, h.2⟩, fun h => ⟨h.once, h.nonzero⟩⟩

instance (e : EngineModel) (spec : LaunchSpec) :
    Decidable (CarefulLaunch e spec) :=
  inferInstanceAs (Decidable (_ → List.Nodup _))

-- ============================================================= setters

section

variable {e : EngineModel} {κ : Type} [DecidableEq κ] {locOf : κ → BpLoc}
  {wants : List (Want κ)} {s s' : WinDbg}

omit [DecidableEq κ] in
/-- The locations asked for are those of the keys that are wanted. -/
theorem mem_locations_iff {loc : BpLoc} :
    some loc ∈ locations (wants.map (Want.request? locOf)) ↔
      ∃ key ∈ wants.filterMap Want.key?, loc = locOf key := by
  unfold locations
  rw [List.map_map, List.mem_map]
  constructor
  · rintro ⟨want, hm, hl⟩
    cases want with
    | refuse r => cases hl
    | place key condition line =>
        cases hl
        exact ⟨key, List.mem_filterMap.mpr ⟨_, hm, rfl⟩, rfl⟩
  · rintro ⟨key, hk, rfl⟩
    obtain ⟨want, hm, hw⟩ := List.mem_filterMap.mp hk
    refine ⟨want, hm, ?_⟩
    cases want with
    | refuse r => cases hw
    | place key' condition line =>
        cases hw
        rfl

/-- What is asked of the engine is what is not tracked. -/
theorem missing_eq {t : BreakpointTable} {prior : BpMap κ}
    (hprior : ∀ key, t.entryAt (locOf key) = prior.lookup key) :
    t.missing (wants.map (Want.request? locOf))
      = wants.filterMap (Want.ask? locOf prior) := by
  unfold BreakpointTable.missing
  induction wants with
  | nil => rfl
  | cons want wants ih =>
      cases want with
      | refuse r => exact ih
      | place key condition line =>
          rw [List.map_cons, Want.request?, List.reduceOption_cons_of_some]
          have hk := hprior key
          cases hp : prior.lookup key with
          | none =>
              rw [hp] at hk
              rw [asks_cons hp, ← ih, List.filter_cons_of_pos]
              rw [hk]
              rfl
          | some r =>
              rw [hp] at hk
              rw [List.filterMap_cons_none, ← ih, List.filter_cons_of_neg]
              · rw [hk]
                exact Bool.false_ne_true
              · simp only [Want.ask?, hp]

/-- The answers, as the table has them. -/
theorem recorded_of_answered {t : BreakpointTable} {newMap : BpMap κ}
    {results : List BreakpointResult}
    (hnew : ∀ key, t.entryAt (locOf key) = newMap.lookup key)
    (h : List.Forall₂ (Want.Answered newMap) wants results)
    (hv : ∀ {key r}, newMap.lookup key = some r → r.verified = true)
    (hr : ∀ r, .refuse r ∈ wants → r.verified = false) :
    List.Forall₂ (Recorded t) (locations (wants.map (Want.request? locOf)))
      results := by
  induction h with
  | nil => exact .nil
  | @cons want r _ _ ha _ ih =>
      refine .cons ?_ (ih fun r hm => hr r (List.mem_cons_of_mem _ hm))
      cases want with
      | refuse r' =>
          have ha : r = r' := ha
          exact ha ▸ hr r' (List.mem_cons_self ..)
      | place key condition line =>
          exact ⟨fun hverified => (hnew key).trans (ha hverified),
            fun ht => hv ((hnew key).symm.trans ht)⟩

variable {prior newMap : BpMap κ} {results : List BreakpointResult}

/-- The table is what the engine has. -/
theorem Replaced.matches
    (h : Replaced e locOf prior s.breakpoints.id? wants results newMap
      s.engine s'.engine)
    (hnew : ∀ key, s'.breakpoints.entryAt (locOf key) = newMap.lookup key)
    (hother : ∀ loc, (∀ key, loc ≠ locOf key) →
      s'.breakpoints.entryAt loc = s.breakpoints.entryAt loc) :
    Matches s'.engine.live s'.breakpoints.id? := by
  obtain ⟨table, hm, hkey, hbase⟩ := h.view
  refine hm.congr fun loc => ?_
  by_cases hl : ∃ key, loc = locOf key
  · obtain ⟨key, rfl⟩ := hl
    rw [hkey, BreakpointTable.id?, hnew]
  · have hl : ∀ key, loc ≠ locOf key := fun key he => hl ⟨key, he⟩
    rw [hbase loc hl, BreakpointTable.id?, hother loc hl]
    rfl

/-- What a location of the category has in the new table. -/
theorem Replaced.tracks_iff (hinj : Function.Injective locOf)
    (h : Replaced e locOf prior s.breakpoints.id? wants results newMap
      s.engine s'.engine) {key : κ} :
    (newMap.lookup key).isSome ↔ key ∈ wants.filterMap Want.key? ∧
      ((prior.lookup key).isSome ∨ locOf key ∈
        resolves e (wants.filterMap (Want.ask? locOf prior)) s.engine) := by
  constructor
  · intro hs
    obtain ⟨r, hr⟩ := Option.isSome_iff_exists.mp hs
    obtain ⟨hd, hp | hp⟩ := h.known hr
    · exact ⟨hd, .inl (hp ▸ rfl)⟩
    · exact ⟨hd, .inr hp⟩
  · rintro ⟨hd, hp | hp⟩
    · obtain ⟨r, hr⟩ := Option.isSome_iff_exists.mp hp
      rw [h.kept hr hd]
      rfl
    · obtain ⟨key', r, he, hr⟩ := h.fresh hp
      rw [hinj he, hr]
      rfl

/-- The tracked entries that are not wanted have ids the removal does
not skip. -/
theorem positive_of_careful (hinj : Function.Injective locOf)
    (hc : Consistent s)
    (hprior : ∀ key, s.breakpoints.entryAt (locOf key) = prior.lookup key)
    (hz : ∀ x ∈ s.engine.live, (∃ key, x.2 = locOf key) →
      some x.2 ∉ locations (wants.map (Want.request? locOf)) → 0 < x.1)
    {key : κ} {r : BreakpointResult} (hr : prior.lookup key = some r)
    (hn : key ∉ wants.filterMap Want.key?) : 0 < r.id := by
  have hid : s.breakpoints.id? (locOf key) = some r.id := by
    rw [BreakpointTable.id?, hprior, hr]
    rfl
  refine hz _ (hc.tracked.held.mpr hid) ⟨key, rfl⟩ fun hm => ?_
  obtain ⟨key', hk, he⟩ := mem_locations_iff.mp hm
  exact hn (hinj he ▸ hk)

/-- A replaced category is reconciled, and the rest is as it was. -/
theorem Replaced.reconciled (hinj : Function.Injective locOf)
    (hc : Consistent s)
    (h : Replaced e locOf prior s.breakpoints.id? wants results newMap
      s.engine s'.engine)
    (hprior : ∀ key, s.breakpoints.entryAt (locOf key) = prior.lookup key)
    (hnew : ∀ key, s'.breakpoints.entryAt (locOf key) = newMap.lookup key)
    (hother : ∀ loc, (∀ key, loc ≠ locOf key) →
      s'.breakpoints.entryAt loc = s.breakpoints.entryAt loc)
    (hname : ∀ {key name}, key ∈ wants.filterMap Want.key? →
      .function name = locOf key → ¬AddressName name)
    (hr : ∀ r, .refuse r ∈ wants → r.verified = false) :
    Consistent s' ∧ Reconciled e (fun loc => ∃ key, loc = locOf key)
      (wants.map (Want.request? locOf)) s s' results := by
  have hm := h.matches hnew hother
  have hnamed : ∀ {name id}, (.function name, id) ∈ s'.engine.asked →
      ¬AddressName name := by
    intro name id hx
    rcases h.asked hx with hx | ⟨key, hk, hl⟩
    · exact hc.named hx
    · exact hname hk hl
  have hid : ∀ key, s'.breakpoints.id? (locOf key)
      = (newMap.lookup key).map (·.id) := fun key => by
    rw [BreakpointTable.id?, hnew]
  refine ⟨⟨hm, fun {loc r} he => ?_, hnamed⟩, hm, ?_, ?_, ?_, ?_, hnamed,
    recorded_of_answered hnew h.reply h.verified hr⟩
  · by_cases hl : ∃ key, loc = locOf key
    · obtain ⟨key, rfl⟩ := hl
      exact h.verified ((hnew key).symm.trans he)
    · exact hc.verified ((hother loc fun key he => hl ⟨key, he⟩).symm.trans
        he)
  · rintro _ ⟨key, rfl⟩
    have hiff : (newMap.lookup key).isSome ↔ _ := h.tracks_iff hinj
    have hwant : some (locOf key)
        ∈ locations (wants.map (Want.request? locOf)) ↔
        key ∈ wants.filterMap Want.key? := by
      rw [mem_locations_iff]
      exact ⟨fun ⟨_, hk, he⟩ => hinj he ▸ hk,
        fun hk => ⟨key, hk, rfl⟩⟩
    have hold : (s.breakpoints.id? (locOf key)).isSome
        = (prior.lookup key).isSome := by
      rw [BreakpointTable.id?, hprior, Option.isSome_map]
    rw [missing_eq hprior, DbgEng.count, hm.count, hid, Option.isSome_map]
    refine if_congr (hiff.trans ?_) rfl rfl
    rw [hwant, hold]
  · intro loc id hlive hwant
    obtain ⟨key, hk, rfl⟩ := mem_locations_iff.mp hwant
    have hs := hc.tracked.held.mp hlive
    rw [BreakpointTable.id?, hprior] at hs
    obtain ⟨r, hr, rfl⟩ := Option.map_eq_some_iff.mp hs
    refine hm.held.mpr ?_
    rw [hid, h.kept hr hk]
    rfl
  · rintro _ ⟨key, rfl⟩ hwant id hlive
    have hs := hm.held.mp hlive
    rw [hid] at hs
    obtain ⟨r, hr, -⟩ := Option.map_eq_some_iff.mp hs
    exact hwant (mem_locations_iff.mpr ⟨key, (h.known hr).1, rfl⟩)
  · intro loc id hl
    rw [hm.held, hc.tracked.held, BreakpointTable.id?,
      hother loc fun key he => hl ⟨key, he⟩]
    rfl

end

-- ============================================================== a call

/-- The table's files, with one replaced. -/
def BreakpointTable.putFile (t : BreakpointTable) (file : String)
    (newMap : BpMap UInt32) : BreakpointTable :=
  { t with source := if newMap.keys.isEmpty then t.source.erase file
           else t.source.insert file newMap }

/-- The file that was replaced. -/
theorem entryAt_putFile (t : BreakpointTable) (file : String)
    (newMap : BpMap UInt32) (line : UInt32) :
    (t.putFile file newMap).entryAt (.fileLine file line)
      = newMap.lookup line := by
  unfold BreakpointTable.putFile BreakpointTable.entryAt
    BreakpointTable.forFile
  by_cases hk : newMap.keys.isEmpty = true
  · have hnil : newMap.lookup line = none := by
      rw [AList.lookup_eq_none, AList.mem_keys, List.isEmpty_iff.mp hk]
      exact List.not_mem_nil
    simp only [if_pos hk, AList.lookup_erase, Option.getD_none,
      AList.lookup_empty, hnil]
  · simp only [if_neg hk, AList.lookup_insert, Option.getD_some]

/-- The other files, and the functions. -/
theorem entryAt_putFile_of_ne (t : BreakpointTable) {file : String}
    (newMap : BpMap UInt32) {loc : BpLoc}
    (h : ∀ line, loc ≠ .fileLine file line) :
    (t.putFile file newMap).entryAt loc = t.entryAt loc := by
  cases loc with
  | address addr => rfl
  | function name => rfl
  | fileLine f line =>
      have hf : f ≠ file := by
        rintro rfl
        exact h line rfl
      unfold BreakpointTable.putFile BreakpointTable.entryAt
        BreakpointTable.forFile
      by_cases hk : newMap.keys.isEmpty = true
      · simp only [if_pos hk, AList.lookup_erase_ne hf]
      · simp only [if_neg hk, AList.lookup_insert_ne hf]

section

variable {e : EngineModel} {s s' : WinDbg}

theorem fileLine_injective (file : String) :
    Function.Injective (BpLoc.fileLine file) := fun _ _ he => by
  cases he
  rfl

theorem function_injective : Function.Injective BpLoc.function :=
  fun _ _ he => by
    cases he
    rfl

/-- What the two setters have in common; `commit` puts the new map into
the table. -/
def replaceAll (e : EngineModel) {κ : Type} [DecidableEq κ]
    (locOf : κ → BpLoc) (prior : BpMap κ) (wants : List (Want κ))
    (commit : BpMap κ → BreakpointTable) (s : WinDbg) :
    Except BackendError (List BreakpointResult) × WinDbg :=
  match placeAll e locOf prior wants ∅ s.engine with
  | (.error err, w) => (.error err, { s with engine := w })
  | (.ok (results, newMap), w) =>
      let (removed, w) :=
        removeStale e (wants.filterMap Want.key?) prior.entries w
      let s := { engine := w, breakpoints := commit newMap }
      match removed with
      | .error err => (.error err, s)
      | .ok () => (.ok results, s)

theorem setSourceBreakpoints_eq (file : String) (bps : List SourceBp) :
    setSourceBreakpoints e file bps s
      = replaceAll e (.fileLine file) (s.breakpoints.forFile file)
          (bps.map (sourceWant file)) (s.breakpoints.putFile file) s := by
  unfold setSourceBreakpoints replaceAll
  dsimp only
  rcases placeAll e _ _ _ _ _ with ⟨_ | ⟨results, newMap⟩, w⟩ <;> rfl

theorem setFunctionBreakpoints_eq (bps : List FunctionBp) :
    setFunctionBreakpoints e bps s
      = replaceAll e .function s.breakpoints.function
          (bps.map functionWant)
          (fun function => { s.breakpoints with function }) s := by
  unfold setFunctionBreakpoints replaceAll
  dsimp only
  rcases placeAll e _ _ _ _ _ with ⟨_ | ⟨results, newMap⟩, w⟩ <;> rfl

/-- What has been done, if the engine is still there. -/
theorem replaceAll_done [e.Fresh] {κ : Type} [DecidableEq κ]
    {locOf : κ → BpLoc}
    {prior : BpMap κ} {wants : List (Want κ)}
    {commit : BpMap κ → BreakpointTable}
    {out : Except BackendError (List BreakpointResult)}
    (h : replaceAll e locOf prior wants commit s = (out, s'))
    (hg : s'.engine.gone = false) :
    ∃ results newMap w₁, out = .ok results ∧
      placeAll e locOf prior wants ∅ s.engine
        = (.ok (results, newMap), w₁) ∧
      removeStale e (wants.filterMap Want.key?) prior.entries w₁
        = (.ok (), s'.engine) ∧
      s'.breakpoints = commit newMap := by
  unfold replaceAll at h
  cases hp : placeAll e locOf prior wants ∅ s.engine with
  | mk o w₁ =>
      cases o with
      | error err =>
          simp only [hp] at h
          cases h
          obtain ⟨_, _, ho, -⟩ := placeAll_places wants hp hg
          cases ho
      | ok p =>
          cases hr : removeStale e (wants.filterMap Want.key?)
              prior.entries w₁ with
          | mk removed w₂ =>
              simp only [hp, hr] at h
              cases removed with
              | error err =>
                  cases h
                  cases (removeStale_alive _ hr hg).1
              | ok u =>
                  cases h
                  exact ⟨p.1, p.2, w₁, rfl, rfl, hr, rfl⟩

/-- A call that has returned, at the keys of its category: its loop, its
removal pass, and the table. -/
inductive BpCall.Ran (e : EngineModel) (c : BpCall) (s : WinDbg) :
    Except BackendError (List BreakpointResult) → WinDbg → Prop
  | intro {κ : Type} [DecidableEq κ] {locOf : κ → BpLoc}
      {prior newMap : BpMap κ} {wants : List (Want κ)}
      {results : List BreakpointResult} {w₁ : DbgEng} {s' : WinDbg}
      (hinj : Function.Injective locOf)
      (hcat : c.category = fun loc => ∃ key, loc = locOf key)
      (hreq : c.requests = wants.map (Want.request? locOf))
      (hrefused : ∀ r, .refuse r ∈ wants → r.verified = false)
      (hprior : ∀ key, s.breakpoints.entryAt (locOf key)
        = prior.lookup key)
      (hplace : placeAll e locOf prior wants ∅ s.engine
        = (.ok (results, newMap), w₁))
      (hremove : removeStale e (wants.filterMap Want.key?) prior.entries w₁
        = (.ok (), s'.engine))
      (hnew : ∀ key, s'.breakpoints.entryAt (locOf key)
        = newMap.lookup key)
      (hother : ∀ loc, (∀ key, loc ≠ locOf key) →
        s'.breakpoints.entryAt loc = s.breakpoints.entryAt loc) :
      Ran e c s (.ok results) s'

/-- Every call, if the engine is still there. -/
theorem BpCall.run_ran [e.Fresh] (c : BpCall)
    {out : Except BackendError (List BreakpointResult)}
    (h : c.run e s = (out, s')) (hg : s'.engine.gone = false) :
    c.Ran e s out s' := by
  cases c with
  | source file bps =>
      rw [BpCall.run, setSourceBreakpoints_eq] at h
      obtain ⟨results, newMap, w₁, rfl, hplace, hremove, hb⟩ :=
        replaceAll_done h hg
      refine .intro (fileLine_injective file) rfl rfl (fun r hm => ?_)
        (fun _ => rfl) hplace hremove (fun line => ?_) (fun loc hl => ?_)
      · obtain ⟨bp, -, hw⟩ := List.mem_map.mp hm
        unfold sourceWant at hw
        split at hw <;> cases hw
        rfl
      · rw [hb, entryAt_putFile]
      · rw [hb, entryAt_putFile_of_ne _ _ hl]
  | function bps =>
      rw [BpCall.run, setFunctionBreakpoints_eq] at h
      obtain ⟨results, newMap, w₁, rfl, hplace, hremove, hb⟩ :=
        replaceAll_done h hg
      refine .intro function_injective rfl rfl (fun r hm => ?_)
        (fun _ => rfl) hplace hremove (fun name => ?_) (fun loc hl => ?_)
      · obtain ⟨bp, -, hw⟩ := List.mem_map.mp hm
        unfold functionWant at hw
        split at hw <;> cases hw
        rfl
      · rw [hb]
        rfl
      · rw [hb]
        cases loc with
        | function name => exact absurd rfl (hl name)
        | address addr => rfl
        | fileLine file line => rfl

/-- A call reconciles what it replaces. -/
theorem BpCall.run_reconciled [e.Fresh] [e.SetsWhole] [e.Removes]
    (hc : Consistent s) (c : BpCall)
    (hcare : Careful e c s)
    {out : Except BackendError (List BreakpointResult)}
    (h : c.run e s = (out, s')) (hg : s'.engine.gone = false) :
    ∃ results, out = .ok results ∧ Consistent s' ∧
      Reconciled e c.category c.requests s s' results := by
  have hnd := hcare.once
  have hz := hcare.nonzero
  cases c.run_ran h hg with
  | @intro κ _ locOf prior newMap wants results w₁ _ hinj hcat hreq hrefused
      hprior hplace hremove hnew hother =>
      rw [hreq, missing_eq hprior] at hnd
      rw [hcat, hreq] at hz ⊢
      have hset := replaced_of_done hinj
        (fun hr => hc.verified ((hprior _).trans hr)) hc.tracked
        (fun key => by rw [BreakpointTable.id?, hprior]) hplace hremove hg
        hnd (positive_of_careful hinj hc hprior hz)
      refine ⟨results, rfl, hset.reconciled hinj hc hprior hnew hother
        (fun {key name} hk he => ?_) hrefused⟩
      obtain ⟨want, hm, hw⟩ := List.mem_filterMap.mp hk
      cases want with
      | refuse r => cases hw
      | place key condition line =>
          cases hw
          have hallowed := @BpCall.allowed c (locOf key) condition
            (hreq ▸ List.mem_map.mpr ⟨_, hm, rfl⟩)
          rw [← he] at hallowed
          exact hallowed

/-- An engine that is there after a call was there before it. -/
theorem BpCall.run_alive [e.Fresh] (c : BpCall)
    {out : Except BackendError (List BreakpointResult)}
    (h : c.run e s = (out, s')) (hg : s'.engine.gone = false) :
    s.engine.gone = false := by
  cases c.run_ran h hg with
  | intro _ _ _ _ _ hplace hremove _ _ =>
      obtain ⟨-, hg₁, -⟩ := removeStale_alive _ hremove hg
      obtain ⟨_, _, -, hP⟩ := placeAll_places _ hplace hg₁
      exact hP.alive

end

-- ============================================================== launch

/-- The table with one more entry. -/
def BreakpointTable.track (t : BreakpointTable) (loc : BpLoc)
    (r : BreakpointResult) : BreakpointTable :=
  match loc with
  | .fileLine file line => { t with
      source := t.source.insert file ((t.forFile file).insert line r) }
  | .function name => { t with function := t.function.insert name r }
  | .address _ => t

/-- A location that was tracked. -/
theorem entryAt_track (t : BreakpointTable) {loc : BpLoc}
    (r : BreakpointResult) (h : ∀ addr, loc ≠ .address addr)
    (loc' : BpLoc) :
    (t.track loc r).entryAt loc'
      = if loc' = loc then some r else t.entryAt loc' := by
  by_cases hl : loc' = loc
  · subst hl
    rw [if_pos rfl]
    cases loc' with
    | address addr => exact absurd rfl (h addr)
    | function name => exact AList.lookup_insert _
    | fileLine file line =>
        simp only [BreakpointTable.track, BreakpointTable.entryAt,
          BreakpointTable.forFile, AList.lookup_insert, Option.getD_some]
  · rw [if_neg hl]
    cases loc with
    | address addr => exact absurd rfl (h addr)
    | function name =>
        cases loc' with
        | address addr => rfl
        | fileLine file line => rfl
        | function name' =>
            exact AList.lookup_insert_ne fun he => hl (he ▸ rfl)
    | fileLine file line =>
        cases loc' with
        | address addr => rfl
        | function name => rfl
        | fileLine file' line' =>
            simp only [BreakpointTable.track, BreakpointTable.entryAt,
              BreakpointTable.forFile]
            by_cases hf : file' = file
            · subst hf
              have hne : line' ≠ line := fun he => hl (he ▸ rfl)
              rw [AList.lookup_insert, Option.getD_some,
                AList.lookup_insert_ne hne]
            · rw [AList.lookup_insert_ne hf]

section

variable (e : EngineModel)

/-- The launch flush, of what it asks for. -/
def flush : List (BpLoc × String) → WinDbg → WinDbg
  | [], s => s
  | (loc, condition) :: asks, s =>
      match callSetBreakpoint e loc condition s.engine with
      | (.ok r, w) => flush asks
          { engine := w, breakpoints := s.breakpoints.track loc r }
      | (.error _, w) => flush asks { s with engine := w }

theorem flush_append (asks asks' : List (BpLoc × String)) :
    ∀ s, flush e (asks ++ asks') s = flush e asks' (flush e asks s) := by
  induction asks with
  | nil => exact fun _ => rfl
  | cons ask asks ih =>
      intro s
      obtain ⟨loc, condition⟩ := ask
      rw [List.cons_append, flush, flush]
      cases callSetBreakpoint e loc condition s.engine with
      | mk out w =>
          cases out with
          | error err => exact ih _
          | ok r => exact ih _

/-- An answer that is not an error is verified. -/
theorem callSetBreakpoint_verified {e : EngineModel} {loc : BpLoc}
    {condition : String} {w w' : DbgEng} {r : BreakpointResult}
    (h : callSetBreakpoint e loc condition w = (.ok r, w')) :
    r.verified = true := by
  unfold callSetBreakpoint at h
  split at h
  · cases h
  · split at h
    · cases h
      rfl
    · cases h
    · cases h

theorem flushSource_eq (file : String) (bps : List SourceBp) :
    ∀ s, flushSource e file bps s
      = flush e (BpCall.source file bps).requests.reduceOption s := by
  induction bps with
  | nil => exact fun _ => rfl
  | cons bp bps ih =>
      intro s
      unfold flushSource
      simp only [BpCall.requests, List.map_cons, sourceWant]
      cases hl : tryLine bp.line with
      | none => exact ih s
      | some line =>
          simp only [Want.request?]
          rw [List.reduceOption_cons_of_some, flush]
          cases hs : callSetBreakpoint e (.fileLine file line) bp.condition
              s.engine with
          | mk out w =>
              cases out with
              | error err => exact ih _
              | ok r =>
                  simp only [callSetBreakpoint_verified hs, if_true]
                  exact ih _

theorem flushFunction_eq (bps : List FunctionBp) :
    ∀ s, flushFunction e bps s
      = flush e (BpCall.function bps).requests.reduceOption s := by
  induction bps with
  | nil => exact fun _ => rfl
  | cons bp bps ih =>
      intro s
      unfold flushFunction
      simp only [BpCall.requests, List.map_cons, functionWant]
      cases hl : isBareAddressName bp.name with
      | true => exact ih s
      | false =>
          simp only [Bool.false_eq_true, if_false, Want.request?]
          rw [List.reduceOption_cons_of_some, flush]
          cases hs : callSetBreakpoint e (.function bp.name) bp.condition
              s.engine with
          | mk out w =>
              cases out with
              | error err => exact ih _
              | ok r =>
                  simp only [callSetBreakpoint_verified hs, if_true]
                  exact ih _

/-- The whole flush, of all that is pending. -/
theorem flush_launch (spec : LaunchSpec) (s : WinDbg) :
    flushFunction e spec.functionBreakpoints
        (spec.sourceBreakpoints.foldl
          (fun s (file, bps) => flushSource e file bps s) s)
      = flush e (pendingRequests spec).reduceOption s := by
  have hfiles : ∀ (files : List (String × List SourceBp)) (s : WinDbg),
      files.foldl (fun s (file, bps) => flushSource e file bps s) s
        = flush e (files.flatMap fun (file, bps) =>
            (BpCall.source file bps).requests).reduceOption s := by
    intro files
    induction files with
    | nil => exact fun _ => rfl
    | cons x files ih =>
        intro s
        rw [List.foldl_cons, List.flatMap_cons, List.reduceOption_append,
          flush_append, ih]
        exact congrArg _ (flushSource_eq e x.1 x.2 s)
  rw [hfiles, flushFunction_eq, pendingRequests, List.reduceOption_append,
    flush_append]

end

/-- What the table has, with one more entry. -/
theorem id?_track (t : BreakpointTable) {loc : BpLoc}
    (r : BreakpointResult) (h : loc.Allowed) :
    (t.track loc r).id? = Function.update t.id? loc (some r.id) := by
  have haddr : ∀ addr, loc ≠ .address addr := by
    rintro addr rfl
    exact h
  funext l
  rw [BreakpointTable.id?, entryAt_track t r haddr]
  by_cases hl : l = loc
  · subst hl
    rw [if_pos rfl, Function.update_self]
    rfl
  · rw [if_neg hl, Function.update_of_ne hl]
    rfl

/-- A new location is set, and tracked. -/
theorem Consistent.track {s : WinDbg} (hc : Consistent s) {loc : BpLoc}
    {r : BreakpointResult} (hloc : loc.Allowed)
    (hfree : s.breakpoints.id? loc = none) (hv : r.verified = true)
    (hf : r.id ∉ s.engine.live.map Prod.fst)
    (conditions : AList fun _ : Int => String) :
    Consistent
      { engine := { s.engine with
          live := (r.id, loc) :: s.engine.live
          asked := (loc, some r.id) :: s.engine.asked
          conditions }
        breakpoints := s.breakpoints.track loc r } where
  tracked := id?_track s.breakpoints r hloc ▸ hc.tracked.add hf hfree
  verified {l r'} he := by
    have haddr : ∀ addr, loc ≠ .address addr := by
      rintro addr rfl
      exact hloc
    rw [entryAt_track s.breakpoints r haddr] at he
    by_cases hl : l = loc
    · rw [if_pos hl] at he
      cases he
      exact hv
    · rw [if_neg hl] at he
      exact hc.verified he
  named hm := by
    rcases List.mem_cons.mp hm with he | hm
    · cases he
      exact hloc
    · exact hc.named hm

/-- A location fails to resolve. -/
theorem Consistent.fail {s : WinDbg} (hc : Consistent s) {loc : BpLoc}
    (hloc : loc.Allowed) (gone : Bool) :
    Consistent { s with engine := { s.engine with
      asked := (loc, none) :: s.engine.asked, gone } } where
  tracked := hc.tracked
  verified := hc.verified
  named hm := by
    rcases List.mem_cons.mp hm with he | hm
    · cases he
      exact hloc
    · exact hc.named hm

section

variable {e : EngineModel}

/-- The flush tracks what it sets, if it sets nothing twice. -/
theorem flush_consistent [e.Fresh] [e.SetsWhole]
    (asks : List (BpLoc × String)) :
    ∀ {s : WinDbg} {placed : List BpLoc}, (∀ x ∈ asks, x.1.Allowed) →
      (resolves e asks s.engine).Nodup →
      (∀ loc ∈ resolves e asks s.engine, loc ∉ placed) →
      Consistent s →
      (∀ loc, (s.breakpoints.id? loc).isSome ↔ loc ∈ placed) →
      Consistent (flush e asks s) ∧
        ∀ loc, ((flush e asks s).breakpoints.id? loc).isSome ↔
          loc ∈ resolves e asks s.engine ∨ loc ∈ placed := by
  induction asks with
  | nil =>
      intro s placed _ _ _ hc hp
      exact ⟨hc, fun loc => (hp loc).trans
        ⟨.inr, fun h => h.resolve_left List.not_mem_nil⟩⟩
  | cons ask asks ih =>
      intro s placed hok hnd hd hc hp
      obtain ⟨loc, condition⟩ := ask
      have hloc : loc.Allowed := hok _ (List.mem_cons_self ..)
      have hok : ∀ x ∈ asks, x.1.Allowed :=
        fun x hx => hok x (List.mem_cons_of_mem _ hx)
      have ha := callSetBreakpoint_asked e loc condition s.engine
      rw [flush]
      unfold resolves at hnd hd ⊢
      cases hs : callSetBreakpoint e loc condition s.engine with
      | mk out w =>
          rw [hs] at ha
          simp only [hs] at hnd hd ⊢
          cases ha with
          | failed m =>
              rw [e.left_eq_nil] at hnd hd ⊢
              exact ih hok hnd hd (hc.fail hloc _) hp
          | closing => exact ih hok hnd hd (hc.fail hloc _) hp
          | closed _ => exact ih hok hnd hd hc hp
          | placed r hv hf =>
              obtain ⟨hnew, hnd⟩ := List.nodup_cons.mp hnd
              have hfree : s.breakpoints.id? loc = none := by
                rw [← Option.not_isSome_iff_eq_none, hp]
                exact hd _ (List.mem_cons_self ..)
              obtain ⟨hc', hp'⟩ := ih hok hnd (apart_cons hnew hd)
                (hc.track hloc hfree hv hf _) fun l => by
                  rw [id?_track _ r hloc, List.mem_cons, ← hp l]
                  by_cases hl : l = loc
                  · subst hl
                    rw [Function.update_self]
                    exact ⟨fun _ => .inl rfl, fun _ => rfl⟩
                  · rw [Function.update_of_ne hl]
                    exact ⟨.inr, fun h => h.resolve_left hl⟩
              refine ⟨hc', fun l => (hp' l).trans ?_⟩
              rw [List.mem_cons, List.mem_cons, or_assoc, or_left_comm]

theorem Consistent.new : Consistent .new where
  tracked := Matches.nil.congr fun loc => by cases loc <;> rfl
  verified {loc r} h := by cases loc <;> cases h
  named := nofun

/-- What a launch has pending is for locations that are allowed. -/
theorem pendingRequests_allowed (spec : LaunchSpec) :
    ∀ x ∈ (pendingRequests spec).reduceOption, x.1.Allowed := by
  rintro ⟨loc, condition⟩ hx
  have hx := List.reduceOption_mem_iff.mp hx
  rcases List.mem_append.mp hx with hx | hx
  · obtain ⟨⟨file, bps⟩, -, hx⟩ := List.mem_flatMap.mp hx
    exact (BpCall.source file bps).allowed hx
  · exact (BpCall.function spec.functionBreakpoints).allowed hx

/-- A launch flushes what is pending. -/
theorem winDbgLaunch_flushed [e.Fresh] [e.SetsWhole] {spec : LaunchSpec}
    (hcare : CarefulLaunch e spec) :
    Consistent (winDbgLaunch e spec .new).2 ∧
      Flushed e spec (winDbgLaunch e spec .new).1
        (winDbgLaunch e spec .new).2 := by
  have hnew := Consistent.new
  unfold winDbgLaunch
  rw [if_neg (by exact Bool.false_ne_true)]
  cases hr : e.launch { program := spec.program, args := spec.args,
                        cwd := spec.cwd } with
  | closed =>
      exact ⟨⟨hnew.tracked, hnew.verified, hnew.named⟩, hnew.tracked,
        nofun, hnew.named⟩
  | failed m => exact ⟨hnew, hnew.tracked, nofun, hnew.named⟩
  | ok outcome =>
      cases outcome with
      | exited code => exact ⟨hnew, hnew.tracked, nofun, hnew.named⟩
      | terminated => exact ⟨hnew, hnew.tracked, nofun, hnew.named⟩
      | stopped info =>
          show Consistent (flushFunction e _ (List.foldl _ WinDbg.new _)) ∧
            Flushed e spec _ (flushFunction e _
              (List.foldl _ WinDbg.new _))
          rw [flush_launch]
          obtain ⟨hc, hp⟩ := flush_consistent (s := .new) _
            (pendingRequests_allowed spec)
            (hcare (by simp only [EngineModel.stops, hr]))
            (fun _ _ => List.not_mem_nil) hnew fun loc => by
              cases loc <;> exact ⟨nofun, nofun⟩
          refine ⟨hc, hc.tracked, fun _ loc => ?_, hc.named⟩
          rw [DbgEng.count, hc.tracked.count]
          refine if_congr ((hp loc).trans ?_) rfl rfl
          exact ⟨fun h => h.resolve_right List.not_mem_nil, .inl⟩

/-- In a careful run the table is what the engine has. -/
theorem BpRun.consistent [e.Fresh] [e.SetsWhole] [e.Removes] {s : WinDbg}
    (hs : BpRun e (CarefulLaunch e) (Careful e) s)
    (hg : s.engine.gone = false) : Consistent s := by
  induction hs with
  | launch spec h => exact (winDbgLaunch_flushed h).1
  | @call s c _ h ih =>
      have hs := ih (c.run_alive rfl hg)
      obtain ⟨_, -, hc, -⟩ := c.run_reconciled hs h rfl hg
      exact hc

end

/-- In a careful run, a launch flushes what is pending, and every call
replaces all of its category and nothing else: over an engine whose new
ids are fresh, that leaves nothing of a set that fails, and removes every
breakpoint it has when it is asked to. -/
theorem windbg_replace_all (e : EngineModel) [e.Fresh] [e.SetsWhole]
    [e.Removes] :
    (∀ spec, CarefulLaunch e spec →
      Flushed e spec (winDbgLaunch e spec .new).1
        (winDbgLaunch e spec .new).2) ∧
    ∀ s c results s', BpRun e (CarefulLaunch e) (Careful e) s →
      Careful e c s → c.run e s = (.ok results, s') →
      s'.engine.gone = false →
      Reconciled e c.category c.requests s s' results := by
  refine ⟨fun spec h => (winDbgLaunch_flushed h).2, ?_⟩
  intro s c results s' hs hcare h hg
  have hc := hs.consistent (c.run_alive h hg)
  obtain ⟨_, ho, -, hrec⟩ := c.run_reconciled hc hcare h hg
  cases ho
  exact hrec

-- ===================================================== counting engine

/-- The least id above those that are live. -/
def nextId (live : List (Int × BpLoc)) : Int :=
  live.foldr (fun x id => max id (x.1 + 1)) 0

theorem nextId_fresh (live : List (Int × BpLoc)) :
    0 ≤ nextId live ∧ ∀ x ∈ live, x.1 < nextId live := by
  induction live with
  | nil => exact ⟨Int.le_refl 0, nofun⟩
  | cons x live ih =>
      have hle : nextId live ≤ nextId (x :: live) := Int.le_max_left ..
      refine ⟨Int.le_trans ih.1 hle, fun y hy => ?_⟩
      rcases List.mem_cons.mp hy with rfl | hy
      · exact Int.lt_of_lt_of_le (Int.lt_succ _) (Int.le_max_right ..)
      · exact Int.lt_of_lt_of_le (ih.2 y hy) hle

/-- An engine that resolves everything, and counts from 0. -/
def countingEngine : EngineModel where
  launch _ := .ok (.stopped
    { reason := "entry", threadId := 0, description := ""
      hitBreakpointIds := [] })
  setBreakpoint w _ _ := .ok (nextId w.live)
  leaves _ _ _ := none
  removeBreakpoint _ _ := .ok ()

instance : countingEngine.Fresh where
  fresh {w loc condition id} h := by
    cases h
    refine ⟨(nextId_fresh _).1, fun hm => ?_⟩
    obtain ⟨x, hx, he⟩ := List.mem_map.mp hm
    have hlt := (nextId_fresh w.live).2 x hx
    omega

instance : countingEngine.SetsWhole := ⟨fun _ _ _ => rfl⟩

instance : countingEngine.Removes := ⟨nofun⟩

/-- A launch with these breakpoints pending. -/
def launchWith (source : List (String × List SourceBp))
    (function : List FunctionBp) : LaunchSpec where
  program := "a.exe"
  args := []
  cwd := none
  env := []
  stopOnEntry := true
  sourceBreakpoints := source
  functionBreakpoints := function

/-- Lines of a file. -/
def linesOf (file : String) (lines : List Int) : BpCall :=
  .source file (lines.map fun line => ⟨line, ""⟩)

/-- A function is pending, and a file's lines are replaced. -/
theorem windbg_replaces_lines :
    Reconciled countingEngine (linesOf "a.c" [7, 9]).category
      (linesOf "a.c" [7, 9]).requests
      ((linesOf "a.c" [5, 7]).run countingEngine
        (winDbgLaunch countingEngine (launchWith [] [⟨"main", ""⟩])
          .new).2).2
      ((linesOf "a.c" [7, 9]).run countingEngine
        ((linesOf "a.c" [5, 7]).run countingEngine
          (winDbgLaunch countingEngine (launchWith [] [⟨"main", ""⟩])
            .new).2).2).2
      [⟨2, true, 7, "", false⟩, ⟨3, true, 9, "", false⟩] := by
  refine (windbg_replace_all countingEngine).2 _ _ _ _
    (.call _ (.launch _ ?_) ?_) ?_ (Prod.ext ?_ rfl) ?_
  all_goals decide +kernel

/-- A line that is repeated is set twice and recorded once; a line that
has the id 0 is not removed. -/
theorem windbg_leaks :
    (∃ s results s',
      BpRun countingEngine (fun _ => True) (fun _ _ => True) s ∧
      (linesOf "a.c" [5, 5]).run countingEngine s = (.ok results, s') ∧
      s'.engine.gone = false ∧
      ¬Reconciled countingEngine (linesOf "a.c" [5, 5]).category
        (linesOf "a.c" [5, 5]).requests s s' results) ∧
    ∃ s results s',
      BpRun countingEngine (fun _ => True) (fun _ _ => True) s ∧
      (linesOf "a.c" []).run countingEngine s = (.ok results, s') ∧
      s'.engine.gone = false ∧
      ¬Reconciled countingEngine (linesOf "a.c" []).category
        (linesOf "a.c" []).requests s s' results := by
  constructor
  · refine ⟨_, _, _, .launch (launchWith [] []) trivial, rfl, rfl,
      fun h => ?_⟩
    have hone := @h.one (.fileLine "a.c" 5) ⟨5, rfl⟩
    revert hone
    decide +kernel
  · refine ⟨_, _, _, .launch (launchWith [("a.c", [⟨5, ""⟩])] [])
      trivial, rfl, rfl, fun h => ?_⟩
    have hgone := @h.dropped (.fileLine "a.c" 5) ⟨5, rfl⟩
      List.not_mem_nil 0
    revert hgone
    decide +kernel

end DebugMcp
