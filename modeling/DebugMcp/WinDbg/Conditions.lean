/-
The conditions in force, and the conditions that were requested.

A condition is stored under the id of its breakpoint when that is set,
and dropped when the breakpoint is removed through the backend. It goes
stale in two ways: a location that is tracked keeps the one it was first
set with, and a breakpoint that a raw command deleted leaves its own
behind, for the next that gets the id. `conditions_in_force` is what
holds in every run that stays clear of both.
-/
import DebugMcp.WinDbg.ReplaceAll
import DebugMcp.WinDbg.Wait

namespace DebugMcp

-- ============================================================= requests

/-- The last there is for a location. -/
def lastAt {α : Type} : List (BpLoc × α) → BpLoc → Option α
  | [], _ => none
  | x :: xs, loc => (lastAt xs loc).or (if x.1 = loc then some x.2 else none)

/-- The condition a list of requests asks for at a location: that of the
last, and none if it is empty. -/
def wanted (requests : List (Option (BpLoc × String))) (loc : BpLoc) :
    Option String :=
  (lastAt requests.reduceOption loc).bind fun condition =>
    if condition.isEmpty then none else some condition

/-- The breakpoints the engine sets when it is asked for these, each with
the condition its id has then: its own, or what is there already. -/
def grants (e : EngineModel) :
    List (BpLoc × String) → DbgEng → List (BpLoc × Option String)
  | [], _ => []
  | (loc, condition) :: asks, w =>
      match callSetBreakpoint e loc condition w with
      | (.ok r, w') =>
          (loc, if condition.isEmpty then w.conditions.lookup r.id
            else some condition) :: grants e asks w'
      | (.error _, w') => grants e asks w'

/-- A raw command deletes a breakpoint; what is stored under its id
stays. -/
def WinDbg.rawDelete (id : Int) (s : WinDbg) : WinDbg :=
  { s with engine := { s.engine with
      live := s.engine.live.filter fun x => x.1 ≠ id } }

-- ============================================================ condition

/-- A call that changes no condition: what is tracked, live and asked for
again has the condition that is asked for, and what is new gets it. -/
structure SameConditions (e : EngineModel) (c : BpCall) (s : WinDbg) :
    Prop where
  kept : ∀ loc r, some loc ∈ locations c.requests →
    s.breakpoints.entryAt loc = some r → (r.id, loc) ∈ s.engine.live →
    s.engine.conditions.lookup r.id = wanted c.requests loc
  new : ∀ loc stored,
    lastAt (grants e (s.breakpoints.missing c.requests) s.engine) loc
      = some stored → stored = wanted c.requests loc

/-- A launch whose pending breakpoints get the condition that is asked
for. -/
def SameLaunch (e : EngineModel) (spec : LaunchSpec) : Prop :=
  ∀ loc stored,
    lastAt (grants e (pendingRequests spec).reduceOption .new) loc
      = some stored → stored = wanted (pendingRequests spec) loc

/-- What is last at a location is in the list. -/
theorem mem_of_lastAt {α : Type} {xs : List (BpLoc × α)} {loc : BpLoc}
    {a : α} (h : lastAt xs loc = some a) : (loc, a) ∈ xs := by
  induction xs with
  | nil => cases h
  | cons x xs ih =>
      rw [lastAt] at h
      cases hl : lastAt xs loc with
      | some a' =>
          rw [hl] at h
          exact List.mem_cons_of_mem _ (ih (hl.trans h))
      | none =>
          rw [hl, Option.none_or] at h
          split_ifs at h with he
          cases he
          cases h
          exact List.mem_cons_self ..

/-- A claim about what is last at each location is one about the list. -/
theorem forall_lastAt_iff {α : Type} {xs : List (BpLoc × α)}
    {p : BpLoc → α → Prop} :
    (∀ loc a, lastAt xs loc = some a → p loc a) ↔
      ∀ x ∈ xs, ∀ a ∈ lastAt xs x.1, p x.1 a :=
  ⟨fun h x _ a ha => h x.1 a ha,
    fun h loc a ha => h (loc, a) (mem_of_lastAt ha) a ha⟩

instance (e : EngineModel) (c : BpCall) (s : WinDbg) :
    Decidable (SameConditions e c s) :=
  decidable_of_iff
    ((∀ x ∈ locations c.requests, ∀ loc ∈ x,
        ∀ r ∈ s.breakpoints.entryAt loc, (r.id, loc) ∈ s.engine.live →
        s.engine.conditions.lookup r.id = wanted c.requests loc) ∧
      ∀ x ∈ grants e (s.breakpoints.missing c.requests) s.engine,
        ∀ stored ∈ lastAt
          (grants e (s.breakpoints.missing c.requests) s.engine) x.1,
        stored = wanted c.requests x.1)
    ⟨fun ⟨hk, hn⟩ => ⟨fun loc r hm hr => hk _ hm loc rfl r hr,
        forall_lastAt_iff.mpr hn⟩,
      fun ⟨hk, hn⟩ => ⟨fun _ hm loc hx r hr => hk loc r (hx ▸ hm) hr,
        forall_lastAt_iff.mp hn⟩⟩

instance (e : EngineModel) (spec : LaunchSpec) :
    Decidable (SameLaunch e spec) :=
  decidable_of_iff _ forall_lastAt_iff.symm

/-- A launch, then calls and raw deletions in any order, with the
condition that the last list for its category asks for at every
location. -/
inductive CondRun (e : EngineModel) : WinDbg → (BpLoc → Option String) → Prop
  | launch (spec : LaunchSpec) (h : SameLaunch e spec) :
      CondRun e (winDbgLaunch e spec .new).2 (wanted (pendingRequests spec))
  | call {s : WinDbg} {sent : BpLoc → Option String} (c : BpCall)
      (hs : CondRun e s sent) (h : SameConditions e c s) :
      CondRun e (c.run e s).2 fun loc =>
        if c.category loc then wanted c.requests loc else sent loc
  | raw {s : WinDbg} {sent : BpLoc → Option String} (id : Int)
      (hs : CondRun e s sent) : CondRun e (s.rawDelete id) sent

-- ============================================================ statement

/-- The engine of the waits has the conditions that are stored. -/
def Engine.HasConditions (en : Engine) (w : DbgEng) : Prop :=
  ∀ id : UInt32,
    en.breakpointConditions.lookup id = w.conditions.lookup (id.toNat : Int)

/-- Every live breakpoint in the table has the condition that was sent
for it; so one without a condition is never skipped. -/
structure InForce (s : WinDbg) (sent : BpLoc → Option String) : Prop where
  stored : ∀ loc r, s.breakpoints.entryAt loc = some r →
    (r.id, loc) ∈ s.engine.live →
    s.engine.conditions.lookup r.id = sent loc
  unskipped : ∀ loc r (en : Engine) (id : UInt32) offset info,
    s.breakpoints.entryAt loc = some r → (r.id, loc) ∈ s.engine.live →
    sent loc = none → en.HasConditions s.engine → r.id = id.toNat →
    en.skips (.breakpoint id offset) info = false

/-- The second follows from the first. -/
theorem InForce.of_stored {s : WinDbg} {sent : BpLoc → Option String}
    (h : ∀ loc r, s.breakpoints.entryAt loc = some r →
      (r.id, loc) ∈ s.engine.live →
      s.engine.conditions.lookup r.id = sent loc) : InForce s sent where
  stored := h
  unskipped := by
    intro loc r en id offset info hr hl hnone hen hid
    have hmet : en.breakpointConditionMet info.evaluate id = true := by
      unfold Engine.breakpointConditionMet
      rw [hen id, ← hid, h loc r hr hl, hnone]
    rw [Engine.skips, hmet, Bool.not_true, Bool.and_false]

-- =============================================================== engine

/-- From one engine to a later one, a breakpoint that is in both keeps
what is stored for it. -/
def KeepsStored (w w' : DbgEng) : Prop :=
  ∀ {id loc}, (id, loc) ∈ w.live → (id, loc) ∈ w'.live →
    w'.conditions.lookup id = w.conditions.lookup id

section

variable {e : EngineModel} {κ : Type} [DecidableEq κ] {locOf : κ → BpLoc}
  {w w' : DbgEng}

/-- A breakpoint that is set changes nothing for those there are. -/
theorem stored_of_live {condition : String} {id id' : Int} {loc : BpLoc}
    (hf : id ∉ w.live.map Prod.fst) (hl : (id', loc) ∈ w.live) :
    (w.stored id condition).lookup id' = w.conditions.lookup id' := by
  unfold DbgEng.stored
  split_ifs
  · rfl
  · refine AList.lookup_insert_ne ?_
    rintro rfl
    exact hf (List.mem_map_of_mem hl)

/-- For itself it stores its condition, if it has one. -/
theorem stored_self (w : DbgEng) (id : Int) (condition : String) :
    (w.stored id condition).lookup id
      = if condition.isEmpty then w.conditions.lookup id
        else some condition := by
  unfold DbgEng.stored
  split_ifs
  · rfl
  · exact AList.lookup_insert _

/-- A removal takes breakpoints away, and what is stored for them. -/
theorem removeEngineBreakpoint_keeps {id : Int}
    {out : Except BackendError Unit}
    (h : removeEngineBreakpoint e id w = (out, w')) :
    w'.live ⊆ w.live ∧ KeepsStored w w' := by
  have same : w.live ⊆ w.live ∧ KeepsStored w w :=
    ⟨List.Subset.refl _, fun _ _ => rfl⟩
  unfold removeEngineBreakpoint at h
  by_cases hid : id ≤ 0
  · rw [if_pos hid] at h
    cases h
    exact same
  rw [if_neg hid] at h
  unfold callRemoveBreakpoint at h
  cases hw : w.gone with
  | true =>
      rw [hw, if_pos rfl] at h
      cases h
      exact same
  | false =>
      rw [hw, if_neg Bool.false_ne_true] at h
      cases hr : e.removeBreakpoint w id with
      | ok u =>
          rw [hr] at h
          cases h
          refine ⟨List.filter_sublist.subset, fun {id' loc} _ hl => ?_⟩
          have hne : id' ≠ id :=
            of_decide_eq_true (List.mem_filter.mp hl).2
          exact AList.lookup_erase_ne hne
      | failed m =>
          rw [hr] at h
          cases h
          exact same
      | closed =>
          rw [hr] at h
          cases h
          exact same

/-- So does the removal pass. -/
theorem removeStale_keeps {desired : List κ}
    (entries : List (Sigma fun _ : κ => BreakpointResult)) :
    ∀ {w out}, removeStale e desired entries w = (out, w') →
      w'.live ⊆ w.live ∧ KeepsStored w w' := by
  induction entries with
  | nil =>
      intro w out h
      cases h
      exact ⟨List.Subset.refl _, fun _ _ => rfl⟩
  | cons x rest ih =>
      intro w out h
      unfold removeStale at h
      by_cases hx : x.1 ∈ desired
      · rw [if_pos hx] at h
        exact ih h
      rw [if_neg hx] at h
      cases hr : removeEngineBreakpoint e x.2.id w with
      | mk o w₁ =>
          rw [hr] at h
          have hfirst := removeEngineBreakpoint_keeps hr
          cases o with
          | error err =>
              cases h
              exact hfirst
          | ok u =>
              obtain ⟨hsub, hkeep⟩ := ih h
              refine ⟨List.Subset.trans hsub hfirst.1, fun hl hl' => ?_⟩
              have hl₁ := hsub hl'
              exact (hkeep hl₁ hl').trans (hfirst.2 hl hl₁)

-- ============================================================ the loop

/-- What a setter's loop does about conditions. -/
structure Conditioned (e : EngineModel) (locOf : κ → BpLoc)
    (prior : BpMap κ) (wants : List (Want κ)) (newMap newMap' : BpMap κ)
    (w w' : DbgEng) : Prop where
  live : w.live ⊆ w'.live
  keeps : KeepsStored w w'
  placed : ∀ {id loc}, (id, loc) ∈ w'.live → (id, loc) ∈ w.live ∨
    ∃ key, prior.lookup key = none ∧ loc = locOf key
  tracked : ∀ {key r r'}, prior.lookup key = some r →
    newMap'.lookup key = some r' → newMap.lookup key = some r' ∨
      r' = r ∧ key ∈ wants.filterMap Want.key?
  set : ∀ {key r}, prior.lookup key = none →
    newMap'.lookup key = some r →
    newMap.lookup key = some r ∧
        lastAt (grants e (wants.filterMap (Want.ask? locOf prior)) w)
          (locOf key) = none ∨
      (r.id, locOf key) ∈ w'.live ∧
        lastAt (grants e (wants.filterMap (Want.ask? locOf prior)) w)
          (locOf key) = some (w'.conditions.lookup r.id)

variable {prior newMap newMap' : BpMap κ}

theorem Places.conditioned (hinj : Function.Injective locOf)
    {wants : List (Want κ)} {results : List BreakpointResult}
    (h : Places e locOf prior wants newMap w results newMap' w') :
    Conditioned e locOf prior wants newMap newMap' w w' := by
  induction h with
  | done _ =>
      exact ⟨List.Subset.refl _, fun _ _ => rfl, .inl, fun _ => .inl,
        fun _ h => .inl ⟨h, rfl⟩⟩
  | refuse _ ih =>
      exact ⟨ih.live, ih.keeps, ih.placed, ih.tracked, ih.set⟩
  | @reuse wants _ _ _ _ _ r key condition line hr _ ih =>
      have hask : (Want.place key condition line :: wants).filterMap
          (Want.ask? locOf prior)
          = wants.filterMap (Want.ask? locOf prior) :=
        List.filterMap_cons_none (by simp only [Want.ask?, hr])
      refine ⟨ih.live, ih.keeps, ih.placed, fun {k r₁ r'} hp hn => ?_,
        fun {k r'} hp hn => ?_⟩
      · rcases ih.tracked hp hn with hn | ⟨rfl, hm⟩
        · rcases lookup_insert_some hn with ⟨rfl, rfl⟩ | ⟨-, hn⟩
          · refine .inr ⟨Option.some.inj (hr.symm.trans hp), ?_⟩
            exact List.mem_cons_self ..
          · exact .inl hn
        · exact .inr ⟨rfl, List.mem_cons_of_mem _ hm⟩
      · rw [hask]
        rcases ih.set hp hn with ⟨hn, hlast⟩ | hset
        · rcases lookup_insert_some hn with ⟨rfl, -⟩ | ⟨-, hn⟩
          · cases hr.symm.trans hp
          · exact .inl ⟨hn, hlast⟩
        · exact .inr hset
  | @set wants _ _ w w₁ w' _ r key condition line hp hs hw hv hf _ ih =>
      have hgrants : grants e ((Want.place key condition line
          :: wants).filterMap (Want.ask? locOf prior)) w
          = (locOf key, if condition.isEmpty then w.conditions.lookup r.id
              else some condition)
            :: grants e (wants.filterMap (Want.ask? locOf prior)) w₁ := by
        rw [asks_cons hp]
        simp only [grants, hs]
      have hlive : w₁.live = (r.id, locOf key) :: w.live := by rw [hw]
      have hcond : w₁.conditions = w.stored r.id condition := by rw [hw]
      have hsub : w.live ⊆ w₁.live := by
        rw [hlive]
        exact List.subset_cons_self ..
      have hself : (r.id, locOf key) ∈ w₁.live := by
        rw [hlive]
        exact List.mem_cons_self ..
      refine ⟨List.Subset.trans hsub ih.live, fun hl hl' => ?_,
        fun hl => ?_,
        fun {k r₁ r'} hk hn => ?_, fun {k r'} hk hn => ?_⟩
      · rw [ih.keeps (hsub hl) hl', hcond, stored_of_live hf hl]
      · rcases ih.placed hl with hl | hl
        · rw [hlive] at hl
          rcases List.mem_cons.mp hl with he | hl
          · cases he
            exact .inr ⟨key, hp, rfl⟩
          · exact .inl hl
        · exact .inr hl
      · rcases ih.tracked hk hn with hn | ⟨rfl, hm⟩
        · rcases lookup_insert_some hn with ⟨rfl, -⟩ | ⟨-, hn⟩
          · cases hp.symm.trans hk
          · exact .inl hn
        · exact .inr ⟨rfl, List.mem_cons_of_mem _ hm⟩
      · rw [hgrants, lastAt]
        rcases ih.set hk hn with ⟨hn, hlast⟩ | ⟨hl, hlast⟩
        · rw [hlast, Option.none_or]
          rcases lookup_insert_some hn with ⟨rfl, rfl⟩ | ⟨hne, hn⟩
          · have hl := ih.live hself
            refine .inr ⟨hl, ?_⟩
            rw [if_pos rfl, ih.keeps hself hl, hcond, stored_self]
          · exact .inl ⟨hn, if_neg fun he => hne (hinj he).symm⟩
        · rw [hlast, Option.some_or]
          exact .inr ⟨hl, rfl⟩
  | @fail wants _ _ w w₁ w' _ r key condition m line hp hs hw hv _ ih =>
      have hgrants : grants e ((Want.place key condition line
          :: wants).filterMap (Want.ask? locOf prior)) w
          = grants e (wants.filterMap (Want.ask? locOf prior)) w₁ := by
        rw [asks_cons hp]
        simp only [grants, hs]
      subst hw
      refine ⟨List.Subset.trans (List.subset_append_right ..) ih.live,
        fun hl hl' => ih.keeps (List.mem_append_right _ hl) hl',
        fun hl => ?_, fun hk hn => ?_, fun hk hn => ?_⟩
      · rcases ih.placed hl with hl | hl
        · rcases List.mem_append.mp hl with hl | hl
          · exact .inr ⟨key, hp, EngineModel.mem_left hl⟩
          · exact .inl hl
        · exact .inr hl
      · rcases ih.tracked hk hn with hn | ⟨he, hm⟩
        · exact .inl hn
        · exact .inr ⟨he, List.mem_cons_of_mem _ hm⟩
      · rw [hgrants]
        exact ih.set hk hn

-- =============================================================== calls

/-- What a call does about conditions: in its category a tracked
breakpoint that is live is kept, or was granted; outside it nothing
changes. -/
structure CallConditions (e : EngineModel) (c : BpCall) (s s' : WinDbg) :
    Prop where
  own : ∀ {loc r}, c.category loc →
    s'.breakpoints.entryAt loc = some r → (r.id, loc) ∈ s'.engine.live →
    some loc ∈ locations c.requests ∧
        s.breakpoints.entryAt loc = some r ∧ (r.id, loc) ∈ s.engine.live ∧
        s'.engine.conditions.lookup r.id = s.engine.conditions.lookup r.id ∨
      lastAt (grants e (s.breakpoints.missing c.requests) s.engine) loc
        = some (s'.engine.conditions.lookup r.id)
  other : ∀ {loc r}, ¬c.category loc →
    s'.breakpoints.entryAt loc = some r → (r.id, loc) ∈ s'.engine.live →
    s.breakpoints.entryAt loc = some r ∧ (r.id, loc) ∈ s.engine.live ∧
      s'.engine.conditions.lookup r.id = s.engine.conditions.lookup r.id

variable {s s' : WinDbg}

theorem BpCall.run_conditions [e.Fresh] (c : BpCall)
    {out : Except BackendError (List BreakpointResult)}
    (h : c.run e s = (out, s')) (hg : s'.engine.gone = false) :
    CallConditions e c s s' := by
  cases c.run_ran h hg with
  | @intro κ _ locOf prior newMap wants results w₁ _ hinj hcat hreq _ hprior
      hplace hremove hnew hother =>
      obtain ⟨-, hg₁, -⟩ := removeStale_alive _ hremove hg
      obtain ⟨_, _, ho, hP⟩ := placeAll_places wants hplace hg₁
      cases ho
      have hC := hP.conditioned hinj
      obtain ⟨hsub, hkeep⟩ := removeStale_keeps _ hremove
      constructor
      · intro loc r hl hr hlive
        rw [hcat] at hl
        obtain ⟨key, rfl⟩ := hl
        rw [hreq, missing_eq hprior, hprior]
        rw [hnew] at hr
        have hlive₁ := hsub hlive
        have hstored := hkeep hlive₁ hlive
        cases hp : prior.lookup key with
        | some r' =>
            left
            rcases hC.tracked hp hr with hn | ⟨rfl, hm⟩
            · rw [AList.lookup_empty] at hn
              cases hn
            have hlive₀ : (r.id, locOf key) ∈ s.engine.live := by
              rcases hC.placed hlive₁ with hl | ⟨key', hp', he⟩
              · exact hl
              · cases hinj he
                cases hp'.symm.trans hp
            exact ⟨mem_locations_iff.mpr ⟨key, hm, rfl⟩, rfl, hlive₀,
              hstored.trans (hC.keeps hlive₀ hlive₁)⟩
        | none =>
            right
            rcases hC.set hp hr with ⟨hn, -⟩ | ⟨-, hlast⟩
            · rw [AList.lookup_empty] at hn
              cases hn
            · rw [hlast, hstored]
      · intro loc r hl hr hlive
        rw [hcat] at hl
        rw [hother loc fun key he => hl ⟨key, he⟩] at hr
        have hlive₁ := hsub hlive
        have hlive₀ : (r.id, loc) ∈ s.engine.live := by
          rcases hC.placed hlive₁ with hl' | ⟨key, -, he⟩
          · exact hl'
          · exact absurd ⟨key, he⟩ hl
        exact ⟨hr, hlive₀,
          (hkeep hlive₁ hlive).trans (hC.keeps hlive₀ hlive₁)⟩

end

-- ============================================================== launch

section

variable {e : EngineModel}

/-- The flush: a tracked breakpoint was so before, or was granted. -/
theorem flush_conditions [e.Fresh] (asks : List (BpLoc × String)) :
    ∀ {s : WinDbg}, (∀ x ∈ asks, x.1.Allowed) →
      s.engine.live ⊆ (flush e asks s).engine.live ∧
      KeepsStored s.engine (flush e asks s).engine ∧
      ∀ loc r, (flush e asks s).breakpoints.entryAt loc = some r →
        s.breakpoints.entryAt loc = some r ∧
            lastAt (grants e asks s.engine) loc = none ∨
          lastAt (grants e asks s.engine) loc = some
            ((flush e asks s).engine.conditions.lookup r.id) := by
  induction asks with
  | nil =>
      exact fun _ => ⟨List.Subset.refl _, fun _ _ => rfl,
        fun _ _ h => .inl ⟨h, rfl⟩⟩
  | cons ask asks ih =>
      intro s hok
      obtain ⟨loc, condition⟩ := ask
      have hloc : loc.Allowed := hok _ (List.mem_cons_self ..)
      have hok : ∀ x ∈ asks, x.1.Allowed :=
        fun x hx => hok x (List.mem_cons_of_mem _ hx)
      have ha := callSetBreakpoint_asked e loc condition s.engine
      rw [flush]
      unfold grants
      cases hs : callSetBreakpoint e loc condition s.engine with
      | mk out w =>
          rw [hs] at ha
          cases ha with
          | failed m =>
              obtain ⟨hsub, hkeep, hentry⟩ := @ih
                { s with engine := { s.engine with
                    live := e.left s.engine loc condition ++ s.engine.live
                    asked := (loc, none) :: s.engine.asked } } hok
              exact ⟨List.Subset.trans (List.subset_append_right ..) hsub,
                fun hl hl' => hkeep (List.mem_append_right _ hl) hl',
                hentry⟩
          | closing =>
              exact @ih { s with engine := { s.engine with
                asked := (loc, none) :: s.engine.asked, gone := true } } hok
          | closed _ => exact @ih s hok
          | placed r hv hf =>
              obtain ⟨hsub, hkeep, hentry⟩ := @ih
                { engine := { s.engine with
                    live := (r.id, loc) :: s.engine.live
                    asked := (loc, some r.id) :: s.engine.asked
                    conditions := s.engine.stored r.id condition }
                  breakpoints := s.breakpoints.track loc r } hok
              have hself : (r.id, loc) ∈ (r.id, loc) :: s.engine.live :=
                List.mem_cons_self ..
              have haddr : ∀ addr, loc ≠ .address addr := by
                rintro addr rfl
                exact hloc
              refine ⟨List.Subset.trans (List.subset_cons_self ..) hsub,
                fun hl hl' => ?_, fun loc' r' hr => ?_⟩
              · exact (hkeep (List.mem_cons_of_mem _ hl) hl').trans
                  (stored_of_live hf hl)
              · dsimp only [lastAt]
                rcases hentry loc' r' hr with ⟨hr, hlast⟩ | hlast
                · rw [hlast, Option.none_or]
                  rw [entryAt_track _ r haddr] at hr
                  split_ifs at hr with hl
                  · cases hr
                    subst hl
                    right
                    rw [if_pos rfl, ← stored_self]
                    exact congrArg some (hkeep hself (hsub hself)).symm
                  · exact .inl ⟨hr, if_neg fun he => hl he.symm⟩
                · rw [hlast, Option.some_or]
                  exact .inr rfl

/-- Nothing is tracked at first. -/
theorem entryAt_new (loc : BpLoc) :
    WinDbg.new.breakpoints.entryAt loc = none := by
  cases loc <;> rfl

/-- After a launch, every tracked breakpoint has the condition it was
granted. -/
theorem winDbgLaunch_conditions [e.Fresh] {spec : LaunchSpec} {loc : BpLoc}
    {r : BreakpointResult}
    (h : (winDbgLaunch e spec .new).2.breakpoints.entryAt loc = some r) :
    lastAt (grants e (pendingRequests spec).reduceOption .new) loc
      = some ((winDbgLaunch e spec .new).2.engine.conditions.lookup
        r.id) := by
  have hnone := entryAt_new loc
  unfold winDbgLaunch at h ⊢
  rw [if_neg (by exact Bool.false_ne_true)] at h ⊢
  cases hr : e.launch { program := spec.program, args := spec.args,
                        cwd := spec.cwd } with
  | closed =>
      rw [hr] at h
      cases hnone.symm.trans h
  | failed m =>
      rw [hr] at h
      cases hnone.symm.trans h
  | ok outcome =>
      rw [hr] at h
      cases outcome with
      | exited code => cases hnone.symm.trans h
      | terminated => cases hnone.symm.trans h
      | stopped info =>
          change BreakpointTable.entryAt (flushFunction e _
            (List.foldl _ WinDbg.new _)).breakpoints loc = some r at h
          show _ = some ((flushFunction e _
            (List.foldl _ WinDbg.new _)).engine.conditions.lookup r.id)
          rw [flush_launch] at h ⊢
          obtain ⟨-, -, hentry⟩ := flush_conditions (e := e) (s := .new) _
            (pendingRequests_allowed spec)
          rcases hentry loc r h with ⟨hn, -⟩ | hlast
          · cases hnone.symm.trans hn
          · exact hlast

end

-- ================================================================= runs

/-- A line of a file, with a condition. -/
def lineIf (file : String) (line : Int) (condition : String) : BpCall :=
  .source file [⟨line, condition⟩]

/-- The backend after a launch with nothing pending, and these calls. -/
def launchedWith (calls : List BpCall) : WinDbg :=
  calls.foldl (fun s c => (c.run countingEngine s).2)
    (winDbgLaunch countingEngine (launchWith [] []) .new).2

end DebugMcp
