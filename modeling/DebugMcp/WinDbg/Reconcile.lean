/-
The WinDbg breakpoint setters make the engine match the request.

The engine's breakpoints and the backend's table are a registry and its
table (`Lib/Registry.lean`). A setter works on one category, the lines of
a file or the function names, with `locOf` from its keys to locations:
its loop adds what is new, its removal pass drops what is stale, and what
is left in the category is the new map. Two things go wrong on the way,
and the conditions name them: a location that is set twice in one call is
recorded once, and the removal skips the id 0, which is an id like any
other.
-/
import DebugMcp.Lib.Registry
import DebugMcp.WinDbg.Breakpoints

open Registry

namespace DebugMcp

-- =============================================================== table

/-- What the table has at a location. -/
def BreakpointTable.entryAt (t : BreakpointTable) :
    BpLoc → Option BreakpointResult
  | .fileLine file line => (t.forFile file).lookup line
  | .function name => t.function.lookup name
  | .address _ => none

/-- The engine id the table has at a location. -/
def BreakpointTable.id? (t : BreakpointTable) (loc : BpLoc) :
    Option Int :=
  (t.entryAt loc).map (·.id)

/-- Is a name an address to a user's eye: does it start with `0x`? -/
def AddressName (name : String) : Prop :=
  "0x".toList <+: name.toList ∨ "0X".toList <+: name.toList

/-- The engine has the breakpoints the table records and no other, every
one of them verified, and was never asked for an address name. -/
structure Consistent (s : WinDbg) : Prop where
  tracked : Matches s.engine.live s.breakpoints.id?
  verified : ∀ {loc r}, s.breakpoints.entryAt loc = some r →
    r.verified = true
  named : ∀ {name id}, (.function name, id) ∈ s.engine.asked →
    ¬AddressName name

/-- An address name is rejected. -/
theorem isBareAddressName_of_address {name : String}
    (h : AddressName name) : isBareAddressName name = true := by
  have hws : isWhitespace '0' = false := by decide
  have htrim : ∀ {cs : List Char}, '0' :: cs <+: name.toList →
      name.toList.dropWhile isWhitespace = name.toList := by
    rintro cs ⟨t, ht⟩
    rw [← ht, List.cons_append, List.dropWhile_cons_of_neg (by
      rw [hws]
      exact Bool.false_ne_true)]
  unfold isBareAddressName
  rw [Bool.or_eq_true, List.isPrefixOf_iff_prefix,
    List.isPrefixOf_iff_prefix]
  rcases h with h | h
  · rw [htrim h]
    exact .inl h
  · rw [htrim h]
    exact .inr h

-- ============================================================== answers

/-- What a setter asks the engine for a request: nothing, if it has the
breakpoint already. -/
def Want.ask? {κ : Type} [DecidableEq κ] (locOf : κ → BpLoc)
    (prior : BpMap κ) : Want κ → Option (BpLoc × String)
  | refuse _ => none
  | place key condition _ =>
      match prior.lookup key with
      | some _ => none
      | none => some (locOf key, condition)

/-- The locations the engine resolves when it is asked for these. -/
def resolves (e : EngineModel) :
    List (BpLoc × String) → DbgEng → List BpLoc
  | [], _ => []
  | (loc, condition) :: asks, w =>
      match callSetBreakpoint e loc condition w with
      | (.ok _, w) => loc :: resolves e asks w
      | (.error _, w) => resolves e asks w

/-- What comes after a new location is new after it. -/
theorem apart_cons {loc : BpLoc} {locs placed : List BpLoc}
    (hnew : loc ∉ locs) (hd : ∀ l ∈ loc :: locs, l ∉ placed) :
    ∀ l ∈ locs, l ∉ loc :: placed := by
  intro l hm hl
  rcases List.mem_cons.mp hl with rfl | hl
  · exact hnew hm
  · exact hd _ (List.mem_cons_of_mem _ hm) hl

section

variable {e : EngineModel} {κ : Type} [DecidableEq κ] {locOf : κ → BpLoc}
  {w w' : DbgEng}

/-- What a `SetBreakpoint` command does. -/
inductive Asked (e : EngineModel) (loc : BpLoc) (condition : String)
    (w : DbgEng) : Except BackendError BreakpointResult → DbgEng → Prop
  | placed (r : BreakpointResult) (hv : r.verified = true)
      (hf : r.id ∉ w.live.map Prod.fst) :
      Asked e loc condition w (.ok r) { w with
        live := (r.id, loc) :: w.live
        asked := (loc, some r.id) :: w.asked
        conditions := w.stored r.id condition }
  | failed (m : String) :
      Asked e loc condition w (.error (.dap m)) { w with
        live := e.left w loc condition ++ w.live
        asked := (loc, none) :: w.asked }
  | closing : Asked e loc condition w (.error .closed) { w with
        asked := (loc, none) :: w.asked, gone := true }
  | closed (hg : w.gone = true) : Asked e loc condition w (.error .closed) w

theorem callSetBreakpoint_asked (e : EngineModel) [e.Fresh] (loc : BpLoc)
    (condition : String) (w : DbgEng) :
    Asked e loc condition w (callSetBreakpoint e loc condition w).1
      (callSetBreakpoint e loc condition w).2 := by
  unfold callSetBreakpoint
  cases hg : w.gone with
  | true => exact .closed hg
  | false =>
      rw [if_neg Bool.false_ne_true]
      cases hr : e.setBreakpoint w loc condition with
      | ok id =>
          have hp : Asked e loc condition w _ _ := .placed
            ⟨id, true, loc.line, "", false⟩ rfl (EngineModel.Fresh.fresh hr).2
          rw [hg] at hp
          exact hp
      | failed m => exact hg ▸ .failed m
      | closed => exact .closing

-- ============================================================ the loop

/-- A setter's loop that has answered every request: a refused one gets
its own answer, a tracked one the tracked one's, and any other the
engine's. -/
inductive Places (e : EngineModel) (locOf : κ → BpLoc) (prior : BpMap κ) :
    List (Want κ) → BpMap κ → DbgEng → List BreakpointResult → BpMap κ →
      DbgEng → Prop
  | done {newMap : BpMap κ} {w : DbgEng} (hg : w.gone = false) :
      Places e locOf prior [] newMap w [] newMap w
  | refuse {wants : List (Want κ)} {newMap newMap' : BpMap κ}
      {w w' : DbgEng} {results : List BreakpointResult}
      {r : BreakpointResult}
      (h : Places e locOf prior wants newMap w results newMap' w') :
      Places e locOf prior (.refuse r :: wants) newMap w (r :: results)
        newMap' w'
  | reuse {wants : List (Want κ)} {newMap newMap' : BpMap κ}
      {w w' : DbgEng} {results : List BreakpointResult}
      {r : BreakpointResult} {key : κ} {condition : String} {line : Int}
      (hr : prior.lookup key = some r)
      (h : Places e locOf prior wants (newMap.insert key r) w results
        newMap' w') :
      Places e locOf prior (.place key condition line :: wants) newMap w
        (r :: results) newMap' w'
  | set {wants : List (Want κ)} {newMap newMap' : BpMap κ}
      {w w₁ w' : DbgEng} {results : List BreakpointResult}
      {r : BreakpointResult} {key : κ} {condition : String} {line : Int}
      (hp : prior.lookup key = none)
      (hs : callSetBreakpoint e (locOf key) condition w = (.ok r, w₁))
      (hw : w₁ = { w with
        live := (r.id, locOf key) :: w.live
        asked := (locOf key, some r.id) :: w.asked
        conditions := w.stored r.id condition })
      (hv : r.verified = true) (hf : r.id ∉ w.live.map Prod.fst)
      (h : Places e locOf prior wants (newMap.insert key r) w₁ results
        newMap' w') :
      Places e locOf prior (.place key condition line :: wants) newMap w
        (r :: results) newMap' w'
  | fail {wants : List (Want κ)} {newMap newMap' : BpMap κ}
      {w w₁ w' : DbgEng} {results : List BreakpointResult}
      {r : BreakpointResult} {key : κ} {condition m : String} {line : Int}
      (hp : prior.lookup key = none)
      (hs : callSetBreakpoint e (locOf key) condition w
        = (.error (.dap m), w₁))
      (hw : w₁ = { w with
        live := e.left w (locOf key) condition ++ w.live
        asked := (locOf key, none) :: w.asked })
      (hv : r.verified = false)
      (h : Places e locOf prior wants newMap w₁ results newMap' w') :
      Places e locOf prior (.place key condition line :: wants) newMap w
        (r :: results) newMap' w'

/-- The setters' loop, after its first request. -/
theorem placeAll_rest {locOf : κ → BpLoc} {prior m : BpMap κ}
    {wants : List (Want κ)} {w₁ w' : DbgEng} {r : BreakpointResult}
    {out : Except BackendError (List BreakpointResult × BpMap κ)}
    (ih : ∀ {out}, placeAll e locOf prior wants m w₁ = (out, w') →
      w'.gone = false → ∃ results newMap', out = .ok (results, newMap') ∧
        Places e locOf prior wants m w₁ results newMap' w')
    (h : (match placeAll e locOf prior wants m w₁ with
      | (.ok (results, newMap), w) => (.ok (r :: results, newMap), w)
      | (.error err, w) => (.error err, w)) = (out, w'))
    (hg : w'.gone = false) :
    ∃ results newMap', out = .ok (r :: results, newMap') ∧
      Places e locOf prior wants m w₁ results newMap' w' := by
  cases hr : placeAll e locOf prior wants m w₁ with
  | mk o w₂ =>
      rw [hr] at h
      cases o with
      | error err =>
          cases h
          obtain ⟨_, _, ho, -⟩ := ih hr hg
          cases ho
      | ok p =>
          cases h
          obtain ⟨_, _, ho, hP⟩ := ih hr hg
          cases ho
          exact ⟨_, _, rfl, hP⟩

/-- The setters' loop, if the engine is still there at the end. -/
theorem placeAll_places [e.Fresh] {locOf : κ → BpLoc} {prior : BpMap κ}
    (wants : List (Want κ)) :
    ∀ {newMap w out w'},
      placeAll e locOf prior wants newMap w = (out, w') →
      w'.gone = false →
      ∃ results newMap', out = .ok (results, newMap') ∧
        Places e locOf prior wants newMap w results newMap' w' := by
  induction wants with
  | nil =>
      intro newMap w out w' h hg
      cases h
      exact ⟨[], newMap, rfl, .done hg⟩
  | cons want wants ih =>
      intro newMap w out w' h hg
      cases want with
      | refuse r =>
          obtain ⟨_, _, ho, hP⟩ := placeAll_rest ih h hg
          exact ⟨_, _, ho, .refuse hP⟩
      | place key condition line =>
          unfold placeAll at h
          cases hp : prior.lookup key with
          | some r =>
              rw [hp] at h
              obtain ⟨_, _, ho, hP⟩ := placeAll_rest ih h hg
              exact ⟨_, _, ho, .reuse hp hP⟩
          | none =>
              rw [hp] at h
              have hasked :=
                callSetBreakpoint_asked e (locOf key) condition w
              cases hs : callSetBreakpoint e (locOf key) condition w with
              | mk out₁ w₁ =>
                  rw [hs] at hasked h
                  cases hasked with
                  | placed r hv₁ hf =>
                      simp only [bpResultOrContinue, hv₁, if_true] at h
                      obtain ⟨_, _, ho, hP⟩ := placeAll_rest ih h hg
                      exact ⟨_, _, ho, .set hp hs rfl hv₁ hf hP⟩
                  | failed m =>
                      simp only [bpResultOrContinue,
                        Bool.false_eq_true, if_false] at h
                      obtain ⟨_, _, ho, hP⟩ := placeAll_rest ih h hg
                      exact ⟨_, _, ho, .fail hp hs rfl rfl hP⟩
                  | closing =>
                      cases h
                      cases hg
                  | closed hg₁ =>
                      cases h
                      cases hg₁.symm.trans hg

/-- The engine was there from the start. -/
theorem Places.alive {prior newMap newMap' : BpMap κ}
    {wants : List (Want κ)} {results : List BreakpointResult}
    (h : Places e locOf prior wants newMap w results newMap' w') :
    w.gone = false := by
  induction h with
  | done hg => exact hg
  | refuse _ ih => exact ih
  | reuse _ _ ih => exact ih
  | set _ _ hw _ _ _ ih =>
      rw [hw] at ih
      exact ih
  | fail _ _ hw _ _ ih =>
      rw [hw] at ih
      exact ih

/-- The state of a setter's loop: the engine has what the new map records,
what was tracked before, and what is outside the category. `placed` are
the locations it has set. -/
structure Placing (locOf : κ → BpLoc) (prior : BpMap κ)
    (base : BpLoc → Option Int) (placed : List BpLoc) (newMap : BpMap κ)
    (w : DbgEng) : Prop where
  view : ∃ table, Matches w.live table ∧
    (∀ key, table (locOf key)
      = ((newMap.lookup key).or (prior.lookup key)).map (·.id)) ∧
    ∀ loc, (∀ key, loc ≠ locOf key) → table loc = base loc
  origin : ∀ {key r}, newMap.lookup key = some r →
    prior.lookup key = some r ∨
      prior.lookup key = none ∧ locOf key ∈ placed
  recorded : ∀ {loc}, loc ∈ placed →
    ∃ key r, loc = locOf key ∧ newMap.lookup key = some r
  verified : ∀ {key r}, newMap.lookup key = some r → r.verified = true

/-- The answer to one request: a refused one gets its own, and a verified
one is in the new map. -/
def Want.Answered (newMap : BpMap κ) : Want κ → BreakpointResult → Prop
  | refuse result, r => r = result
  | place key _ _, r => r.verified = true → newMap.lookup key = some r

/-- What a setter's loop has done to its new map. -/
structure Placed (prior : BpMap κ) (wants : List (Want κ))
    (results : List BreakpointResult) (newMap newMap' : BpMap κ) :
    Prop where
  reply : List.Forall₂ (Want.Answered newMap') wants results
  grows : ∀ {key r}, newMap.lookup key = some r →
    newMap'.lookup key = some r
  source : ∀ {key r}, newMap'.lookup key = some r →
    newMap.lookup key = some r ∨ key ∈ wants.filterMap Want.key?
  kept : ∀ {key r}, prior.lookup key = some r →
    key ∈ wants.filterMap Want.key? → newMap'.lookup key = some r

/-- What an insertion leaves to find. -/
theorem lookup_insert_some {m : BpMap κ} {key k : κ}
    {r r' : BreakpointResult} (h : (m.insert key r).lookup k = some r') :
    k = key ∧ r = r' ∨ k ≠ key ∧ m.lookup k = some r' := by
  by_cases hk : k = key
  · subst hk
    rw [AList.lookup_insert] at h
    exact .inl ⟨rfl, Option.some.inj h⟩
  · rw [AList.lookup_insert_ne hk] at h
    exact .inr ⟨hk, h⟩

/-- An insertion forgets no key. -/
theorem lookup_insert_keeps {m : BpMap κ} {k : κ} {r' : BreakpointResult}
    (key : κ) (r : BreakpointResult) (h : m.lookup k = some r') :
    ∃ r'', (m.insert key r).lookup k = some r'' := by
  by_cases hk : k = key
  · subst hk
    exact ⟨r, AList.lookup_insert _⟩
  · exact ⟨r', (AList.lookup_insert_ne hk).trans h⟩

section

variable {prior newMap newMap' : BpMap κ} {base : BpLoc → Option Int}
  {placed : List BpLoc} {key : κ} {r : BreakpointResult}

/-- The new map agrees with what was tracked before. -/
theorem Placing.agrees (hI : Placing locOf prior base placed newMap w)
    (hr : prior.lookup key = some r) {r' : BreakpointResult}
    (hn : newMap.lookup key = some r') : r' = r := by
  rcases hI.origin hn with ho | ⟨ho, -⟩
  · exact Option.some.inj (ho.symm.trans hr)
  · cases ho.symm.trans hr

/-- A key that is not tracked and was not set is not in the new map. -/
theorem Placing.unset (hI : Placing locOf prior base placed newMap w)
    (hp : prior.lookup key = none) (hn : locOf key ∉ placed) :
    newMap.lookup key = none := by
  cases hk : newMap.lookup key with
  | none => rfl
  | some r =>
      rcases hI.origin hk with ho | ⟨-, ho⟩
      · cases ho.symm.trans hp
      · exact absurd ho hn

/-- Reusing a tracked key keeps the loop's state. -/
theorem Placing.reuse (hI : Placing locOf prior base placed newMap w)
    (hr : prior.lookup key = some r) (hv : r.verified = true) :
    Placing locOf prior base placed (newMap.insert key r) w := by
  obtain ⟨table, hm, hkey, hbase⟩ := hI.view
  refine ⟨⟨table, hm, fun k => ?_, hbase⟩, fun hk => ?_, fun hl => ?_,
    fun hk => ?_⟩
  · rw [hkey]
    by_cases hkk : k = key
    · subst hkk
      rw [AList.lookup_insert, Option.some_or, hr]
      cases hn : newMap.lookup k with
      | none => rfl
      | some r' => rw [hI.agrees hr hn, Option.some_or]
    · rw [AList.lookup_insert_ne hkk]
  · rcases lookup_insert_some hk with ⟨rfl, rfl⟩ | ⟨-, hk⟩
    · exact .inl hr
    · exact hI.origin hk
  · obtain ⟨k, r', rfl, hk⟩ := hI.recorded hl
    obtain ⟨r'', hk⟩ := lookup_insert_keeps key r hk
    exact ⟨k, r'', rfl, hk⟩
  · rcases lookup_insert_some hk with ⟨-, rfl⟩ | ⟨-, hk⟩
    · exact hv
    · exact hI.verified hk

/-- A new location that is set keeps it, if it was not set before. -/
theorem Placing.place (hinj : Function.Injective locOf)
    (hI : Placing locOf prior base placed newMap w)
    (hp : prior.lookup key = none) (hn : locOf key ∉ placed)
    (hv : r.verified = true) (hf : r.id ∉ w.live.map Prod.fst)
    (conditions : AList fun _ : Int => String) :
    Placing locOf prior base (locOf key :: placed) (newMap.insert key r)
      { w with
        live := (r.id, locOf key) :: w.live
        asked := (locOf key, some r.id) :: w.asked
        conditions } := by
  obtain ⟨table, hm, hkey, hbase⟩ := hI.view
  have hfree : table (locOf key) = none := by
    rw [hkey, hI.unset hp hn, hp]
    rfl
  refine ⟨⟨_, hm.add hf hfree, fun k => ?_, fun loc hl => ?_⟩,
    fun hk => ?_, fun hl => ?_, fun hk => ?_⟩
  · by_cases hkk : k = key
    · subst hkk
      rw [Function.update_self, AList.lookup_insert]
      rfl
    · rw [Function.update_of_ne fun he => hkk (hinj he),
        AList.lookup_insert_ne hkk, hkey]
  · rw [Function.update_of_ne (hl key), hbase loc hl]
  · rcases lookup_insert_some hk with ⟨rfl, rfl⟩ | ⟨-, hk⟩
    · exact .inr ⟨hp, List.mem_cons_self ..⟩
    · rcases hI.origin hk with ho | ⟨ho, hm⟩
      · exact .inl ho
      · exact .inr ⟨ho, List.mem_cons_of_mem _ hm⟩
  · rcases List.mem_cons.mp hl with rfl | hl
    · exact ⟨key, r, rfl, AList.lookup_insert _⟩
    · obtain ⟨k, r', rfl, hk⟩ := hI.recorded hl
      obtain ⟨r'', hk⟩ := lookup_insert_keeps key r hk
      exact ⟨k, r'', rfl, hk⟩
  · rcases lookup_insert_some hk with ⟨-, rfl⟩ | ⟨-, hk⟩
    · exact hv
    · exact hI.verified hk

/-- One request more. -/
theorem Placed.cons {newMap₁ : BpMap κ} {want : Want κ}
    {wants : List (Want κ)} {results : List BreakpointResult}
    (h : Placed prior wants results newMap₁ newMap')
    (hg : ∀ {k r'}, newMap.lookup k = some r' →
      newMap₁.lookup k = some r')
    (ha : want.Answered newMap₁ r)
    (hs : ∀ {k r'}, newMap₁.lookup k = some r' →
      newMap.lookup k = some r' ∨ want.key? = some k)
    (hk : ∀ {k r'}, prior.lookup k = some r' → want.key? = some k →
      newMap₁.lookup k = some r') :
    Placed prior (want :: wants) (r :: results) newMap newMap' where
  reply := by
    refine .cons ?_ h.reply
    cases want with
    | refuse _ => exact ha
    | place k _ _ => exact fun hv => h.grows (ha hv)
  grows h' := h.grows (hg h')
  source h' := by
    rcases h.source h' with h' | h'
    · refine (hs h').imp_right fun h' => ?_
      exact List.mem_filterMap.mpr ⟨want, List.mem_cons_self .., h'⟩
    · obtain ⟨want', hm, hw⟩ := List.mem_filterMap.mp h'
      exact .inr (List.mem_filterMap.mpr
        ⟨want', List.mem_cons_of_mem _ hm, hw⟩)
  kept hp hm := by
    obtain ⟨want', hm, hw⟩ := List.mem_filterMap.mp hm
    rcases List.mem_cons.mp hm with rfl | hm
    · exact h.grows (hk hp hw)
    · exact h.kept hp (List.mem_filterMap.mpr ⟨want', hm, hw⟩)

/-- What a setter's loop does to the engine and to its new map. -/
structure Looped (e : EngineModel) (locOf : κ → BpLoc) (prior : BpMap κ)
    (wants : List (Want κ)) (results : List BreakpointResult)
    (newMap newMap' : BpMap κ) (w w' : DbgEng) : Prop where
  alive : w.gone = false
  asked : ∀ {loc id}, (loc, id) ∈ w'.asked → (loc, id) ∈ w.asked ∨
    ∃ key ∈ wants.filterMap Want.key?, loc = locOf key
  places : ∀ {base placed},
    (∀ {key r}, prior.lookup key = some r → r.verified = true) →
    (resolves e (wants.filterMap (Want.ask? locOf prior)) w).Nodup →
    (∀ loc ∈ resolves e (wants.filterMap (Want.ask? locOf prior)) w,
      loc ∉ placed) →
    Placing locOf prior base placed newMap w →
    Placing locOf prior base
        ((resolves e (wants.filterMap (Want.ask? locOf prior))
          w).reverse ++ placed) newMap' w' ∧
      Placed prior wants results newMap newMap'

/-- A refused request is answered and no more. -/
theorem Looped.refuse {wants : List (Want κ)}
    {results : List BreakpointResult}
    (h : Looped e locOf prior wants results newMap newMap' w w') :
    Looped e locOf prior (.refuse r :: wants) (r :: results) newMap
      newMap' w w' where
  alive := h.alive
  asked := h.asked
  places hv hnd hd hI := by
    obtain ⟨hI, hP⟩ := h.places hv hnd hd hI
    exact ⟨hI, hP.cons id rfl .inl nofun⟩

/-- A tracked key is reused. -/
theorem Looped.reuse {wants : List (Want κ)}
    {results : List BreakpointResult} {condition : String} {line : Int}
    (hr : prior.lookup key = some r)
    (h : Looped e locOf prior wants results (newMap.insert key r) newMap'
      w w') :
    Looped e locOf prior (.place key condition line :: wants)
      (r :: results) newMap newMap' w w' := by
  have hask : (wants.filterMap (Want.ask? locOf prior))
      = (Want.place key condition line :: wants).filterMap
        (Want.ask? locOf prior) := by
    rw [List.filterMap_cons_none]
    simp only [Want.ask?, hr]
  refine ⟨h.alive, fun hm => ?_, fun hv hnd hd hI => ?_⟩
  · refine (h.asked hm).imp_right fun ⟨k, hk, hl⟩ => ⟨k, ?_, hl⟩
    exact List.mem_cons_of_mem _ hk
  · rw [← hask] at hnd hd ⊢
    obtain ⟨hI', hP⟩ := h.places hv hnd hd (hI.reuse hr (hv hr))
    refine ⟨hI', hP.cons (fun {k r'} hk => ?_) (fun _ => ?_)
      (fun hk => ?_) (fun {k r'} hk hw => ?_)⟩
    · by_cases hkk : k = key
      · subst hkk
        rw [AList.lookup_insert, hI.agrees hr hk]
      · exact (AList.lookup_insert_ne hkk).trans hk
    · exact AList.lookup_insert _
    · rcases lookup_insert_some hk with ⟨rfl, -⟩ | ⟨-, hk⟩
      · exact .inr rfl
      · exact .inl hk
    · cases hw
      rw [AList.lookup_insert, ← hr, hk]

/-- A new key is what the engine is asked for next. -/
theorem asks_cons {wants : List (Want κ)} {condition : String}
    {line : Int} (hp : prior.lookup key = none) :
    (Want.place key condition line :: wants).filterMap
        (Want.ask? locOf prior)
      = (locOf key, condition)
        :: wants.filterMap (Want.ask? locOf prior) :=
  List.filterMap_cons_some (by simp only [Want.ask?, hp])

omit [DecidableEq κ] in
/-- A request more that was asked for. -/
theorem asked_cons {wants : List (Want κ)} {condition : String}
    {line : Int} {answer : Option Int} {w₁ : DbgEng}
    (hw : w₁.asked = (locOf key, answer) :: w.asked)
    (h : ∀ {loc id}, (loc, id) ∈ w'.asked → (loc, id) ∈ w₁.asked ∨
      ∃ k ∈ wants.filterMap Want.key?, loc = locOf k)
    {loc : BpLoc} {id : Option Int} (hm : (loc, id) ∈ w'.asked) :
    (loc, id) ∈ w.asked ∨
      ∃ k ∈ (Want.place key condition line :: wants).filterMap Want.key?,
        loc = locOf k := by
  rcases h hm with hm | ⟨k, hk, hl⟩
  · rw [hw] at hm
    rcases List.mem_cons.mp hm with he | hm
    · cases he
      exact .inr ⟨key, List.mem_cons_self .., rfl⟩
    · exact .inl hm
  · exact .inr ⟨k, List.mem_cons_of_mem _ hk, hl⟩

/-- A new key is set. -/
theorem Looped.set (hinj : Function.Injective locOf)
    {wants : List (Want κ)} {results : List BreakpointResult}
    {condition : String} {line : Int} {w₁ : DbgEng}
    (hp : prior.lookup key = none)
    (hs : callSetBreakpoint e (locOf key) condition w = (.ok r, w₁))
    (hw : w₁ = { w with
      live := (r.id, locOf key) :: w.live
      asked := (locOf key, some r.id) :: w.asked
      conditions := w.stored r.id condition })
    (hv : r.verified = true) (hf : r.id ∉ w.live.map Prod.fst)
    (h : Looped e locOf prior wants results (newMap.insert key r) newMap'
      w₁ w') :
    Looped e locOf prior (.place key condition line :: wants)
      (r :: results) newMap newMap' w w' := by
  have hres : resolves e ((Want.place key condition line
      :: wants).filterMap (Want.ask? locOf prior)) w
      = locOf key
        :: resolves e (wants.filterMap (Want.ask? locOf prior)) w₁ := by
    rw [asks_cons hp]
    simp only [resolves, hs]
  refine ⟨?_, fun {loc id} hm => ?_,
    fun {base placed} hprior hnd hd hI => ?_⟩
  · rw [← h.alive, hw]
  · exact asked_cons (by rw [hw]) h.asked hm
  · rw [hres] at hnd hd ⊢
    obtain ⟨hnew, hnd⟩ := List.nodup_cons.mp hnd
    have hout : locOf key ∉ placed := hd _ (List.mem_cons_self ..)
    obtain ⟨hI', hP⟩ := h.places hprior hnd (apart_cons hnew hd)
      (hw ▸ hI.place hinj hp hout hv hf _)
    refine ⟨?_, hP.cons (fun {k r'} hk => ?_) (fun _ => ?_) (fun hk => ?_)
      (fun {k r'} hk hw => ?_)⟩
    · rw [List.reverse_cons, List.append_assoc]
      exact hI'
    · refine (AList.lookup_insert_ne ?_).trans hk
      rintro rfl
      cases (hI.unset hp hout).symm.trans hk
    · exact AList.lookup_insert _
    · rcases lookup_insert_some hk with ⟨rfl, -⟩ | ⟨-, hk⟩
      · exact .inr rfl
      · exact .inl hk
    · cases hw
      cases hp.symm.trans hk

/-- A new key fails to resolve. -/
theorem Looped.fail [e.SetsWhole] {wants : List (Want κ)}
    {results : List BreakpointResult} {condition m : String} {line : Int}
    {w₁ : DbgEng} (hp : prior.lookup key = none)
    (hs : callSetBreakpoint e (locOf key) condition w
      = (.error (.dap m), w₁))
    (hw : w₁ = { w with
      live := e.left w (locOf key) condition ++ w.live
      asked := (locOf key, none) :: w.asked })
    (hv : r.verified = false)
    (h : Looped e locOf prior wants results newMap newMap' w₁ w') :
    Looped e locOf prior (.place key condition line :: wants)
      (r :: results) newMap newMap' w w' := by
  have hres : resolves e ((Want.place key condition line
      :: wants).filterMap (Want.ask? locOf prior)) w
      = resolves e (wants.filterMap (Want.ask? locOf prior)) w₁ := by
    rw [asks_cons hp]
    simp only [resolves, hs]
  refine ⟨?_, fun {loc id} hm => ?_,
    fun {base placed} hprior hnd hd hI => ?_⟩
  · rw [← h.alive, hw]
  · exact asked_cons (by rw [hw]) h.asked hm
  · rw [hres] at hnd hd ⊢
    have hI₁ : Placing locOf prior base placed newMap w₁ := by
      rw [hw, e.left_eq_nil]
      exact ⟨hI.view, hI.origin, hI.recorded, hI.verified⟩
    obtain ⟨hI', hP⟩ := h.places hprior hnd hd hI₁
    refine ⟨hI', hP.cons id (fun hv' => ?_) .inl (fun {k r'} hk hw => ?_)⟩
    · cases hv.symm.trans hv'
    · cases hw
      cases hp.symm.trans hk

/-- The setters' loop does just that. -/
theorem Places.looped [e.SetsWhole] (hinj : Function.Injective locOf)
    {wants : List (Want κ)} {results : List BreakpointResult}
    (h : Places e locOf prior wants newMap w results newMap' w') :
    Looped e locOf prior wants results newMap newMap' w w' := by
  induction h with
  | done hg =>
      exact ⟨hg, .inl, fun _ _ _ hI => ⟨hI, .nil, id, .inl, nofun⟩⟩
  | refuse _ ih => exact ih.refuse
  | reuse hr _ ih => exact ih.reuse hr
  | set hp hs hw hv hf _ ih => exact ih.set hinj hp hs hw hv hf
  | fail hp hs hw hv _ ih => exact ih.fail hp hs hw hv

/-- If the engine is still there at the end, it answers every
request. -/
theorem placeAll_looped [e.Fresh] [e.SetsWhole]
    (hinj : Function.Injective locOf)
    (wants : List (Want κ))
    {out : Except BackendError (List BreakpointResult × BpMap κ)}
    (h : placeAll e locOf prior wants newMap w = (out, w'))
    (hg : w'.gone = false) :
    ∃ results newMap', out = .ok (results, newMap') ∧
      Looped e locOf prior wants results newMap newMap' w w' := by
  obtain ⟨_, _, ho, hP⟩ := placeAll_places wants h hg
  exact ⟨_, _, ho, hP.looped hinj⟩

end

-- ============================================================= removal

/-- A removal, if the engine is still there after it. -/
theorem removeEngineBreakpoint_alive {id : Int}
    {out : Except BackendError Unit}
    (h : removeEngineBreakpoint e id w = (out, w'))
    (hg : w'.gone = false) :
    out = .ok () ∧ w.gone = false ∧ w'.asked = w.asked := by
  unfold removeEngineBreakpoint at h
  by_cases hid : id ≤ 0
  · rw [if_pos hid] at h
    cases h
    exact ⟨rfl, hg, rfl⟩
  · rw [if_neg hid] at h
    unfold callRemoveBreakpoint at h
    cases hw : w.gone with
    | true =>
        rw [hw, if_pos rfl] at h
        cases h
        cases hw.symm.trans hg
    | false =>
        rw [hw, if_neg Bool.false_ne_true] at h
        cases hr : e.removeBreakpoint w id with
        | ok u | failed m =>
            rw [hr] at h
            cases h
            exact ⟨rfl, rfl, rfl⟩
        | closed =>
            rw [hr] at h
            cases h
            cases hg

/-- What it is to remove is no longer live. -/
theorem removeEngineBreakpoint_live [e.Removes] {id : Int}
    {out : Except BackendError Unit}
    (h : removeEngineBreakpoint e id w = (out, w'))
    (hg : w'.gone = false) (hid : 0 < id) :
    w'.live = w.live.filter fun x => x.1 ≠ id := by
  have hw : w.gone = false := (removeEngineBreakpoint_alive h hg).2.1
  unfold removeEngineBreakpoint at h
  rw [if_neg (by omega)] at h
  unfold callRemoveBreakpoint at h
  rw [hw, if_neg Bool.false_ne_true] at h
  cases hr : e.removeBreakpoint w id with
  | ok u =>
      rw [hr] at h
      cases h
      rfl
  | failed m =>
      rw [hr] at h
      cases h
      -- it is not there
      have hid : id ∉ w.live.map Prod.fst := fun hm =>
        EngineModel.Removes.removes hm hr
      refine (List.filter_eq_self.mpr fun x hx => ?_).symm
      rw [decide_eq_true_iff]
      rintro rfl
      exact hid (List.mem_map_of_mem hx)
  | closed =>
      rw [hr] at h
      cases h
      cases hg

/-- The removal pass, if the engine is still there after it. -/
theorem removeStale_alive {desired : List κ}
    (entries : List (Sigma fun _ : κ => BreakpointResult)) :
    ∀ {w out}, removeStale e desired entries w = (out, w') →
      w'.gone = false →
      out = .ok () ∧ w.gone = false ∧ w'.asked = w.asked := by
  induction entries with
  | nil =>
      intro w out h hg
      cases h
      exact ⟨rfl, hg, rfl⟩
  | cons x rest ih =>
      intro w out h hg
      unfold removeStale at h
      by_cases hx : x.1 ∈ desired
      · rw [if_pos hx] at h
        exact ih h hg
      · rw [if_neg hx] at h
        cases hr : removeEngineBreakpoint e x.2.id w with
        | mk o w₁ =>
            rw [hr] at h
            cases o with
            | error err =>
                cases h
                cases (removeEngineBreakpoint_alive hr hg).1
            | ok u =>
                obtain ⟨ho, hg₁, ha⟩ := ih h hg
                obtain ⟨-, hw, ha₁⟩ := removeEngineBreakpoint_alive hr hg₁
                exact ⟨ho, hw, ha.trans ha₁⟩

/-- The removal pass: what it was to remove is no longer live, and the
rest is as it was. -/
theorem removeStale_done [e.Removes] {desired : List κ}
    (hinj : Function.Injective locOf)
    (entries : List (Sigma fun _ : κ => BreakpointResult)) :
    ∀ {w out table}, removeStale e desired entries w = (out, w') →
      w'.gone = false → Matches w.live table → entries.NodupKeys →
      (∀ x ∈ entries, table (locOf x.1) = some x.2.id) →
      (∀ x ∈ entries, x.1 ∉ desired → 0 < x.2.id) →
      ∃ table', Matches w'.live table' ∧
        (∀ x ∈ entries, x.1 ∉ desired → table' (locOf x.1) = none) ∧
        ∀ loc, (∀ x ∈ entries, x.1 ∉ desired → loc ≠ locOf x.1) →
          table' loc = table loc := by
  induction entries with
  | nil =>
      intro w out table h hg hm _ _ _
      cases h
      exact ⟨table, hm, nofun, fun _ _ => rfl⟩
  | cons x rest ih =>
      intro w out table h hg hm hnd ht hid
      obtain ⟨hnew, hnd⟩ := List.nodupKeys_cons.mp hnd
      have htail : ∀ y ∈ rest, table (locOf y.1) = some y.2.id :=
        fun y hy => ht y (List.mem_cons_of_mem _ hy)
      have hidtail : ∀ y ∈ rest, y.1 ∉ desired → 0 < y.2.id :=
        fun y hy => hid y (List.mem_cons_of_mem _ hy)
      unfold removeStale at h
      by_cases hx : x.1 ∈ desired
      · rw [if_pos hx] at h
        obtain ⟨table', hm', hdrop, hkeep⟩ := ih h hg hm hnd htail hidtail
        refine ⟨table', hm', fun y hy hn => ?_,
          fun loc hl => hkeep loc fun y hy =>
            hl y (List.mem_cons_of_mem _ hy)⟩
        rcases List.mem_cons.mp hy with rfl | hy
        · exact absurd hx hn
        · exact hdrop y hy hn
      · rw [if_neg hx] at h
        cases hr : removeEngineBreakpoint e x.2.id w with
        | mk o w₁ =>
            rw [hr] at h
            cases o with
            | error err =>
                cases h
                cases (removeEngineBreakpoint_alive hr hg).1
            | ok u =>
                obtain ⟨-, hg₁, -⟩ := removeStale_alive rest h hg
                have hlive := removeEngineBreakpoint_live hr hg₁
                have hm₁ : Matches w₁.live
                    (Function.update table (locOf x.1) none) :=
                  hlive (hid x (List.mem_cons_self ..) hx)
                    ▸ hm.drop (ht x (List.mem_cons_self ..))
                have hother : ∀ y ∈ rest, locOf y.1 ≠ locOf x.1 := by
                  intro y hy he
                  exact hnew (hinj he ▸ List.mem_keys_of_mem hy)
                obtain ⟨table', hm', hdrop, hkeep⟩ := ih h hg hm₁ hnd
                  (fun y hy => (Function.update_of_ne (hother y hy) ..).trans
                    (htail y hy)) hidtail
                refine ⟨table', hm', fun y hy hn => ?_, fun loc hl => ?_⟩
                · rcases List.mem_cons.mp hy with rfl | hy
                  · rw [hkeep _ fun z hz _ => (hother z hz).symm,
                      Function.update_self]
                  · exact hdrop y hy hn
                · rw [hkeep loc fun z hz =>
                      hl z (List.mem_cons_of_mem _ hz),
                    Function.update_of_ne
                      (hl x (List.mem_cons_self ..) hx)]

-- ============================================================= setters

/-- What a setter has done to its category, when it returns. -/
structure Replaced (e : EngineModel) (locOf : κ → BpLoc) (prior : BpMap κ)
    (base : BpLoc → Option Int) (wants : List (Want κ))
    (results : List BreakpointResult) (newMap : BpMap κ) (w w' : DbgEng) :
    Prop where
  view : ∃ table, Matches w'.live table ∧
    (∀ key, table (locOf key) = (newMap.lookup key).map (·.id)) ∧
    ∀ loc, (∀ key, loc ≠ locOf key) → table loc = base loc
  asked : ∀ {loc id}, (loc, id) ∈ w'.asked → (loc, id) ∈ w.asked ∨
    ∃ key ∈ wants.filterMap Want.key?, loc = locOf key
  verified : ∀ {key r}, newMap.lookup key = some r → r.verified = true
  reply : List.Forall₂ (Want.Answered newMap) wants results
  kept : ∀ {key r}, prior.lookup key = some r →
    key ∈ wants.filterMap Want.key? → newMap.lookup key = some r
  known : ∀ {key r}, newMap.lookup key = some r →
    key ∈ wants.filterMap Want.key? ∧ (prior.lookup key = some r ∨
      locOf key ∈ resolves e (wants.filterMap (Want.ask? locOf prior)) w)
  fresh : ∀ {loc},
    loc ∈ resolves e (wants.filterMap (Want.ask? locOf prior)) w →
      ∃ key r, loc = locOf key ∧ newMap.lookup key = some r

variable {prior : BpMap κ} {base : BpLoc → Option Int}

/-- A setter's loop starts with nothing in its new map. -/
theorem Placing.start (hm : Matches w.live base)
    (hb : ∀ key, base (locOf key) = (prior.lookup key).map (·.id)) :
    Placing locOf prior base [] ∅ w where
  view := ⟨base, hm, fun key => by
    rw [AList.lookup_empty, Option.none_or, hb], fun _ _ => rfl⟩
  origin h := by
    rw [AList.lookup_empty] at h
    cases h
  recorded := nofun
  verified h := by
    rw [AList.lookup_empty] at h
    cases h

/-- The loop and the removal pass, one after the other. -/
theorem replaced_of_done [e.Fresh] [e.SetsWhole] [e.Removes]
    (hinj : Function.Injective locOf)
    (hv : ∀ {k r}, prior.lookup k = some r → r.verified = true)
    (hm : Matches w.live base)
    (hb : ∀ key, base (locOf key) = (prior.lookup key).map (·.id))
    {wants : List (Want κ)} {results : List BreakpointResult}
    {newMap : BpMap κ} {w₁ : DbgEng} {out : Except BackendError Unit}
    (hplace : placeAll e locOf prior wants ∅ w
      = (.ok (results, newMap), w₁))
    (hremove : removeStale e (wants.filterMap Want.key?) prior.entries w₁
      = (out, w')) (hg : w'.gone = false)
    (hnd : (resolves e (wants.filterMap (Want.ask? locOf prior)) w).Nodup)
    (hid : ∀ {key r}, prior.lookup key = some r →
      key ∉ wants.filterMap Want.key? → 0 < r.id) :
    Replaced e locOf prior base wants results newMap w w' := by
  obtain ⟨-, hg₁, ha⟩ := removeStale_alive _ hremove hg
  obtain ⟨_, _, ho, hL⟩ := placeAll_looped hinj wants hplace hg₁
  cases ho
  obtain ⟨hI, hP⟩ := hL.places hv hnd (fun _ _ => List.not_mem_nil)
    (Placing.start hm hb)
  rw [List.append_nil] at hI
  obtain ⟨table, hm₁, hkey, hbase⟩ := hI.view
  have hentry : ∀ {x}, x ∈ prior.entries →
      prior.lookup x.1 = some x.2 := fun hx =>
    AList.mem_lookup_iff.mpr hx
  have htracked : ∀ x ∈ prior.entries,
      table (locOf x.1) = some x.2.id := by
    intro x hx
    rw [hkey, hentry hx]
    cases hn : newMap.lookup x.1 with
    | none => rfl
    | some r => rw [hI.agrees (hentry hx) hn, Option.some_or, Option.map_some]
  obtain ⟨table', hm', hdrop, hkeep⟩ := removeStale_done hinj _ hremove hg
    hm₁ prior.nodupKeys htracked fun x hx hn => hid (hentry hx) hn
  have hdesired : ∀ {key r}, newMap.lookup key = some r →
      key ∈ wants.filterMap Want.key? := by
    intro key r h
    rcases hP.source h with h | h
    · rw [AList.lookup_empty] at h
      cases h
    · exact h
  refine ⟨⟨table', hm', fun key => ?_, fun loc hl => ?_⟩, fun hx => ?_,
    hI.verified, hP.reply, hP.kept, fun h => ⟨hdesired h, ?_⟩,
    fun hl => hI.recorded (List.mem_reverse.mpr hl)⟩
  · by_cases hd : key ∈ wants.filterMap Want.key?
    · rw [hkeep _ fun x _ hn he => hn (hinj he ▸ hd), hkey]
      cases hp : prior.lookup key with
      | none => rw [Option.or_none]
      | some r => rw [hP.kept hp hd, Option.some_or]
    · have hnone : newMap.lookup key = none := by
        cases hn : newMap.lookup key with
        | none => rfl
        | some r => exact absurd (hdesired hn) hd
      rw [hnone]
      cases hp : prior.lookup key with
      | none =>
          have hout : ∀ x ∈ prior.entries,
              x.1 ∉ wants.filterMap Want.key? →
              locOf key ≠ locOf x.1 := by
            intro x hx _ he
            cases hp.symm.trans (hinj he ▸ hentry hx)
          rw [hkeep _ hout, hkey, hnone, hp]
          rfl
      | some r =>
          rw [hdrop ⟨key, r⟩ (AList.mem_lookup_iff.mp hp) hd]
          rfl
  · rw [hkeep loc fun x _ _ => hl x.1, hbase loc hl]
  · rw [ha] at hx
    exact hL.asked hx
  · exact (hI.origin h).imp_right fun h => List.mem_reverse.mp h.2

end

end DebugMcp
