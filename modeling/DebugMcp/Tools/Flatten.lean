/-
`flatten_variables`, and the walk it is a prefix of.

`walkVariables` is the plain walk: the variables of a reference in order,
each before its children, to a depth, with nothing about a cap. It is a
`Walk` (`Lib/Walk.lean`), because a fetch may fail. The code threads one
list through all its levels and leaves them all when the list is full;
what it computes is the capped walk (`flattenVariables_eq`).

The recursion is on the depth, so references may be cyclic. A negative
depth expands nothing, like 0.
-/
import DebugMcp.Core
import DebugMcp.Lib.Walk
import Mathlib.Data.List.Infix

namespace DebugMcp

/-- A variable, as a backend reports it. -/
structure Variable where
  name : String
  value : String
  ty : String
  variablesReference : Int
  named : Int
  indexed : Int
  deriving DecidableEq

/-- A flat variable. -/
structure FlatVariable where
  name : String
  value : String
  ty : String
  hasChildren : Bool
  childrenCount : Int
  deriving DecidableEq

/-- `VariableFetcher::fetch`. -/
abbrev VariableFetcher := Int → Except BackendError (List Variable)

/-- A variable with its children left out, or with none. -/
def Variable.flat (v : Variable) (name : String) : FlatVariable where
  name := name
  value := v.value
  ty := v.ty
  hasChildren := false
  childrenCount := 0

/-- A variable whose children are beyond the depth. -/
def Variable.container (v : Variable) (name : String) : FlatVariable :=
  { v.flat name with
    hasChildren := true, childrenCount := v.named + v.indexed }

/-- The name of a child. -/
def childName (parent : String) (v : Variable) : String :=
  parent ++ "." ++ v.name

/-- `str::contains`, of a string. -/
def strContains (s pat : String) : Bool :=
  s.toList.tails.any fun rest => pat.toList.isPrefixOf rest

-- ================================================================ code

/-- The loop over one level: `recurse` expands a container, where the
depth allows it. -/
def flattenLevel
    (recurse : Option (Int → String → List FlatVariable →
      Except BackendError (List FlatVariable × Bool)))
    (nameOf : Variable → String) (maxCount : Nat) :
    List Variable → List FlatVariable →
      Except BackendError (List FlatVariable × Bool)
  | [], result => .ok (result, false)
  | v :: vars, result =>
      if v.variablesReference > 0 then
        match recurse with
        | some recurse =>
            let result := result ++ [v.flat (nameOf v)]
            if result.length ≥ maxCount then .ok (result, true)
            else match recurse v.variablesReference (nameOf v) result with
              | .error err => .error err
              | .ok (result, true) => .ok (result, true)
              | .ok (result, false) =>
                  flattenLevel (some recurse) nameOf maxCount vars result
        | none =>
            let result := result ++ [v.container (nameOf v)]
            if result.length ≥ maxCount then .ok (result, true)
            else flattenLevel none nameOf maxCount vars result
      else
        let result := result ++ [v.flat (nameOf v)]
        if result.length ≥ maxCount then .ok (result, true)
        else flattenLevel recurse nameOf maxCount vars result

/-- `flatten_recursive`. -/
def flattenRecursive (fetch : VariableFetcher) (maxCount : Nat) :
    Nat → Int → String → List FlatVariable →
      Except BackendError (List FlatVariable × Bool)
  | 0, varRef, parent, result =>
      match fetch varRef with
      | .error err => .error err
      | .ok vars => flattenLevel none (childName parent) maxCount vars result
  | depth + 1, varRef, parent, result =>
      match fetch varRef with
      | .error err => .error err
      | .ok vars =>
          flattenLevel (some (flattenRecursive fetch maxCount depth))
            (childName parent) maxCount vars result

section

-- `str::to_lowercase`
variable (toLowercase : String → String)

/-- `flatten_variables`. -/
def flattenVariables (fetch : VariableFetcher) (variablesReference : Int)
    (depth : Int) (maxCount : Nat) (filter : String) :
    Except BackendError (List FlatVariable × Bool) :=
  match fetch variablesReference with
  | .error err => .error err
  | .ok vars =>
      let filterLower := toLowercase filter
      let vars := vars.filter fun v =>
        filter.isEmpty || strContains (toLowercase v.name) filterLower
      flattenLevel
        (if depth > 0 then
          some (flattenRecursive fetch maxCount (depth - 1).toNat)
        else none)
        Variable.name maxCount vars []

-- ================================================================ walk

/-- The walk of a variable: itself, then its children, if `below` walks
them. Only a container that is not walked tells that it has children,
and how many. -/
def visit (below : Option (Int → String → Walk BackendError FlatVariable))
    (nameOf : Variable → String) (v : Variable) :
    Walk BackendError FlatVariable :=
  let plain : FlatVariable :=
    { name := nameOf v, value := v.value, ty := v.ty
      hasChildren := false, childrenCount := 0 }
  if v.variablesReference > 0 then
    match below with
    | some below =>
        (Walk.one plain).andThen (below v.variablesReference (nameOf v))
    | none => .one
        { name := nameOf v, value := v.value, ty := v.ty
          hasChildren := true, childrenCount := v.named + v.indexed }
  else .one plain

/-- The walk of a reference's children, to a depth. A child's name is
its parent's, a dot and its own. -/
def walkChildren (fetch : VariableFetcher) :
    Nat → Int → String → Walk BackendError FlatVariable
  | 0, varRef, parent =>
      .level (fetch varRef) (visit none fun v => parent ++ "." ++ v.name)
  | depth + 1, varRef, parent =>
      .level (fetch varRef)
        (visit (some (walkChildren fetch depth)) fun v =>
          parent ++ "." ++ v.name)

/-- Does a name match the filter, whatever the case? -/
def MatchesFilter (filter : String) (v : Variable) : Prop :=
  filter = "" ∨
    (toLowercase filter).toList <:+: (toLowercase v.name).toList

instance (filter : String) :
    DecidablePred (MatchesFilter toLowercase filter) :=
  fun _ => inferInstanceAs (Decidable (_ ∨ _))

/-- The plain walk. -/
def walkVariables (fetch : VariableFetcher) (variablesReference : Int)
    (depth : Nat) (filter : String) : Walk BackendError FlatVariable :=
  .level
    ((fetch variablesReference).map
      (List.filter (fun v => MatchesFilter toLowercase filter v)))
    (visit (match depth with
      | 0 => none
      | depth + 1 => some (walkChildren fetch depth)) Variable.name)

end

-- ========================================================== the prefix

/-- It contains what is an infix of it. -/
theorem strContains_iff {s pat : String} :
    strContains s pat = true ↔ pat.toList <:+: s.toList := by
  unfold strContains
  rw [List.any_eq_true, List.infix_iff_prefix_suffix]
  constructor
  · rintro ⟨rest, hr, hp⟩
    exact ⟨rest, List.isPrefixOf_iff_prefix.mp hp,
      (List.mem_tails _ _).mp hr⟩
  · rintro ⟨rest, hp, hr⟩
    exact ⟨rest, (List.mem_tails _ _).mpr hr,
      List.isPrefixOf_iff_prefix.mpr hp⟩

section

variable {fetch : VariableFetcher} {maxCount : Nat}

/-- An expansion that computes the capped walk. -/
def Expands (maxCount : Nat) :
    Option (Int → String → List FlatVariable →
      Except BackendError (List FlatVariable × Bool)) →
    Option (Int → String → Walk BackendError FlatVariable) → Prop
  | none, none => True
  | some recurse, some below => ∀ varRef parent result,
      result.length < maxCount →
      recurse varRef parent result
        = (below varRef parent).capped maxCount result
  | _, _ => False

/-- Nothing is expanded, and nothing walked. -/
theorem Expands.nothing : Expands maxCount none none := trivial

/-- After an entry, the rest if the cap is not reached. -/
theorem goOn_entry {result : List FlatVariable}
    (hr : result.length < maxCount) (flat : FlatVariable)
    (next : List FlatVariable →
      Except BackendError (List FlatVariable × Bool)) :
    (if (result ++ [flat]).length ≥ maxCount
      then .ok (result ++ [flat], true) else next (result ++ [flat]))
      = Walk.goOn ((Walk.one flat).capped maxCount result) next := by
  rw [Walk.capped_one hr]
  by_cases hm : maxCount ≤ (result ++ [flat]).length
  · rw [if_pos hm, decide_eq_true hm]
    rfl
  · rw [if_neg hm, decide_eq_false hm]
    rfl

/-- The loop over a level computes the capped walk of the level. -/
theorem flattenLevel_eq {recurse below} (h : Expands maxCount recurse below)
    (nameOf : Variable → String) (vars : List Variable) :
    ∀ {result}, result.length < maxCount →
      flattenLevel recurse nameOf maxCount vars result
        = (Walk.all (vars.map (visit below nameOf))).capped maxCount
            result := by
  induction vars with
  | nil => exact fun hr => (Walk.capped_nil hr).symm
  | cons v vars ih =>
      intro result hr
      rw [List.map_cons, Walk.capped_all_cons]
      have rest (x : Walk BackendError FlatVariable) :
          Walk.goOn (x.capped maxCount result)
              (flattenLevel recurse nameOf maxCount vars)
            = Walk.goOn (x.capped maxCount result) fun r =>
              (Walk.all (vars.map (visit below nameOf))).capped maxCount
                r :=
        Walk.goOn_congr fun r hx => ih (Walk.length_of_capped hx)
      unfold flattenLevel visit
      by_cases hv : v.variablesReference > 0
      · rw [if_pos hv, if_pos hv]
        cases recurse with
        | none =>
            cases below with
            | some _ => exact h.elim
            | none => exact (goOn_entry hr _ _).trans (rest _)
        | some recurse =>
            cases below with
            | none => exact h.elim
            | some below =>
                refine Eq.trans ?_ (rest _)
                rw [Walk.capped_andThen, Walk.goOn_goOn]
                refine Eq.trans ?_ (Walk.goOn_congr fun r hx =>
                  congrArg (Walk.goOn · _)
                    (h _ _ r (Walk.length_of_capped hx)))
                refine Eq.trans ?_ (goOn_entry hr (v.flat (nameOf v)) _)
                dsimp only
                split_ifs
                · rfl
                · rcases recurse _ _ _ with e | ⟨r, _ | _⟩ <;> rfl
      · rw [if_neg hv, if_neg hv]
        exact (goOn_entry hr _ _).trans (rest _)

/-- So does `flatten_recursive`, of the walk of the children. -/
theorem flattenRecursive_expands (fetch : VariableFetcher)
    (maxCount depth : Nat) :
    Expands maxCount (some (flattenRecursive fetch maxCount depth))
      (some (walkChildren fetch depth)) := by
  induction depth with
  | zero =>
      intro varRef parent result hr
      rw [flattenRecursive, walkChildren]
      cases fetch varRef with
      | error e => exact (Walk.capped_fail hr e).symm
      | ok vars => exact flattenLevel_eq .nothing _ vars hr
  | succ depth ih =>
      intro varRef parent result hr
      rw [flattenRecursive, walkChildren]
      cases fetch varRef with
      | error e => exact (Walk.capped_fail hr e).symm
      | ok vars => exact flattenLevel_eq ih _ vars hr

end

section

variable (toLowercase : String → String) (fetch : VariableFetcher)

/-- The filter keeps what matches it. -/
theorem filter_matches (filter : String) (vars : List Variable) :
    (vars.filter fun v => filter.isEmpty ||
        strContains (toLowercase v.name) (toLowercase filter))
      = vars.filter fun v => MatchesFilter toLowercase filter v := by
  refine List.filter_congr fun v _ => ?_
  rw [Bool.eq_iff_iff, Bool.or_eq_true, strContains_iff,
    decide_eq_true_iff, String.isEmpty_iff]
  rfl

/-- `flatten_variables` computes the capped walk. -/
theorem flattenVariables_eq (variablesReference depth : Int)
    {maxCount : Nat} (h : 1 ≤ maxCount) (filter : String) :
    flattenVariables toLowercase fetch variablesReference depth maxCount
        filter
      = (walkVariables toLowercase fetch variablesReference depth.toNat
          filter).capped maxCount [] := by
  unfold flattenVariables walkVariables
  cases fetch variablesReference with
  | error e => exact (Walk.capped_fail h e).symm
  | ok vars =>
      dsimp only [Except.map]
      rw [filter_matches]
      by_cases hd : depth > 0
      · obtain ⟨d, hd'⟩ : ∃ d : Nat, depth.toNat = d + 1 :=
          ⟨depth.toNat - 1, by omega⟩
        have hpred : (depth - 1).toNat = d := by omega
        rw [if_pos hd, hpred, hd']
        exact flattenLevel_eq (flattenRecursive_expands fetch maxCount d)
          _ _ h
      · have hzero : depth.toNat = 0 := by omega
        rw [if_neg hd, hzero]
        exact flattenLevel_eq .nothing _ _ h

/-- What `flatten_variables` gives is the capped prefix of the plain
walk: truncated when the walk has as many entries as the cap, an error
when a fetch of it fails before that, and else all of it. -/
theorem flatten_capped_walk (variablesReference depth : Int)
    (maxCount : Nat) (h : 1 ≤ maxCount) (filter : String) :
    (∀ flat truncated,
      flattenVariables toLowercase fetch variablesReference depth maxCount
          filter = .ok (flat, truncated) →
        flat = (walkVariables toLowercase fetch variablesReference
          depth.toNat filter).entries.take maxCount ∧
        (truncated = true ↔ maxCount ≤ (walkVariables toLowercase fetch
          variablesReference depth.toNat filter).entries.length)) ∧
    ∀ err,
      flattenVariables toLowercase fetch variablesReference depth maxCount
          filter = .error err ↔
        (walkVariables toLowercase fetch variablesReference depth.toNat
          filter).failure = some err ∧
        (walkVariables toLowercase fetch variablesReference depth.toNat
          filter).entries.length < maxCount := by
  rw [flattenVariables_eq toLowercase fetch variablesReference depth h
    filter]
  refine ⟨fun flat truncated ho => ?_, fun err => Walk.capped_error_iff⟩
  obtain ⟨hflat, htruncated, -⟩ := Walk.capped_ok_iff.mp ho
  exact ⟨hflat, htruncated⟩

/-- A structure with a number and a node whose child is itself. -/
def selfLoop : VariableFetcher
  | 0 => .ok [⟨"len", "1", "int", 0, 0, 0⟩, ⟨"head", "..", "Node", 1, 1, 2⟩]
  | _ => .ok [⟨"next", "..", "Node", 1, 1, 2⟩]

/-- A cycle is cut at the depth bound, where the container tells of its
three children, and at the cap. -/
theorem flatten_cycle :
    ([⟨"len", "1", "int", false, 0⟩, ⟨"head", "..", "Node", false, 0⟩,
        ⟨"head.next", "..", "Node", true, 3⟩]
        = (walkVariables id selfLoop 0 1 "").entries.take 9 ∧
      (false = true ↔
        9 ≤ (walkVariables id selfLoop 0 1 "").entries.length)) ∧
    [⟨"head", "..", "Node", false, 0⟩,
        ⟨"head.next", "..", "Node", false, 0⟩]
        = (walkVariables id selfLoop 0 5 "ea").entries.take 2 ∧
      (true = true ↔
        2 ≤ (walkVariables id selfLoop 0 5 "ea").entries.length) :=
  ⟨(flatten_capped_walk id selfLoop 0 1 9 (by decide) "").1 _ _
      (by decide +kernel),
    (flatten_capped_walk id selfLoop 0 5 2 (by decide) "ea").1 _ _
      (by decide +kernel)⟩

end

end DebugMcp
