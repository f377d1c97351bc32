/-
A registry of live resources, and a table that is to describe it.

`live` lists the resources that exist, each with the key it was made for;
the table says which resource a key is believed to have. `Matches` says
that they agree: no id is live twice, and a resource is live at a key
exactly when the table has it there. So every key has at most one
(`Matches.count`).

# Rules

- `Matches.add`: a new resource at a key the table has nothing for.
- `Matches.drop`: the resource of a key is removed, and forgotten.
-/
import Mathlib.Data.List.Nodup
import Mathlib.Logic.Function.Basic

namespace Registry

variable {ι κ : Type} {live : List (ι × κ)} {table table' : κ → Option ι}
  {i : ι} {k : κ}

/-- What is live is what the table has. -/
structure Matches (live : List (ι × κ)) (table : κ → Option ι) :
    Prop where
  nodup : (live.map Prod.fst).Nodup
  held : ∀ {i k}, (i, k) ∈ live ↔ table k = some i

/-- Nothing is live, and nothing is in the table. -/
theorem Matches.nil : Matches ([] : List (ι × κ)) fun _ => none where
  nodup := .nil
  held := ⟨nofun, nofun⟩

/-- Two tables with the same entries. -/
theorem Matches.congr (hm : Matches live table)
    (h : ∀ k, table' k = table k) : Matches live table' where
  nodup := hm.nodup
  held := by
    intro i k
    rw [h]
    exact hm.held

/-- A fresh resource at a free key. -/
theorem Matches.add [DecidableEq κ] (hm : Matches live table)
    (hi : i ∉ live.map Prod.fst) (hk : table k = none) :
    Matches ((i, k) :: live) (Function.update table k (some i)) where
  nodup := List.nodup_cons.mpr ⟨hi, hm.nodup⟩
  held := by
    intro j l
    rw [List.mem_cons]
    by_cases hl : l = k
    · subst hl
      rw [Function.update_self]
      constructor
      · rintro (he | hj)
        · cases he
          rfl
        · cases (hm.held.mp hj).symm.trans hk
      · intro he
        cases he
        exact .inl rfl
    · rw [Function.update_of_ne hl, ← hm.held]
      constructor
      · rintro (he | hj)
        · cases he
          exact absurd rfl hl
        · exact hj
      · exact .inr

/-- A resource is removed, and its key forgets it. -/
theorem Matches.drop [DecidableEq ι] [DecidableEq κ]
    (hm : Matches live table) (hk : table k = some i) :
    Matches (live.filter fun x => x.1 ≠ i)
      (Function.update table k none) where
  nodup := (List.filter_sublist.map Prod.fst).nodup hm.nodup
  held := by
    intro j l
    rw [List.mem_filter, decide_eq_true_iff]
    by_cases hl : l = k
    · subst hl
      rw [Function.update_self]
      constructor
      · rintro ⟨hj, hne⟩
        cases (hm.held.mp hj).symm.trans hk
        exact absurd rfl hne
      · exact nofun
    · rw [Function.update_of_ne hl, ← hm.held]
      -- One id is live at one key only.
      refine ⟨And.left, fun hj => ⟨hj, fun he => ?_⟩⟩
      have he : j = i := he
      subst he
      have hboth := List.inj_on_of_nodup_map hm.nodup hj (hm.held.mpr hk) rfl
      exact hl (congrArg Prod.snd hboth)

/-- A key has one resource if the table has one for it, and else none. -/
theorem Matches.count [DecidableEq κ] (hm : Matches live table) (k : κ) :
    (live.filter fun x => x.2 = k).length
      = if (table k).isSome then 1 else 0 := by
  have hmem : ∀ x ∈ live.filter (fun x => decide (x.2 = k)),
      table k = some x.1 := by
    rintro ⟨j, l⟩ hx
    obtain ⟨hj, hl⟩ := List.mem_filter.mp hx
    have hl : l = k := of_decide_eq_true hl
    exact hl ▸ hm.held.mp hj
  cases hk : table k with
  | none =>
      have hnil : live.filter (fun x => decide (x.2 = k)) = [] := by
        refine List.eq_nil_iff_forall_not_mem.mpr fun x hx => ?_
        cases (hmem x hx).symm.trans hk
      rw [hnil]
      rfl
  | some i =>
      have hpos : 0 < (live.filter fun x => decide (x.2 = k)).length :=
        List.length_pos_of_mem (List.mem_filter.mpr
          ⟨hm.held.mpr hk, decide_eq_true rfl⟩)
      have hnd : ((live.filter fun x => decide (x.2 = k)).map
          Prod.fst).Nodup :=
        (List.filter_sublist.map Prod.fst).nodup hm.nodup
      have hall : ∀ j ∈ (live.filter fun x => decide (x.2 = k)).map
          Prod.fst, j = i := by
        intro j hj
        obtain ⟨x, hx, rfl⟩ := List.mem_map.mp hj
        exact Option.some.inj ((hmem x hx).symm.trans hk)
      rw [List.eq_replicate_of_mem hall, List.nodup_replicate,
        List.length_map] at hnd
      show _ = 1
      omega

end Registry
