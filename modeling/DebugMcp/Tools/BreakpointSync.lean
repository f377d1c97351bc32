/-
Concurrent breakpoint updates.

`set_breakpoint`, `set_function_breakpoint` and `remove_breakpoint` each
read a column, send the backend the whole column with their own edit
made, and commit the edit to the session once the backend acknowledged
it. Read, acknowledgement and commit are three steps.

# Result

`edits_not_lost`: in every run in which each acknowledgement finds the
column as its call read it, with no other acknowledged edit of it still
to be committed, the last list the backend acknowledged for a column is
the tracked one whenever no call is in progress. The invariant is one
step finer: an acknowledged list is the tracked list, or the tracked
list with the edit made that some call has still to commit.

`edits_lost` replays two overlapping `set_breakpoint` calls on one file.
-/
import DebugMcp.Tools.Tracking

namespace DebugMcp

open Conc

-- ==================================================== what a call did

/-- The newest value of `f` among the events of call `i`. -/
def lastBy {γ : Type} (f : ToolEvent → Option γ) (i : Nat) :
    History → Option γ
  | [] => none
  | ev :: h => (if ev.who = some i then f ev else none).or (lastBy f i h)

section

variable {γ : Type} {f : ToolEvent → Option γ} {i : Nat} {ev : ToolEvent}
  {h : History}

theorem lastBy_cons_other (hi : ev.who ≠ some i) :
    lastBy f i (ev :: h) = lastBy f i h := by
  rw [lastBy, if_neg hi, Option.none_or]

theorem lastBy_cons_none (hf : f ev = none) :
    lastBy f i (ev :: h) = lastBy f i h := by
  rw [lastBy, hf, ite_self, Option.none_or]

theorem lastBy_cons_some {x : γ} (hi : ev.who = some i)
    (hf : f ev = some x) : lastBy f i (ev :: h) = some x := by
  rw [lastBy, if_pos hi, hf, Option.some_or]

end

/-- The column a handler reads. -/
def readOf : ToolEvent → Option (List Request)
  | .act _ (.inl (.sourceBreakpointsForFile f)) bps _ _ =>
      some (bps.map (.source f))
  | .act _ (.inl .allFunctionBreakpoints) bps _ _ =>
      some (bps.map .function)
  | _ => none

/-- The entry a removal peeks at. -/
def peekedOf : ToolEvent → Option BreakpointInfo
  | .act _ (.inl (.breakpointInfo _)) info _ _ => info
  | _ => none

/-- The list call `i` read. -/
abbrev lastRead : Nat → History → Option (List Request) := lastBy readOf

/-- The entry call `i` peeked at, when it is a removal. -/
abbrev peeked : Nat → History → Option BreakpointInfo := lastBy peekedOf

/-- Does a handler commit its edit in this event? -/
def isCommit : ToolEvent → Bool
  | .act _ (.inl (.addSourceBreakpoint _ _ _)) _ _ _ => true
  | .act _ (.inl (.addFunctionBreakpoint _ _)) _ _ _ => true
  | .act _ (.inl (.removeBreakpointById _)) _ _ _ => true
  | _ => false

/-- The entry a removal commits. -/
def removedId : ToolEvent → Option Int
  | .act _ (.inl (.removeBreakpointById id)) _ _ _ => some id
  | _ => none

-- ==================================================== acknowledgements

/-- The requests of a list that a positional reply does not decline. -/
def acknowledged : List Request → List BreakpointResult → List Request
  | r :: rs, a :: as =>
      if a.rejected then acknowledged rs as else r :: acknowledged rs as
  | rs, _ => rs

/-- A full list the backend answered without an error. -/
structure Ack where
  column : Column
  requests : List Request
  replies : List BreakpointResult

namespace Ack

/-- Does the handler go on to commit its edit? A removal always does;
`set_breakpoint` unless the reply is empty; `set_function_breakpoint`
unless the last result is a rejection. -/
def goesOn (a : Ack) (removing : Bool) : Bool :=
  removing ||
    match a.column with
    | .file _ => !a.replies.isEmpty
    | .functions => !a.replies.getLast?.any (·.rejected)

/-- The reply declines exactly what the handler leaves untracked: the
last request when it does not go on to its commit, and none when it
does. -/
def DeclinesUntracked (a : Ack) (removing : Bool) : Prop :=
  acknowledged a.requests a.replies
    = if a.goesOn removing then a.requests else a.requests.dropLast

instance (a : Ack) (removing : Bool) :
    Decidable (a.DeclinesUntracked removing) :=
  inferInstanceAs (Decidable (_ = _))

end Ack

/-- The acknowledgement in an event. -/
def ackOf : ToolEvent → Option Ack
  | .act _ (.inr (.setSourceBreakpoints _ f bps)) (.ok rs) _ _ =>
      some ⟨.file f, bps.map (.source f), rs⟩
  | .act _ (.inr (.setFunctionBreakpoints _ bps)) (.ok rs) _ _ =>
      some ⟨.functions, bps.map .function, rs⟩
  | _ => none

/-- The last list the backend acknowledged for a column. -/
def lastAck (κ : Column) : History → Option (List Request)
  | [] => none
  | ev :: h =>
      match ackOf ev with
      | some a =>
          if a.column = κ then some (acknowledged a.requests a.replies)
          else lastAck κ h
      | none => lastAck κ h

/-- The calls whose edit of a column was acknowledged and is still to be
committed. -/
def uncommitted (κ : Column) : History → List Nat
  | [] => []
  | ev :: h =>
      if isCommit ev then
        (uncommitted κ h).filter fun j => ev.who != some j
      else
        match ackOf ev, ev.who with
        | some a, some i =>
            if a.column = κ ∧ a.goesOn (peeked i h).isSome then
              i :: uncommitted κ h
            else uncommitted κ h
        | _, _ => uncommitted κ h

section

variable {κ : Column} {i : Nat} {ev : ToolEvent} {h : History}

theorem lastAck_cons_none (hack : ackOf ev = none) :
    lastAck κ (ev :: h) = lastAck κ h := by
  simp only [lastAck, hack]

theorem uncommitted_cons_quiet (hack : ackOf ev = none)
    (hc : isCommit ev = false) :
    uncommitted κ (ev :: h) = uncommitted κ h := by
  simp [uncommitted, hack, hc]

theorem uncommitted_cons_commit (hi : ev.who = some i)
    (hc : isCommit ev = true) :
    uncommitted κ (ev :: h) = (uncommitted κ h).filter (i != ·) := by
  rw [uncommitted, if_pos hc, hi]
  rfl

theorem uncommitted_cons_ack {a : Ack} (hi : ev.who = some i)
    (hack : ackOf ev = some a) (hc : isCommit ev = false) :
    uncommitted κ (ev :: h)
      = if a.column = κ ∧ a.goesOn (peeked i h).isSome then
          i :: uncommitted κ h
        else uncommitted κ h := by
  simp [uncommitted, hack, hc, hi]

end

-- ============================================================ condition

/-- An acknowledgement finds its column as the call read it, with no
acknowledged edit of it uncommitted, and declines what the handler
leaves untracked; a removal commits what it peeked at. -/
def EditsInOrder (h : History) (ev : ToolEvent) : Prop :=
  ∀ i ∈ ev.who,
    (∀ a ∈ ackOf ev,
      (∀ L ∈ lastRead i h, ev.pre.session.tracked a.column = L) ∧
      uncommitted a.column h = [] ∧
      a.DeclinesUntracked (peeked i h).isSome) ∧
    (∀ id ∈ removedId ev,
      (ev.pre.session.breakpointInfo id).map BreakpointInfo.target
        = (peeked i h).map BreakpointInfo.target)

instance (h : History) (ev : ToolEvent) :
    Decidable (EditsInOrder h ev) :=
  inferInstanceAs (Decidable (∀ i ∈ ev.who,
    (∀ a ∈ ackOf ev,
      (∀ L ∈ lastRead i h, ev.pre.session.tracked a.column = L) ∧
      uncommitted a.column h = [] ∧
      a.DeclinesUntracked (peeked i h).isSome) ∧
    (∀ id ∈ removedId ev,
      (ev.pre.session.breakpointInfo id).map BreakpointInfo.target
        = (peeked i h).map BreakpointInfo.target)))

-- ======================================================== one call's step

/-- The edit a handler has still to commit. -/
def BpPhase.owes : BpPhase → Option Edit
  | .addFile f bp _ => some (.add (.source f bp))
  | .addName bp _ => some (.add (.function bp))
  | .removing _ info => some (.cut info.target)
  | _ => none

theorem BpPhase.owes_eq_none {q : BpPhase} (h : q.committing = false) :
    q.owes = none := by
  cases q <;> first | rfl | cases h

/-- What a handler carries is what its history says. -/
def BpInv (i : Nat) (h : History) : BpPhase → Prop
  | .start | .guarded | .ready _ => peeked i h = none
  | .readFile _ f bps =>
      peeked i h = none ∧ lastRead i h = some (bps.map (.source f))
  | .readNames _ bps =>
      peeked i h = none ∧ lastRead i h = some (bps.map .function)
  | .peeked _ info | .peekedReady _ info _ | .removing _ info =>
      peeked i h = some info
  | .cutFile _ info _ bps =>
      peeked i h = some info ∧ info.ty = .source ∧
        lastRead i h = some (bps.map (.source info.file))
  | .cutNames _ info _ bps =>
      peeked i h = some info ∧ info.ty = .function ∧
        lastRead i h = some (bps.map .function)
  | _ => True

/-- Another call's event leaves it so. -/
theorem BpInv.cons {i : Nat} {h : History} {q : BpPhase} {ev : ToolEvent}
    (hI : BpInv i h q) (hi : ev.who ≠ some i) : BpInv i (ev :: h) q := by
  have hp : peeked i (ev :: h) = peeked i h := lastBy_cons_other hi
  have hl : lastRead i (ev :: h) = lastRead i h := lastBy_cons_other hi
  cases q <;> simp only [BpInv, hp, hl] at hI ⊢ <;> exact hI

section

variable {i : Nat} {h : History} {q q' : BpPhase} {β : Type}
  {op : ToolOp β} {a : Answer} {b : β} {w w' : ToolServer}

/-- The handler's own step does too. -/
theorem BpInv.step (hI : BpInv i h q) (hq : BpNext q op b q') :
    BpInv i (.act i op b w w' :: h) q' := by
  cases hq with
  | guardOk | state | current =>
      exact (lastBy_cons_none rfl).trans hI
  | readFile b f bps =>
      exact ⟨(lastBy_cons_none rfl).trans hI, lastBy_cons_some rfl rfl⟩
  | readNames b bps =>
      exact ⟨(lastBy_cons_none rfl).trans hI, lastBy_cons_some rfl rfl⟩
  | peek id info => exact lastBy_cons_some rfl rfl
  | peekedCurrent => exact (lastBy_cons_none rfl).trans hI
  | cutFile id info b bps hty =>
      exact ⟨(lastBy_cons_none rfl).trans hI, hty,
        lastBy_cons_some rfl rfl⟩
  | cutNames id info b bps hty =>
      exact ⟨(lastBy_cons_none rfl).trans hI, hty,
        lastBy_cons_some rfl rfl⟩
  | sendCutFile | sendCutNames =>
      exact (lastBy_cons_none rfl).trans hI.1
  | _ => trivial

/-- What one step of a handler can do: nothing to any column, an
acknowledgement, or a commit. -/
inductive SyncStep (i : Nat) (h : History) (ev : ToolEvent)
    (q q' : BpPhase) (w w' : ToolServer) : Prop
  | quiet (hack : ackOf ev = none) (hc : isCommit ev = false)
      (ho : q.owes = none) (ho' : q'.owes = none)
      (ht : ∀ κ, w'.session.tracked κ = w.session.tracked κ)
  | ack (a : Ack) (e : Edit) (L : List Request)
      (hack : ackOf ev = some a) (hc : isCommit ev = false)
      (hread : lastRead i h = some L) (hcol : e.column = a.column)
      (hreq : a.requests = e.apply L)
      (hdrop : a.goesOn (peeked i h).isSome = false →
        a.requests.dropLast = L)
      (ho : q.owes = none)
      (ho' : q'.owes
        = if a.goesOn (peeked i h).isSome then some e else none)
      (ht : ∀ κ, w'.session.tracked κ = w.session.tracked κ)
  | commit (e : Edit) (hack : ackOf ev = none) (hc : isCommit ev = true)
      (ho : q.owes = some e) (ho' : q'.owes = none)
      (ht : ∀ κ, w'.session.tracked κ
        = editColumn (some e) κ (w.session.tracked κ))

/-- A lock section without an edit changes no column. -/
private theorem tracked_inl {op : SessionOp β}
    (hr : w.run (.inl op) a = some (b, w')) (hre : op.reshapes = false)
    (κ : Column) : w'.session.tracked κ
      = editColumn (op.edit w.session) κ (w.session.tracked κ) := by
  rw [(ToolServer.run_inl hr).2]
  exact op.run_tracked w.session hre κ

/-- A server operation changes no column. -/
private theorem tracked_inr {op : ServerOp β}
    (hr : w.run (.inr op) a = some (b, w')) (κ : Column) :
    w'.session.tracked κ = w.session.tracked κ := by
  rw [ToolServer.run_inr hr]

/-- An add that was acknowledged. -/
private theorem syncStep_add {op : ServerOp β} {L : List Request}
    (r : Request) (rs : List BreakpointResult)
    (hr : w.run (.inr op) a = some (b, w'))
    (hack : ackOf (.act i (.inr op) b w w')
      = some ⟨r.column, L ++ [r], rs⟩)
    (hread : lastRead i h = some L) (hp : peeked i h = none)
    (ho : q.owes = none)
    (ho' : q'.owes = if Ack.goesOn ⟨r.column, L ++ [r], rs⟩ false
      then some (.add r) else none) :
    SyncStep i h (.act i (.inr op) b w w') q q' w w' := by
  refine .ack _ (.add r) L hack rfl hread rfl rfl (fun _ => ?_) ho ?_
    (tracked_inr hr)
  · exact List.dropLast_concat
  · rw [hp]
    exact ho'

/-- A removal that was acknowledged. -/
private theorem syncStep_cut {op : ServerOp β} {info : BreakpointInfo}
    {L : List Request} (rs : List BreakpointResult)
    (hr : w.run (.inr op) a = some (b, w'))
    (hack : ackOf (.act i (.inr op) b w w')
      = some ⟨info.target.column, (Edit.cut info.target).apply L, rs⟩)
    (hread : lastRead i h = some L) (hp : peeked i h = some info)
    (ho : q.owes = none) (ho' : q'.owes = some (.cut info.target)) :
    SyncStep i h (.act i (.inr op) b w w') q q' w w' := by
  have hgo : Ack.goesOn
      ⟨info.target.column, (Edit.cut info.target).apply L, rs⟩
      (peeked i h).isSome = true := by
    rw [hp]
    rfl
  refine .ack _ (.cut info.target) L hack rfl hread rfl rfl
    (fun hc => ?_) ho ?_ (tracked_inr hr)
  · rw [hgo] at hc
    cases hc
  · rw [hgo, ho']
    rfl

/-- The step lemma: what each step of a breakpoint handler does to the
columns. -/
theorem BpNext.syncStep (hq : BpNext q op b q') (hI : BpInv i h q)
    (hr : w.run op a = some (b, w'))
    (hok : EditsInOrder h (.act i op b w w')) :
    SyncStep i h (.act i op b w w') q q' w w' := by
  cases hq with
  | guardOk | guardErr | state | pendFile | pendName | readFile
  | readNames | record | peek | peekNone | cutFile | cutNames =>
      exact .quiet rfl rfl rfl rfl fun κ => tracked_inl hr rfl κ
  | current | noBackend | peekedCurrent | peekedNoBackend =>
      exact .quiet rfl rfl rfl rfl (tracked_inr hr)
  | sendFileErr | sendNamesErr | sendCutFileErr | sendCutNamesErr =>
      exact .quiet rfl rfl rfl rfl (tracked_inr hr)
  | sendFile b f bps bp r rs hm =>
      refine syncStep_add (.source f bp) rs hr ?_ hI.2 hI.1 rfl ?_
      · rw [ackOf, List.map_append]
        rfl
      · have hne : rs.isEmpty = false := by
          cases rs with
          | nil => cases hm
          | cons r rs => rfl
        simp [Ack.goesOn, Request.column, hne, BpPhase.owes]
  | sendFileEmpty b f bps bp =>
      refine syncStep_add (.source f bp) [] hr ?_ hI.2 hI.1 rfl rfl
      rw [ackOf, List.map_append]
      rfl
  | sendNames b bps bp rs hrej =>
      refine syncStep_add (.function bp) rs hr ?_ hI.2 hI.1
        rfl ?_
      · rw [ackOf, List.map_append]
        rfl
      · have hany : rs.getLast?.any (·.rejected) = false := by
          cases hl : rs.getLast? with
          | none => rfl
          | some r => exact hrej r hl
        simp [Ack.goesOn, Request.column, hany, BpPhase.owes]
  | sendNamesRejected b bps bp rs hrej =>
      obtain ⟨r, hl, hr'⟩ := hrej
      refine syncStep_add (.function bp) rs hr ?_ hI.2 hI.1
        rfl ?_
      · rw [ackOf, List.map_append]
        rfl
      · have hl : rs.getLast? = some r := hl
        simp [Ack.goesOn, Request.column, hl, hr', BpPhase.owes]
  | sendCutFile id info b bps rs =>
      obtain ⟨hp, hty, hread⟩ := hI
      refine syncStep_cut rs hr ?_ hread hp rfl rfl
      rw [ackOf, map_eraseLine, BreakpointInfo.target, hty]
      rfl
  | sendCutNames id info b bps rs =>
      obtain ⟨hp, hty, hread⟩ := hI
      refine syncStep_cut rs hr ?_ hread hp rfl rfl
      rw [ackOf, map_eraseName, BreakpointInfo.target, hty]
      rfl
  | addFile f bp info =>
      exact .commit _ rfl rfl rfl rfl fun κ => tracked_inl hr rfl κ
  | addName bp info =>
      exact .commit _ rfl rfl rfl rfl fun κ => tracked_inl hr rfl κ
  | addNameOnly bp =>
      exact .commit _ rfl rfl rfl rfl fun κ => tracked_inl hr rfl κ
  | remove id info r =>
      have hsame := (hok i rfl).2 id rfl
      rw [show peeked i h = some info from hI] at hsame
      refine .commit (.cut info.target) rfl rfl rfl rfl fun κ => ?_
      rw [tracked_inl hr rfl κ, SessionOp.edit]
      congr 1
      show ((w.session.breakpointInfo id).map fun info =>
        Edit.cut info.target) = some (.cut info.target)
      rw [← Function.comp_def Edit.cut BreakpointInfo.target,
        ← Option.map_map]
      exact congrArg (Option.map Edit.cut) hsame

end

-- ======================================================= the invariant

/-- The edit a call has still to commit. -/
def Phase.owes : Phase → Option Edit
  | .bp q => q.owes
  | _ => none

/-- The column is as the backend last acknowledged it, or one call has
still to commit the edit the backend acknowledged. -/
def Synced (w : ToolServer) (φ : Nat → Phase) (h : History)
    (κ : Column) : Prop :=
  (uncommitted κ h = [] ∧
    ∀ L ∈ lastAck κ h, L = w.session.tracked κ) ∨
  ∃ i e, uncommitted κ h = [i] ∧ (φ i).owes = some e ∧
    ∀ L ∈ lastAck κ h, L = e.apply (w.session.tracked κ)

/-- Every call is a breakpoint handler in order, the uncommitted edits
are those the handlers owe, and every column is synced. -/
structure SyncInv (w : ToolServer) (φ : Nat → Phase) (h : History) :
    Prop where
  bp : ∀ i, ∃ q, φ i = .bp q ∧ BpInv i h q
  owed : ∀ κ i,
    i ∈ uncommitted κ h ↔ ∃ e, (φ i).owes = some e ∧ e.column = κ
  synced : ∀ κ, Synced w φ h κ

section

variable {i : Nat} {h : History} {q q' : BpPhase} {β : Type}
  {op : ToolOp β} {b : β} {w w' : ToolServer} {φ : Nat → Phase}

/-- What the calls owe after call `i` moved to `q'`. -/
private theorem owes_update (j : Nat) :
    (Function.update φ i (.bp q') j).owes
      = if j = i then q'.owes else (φ j).owes := by
  by_cases hij : j = i
  · subst hij
    rw [Function.update_self, if_pos rfl]
    rfl
  · rw [Function.update_of_ne hij, if_neg hij]

/-- A step that touches no column keeps the invariant. -/
private theorem SyncInv.quiet (hI : SyncInv w φ h) (hφ : φ i = .bp q)
    (hbp : ∀ j, ∃ p, Function.update φ i (.bp q') j = .bp p ∧
      BpInv j (.act i op b w w' :: h) p)
    (hack : ackOf (.act i op b w w') = none)
    (hc : isCommit (.act i op b w w') = false)
    (ho : q.owes = none) (ho' : q'.owes = none)
    (ht : ∀ κ, w'.session.tracked κ = w.session.tracked κ) :
    SyncInv w' (Function.update φ i (.bp q'))
      (.act i op b w w' :: h) := by
  have howes : ∀ j, (Function.update φ i (.bp q') j).owes
      = (φ j).owes := by
    intro j
    rw [owes_update]
    split
    · next hij =>
        rw [hij, hφ, ho']
        exact ho.symm
    · rfl
  refine ⟨hbp, fun κ j => ?_, fun κ => ?_⟩
  · rw [uncommitted_cons_quiet hack hc, howes]
    exact hI.owed κ j
  · simp only [Synced, uncommitted_cons_quiet hack hc,
      lastAck_cons_none hack, howes, ht]
    exact hI.synced κ

/-- A commit keeps the invariant: the edit it makes is the one the
backend acknowledged last. -/
private theorem SyncInv.commit {e : Edit} (hI : SyncInv w φ h)
    (hφ : φ i = .bp q)
    (hbp : ∀ j, ∃ p, Function.update φ i (.bp q') j = .bp p ∧
      BpInv j (.act i op b w w' :: h) p)
    (hack : ackOf (.act i op b w w') = none)
    (hc : isCommit (.act i op b w w') = true)
    (ho : q.owes = some e) (ho' : q'.owes = none)
    (ht : ∀ κ, w'.session.tracked κ
      = editColumn (some e) κ (w.session.tracked κ)) :
    SyncInv w' (Function.update φ i (.bp q'))
      (.act i op b w w' :: h) := by
  have howes : (φ i).owes = some e := by
    rw [hφ]
    exact ho
  have hun : ∀ κ, uncommitted κ (.act i op b w w' :: h)
      = (uncommitted κ h).filter (i != ·) := fun κ =>
    uncommitted_cons_commit rfl hc
  refine ⟨hbp, fun κ j => ?_, fun κ => ?_⟩
  · rw [hun, List.mem_filter, hI.owed, owes_update]
    by_cases hij : j = i
    · subst hij
      simp [ho']
    · simp [hij, Ne.symm hij]
  · by_cases hκ : e.column = κ
    · -- The committing call is the one that owes the column's edit.
      have hmem : i ∈ uncommitted κ h := (hI.owed κ i).mpr ⟨e, howes, hκ⟩
      rcases hI.synced κ with ⟨hnil, -⟩ | ⟨i', e', hone, howes', hL⟩
      · rw [hnil] at hmem
        cases hmem
      · rw [hone, List.mem_singleton] at hmem
        subst hmem
        cases howes.symm.trans howes'
        refine .inl ⟨?_, fun L hmemL => ?_⟩
        · rw [hun, hone]
          simp
        · rw [lastAck_cons_none hack] at hmemL
          rw [ht, editColumn, if_pos hκ]
          exact hL L hmemL
    · have hnot : i ∉ uncommitted κ h := by
        intro hmem
        obtain ⟨e', he', hκ'⟩ := (hI.owed κ i).mp hmem
        cases howes.symm.trans he'
        exact hκ hκ'
      have hfilter : (uncommitted κ h).filter (i != ·)
          = uncommitted κ h := by
        refine List.filter_eq_self.mpr fun j hj => ?_
        exact bne_iff_ne.mpr fun hc => hnot (hc ▸ hj)
      have htr : w'.session.tracked κ = w.session.tracked κ := by
        rw [ht, editColumn, if_neg hκ]
      rcases hI.synced κ with ⟨hnil, hL⟩ | ⟨i', e', hone, howes', hL⟩
      · refine .inl ⟨?_, ?_⟩
        · rw [hun, hfilter, hnil]
        · rw [lastAck_cons_none hack, htr]
          exact hL
      · have hne : i' ≠ i := by
          rintro rfl
          exact hnot (hone ▸ List.mem_singleton_self _)
        refine .inr ⟨i', e', ?_, ?_, ?_⟩
        · rw [hun, hfilter, hone]
        · rw [owes_update, if_neg hne]
          exact howes'
        · rw [lastAck_cons_none hack, htr]
          exact hL

/-- An acknowledgement keeps the invariant: the acknowledged list is the
tracked one, with the call's edit made unless the handler gives up. -/
private theorem SyncInv.ack {a : Ack} {e : Edit} {L : List Request}
    (hI : SyncInv w φ h) (hφ : φ i = .bp q)
    (hbp : ∀ j, ∃ p, Function.update φ i (.bp q') j = .bp p ∧
      BpInv j (.act i op b w w' :: h) p)
    (hok : EditsInOrder h (.act i op b w w'))
    (hack : ackOf (.act i op b w w') = some a)
    (hc : isCommit (.act i op b w w') = false)
    (hread : lastRead i h = some L) (hcol : e.column = a.column)
    (hreq : a.requests = e.apply L)
    (hdrop : a.goesOn (peeked i h).isSome = false →
      a.requests.dropLast = L)
    (ho : q.owes = none)
    (ho' : q'.owes
      = if a.goesOn (peeked i h).isSome then some e else none)
    (ht : ∀ κ, w'.session.tracked κ = w.session.tracked κ) :
    SyncInv w' (Function.update φ i (.bp q'))
      (.act i op b w w' :: h) := by
  obtain ⟨hfresh, hnone, hdecl⟩ := (hok i rfl).1 a hack
  have htracked : w.session.tracked a.column = L := hfresh L hread
  have howes : (φ i).owes = none := by
    rw [hφ]
    exact ho
  have hun : ∀ κ, uncommitted κ (.act i op b w w' :: h)
      = if a.column = κ ∧ a.goesOn (peeked i h).isSome then
          i :: uncommitted κ h
        else uncommitted κ h := fun κ => uncommitted_cons_ack rfl hack hc
  have hlast : ∀ κ, lastAck κ (.act i op b w w' :: h)
      = if a.column = κ then some (acknowledged a.requests a.replies)
        else lastAck κ h := by
    intro κ
    simp only [lastAck, hack]
  refine ⟨hbp, fun κ j => ?_, fun κ => ?_⟩
  · rw [hun, owes_update]
    by_cases hij : j = i
    · subst hij
      have hnot : j ∉ uncommitted κ h := by
        intro hmem
        obtain ⟨e', he', -⟩ := (hI.owed κ j).mp hmem
        cases howes.symm.trans he'
      rw [if_pos rfl, ho', ← hcol]
      cases hgo : a.goesOn (peeked j h).isSome with
      | true => by_cases hκ : e.column = κ <;> simp [hκ, hnot]
      | false => simp [hnot]
    · rw [if_neg hij, ← hI.owed κ j]
      split <;> simp [hij]
  · by_cases hκ : a.column = κ
    · subst hκ
      rw [Synced, hun, hlast, if_pos rfl, hnone, hdecl, ht, htracked]
      cases hgo : a.goesOn (peeked i h).isSome with
      | true =>
          refine .inr ⟨i, e, by simp, ?_, ?_⟩
          · rw [owes_update, if_pos rfl, ho', hgo]
            rfl
          · rintro L' hL'
            cases hL'
            exact hreq
      | false =>
          refine .inl ⟨by simp, ?_⟩
          rintro L' hL'
          cases hL'
          exact hdrop hgo
    · rw [Synced, hun, hlast, if_neg hκ, if_neg fun hc => hκ hc.1, ht]
      rcases hI.synced κ with hS | ⟨i', e', hone, howes', hL⟩
      · exact .inl hS
      · refine .inr ⟨i', e', hone, ?_, hL⟩
        rw [owes_update, if_neg]
        · exact howes'
        · rintro rfl
          cases howes.symm.trans howes'

end

theorem syncInv_inductive :
    Inductive toolMachine ToolNext EditsInOrder SyncInv where
  act := by
    intro w w' φ h i β op a b q' hI hr hq hok
    have hr : w.run op a = some (b, w') := hr
    obtain ⟨q, hφ, hbpi⟩ := hI.bp i
    rw [hφ] at hq
    cases hq with
    | @bp _ _ q' _ _ hn =>
        have hbp : ∀ j, ∃ p, Function.update φ i (.bp q') j = .bp p ∧
            BpInv j (.act i op b w w' :: h) p := by
          intro j
          by_cases hij : j = i
          · subst hij
            exact ⟨q', Function.update_self _ _ _, hbpi.step hn⟩
          · obtain ⟨p, hp, hpi⟩ := hI.bp j
            refine ⟨p, ?_, hpi.cons fun hc => ?_⟩
            · rw [Function.update_of_ne hij]
              exact hp
            · exact hij (Option.some.inj hc).symm
        cases hn.syncStep hbpi hr hok with
        | quiet hack hc ho ho' ht =>
            exact hI.quiet hφ hbp hack hc ho ho' ht
        | ack a e L hack hc hread hcol hreq hdrop ho ho' ht =>
            exact hI.ack hφ hbp hok hack hc hread hcol hreq hdrop ho ho'
              ht
        | commit e hack hc ho ho' ht =>
            exact hI.commit hφ hbp hack hc ho ho' ht
  env := by
    intro w w' φ h e hI he hok
    have hun : ∀ κ, uncommitted κ (.env e w w' :: h)
        = uncommitted κ h := fun κ => uncommitted_cons_quiet rfl rfl
    have hlast : ∀ κ, lastAck κ (.env e w w' :: h) = lastAck κ h :=
      fun κ => lastAck_cons_none rfl
    refine ⟨fun i => ?_, fun κ i => ?_, fun κ => ?_⟩
    · obtain ⟨q, hφ, hq⟩ := hI.bp i
      exact ⟨q, hφ, hq.cons nofun⟩
    · rw [hun]
      exact hI.owed κ i
    · simp only [Synced, hun, hlast, tracked_env he]
      exact hI.synced κ

-- =========================================================== the results

/-- Is the call one of the three that change breakpoints? -/
def Call.editsBreakpoints : Call → Bool
  | .setBreakpoint _ | .setFunctionBreakpoint _ | .removeBreakpoint _ =>
      true
  | _ => false

/-- The calls that took a step. -/
def begun (h : History) : List Nat := h.filterMap Event.who

/-- A call with an edit to commit has begun. -/
theorem begun_of_uncommitted {κ : Column} {i : Nat} {h : History}
    (hi : i ∈ uncommitted κ h) : i ∈ begun h := by
  induction h with
  | nil => cases hi
  | cons ev h ih =>
      have hcons : i ∈ begun h → i ∈ begun (ev :: h) := by
        simp only [begun, List.mem_filterMap]
        rintro ⟨x, hx, hw⟩
        exact ⟨x, List.mem_cons_of_mem _ hx, hw⟩
      rw [uncommitted] at hi
      split at hi
      · exact hcons (ih (List.mem_filter.mp hi).1)
      · split at hi
        · next a j hack hw =>
            split at hi
            · rcases List.mem_cons.mp hi with rfl | hi
              · exact List.mem_filterMap.mpr ⟨ev, List.mem_cons_self, hw⟩
              · exact hcons (ih hi)
            · exact hcons (ih hi)
        · exact hcons (ih hi)

/-- When every call that began has returned, the last list the backend
acknowledged for a column is the tracked one as a multiset. -/
theorem edits_not_lost (host : Host) (calls : Nat → Call)
    (w₀ : ToolServer) (hcalls : ∀ i, (calls i).editsBreakpoints = true)
    {h : History} {s : Pool ToolOp ToolOutcome ToolServer}
    (hr : ToolRunIf host calls w₀ EditsInOrder h s)
    (hdone : ∀ i ∈ begun h, (s.returned i).isSome = true)
    {κ : Column} {L : List Request} (hL : lastAck κ h = some L) :
    L.Perm (s.world.session.tracked κ) := by
  have hinit : SyncInv w₀ (fun i => (calls i).phase₀) [] := by
    have hphase : ∀ i, (calls i).phase₀ = .bp .start := by
      intro i
      have hi := hcalls i
      cases hci : calls i <;> rw [hci] at hi <;> first | rfl | cases hi
    refine ⟨fun i => ⟨_, hphase i, rfl⟩, fun κ i => ?_, fun κ => ?_⟩
    · rw [hphase i]
      exact ⟨nofun, fun ⟨_, he, _⟩ => nomatch he⟩
    · exact .inl ⟨rfl, nofun⟩
  obtain ⟨φ, hI, hobey⟩ := toolRun_invariant syncInv_inductive hinit hr
  have hsynced : L = s.world.session.tracked κ := by
    rcases hI.synced κ with ⟨-, hS⟩ | ⟨i, e, hone, howes, -⟩
    · exact hS L hL
    · -- A call that owes an edit has begun, and has not returned.
      have hmem : i ∈ uncommitted κ h := hone ▸ List.mem_singleton_self i
      obtain ⟨o, ho⟩ :=
        Option.isSome_iff_exists.mp (hdone i (begun_of_uncommitted hmem))
      have hret : Returned (φ i) o :=
        hobey i _ (Pool.prog_of_returned ho)
      obtain ⟨q, hφ, -⟩ := hI.bp i
      rw [hφ] at hret howes
      have hnone : q.owes = none := BpPhase.owes_eq_none hret
      cases hnone.symm.trans howes
  rw [hsynced]

-- =========================================================== two runs

/-- A stopped session with a backend. -/
def stoppedServer : ToolServer :=
  { ToolServer.new with
    session := SessionManager.new.setState .stopped
    backend := some 0
    nextBackend := 1 }

/-- A `set_breakpoint` on a line of a file. -/
def setBreakpointAt (file : String) (line : Int) : Call :=
  .setBreakpoint ⟨[("file", .str file), ("line", .num line)]⟩

/-- A verified result on a line. -/
def resultAt (id line : Int) : BreakpointResult := ⟨id, true, line, "", false⟩

/-- Call `i`, its list read, is acknowledged and commits. -/
def ackSteps (i : Nat) (rs : List BreakpointResult) :
    List (Action Answer EnvMove) :=
  .step i (.results (.ok rs)) :: sync i 2

/-- Two interleaved calls on different files. -/
def twoFiles : Nat → Call
  | 0 => setBreakpointAt "a.c" 1
  | _ => setBreakpointAt "b.c" 2

/-- They overlap, and neither is lost. -/
theorem two_files_not_lost :
    ∃ h s, ToolRun lldbHost twoFiles stoppedServer h s ∧
      lastAck (.file "a.c") h = some [.source "a.c" ⟨1, ""⟩] ∧
      List.Perm [Request.source "a.c" ⟨1, ""⟩]
        (s.world.session.tracked (.file "a.c")) := by
  obtain ⟨h, s, hr, hm, hdone, hL⟩ :=
    exec_witness toolMachine (callPool lldbHost twoFiles stoppedServer)
      (sync 0 4 ++ sync 1 4 ++ ackSteps 0 [resultAt 1 1]
        ++ ackSteps 1 [resultAt 2 2])
      (fun h s => Meets EditsInOrder h ∧
        (∀ i ∈ begun h, (s.returned i).isSome = true) ∧
        lastAck (.file "a.c") h = some [.source "a.c" ⟨1, ""⟩])
      (by decide +kernel)
  refine ⟨h, s, hr, hL, ?_⟩
  refine edits_not_lost _ _ _ (fun i => ?_) (.ofMeets hr hm) hdone hL
  match i with
  | 0 | _ + 1 => rfl

/-- Two interleaved calls on one file. -/
def oneFile : Nat → Call
  | 0 => setBreakpointAt "a.c" 1
  | _ => setBreakpointAt "a.c" 2

/-- Both read the empty list; the backend is left with the second
request, the session tracks both. -/
theorem edits_lost :
    ∃ h s, ToolRun lldbHost oneFile stoppedServer h s ∧
      stoppedServer.session.inner.state = .stopped ∧
      stoppedServer.backend = some 0 ∧
      (∀ i, (oneFile i).editsBreakpoints = true) ∧
      (∀ i ∈ begun h, (s.returned i).isSome = true) ∧
      lastAck (.file "a.c") h = some [.source "a.c" ⟨2, ""⟩] ∧
      ¬ List.Perm [Request.source "a.c" ⟨2, ""⟩]
        (s.world.session.tracked (.file "a.c")) := by
  obtain ⟨h, s, hr, hdone, hL, hperm⟩ :=
    exec_witness toolMachine (callPool lldbHost oneFile stoppedServer)
      (sync 0 4 ++ sync 1 4 ++ ackSteps 0 [resultAt 1 1]
        ++ ackSteps 1 [resultAt 2 2])
      (fun h s =>
        (∀ i ∈ begun h, (s.returned i).isSome = true) ∧
        lastAck (.file "a.c") h = some [.source "a.c" ⟨2, ""⟩] ∧
        ¬ List.Perm [Request.source "a.c" ⟨2, ""⟩]
          (s.world.session.tracked (.file "a.c")))
      (by decide +kernel)
  refine ⟨h, s, hr, rfl, rfl, fun i => ?_, hdone, hL, hperm⟩
  match i with
  | 0 | _ + 1 => rfl

end DebugMcp
