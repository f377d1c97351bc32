/-
What the end of the stream leaves behind.

`recover` clears each kind of waiter once: the table is drained, the stop
waiter cancelled, and the initialized signal is not looked at. A caller
that registers after its kind was cleared, and whose next write still
goes through, is owed by nobody. `SafeEnd` is the condition on a step
that rules out just these callers, and under it the end of the stream
leaves nobody waiting.
-/
import DebugMcp.Lldb.Replies

namespace DebugMcp

open Conc

-- ========================================================== the history

/-- Was the table drained? -/
def drained : ClientHistory → Bool
  | [] => false
  | .env (.reader _) w _ :: h =>
      match w.head with
      | some (.drainPending _) => true
      | _ => drained h
  | _ :: h => drained h

/-- Was the stop waiter cancelled by the end of the stream? -/
def cancelled : ClientHistory → Bool
  | [] => false
  | .env (.reader _) w _ :: h =>
      match w.head with
      | some (.takeStop _) => w.ended || cancelled h
      | _ => cancelled h
  | _ :: h => cancelled h

/-- Was call `i`'s last request registered after the table was
drained? -/
def late (i : Nat) : ClientHistory → Bool
  | [] => false
  | .act j (.registerPending _) _ _ _ :: h =>
      if j = i then drained h else late i h
  | _ :: h => late i h

/-- Did call `i`'s last step park it for the signal? -/
def parkedLast (i : Nat) : ClientHistory → Bool
  | [] => false
  | .act j op b _ _ :: h => if j = i then op.parks b else parkedLast i h
  | .env _ _ _ :: h => parkedLast i h

/-- Does a call await its stop waiter as soon as it has registered
it? -/
def LldbCall.awaitsAtOnce : LldbCall → Bool
  | awaitStop | attach _ _ => true
  | _ => false

/-- A step that does not leave a waiter to an adapter that is gone: no
request registered after the drain is written, no stop waiter that is
awaited at once is registered after the cancellation, nobody parks for
the signal after the end of the stream, and the stream does not end
while somebody is parked. -/
def SafeEnd (calls : Nat → LldbCall) (h : ClientHistory) :
    ClientEvent → Prop
  | .act i (.writeRequest _) .ok _ _ => late i h = false
  | .act i .registerStop _ _ _ =>
      (calls i).awaitsAtOnce = true → cancelled h = false
  | .act _ .pollInitialized b w _ => w.ended = true → b = true
  | .env .eof _ _ => ∀ i, parkedLast i h = true → signalled i h = true
  | _ => True

-- ========================================================= the recovery

/-- How far the recovery is. -/
structure EndPhase (w : DapClient) (h : ClientHistory) : Prop where
  before : w.ended = false → drained h = false ∧ cancelled h = false ∧
    ∀ e, .drainPending e ∉ w.reader
  start : w.ended = true → drained h = false → w.reader = recover
  order : cancelled h = true → drained h = true
  takes : w.ended = true → cancelled h = false →
    ∃ o, .takeStop o ∈ w.reader

namespace EndPhase

variable {w w' : DapClient} {h : ClientHistory} {op : ReaderOp}
  {rest : List ReaderOp} {k : Nat}

/-- What a step of the read loop adds to the history. -/
theorem drained_reader (hw : w.reader = op :: rest) :
    drained (.env (.reader k) w w' :: h)
      = ((match op with | .drainPending _ => true | _ => false)
        || drained h) := by
  have hh := DapClient.head_of_reader hw
  show (match w.head with
    | some (.drainPending _) => true | _ => drained h) = _
  rw [hh]
  cases op <;> rfl

theorem cancelled_reader (hw : w.reader = op :: rest) :
    cancelled (.env (.reader k) w w' :: h)
      = ((match op with | .takeStop _ => w.ended | _ => false)
        || cancelled h) := by
  have hh := DapClient.head_of_reader hw
  show (match w.head with
    | some (.takeStop _) => w.ended || cancelled h
    | _ => cancelled h) = _
  rw [hh]
  cases op <;> rfl

/-- A step of the read loop. -/
theorem reader (hI : EndPhase w h) (hw : w.reader = op :: rest)
    (hs : w.readerStep k rest op = some w') :
    EndPhase w' (.env (.reader k) w w' :: h) := by
  have hf := DapClient.readerStep_frame hw hs
  have hrest : ∀ {x}, x ∈ w'.reader → x.isSend = true ∨ x ∈ rest := by
    intro x hx
    rcases hf.next with he | ⟨y, hy, -, he⟩ <;> rw [he] at hx
    · exact .inr hx
    · rcases List.mem_cons.mp hx with rfl | hx
      · exact .inl hy
      · exact .inr hx
  have hkeep : ∀ {x}, x ∈ rest → x ∈ w'.reader := by
    intro x hx
    rcases hf.next with he | ⟨y, -, -, he⟩ <;> rw [he]
    · exact hx
    · exact List.mem_cons_of_mem _ hx
  cases hen : w.ended with
  | false =>
      obtain ⟨hd, hc, hno⟩ := hI.before hen
      have hen' : w'.ended = false := hf.ended.trans hen
      have hd' : drained (.env (.reader k) w w' :: h) = false := by
        rw [drained_reader hw, hd]
        cases op with
        | drainPending e =>
            exact absurd (hw ▸ List.mem_cons_self ..) (hno e)
        | _ => rfl
      have hc' : cancelled (.env (.reader k) w w' :: h) = false := by
        rw [cancelled_reader hw, hc, hen]
        cases op <;> rfl
      refine ⟨fun _ => ⟨hd', hc', fun e hm => ?_⟩, fun ht => ?_,
        fun ht => ?_, fun ht => ?_⟩
      · rcases hrest hm with hx | hx
        · cases hx
        · exact hno e (hw ▸ List.mem_cons_of_mem _ hx)
      · cases hen'.symm.trans ht
      · cases hc'.symm.trans ht
      · cases hen'.symm.trans ht
  | true =>
      have hen' : w'.ended = true := hf.ended.trans hen
      refine ⟨fun ht => ?_, fun _ hd => ?_, fun hc => ?_, fun _ hc => ?_⟩
      · cases hen'.symm.trans ht
      · -- Before the drain, the loop is at it.
        rw [drained_reader hw, Bool.or_eq_false_iff] at hd
        have hr := hI.start hen hd.2
        rw [hw] at hr
        cases hr
        cases hd.1
      · rw [cancelled_reader hw, hen] at hc
        rw [drained_reader hw]
        rcases Bool.or_eq_true_iff.mp hc with hc | hc
        · cases op with
          | takeStop o =>
              cases hd : drained h with
              | true => rfl
              | false =>
                  have hr := hI.start hen hd
                  rw [hw] at hr
                  cases hr
          | _ => cases hc
        · rw [hI.order hc]
          exact Bool.or_true _
      · rw [cancelled_reader hw, hen, Bool.or_eq_false_iff] at hc
        obtain ⟨o, ho⟩ := hI.takes hen hc.2
        refine ⟨o, hkeep ?_⟩
        rw [hw] at ho
        rcases List.mem_cons.mp ho with rfl | ho
        · cases hc.1
        · exact ho

end EndPhase

/-- The recovery's progress is kept by every step. -/
theorem endPhase : Inductive clientMachine PlanNext (fun _ _ => True)
    (fun w _ h => EndPhase w h) where
  act := by
    intro w w' φ h i β op a b q' hI hr _ _
    have hr : w.run i op a = some (b, w') := hr
    have hs := DapClient.run_reader hr
    refine ⟨fun he => ?_, fun he hd => ?_, hI.order, fun he hc => ?_⟩
    · rw [hs.ended] at he
      rw [hs.reader]
      exact hI.before he
    · rw [hs.ended] at he
      rw [hs.reader]
      exact hI.start he hd
    · rw [hs.ended] at he
      rw [hs.reader]
      exact hI.takes he hc
  env := by
    intro w w' φ h e hI he _
    have he : w.envMove e = some w' := he
    cases e with
    | reader k =>
        obtain ⟨op, rest, hw, hs⟩ := DapClient.envMove_reader he
        exact hI.reader hw hs
    | frame m =>
        obtain ⟨-, hen, rfl⟩ := DapClient.envMove_frame he
        obtain ⟨hd, hc, -⟩ := hI.before hen
        refine ⟨fun _ => ⟨hd, hc, dispatch_no_drain m⟩, fun ht => ?_,
          hI.order, fun ht => ?_⟩
        · cases hen.symm.trans ht
        · cases hen.symm.trans ht
    | eof =>
        obtain ⟨-, hen, rfl⟩ := DapClient.envMove_eof he
        refine ⟨nofun, fun _ _ => rfl, hI.order, fun _ _ =>
          ⟨.terminated, ?_⟩⟩
        exact List.mem_cons_of_mem _ (List.mem_cons_self ..)

-- ============================================================ requests

/-- Once the table is drained, no written request has an entry, nor has
one about to be written that was registered in time. -/
structure DrainInv (w : DapClient) (φ : Nat → CallPhase)
    (h : ClientHistory) : Prop where
  written : drained h = true → ∀ {i n c}, (n, c) ∈ (φ i).written →
    w.pending.lookup n = none
  early : drained h = true → ∀ {i n c s sv ar},
    φ i = .active s (.registered n c) sv ar → late i h = false →
    w.pending.lookup n = none

namespace DrainInv

variable {w w' : DapClient} {φ : Nat → CallPhase} {h : ClientHistory}
  {ev : ClientEvent} {i : Nat} {q' : CallPhase}

/-- A step that registers nothing. -/
theorem shrinks (hI : DrainInv w φ h)
    (hp : ∀ {n}, w.pending.lookup n = none → w'.pending.lookup n = none)
    (hd : drained (ev :: h) = drained h)
    (hl : ∀ j, late j (ev :: h) = late j h)
    (hw : drained h = true → ∀ {n c}, (n, c) ∈ q'.written →
      w.pending.lookup n = none)
    (hr : ∀ {n c s sv ar}, q' ≠ .active s (.registered n c) sv ar) :
    DrainInv w' (Function.update φ i q') (ev :: h) where
  written hdr j n c hm := by
    rw [hd] at hdr
    by_cases hij : j = i
    · subst hij
      rw [Function.update_self] at hm
      exact hp (hw hdr hm)
    · rw [Function.update_of_ne hij] at hm
      exact hp (hI.written hdr hm)
  early hdr j n c s sv ar hφ hlt := by
    rw [hd] at hdr
    rw [hl] at hlt
    by_cases hij : j = i
    · subst hij
      rw [Function.update_self] at hφ
      exact absurd hφ hr
    · rw [Function.update_of_ne hij] at hφ
      exact hp (hI.early hdr hφ hlt)

/-- An entry is registered: after the drain, it is late. -/
theorem register {n : Int} {s : List PlanStep}
    {sv : Option (Int × ChanId)} {ar : Bool} (hE : EntryInv w φ h)
    (hI : DrainInv w φ h) (hφ : φ i = .active s (.numbered n) sv ar) :
    DrainInv (w.registerPending n).2
      (Function.update φ i (.active s (.registered n w.nextChan) sv ar))
      (.act i (.registerPending n) w.nextChan w
        (w.registerPending n).2 :: h) := by
  have hi : (i, n) ∈ given h := hE.owns (by
    rw [hφ]
    exact List.mem_cons_self ..)
  have hun : w.pending.lookup n = none :=
    hE.unentered (i := i) (by rw [hφ]; rfl)
  rw [DapClient.registerPending_new hun]
  have hkeep : ∀ {m}, m ≠ n → w.pending.lookup m = none →
      (w.pending.insert n w.nextChan).lookup m = none := fun hm hl =>
    (AList.lookup_insert_ne hm).trans hl
  -- An open number of another caller, or a deferred one, is not `n`.
  have hother : ∀ {j m c}, j ≠ i → (m, c) ∈ (φ j).opens → m ≠ n := by
    intro j m c hij hm he
    subst he
    exact hij (hE.same_owner (hE.owns (CallPhase.mem_numbers hm)) hi)
  refine ⟨fun hd j m c hm => ?_, fun hd j m c s' sv' ar' hp hlt => ?_⟩
  · by_cases hij : j = i
    · subst hij
      rw [Function.update_self] at hm
      have hw : (m, c) ∈ (φ j).written := by
        rw [hφ]
        exact hm
      exact hkeep (hE.deferred_ne hφ hm) (hI.written hd hw)
    · rw [Function.update_of_ne hij] at hm
      exact hkeep (hother hij (CallPhase.written_opens hm))
        (hI.written hd hm)
  · by_cases hij : j = i
    · subst hij
      have hl : (if j = j then drained h else late j h) = false := hlt
      rw [if_pos rfl] at hl
      cases hl.symm.trans hd
    · rw [Function.update_of_ne hij] at hp
      have hl : (if i = j then drained h else late j h) = false := hlt
      rw [if_neg fun e => hij e.symm] at hl
      refine hkeep (hother (c := c) hij ?_) (hI.early hd hp hl)
      rw [hp]
      exact List.mem_cons_self ..

/-- A step of the read loop. -/
theorem reader {k : Nat} (hI : DrainInv w φ h) (ht : TableStep w k w')
    (he : w.envMove (.reader k) = some w') :
    DrainInv w' φ (.env (.reader k) w w' :: h) := by
  obtain ⟨op, rest, hw, -⟩ := DapClient.envMove_reader he
  have hd : drained (.env (.reader k) w w' :: h) = true →
      drained h = true ∨ ∃ e, op = .drainPending e := by
    intro hd
    rw [EndPhase.drained_reader hw] at hd
    rcases Bool.or_eq_true_iff.mp hd with hd | hd
    · cases op with
      | drainPending e => exact .inr ⟨e, rfl⟩
      | _ => cases hd
    · exact .inl hd
  have hd' : (∀ e, op ≠ .drainPending e) →
      drained (.env (.reader k) w w' :: h) = true → drained h = true :=
    fun hne hdr => (hd hdr).resolve_right fun ⟨e, he⟩ => hne e he
  cases ht with
  | drain hw' => exact ⟨fun _ {_ _ _} _ => rfl, fun _ {_ _ _ _ _ _} _ _ => rfl⟩
  | quiet hs hr hdel =>
      -- A drain that finds nothing finds no entry.
      have hnone : (∃ e, op = .drainPending e) → ∀ n,
          w.pending.lookup n = none := by
        rintro ⟨e, rfl⟩ n
        have hkeys : w.pending.keys = [] := by
          rw [← hr]
          unfold DapClient.resolves
          rw [hw]
        rw [AList.lookup_eq_none]
        intro hn
        have := AList.mem_keys.mp hn
        rw [hkeys] at this
        cases this
      refine ⟨fun hdr j n c hm => ?_, fun hdr j n c s sv ar hp hl => ?_⟩
      · rw [hs.pending]
        rcases hd hdr with hdr | he
        · exact hI.written hdr hm
        · exact hnone he n
      · rw [hs.pending]
        rcases hd hdr with hdr | he
        · exact hI.early hdr hp hl
        · exact hnone he n
  | @take n m c rest' hw' hn =>
      have hdr' := hd' fun e he => by
        subst he
        cases hw'.symm.trans hw
      have herase : ∀ {m}, w.pending.lookup m = none →
          (w.pending.erase n).lookup m = none := by
        intro m hm
        cases hl : (w.pending.erase n).lookup m with
        | none => rfl
        | some d => cases hm.symm.trans (lookup_erase_some hl).2
      exact ⟨fun hdr _ _ _ hm => herase (hI.written (hdr' hdr) hm),
        fun hdr _ _ _ _ _ _ hp hl => herase (hI.early (hdr' hdr) hp hl)⟩
  | deliver hw' hk =>
      have hdr' := hd' fun e he => by
        subst he
        cases hw'.symm.trans hw
      exact ⟨fun hdr _ _ _ hm => hI.written (hdr' hdr) hm,
        fun hdr _ _ _ _ _ _ hp hl => hI.early (hdr' hdr) hp hl⟩

end DrainInv

/-- A step that makes no entry makes no request late. -/
theorem late_off {i j : Nat} {h : ClientHistory} {w w' : DapClient}
    {β : Type} {op : ClientOp β} {b : β} (hop : op.enters = false) :
    late j (.act i op b w w' :: h) = late j h := by
  cases op with
  | registerPending n => cases hop
  | _ => rfl

/-- A step off the table writes a request that is registered, or leaves
the caller with no more written. -/
theorem PlanNext.written_off {p p' : CallPhase} {β : Type}
    {op : ClientOp β} {b : β} (hq : PlanNext p op b p')
    (hop : op.onTable = false) :
    (∀ x ∈ p'.written, x ∈ p.written) ∨
      ∃ n c s sv ar, p = .active s (.registered n c) sv ar ∧
        (op.wrote b).isSome ∧
        ∀ x ∈ p'.written, x = (n, c) ∨ x ∈ p.written := by
  cases hq with
  | number | register | remove => cases hop
  | write q check rest sv ar n c =>
      exact .inr ⟨n, c, _, sv, ar, rfl, rfl, fun x hx =>
        List.mem_cons.mp hx⟩
  | writeDeferred q rest ar n c =>
      exact .inr ⟨n, c, _, none, ar, rfl, rfl, fun x hx =>
        List.mem_cons.mp hx⟩
  | answer => exact .inl fun x hx => List.mem_cons_of_mem _ hx
  | ready | park | fired | registerStop => exact .inl fun x hx => hx
  | _ => exact .inl nofun

/-- Off the table, no request is registered. -/
theorem PlanNext.unregistered_off {p p' : CallPhase} {β : Type}
    {op : ClientOp β} {b : β} (hq : PlanNext p op b p')
    (hop : op.onTable = false) {n : Int} {c : ChanId}
    {s : List PlanStep} {sv : Option (Int × ChanId)} {ar : Bool} :
    p' ≠ .active s (.registered n c) sv ar := by
  cases hq with
  | register => cases hop
  | _ => exact nofun

/-- A safe write is not of a late request. -/
theorem SafeEnd.early {calls : Nat → LldbCall} {h : ClientHistory}
    {i : Nat} {β : Type} {op : ClientOp β} {b : β} {w w' : DapClient}
    (hok : SafeEnd calls h (.act i op b w w')) (hw : (op.wrote b).isSome) :
    late i h = false := by
  cases op with
  | writeRequest q =>
      cases b with
      | ok => exact hok
      | _ => cases hw
  | _ => cases hw

/-- The requests at the end of the stream, in a safe run. -/
theorem drainInv (calls : Nat → LldbCall) :
    InductiveOver clientMachine PlanNext (SafeEnd calls) EntryInv
      DrainInv where
  act := by
    intro w w' φ h i β op a b q' hE hI hr hq hok
    have hr : w.run i op a = some (b, w') := hr
    cases hop : op.onTable with
    | false =>
        have hs := DapClient.run_off_table hr hop
        refine hI.shrinks (fun hl => hs.pending ▸ hl) rfl
          (fun j => late_off (ClientOp.enters_off hop)) (fun hd n c hm => ?_)
          (hq.unregistered_off hop)
        rcases hq.written_off hop with hsub | ⟨m, d, s, sv, ar, hp, hwr,
          hsub⟩
        · exact hI.written hd (hsub _ hm)
        · rcases hsub _ hm with he | hm
          · cases he
            exact hI.early hd hp (hok.early hwr)
          · exact hI.written hd hm
    | true =>
        generalize hp : φ i = p at hq
        cases hq with
        | number s q hs rest sv ar n =>
            obtain ⟨rfl, rfl⟩ := DapClient.run_nextSeq hr
            refine hI.shrinks id rfl (fun j => rfl) (fun hd n c hm => ?_)
              nofun
            refine hI.written (i := i) (c := c) hd ?_
            rw [hp]
            exact hm
        | register s rest sv ar n c =>
            have he := DapClient.run_registerPending hr
            cases he
            exact hI.register hE hp
        | remove n ar =>
            have he := DapClient.run_removePending hr
            subst he
            refine hI.shrinks (fun {m} hm => ?_) rfl (fun j => rfl)
              (fun _ {_ _} hm => nomatch hm) nofun
            unfold DapClient.removePending
            cases hl : w.pending.lookup n with
            | none => exact hm
            | some d =>
                dsimp only
                cases hle : (w.pending.erase n).lookup m with
                | none => rfl
                | some d => cases hm.symm.trans (lookup_erase_some hle).2
        | _ => cases hop
  env := by
    intro w w' φ h e hE hI he _
    have he : w.envMove e = some w' := he
    cases e with
    | reader k => exact hI.reader (DapClient.reader_table he) he
    | frame m =>
        obtain ⟨-, -, rfl⟩ := DapClient.envMove_frame he
        exact ⟨hI.written, hI.early⟩
    | eof =>
        obtain ⟨-, -, rfl⟩ := DapClient.envMove_eof he
        exact ⟨hI.written, hI.early⟩

-- ======================================================== stop waiters

/-- Does a request follow every registration? -/
def registersFirst : List PlanStep → Bool
  | [] => true
  | .register :: .request q check :: rest =>
      registersFirst (.request q check :: rest)
  | .register :: _ => false
  | _ :: rest => registersFirst rest

/-- A plan's rest registers first too, and what follows a registration
in it is a request. -/
theorem registersFirst_rest {s : PlanStep} {rest : List PlanStep}
    (h : registersFirst (s :: rest) = true) :
    registersFirst rest = true ∧
      (s = .register → ∃ q check more, rest = .request q check :: more) := by
  cases s with
  | register =>
      cases rest with
      | nil => cases h
      | cons t rest =>
          cases t with
          | request q check => exact ⟨h, fun _ => ⟨q, check, rest, rfl⟩⟩
          | _ => cases h
  | _ => exact ⟨h, nofun⟩

/-- What follows a registration anywhere in a plan. -/
theorem registersFirst_suffix {p rest : List PlanStep}
    (hp : registersFirst p = true) (hs : .register :: rest <:+ p) :
    ∃ q check more, rest = .request q check :: more := by
  induction p with
  | nil => cases List.suffix_nil.mp hs
  | cons s p ih =>
      obtain ⟨hrest, hnext⟩ := registersFirst_rest hp
      rcases List.suffix_cons_iff.mp hs with he | hs
      · cases he
        exact hnext rfl
      · exact ih hrest hs

/-- In front of a plan, requests change nothing. -/
theorem registersFirst_append {p rest : List PlanStep}
    (hp : ∀ s ∈ p, ∃ q check, s = .request q check) :
    registersFirst (p ++ rest) = registersFirst rest := by
  induction p with
  | nil => rfl
  | cons s p ih =>
      obtain ⟨q, check, rfl⟩ := hp s (List.mem_cons_self ..)
      exact ih fun t ht => hp t (List.mem_cons_of_mem _ ht)

/-- A call that does not await at once sends a request in between. -/
theorem LldbCall.registersFirst {c : LldbCall}
    (hc : c.awaitsAtOnce = false) : registersFirst c.plan = true := by
  cases c with
  | attach _ _ | awaitStop => cases hc
  | launch stderr spec =>
      show DebugMcp.registersFirst (flushPlan stderr spec.sourceBreakpoints
        ++ (functionPlan stderr spec.functionBreakpoints
          ++ (_ :: launchTailPlan stderr spec.stopOnEntry))) = true
      rw [registersFirst_append, registersFirst_append]
      · show DebugMcp.registersFirst
          (launchTailPlan stderr spec.stopOnEntry) = true
        unfold launchTailPlan
        split <;> rfl
      · intro s hs
        unfold functionPlan at hs
        split at hs
        · cases hs
        · exact ⟨_, _, List.mem_singleton.mp hs⟩
      · intro s hs
        obtain ⟨f, -, rfl⟩ := List.mem_map.mp hs
        exact ⟨_, _, rfl⟩
  | _ => rfl

/-- Has the caller, since it registered its stop waiter, written
nothing? `l` says that its last request was registered late. -/
def CallPhase.Unwritten (l : Bool) : CallPhase → Prop
  | active (.request _ _ :: _) .idle _ _
  | active (.request _ _ :: _) (.numbered _) _ _ => True
  | active (.request _ _ :: _) (.registered _ _) _ _ => l = true
  | removing _ _ | failing _ => True
  | _ => False

/-- After the cancellation, a waiter that is in the slot is one of a
caller that has written nothing since. -/
def CancelInv (w : DapClient) (φ : Nat → CallPhase)
    (h : ClientHistory) : Prop :=
  cancelled h = true → ∀ i, w.slot = some i → (φ i).armed = true →
    (φ i).Unwritten (late i h)

/-- A caller that has written nothing writes nothing in a safe step. -/
theorem CallPhase.Unwritten.next {p p' : CallPhase} {l l' : Bool}
    {β : Type} {op : ClientOp β} {b : β} (hu : p.Unwritten l)
    (hq : PlanNext p op b p') (hop : op.onStop = false)
    (hw : (op.wrote b).isSome → l = false)
    (hl : op.enters = true → l' = true) (ha : p'.armed = true) :
    p'.Unwritten l' := by
  cases hq with
  | number s q hs rest sv ar n =>
      cases s with
      | request q check => trivial
      | _ => cases hu
  | register s rest sv ar n c =>
      cases s with
      | request q check => exact hl rfl
      | _ => cases hu
  | write q check rest sv ar n c =>
      cases (show l = true from hu).symm.trans (hw rfl)
  | writeFail | writeDropped | refuse | drop | remove | responseFail
  | unpark | stopDrop => trivial
  | registerStop | release => cases hop
  | _ => cases hu

/-- The stop waiters at the end of the stream, in a safe run. -/
theorem cancelInv (calls : Nat → LldbCall) :
    InductiveOver clientMachine PlanNext (SafeEnd calls)
      (fun w φ h => EndPhase w h ∧ ∀ i, (φ i).plan <:+ (calls i).plan)
      CancelInv where
  act := by
    intro w w' φ h i β op a b q' ⟨hE, hplan⟩ hI hr hq hok hc j hs ha
    have hr : w.run i op a = some (b, w') := hr
    have hc : cancelled h = true := hc
    cases hop : op.onStop with
    | false =>
        have hsame := DapClient.run_off_stop hr hop
        rw [hsame.slot] at hs
        by_cases hij : j = i
        · subst hij
          rw [Function.update_self] at ha ⊢
          have hu := hI hc j hs (hq.off_stop hop ha)
          refine hu.next hq hop (fun hw => hok.early hw) (fun ht => ?_) ha
          cases op with
          | registerPending n =>
              exact (if_pos rfl).trans (hE.order hc)
          | _ => cases ht
        · rw [Function.update_of_ne hij] at ha ⊢
          have hl : late j (.act i op b w w' :: h) = late j h := by
            cases op with
            | registerPending n => exact if_neg fun e => hij e.symm
            | _ => rfl
          rw [hl]
          exact hI hc j hs ha
    | true =>
        generalize hp : φ i = p at hq
        cases hq with
        | registerStop rest sv ar =>
            have he := DapClient.run_registerStop hr
            subst he
            have hij : i = j := Option.some.inj hs
            subst hij
            rw [Function.update_self]
            have hat : (calls i).awaitsAtOnce = false := by
              cases hx : (calls i).awaitsAtOnce with
              | false => rfl
              | true => cases (hok hx).symm.trans hc
            have hsuf := hplan i
            rw [hp] at hsuf
            obtain ⟨q, check, more, rfl⟩ := registersFirst_suffix
              (LldbCall.registersFirst hat) hsuf
            trivial
        | release =>
            have he := DapClient.run_dropStop hr
            subst he
            by_cases hij : j = i
            · subst hij
              rw [Function.update_self] at ha
              cases ha
            · rw [Function.update_of_ne hij] at ha ⊢
              exact hI hc j hs ha
        | _ => cases hop
  env := by
    intro w w' φ h e ⟨hE, hplan⟩ hI he _ hc j hs ha
    have he : w.envMove e = some w' := he
    cases e with
    | reader k =>
        obtain ⟨op, rest, hw, hst⟩ := DapClient.envMove_reader he
        have hf := DapClient.readerStep_frame hw hst
        rw [EndPhase.cancelled_reader hw] at hc
        cases op with
        | takeStop o =>
            -- The slot is empty now.
            have hnone : w'.slot = none := by
              unfold DapClient.readerStep at hst
              dsimp only at hst
              split at hst <;> cases hst
              · rfl
              · assumption
            cases hnone.symm.trans hs
        | sendStop l o =>
            cases hst
            exact hI hc j hs ha
        | _ =>
            rw [(hf.stop rfl).slot] at hs
            exact hI hc j hs ha
    | frame m =>
        obtain ⟨-, -, rfl⟩ := DapClient.envMove_frame he
        exact hI hc j hs ha
    | eof =>
        obtain ⟨-, -, rfl⟩ := DapClient.envMove_eof he
        exact hI hc j hs ha

-- =========================================================== the signal

/-- After the end of the stream, every parked caller has been woken. -/
structure ParkInv (w : DapClient) (φ : Nat → CallPhase)
    (h : ClientHistory) : Prop where
  last : ∀ i, (φ i).parked = true → parkedLast i h = true
  ended : w.ended = true → ∀ i, (φ i).parked = true →
    signalled i h = true

/-- A caller is parked by its last step. -/
theorem PlanNext.parked {p p' : CallPhase} {β : Type} {op : ClientOp β}
    {b : β} (hq : PlanNext p op b p') (hp : p'.parked = true) :
    op.parks b = true := by
  cases hq with
  | park => rfl
  | _ => cases hp

/-- Once woken, a parked caller stays so. -/
theorem signalled_env {j : Nat} {e : ClientMove} {w w' : DapClient}
    {h : ClientHistory} (hs : signalled j h = true) :
    signalled j (.env e w w' :: h) = true := by
  cases e with
  | reader k =>
      rw [signalled, hs]
      split <;> rfl
  | _ => exact hs

/-- A safe step parks nobody after the end. -/
theorem SafeEnd.unparked {calls : Nat → LldbCall} {h : ClientHistory}
    {i : Nat} {β : Type} {op : ClientOp β} {b : β} {p p' : CallPhase}
    {w w' : DapClient} (hok : SafeEnd calls h (.act i op b w w'))
    (hq : PlanNext p op b p') (hb : op.parks b = true) :
    w.ended = false := by
  cases hq with
  | park =>
      cases he : w.ended with
      | false => rfl
      | true => cases hok he
  | _ => cases hb

/-- The signal at the end of the stream, in a safe run. -/
theorem parkInv (calls : Nat → LldbCall) :
    Inductive clientMachine PlanNext (SafeEnd calls) ParkInv where
  act := by
    intro w w' φ h i β op a b q' hI hr hq hok
    have hr : w.run i op a = some (b, w') := hr
    refine ⟨fun j hj => ?_, fun he j hj => ?_⟩
    · show (if i = j then op.parks b else parkedLast j h) = true
      by_cases hij : i = j
      · subst hij
        rw [Function.update_self] at hj
        rw [if_pos rfl]
        exact hq.parked hj
      · rw [Function.update_of_ne fun e => hij e.symm] at hj
        rw [if_neg hij]
        exact hI.last j hj
    · rw [(DapClient.run_reader hr).ended] at he
      show (if op.parks b then if i = j then false else true
        else signalled j h) = true
      by_cases hij : i = j
      · subst hij
        rw [Function.update_self] at hj
        cases (hok.unparked hq (hq.parked hj)).symm.trans he
      · rw [Function.update_of_ne fun e => hij e.symm] at hj
        rw [if_neg hij]
        split
        · rfl
        · exact hI.ended he j hj
  env := by
    intro w w' φ h e hI he hok
    have he : w.envMove e = some w' := he
    refine ⟨hI.last, fun hen j hj => ?_⟩
    cases e with
    | reader k =>
        obtain ⟨op, rest, hw, hst⟩ := DapClient.envMove_reader he
        have hf := DapClient.readerStep_frame hw hst
        exact signalled_env (hI.ended (hf.ended ▸ hen) j hj)
    | frame m =>
        obtain ⟨-, hno, rfl⟩ := DapClient.envMove_frame he
        cases hno.symm.trans hen
    | eof => exact hok j (hI.last j hj)

-- ============================================================ the claim

/-- What is known of a safe run's state at the end of the stream. -/
structure EndInv (calls : Nat → LldbCall) (w : DapClient)
    (φ : Nat → CallPhase) (h : ClientHistory) : Prop where
  caller : CallerInv calls w φ h
  phase : EndPhase w h
  drain : DrainInv w φ h
  cancel : CancelInv w φ h
  park : ParkInv w φ h

theorem endInv (calls : Nat → LldbCall) :
    Inductive clientMachine PlanNext (SafeEnd calls) (EndInv calls) where
  act h hr hq hok := ⟨(callerInv calls).act h.caller hr hq trivial,
    endPhase.act h.phase hr hq trivial,
    (drainInv calls).act h.caller.entry h.drain hr hq hok,
    (cancelInv calls).act ⟨h.phase, h.caller.plan⟩ h.cancel hr hq hok,
    (parkInv calls).act h.park hr hq hok⟩
  env h he hok := ⟨(callerInv calls).env h.caller he trivial,
    endPhase.env (φ := fun _ => .got (.error ())) h.phase he trivial,
    (drainInv calls).env h.caller.entry h.drain he hok,
    (cancelInv calls).env ⟨h.phase, h.caller.plan⟩ h.cancel he hok,
    (parkInv calls).env h.park he hok⟩

/-- At the end of the stream, nothing a caller is at is unresolved. -/
theorem EndInv.resolved {calls : Nat → LldbCall} {w : DapClient}
    {φ : Nat → CallPhase} {h : ClientHistory} {i : Nat} {β : Type}
    {op : ClientOp β} (hI : EndInv calls w φ h)
    (hf : w.finished = true) (ha : (φ i).Awaits op) :
    w.suspends i op = false := by
  obtain ⟨hen, hr⟩ := Bool.and_eq_true_iff.mp hf
  have hr : w.reader = [] := List.isEmpty_iff.mp hr
  have hc : cancelled h = true := by
    cases hc : cancelled h with
    | true => rfl
    | false =>
        obtain ⟨o, ho⟩ := hI.phase.takes hen hc
        rw [hr] at ho
        cases ho
  have hd := hI.phase.order hc
  have hsome : ∀ {α : Type} {o : Oneshot α}, o.recv.isSome →
      o.pending = false := by
    intro α o ho
    unfold Oneshot.pending
    rw [Option.isNone_eq_false_iff]
    exact ho
  cases op with
  | recv c =>
      obtain ⟨n, hw⟩ := ha
      have hn := hI.drain.written hd hw
      have ho := (hI.caller.entry.owed (CallPhase.written_opens hw)).2
      cases ho with
      | pending hl => cases hn.symm.trans hl
      | queued _ r hx _ =>
          rw [hr] at hx
          cases hx
      | sent _ r hx _ => exact hsome (by rw [hx]; rfl)
  | recvStop =>
      obtain ⟨sv, hp⟩ := ha
      have harm : (φ i).armed = true := by
        rw [hp]
        rfl
      have hx := hI.caller.stop.held i harm
      generalize woken i h = x at hx
      cases hx with
      | waiting hs =>
          -- In the slot, it would have written nothing yet.
          have hu := hI.cancel hc i hs harm
          rw [hp] at hu
          cases hu
      | taken o rest hx =>
          rw [hr] at hx
          cases hx
      | resolved r hx => exact hsome (by rw [hx]; rfl)
  | recvInitialized =>
      obtain ⟨rest, sv, ar, hp⟩ := ha
      have ha : (φ i).parked = true := by
        rw [hp]
        rfl
      have hx := hI.caller.signal.parked i ha
      rw [hI.park.ended hen i ha] at hx
      cases hx with
      | woken hx => exact hsome hx
  | selectBoth c p => cases ha
  | _ => rfl

/-- At the start, nothing has ended. -/
theorem EndInv.start (calls : Nat → LldbCall) :
    EndInv calls .new (fun i => (calls i).phase₀) [] where
  caller := .start calls
  phase := ⟨fun _ => ⟨rfl, rfl, nofun⟩, nofun, nofun, nofun⟩
  drain := ⟨nofun, nofun⟩
  cancel := nofun
  park := ⟨nofun, nofun⟩

/-- **The end of the stream strands nobody**, in a safe run: when the
read loop is done with it, no caller waits for something that has not
happened, and the environment has no move left. -/
theorem nobody_stranded (calls : Nat → LldbCall) {h : ClientHistory}
    {s : Pool ClientOp LldbResult DapClient}
    (hr : RunIf clientMachine (SafeEnd calls) (lldbPool calls) h s)
    (hf : s.world.finished = true) (i : Nat) :
    waiting s i = false := by
  obtain ⟨φ, hI, hobey⟩ := hr.invariant (endInv calls)
    (R := fun i => (calls i).Returns)
    (fun i p hp => by cases hp; exact (calls i).obeys) (.start calls)
  cases hw : waiting s i with
  | false => rfl
  | true =>
      obtain ⟨β, op, hs, ha⟩ := waiting_awaits (hobey i) hw
      cases hs.symm.trans (hI.resolved hf ha)

/-- One caller of each kind. -/
def oneOfEach : Nat → LldbCall
  | 0 => .send Requests.pause
  | 1 => .awaitStop
  | 2 => .waitInitialized
  | _ => .absent

/-- A call that is parked has taken a step. -/
theorem parkedLast_who {i : Nat} {h : ClientHistory}
    (hp : parkedLast i h = true) : i ∈ h.filterMap Event.who := by
  induction h with
  | nil => cases hp
  | cons ev h ih =>
      cases ev with
      | act j op b w w' =>
          have hp : (if j = i then op.parks b else parkedLast i h) = true :=
            hp
          by_cases hij : j = i
          · subst hij
            exact List.mem_cons_self ..
          · rw [if_neg hij] at hp
            exact List.mem_cons_of_mem _ (ih hp)
      | env e w w' => exact ih hp

instance SafeEnd.decidable (calls : Nat → LldbCall) (h : ClientHistory) :
    ∀ ev, Decidable (SafeEnd calls h ev)
  | .act i (.writeRequest _) .ok _ _ =>
      inferInstanceAs (Decidable (late i h = false))
  | .act _ (.writeRequest _) (.failed _ _) _ _
  | .act _ (.writeRequest _) (.cancelled _) _ _
  | .act _ .nextSeq _ _ _ | .act _ (.registerPending _) _ _ _
  | .act _ (.removePending _) _ _ _ | .act _ (.recv _) _ _ _
  | .act _ .recvInitialized _ _ _ | .act _ (.selectBoth _ _) _ _ _
  | .act _ .recvStop _ _ _ | .act _ .dropStop _ _ _
  | .env (.frame _) _ _ | .env (.reader _) _ _ => .isTrue trivial
  | .act i .registerStop _ _ _ => inferInstanceAs (Decidable
      ((calls i).awaitsAtOnce = true → cancelled h = false))
  | .act _ .pollInitialized b w _ =>
      inferInstanceAs (Decidable (w.ended = true → b = true))
  | .env .eof _ _ => decidable_of_iff
      (∀ i ∈ h.filterMap Event.who,
        parkedLast i h = true → signalled i h = true)
      ⟨fun hs i hp => hs i (parkedLast_who hp) hp, fun hs i _ => hs i⟩

/-- A run in which a request and a stop waiter are registered while the
recovery runs: both are resolved. -/
theorem registered_in_time : ∃ h s,
    Run clientMachine (lldbPool oneOfEach) h s ∧
      s.world.finished = true ∧ waiting s 0 = false ∧
      waiting s 1 = false := by
  obtain ⟨h, s, hr, hm, hf⟩ := exec_witness clientMachine
    (lldbPool oneOfEach)
    [.env .eof, .step 0 .sync, .step 0 .sync, .step 0 .sync,
      .step 1 .sync, .env (.reader 0), .env (.reader 0), .env (.reader 0),
      .env (.reader 0), .env (.reader 0), .env (.reader 0)]
    (fun h s => Meets (SafeEnd oneOfEach) h ∧ s.world.finished = true)
    (by decide +kernel)
  have hsafe := RunIf.ofMeets hr hm
  exact ⟨h, s, hr, hf, nobody_stranded oneOfEach hsafe hf 0,
    nobody_stranded oneOfEach hsafe hf 1⟩

/-- No step is left, but that a caller is dropped. -/
def Stuck (s : Pool ClientOp LldbResult DapClient) : Prop :=
  (∀ e, fire clientMachine s (.env e) = none) ∧
    ∀ i a, (∀ r, a ≠ .cancel r) → fire clientMachine s (.step i a) = none

/-- The schedule in which each registers after the recovery. -/
def afterRecovery : List (Action Reply ClientMove) :=
  [.env .eof, .env (.reader 0), .env (.reader 0), .env (.reader 0),
    .env (.reader 0), .step 0 .sync, .step 0 .sync, .step 0 .sync,
    .step 1 .sync, .step 2 .sync]

/-- A client that is done with the stream, every caller of which waits
or has returned, is stuck. -/
theorem stuck_of_waiting {s : Pool ClientOp LldbResult DapClient}
    (hf : s.world.finished = true)
    (hw : ∀ i, waiting s i = true ∨ ∃ x, s.prog i = some (.ret x)) :
    Stuck s := by
  refine ⟨fun e => ?_, fun i a ha => ?_⟩
  · have he : clientMachine.env e s.world = none :=
      DapClient.envMove_finished hf e
    simp only [fire, he]
  · rcases hw i with hw | ⟨x, hx⟩
    · unfold waiting at hw
      split at hw
      · next β op k hp =>
          have hrun : clientMachine.run i op a s.world = none := by
            cases hr : clientMachine.run i op a s.world with
            | none => rfl
            | some r =>
                obtain ⟨c, hc⟩ := DapClient.run_suspends hw hr
                exact absurd hc (ha c)
          simp only [fire, hp, hrun]
      · cases hw
    · simp only [fire, hx]

/-- Callers that register after the recovery, and whose writes go
through, are stranded: nothing can happen any more. -/
theorem late_callers_stranded : ∃ h s,
    Run clientMachine (lldbPool oneOfEach) h s ∧
      s.world.finished = true ∧ Stuck s ∧
      waiting s 0 = true ∧ waiting s 1 = true ∧ waiting s 2 = true := by
  obtain ⟨h, s, hr, hf, h0, h1, h2⟩ := exec_witness clientMachine
    (lldbPool oneOfEach) afterRecovery
    (fun _ s => s.world.finished = true ∧ waiting s 0 = true ∧
      waiting s 1 = true ∧ waiting s 2 = true) (by decide +kernel)
  refine ⟨h, s, hr, hf, stuck_of_waiting hf fun i => ?_, h0, h1, h2⟩
  match i with
  | 0 => exact .inl h0
  | 1 => exact .inl h1
  | 2 => exact .inl h2
  | i + 3 => exact .inr ⟨.absent, hr.ret_stays rfl⟩

end DebugMcp
