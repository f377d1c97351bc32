/-
What the client's callers wait for, and who owes it to them.

A caller has at most three kinds of receiver at a time: the channels of
its requests, the stop waiter's, the initialized signal's. An operation
is on one of the three; the frame lemmas say that it leaves the other
two alone.

`EntryInv` is the invariant of the requests, over every run of every
pool of callers: a channel a caller holds is one that somebody still
owes (the table, the read loop on its way to send), or it is resolved.
The other two kinds have theirs in `Lldb/Signals.lean`.
-/
import DebugMcp.Lldb.Plan

namespace DebugMcp

open Conc

-- ====================================================== the frame lemmas

/-- Does the operation change the numbers, the table or the channels? -/
def ClientOp.onTable {β : Type} : ClientOp β → Bool
  | .nextSeq | .registerPending _ | .removePending _ => true
  | _ => false

/-- Does the operation change the stop waiter? -/
def ClientOp.onStop {β : Type} : ClientOp β → Bool
  | .registerStop | .dropStop => true
  | _ => false

/-- Does the operation change the initialized signal? -/
def ClientOp.onSignal {β : Type} : ClientOp β → Bool
  | .pollInitialized | .selectBoth _ _ => true
  | _ => false

/-- The stop waiter is as it was. -/
structure SameStop (w w' : DapClient) : Prop where
  slot : w'.slot = w.slot
  stopRx : w'.stopRx = w.stopRx

/-- The signal is as it was. -/
structure SameSignal (w w' : DapClient) : Prop where
  fired : w'.initFired = w.initFired
  waiter : w'.initWaiter = w.initWaiter
  initRx : w'.initRx = w.initRx

/-- The read loop is where it was. -/
structure SameReader (w w' : DapClient) : Prop where
  reader : w'.reader = w.reader
  ended : w'.ended = w.ended

section

variable {w w' : DapClient} {i : Nat} {β : Type} {op : ClientOp β}
  {a : Reply} {b : β}

/-- What a select leaves: the client, or with the caller parked. -/
theorem DapClient.run_selectBoth_world {c : ChanId} {p : Bool}
    {x : Option Selected}
    (hr : w.run i (.selectBoth c p) a = some (x, w')) :
    w' = w ∨ w' = w.parkInitialized i := by
  cases a with
  | sync =>
      have hr : (w.chans c).recv.map (fun r =>
          (some (Selected.response r), w)) = some (x, w') := by
        cases p <;> exact hr
      obtain ⟨r, -, he⟩ := Option.map_eq_some_iff.mp hr
      exact .inl (congrArg Prod.snd he).symm
  | other =>
      cases p with
      | true =>
          obtain ⟨r, -, he⟩ := Option.map_eq_some_iff.mp hr
          exact .inl (congrArg Prod.snd he).symm
      | false =>
          unfold DapClient.run DapClient.pollInitialized at hr
          dsimp only at hr
          cases hf : w.initFired with
          | true =>
              rw [hf] at hr
              cases hr
              exact .inl rfl
          | false =>
              rw [hf] at hr
              cases hr
              exact .inr rfl
  | fail _ _ => cases p <;> cases hr
  | cancel _ =>
      have hr : some (none, w) = some (x, w') := by
        cases p <;> exact hr
      cases hr
      exact .inl rfl

/-- What polling the signal leaves. -/
theorem DapClient.run_pollInitialized_world {x : Bool}
    (hr : w.run i .pollInitialized a = some (x, w')) :
    (x = true ∧ w.initFired = true ∧ w' = w) ∨
      (x = false ∧ w.initFired = false ∧ w' = w.parkInitialized i) := by
  cases a with
  | sync =>
      have he : w.pollInitialized i = (x, w') := Option.some.inj hr
      unfold DapClient.pollInitialized at he
      split at he
      · cases he
        exact .inl ⟨rfl, ‹_›, rfl⟩
      · cases he
        exact .inr ⟨rfl, (Bool.not_eq_true _).mp ‹_›, rfl⟩
  | _ => cases hr

/-- Registering the stop waiter. -/
theorem DapClient.run_registerStop {x : Unit}
    (hr : w.run i .registerStop a = some (x, w')) :
    w' = w.registerStop i := by
  cases a <;> cases hr
  rfl

/-- Dropping the stop waiter's receiver. -/
theorem DapClient.run_dropStop {x : Unit}
    (hr : w.run i .dropStop a = some (x, w')) :
    w' = { w with
      stopRx := Function.update w.stopRx i (w.stopRx i).drop } := by
  cases a <;> cases hr
  rfl

/-- Awaiting the stop waiter. -/
theorem DapClient.run_recvStop {x : Option (Except Unit StopOutcome)}
    (hr : w.run i .recvStop a = some (x, w')) :
    w' = w ∧ ∀ r, x = some r → (w.stopRx i).recv = some r := by
  cases a with
  | sync =>
      obtain ⟨r, hc, he⟩ := Option.map_eq_some_iff.mp hr
      cases he
      refine ⟨rfl, fun r' h => ?_⟩
      cases h
      exact hc
  | cancel _ =>
      cases hr
      exact ⟨rfl, nofun⟩
  | _ => cases hr

/-- The world an operation leaves. -/
theorem DapClient.run_world (hr : w.run i op a = some (b, w')) :
    w' = w ∨
    (op.onTable = true ∧ (w' = { w with seq := w.seq + 1 } ∨
      (∃ n, w' = (w.registerPending n).2) ∨
      ∃ n, w' = w.removePending n)) ∨
    (op.onSignal = true ∧ w' = w.parkInitialized i) ∨
    (op.onStop = true ∧ (w' = w.registerStop i ∨ w' = { w with
      stopRx := Function.update w.stopRx i (w.stopRx i).drop })) := by
  cases op with
  | nextSeq => exact .inr (.inl ⟨rfl, .inl (run_nextSeq hr).2⟩)
  | registerPending n =>
      have he := run_registerPending hr
      exact .inr (.inl ⟨rfl, .inr (.inl ⟨n, congrArg Prod.snd he⟩)⟩)
  | removePending n =>
      exact .inr (.inl ⟨rfl, .inr (.inr ⟨n, run_removePending hr⟩)⟩)
  | writeRequest r => exact .inl (run_writeRequest hr)
  | recv c => exact .inl (run_recv hr).1
  | pollInitialized =>
      rcases run_pollInitialized_world hr with ⟨-, -, h⟩ | ⟨-, -, h⟩
      · exact .inl h
      · exact .inr (.inr (.inl ⟨rfl, h⟩))
  | recvInitialized => exact .inl (run_recvInitialized hr)
  | selectBoth c p =>
      rcases run_selectBoth_world hr with h | h
      · exact .inl h
      · exact .inr (.inr (.inl ⟨rfl, h⟩))
  | registerStop =>
      exact .inr (.inr (.inr ⟨rfl, .inl (run_registerStop hr)⟩))
  | recvStop => exact .inl (run_recvStop hr).1
  | dropStop => exact .inr (.inr (.inr ⟨rfl, .inr (run_dropStop hr)⟩))

/-- Removing an entry leaves stop waiter, signal and read loop. -/
theorem DapClient.removePending_frame (w : DapClient) (n : Int) :
    SameStop w (w.removePending n) ∧ SameSignal w (w.removePending n) ∧
      SameReader w (w.removePending n) := by
  unfold DapClient.removePending
  split <;> exact ⟨⟨rfl, rfl⟩, ⟨rfl, rfl, rfl⟩, ⟨rfl, rfl⟩⟩

/-- No caller moves the read loop. -/
theorem DapClient.run_reader (hr : w.run i op a = some (b, w')) :
    SameReader w w' := by
  rcases run_world hr with rfl | ⟨-, rfl | ⟨n, rfl⟩ | ⟨n, rfl⟩⟩ |
    ⟨-, rfl⟩ | ⟨-, rfl | rfl⟩
  case inr.inl.inr.inr => exact (w.removePending_frame n).2.2
  all_goals exact ⟨rfl, rfl⟩

/-- An operation off the stop waiter leaves it. -/
theorem DapClient.run_off_stop (hr : w.run i op a = some (b, w'))
    (hop : op.onStop = false) : SameStop w w' := by
  rcases run_world hr with rfl | ⟨-, rfl | ⟨n, rfl⟩ | ⟨n, rfl⟩⟩ |
    ⟨-, rfl⟩ | ⟨hc, -⟩
  case inr.inl.inr.inr => exact (w.removePending_frame n).1
  case inr.inr.inr => rw [hop] at hc; cases hc
  all_goals exact ⟨rfl, rfl⟩

/-- An operation off the signal leaves it. -/
theorem DapClient.run_off_signal (hr : w.run i op a = some (b, w'))
    (hop : op.onSignal = false) : SameSignal w w' := by
  rcases run_world hr with rfl | ⟨-, rfl | ⟨n, rfl⟩ | ⟨n, rfl⟩⟩ |
    ⟨hc, -⟩ | ⟨-, rfl | rfl⟩
  case inr.inl.inr.inr => exact (w.removePending_frame n).2.1
  case inr.inr.inl => rw [hop] at hc; cases hc
  all_goals exact ⟨rfl, rfl, rfl⟩

/-- An operation off the table leaves it. -/
theorem DapClient.run_off_table (hr : w.run i op a = some (b, w'))
    (hop : op.onTable = false) : SameTable w w' := by
  rcases run_world hr with rfl | ⟨hc, -⟩ | ⟨-, rfl⟩ | ⟨-, rfl | rfl⟩
  case inr.inl => rw [hop] at hc; cases hc
  case inl => exact .refl _
  all_goals exact .of_eq rfl rfl rfl rfl rfl

end

section

variable {w w' : DapClient}

/-- The stream is read when the read loop is done with the frame
before. -/
theorem DapClient.reads_idle {w₁ : DapClient}
    (he : (if w.reader.isEmpty && !w.ended then some w₁ else none)
      = some w') :
    w.reader = [] ∧ w.ended = false ∧ w' = w₁ := by
  split at he
  · next hw =>
      rw [Bool.and_eq_true, List.isEmpty_iff, Bool.not_eq_true'] at hw
      exact ⟨hw.1, hw.2, (Option.some.inj he).symm⟩
  · cases he

/-- A frame is dispatched. -/
theorem DapClient.envMove_frame {m : DapMessage}
    (he : w.envMove (.frame m) = some w') :
    w.reader = [] ∧ w.ended = false ∧
      w' = { w with reader := dispatch m } :=
  reads_idle he

/-- At its end the read loop recovers. -/
theorem DapClient.envMove_eof (he : w.envMove .eof = some w') :
    w.reader = [] ∧ w.ended = false ∧
      w' = { w with reader := recover, ended := true } :=
  reads_idle he

end

-- ============================================================ requests

/-- The number of the request a stage is at. -/
def Stage.number : Stage → Option Int
  | numbered n | registered n _ | awaiting n _ => some n
  | idle | parked => none

/-- Its number and channel, once it is registered. -/
def Stage.entry : Stage → Option (Int × ChanId)
  | registered n c | awaiting n c => some (n, c)
  | _ => none

/-- Its number, until it is registered. -/
def Stage.unentered : Stage → Option Int
  | numbered n => some n
  | _ => none

namespace CallPhase

/-- The numbers of the requests a caller has open. -/
def numbers : CallPhase → List Int
  | active _ st sv _ => st.number.toList ++ (sv.map Prod.fst).toList
  | removing n _ => [n]
  | failing _ | got _ => []

/-- Their numbers and channels. -/
def opens : CallPhase → List (Int × ChanId)
  | active _ st sv _ => st.entry.toList ++ sv.toList
  | _ => []

/-- The number it has still to register. -/
def unentered : CallPhase → Option Int
  | active _ st _ _ => st.unentered
  | _ => none

/-- Does it hold a stop waiter's receiver? -/
def armed : CallPhase → Bool
  | active _ _ _ ar | removing _ ar | failing ar => ar
  | got _ => false

/-- Is it parked for the signal? -/
def parked : CallPhase → Bool
  | active _ .parked _ _ => true
  | _ => false

/-- What a phase has open, its successor has or is done with. -/
structure Shrinks (p p' : CallPhase) : Prop where
  numbers : p'.numbers.Sublist p.numbers
  opens : ∀ x ∈ p'.opens, x ∈ p.opens
  unentered : p'.unentered = none ∨ p' = p

theorem Shrinks.refl (p : CallPhase) : Shrinks p p :=
  ⟨.refl _, fun _ h => h, .inr rfl⟩

/-- An open request's number is open. -/
theorem mem_numbers {p : CallPhase} {n : Int} {c : ChanId}
    (h : (n, c) ∈ p.opens) : n ∈ p.numbers := by
  cases p with
  | active plan st sv ar =>
      rcases List.mem_append.mp h with h | h
      · refine List.mem_append_left _ ?_
        rw [Option.mem_toList] at h ⊢
        cases st with
        | registered m d | awaiting m d =>
            cases h
            rfl
        | _ => cases h
      · refine List.mem_append_right _ ?_
        rw [Option.mem_toList] at h ⊢
        rw [show sv = some (n, c) from h]
        rfl
  | _ => cases h

end CallPhase

/-- Numbers are given out once and owned by the callers they were given
to; an entry is somebody's; what is open is owed. -/
structure EntryInv (w : DapClient) (φ : Nat → CallPhase)
    (h : ClientHistory) : Prop where
  given_le : ∀ {i n}, (i, n) ∈ given h → n ≤ w.seq
  given_nodup : ((given h).map (·.2)).Nodup
  owns : ∀ {i n}, n ∈ (φ i).numbers → (i, n) ∈ given h
  nodup : ∀ i, (φ i).numbers.Nodup
  table : PendingInv w
  keys : ∀ {n c}, w.pending.lookup n = some c → ∃ i, (i, n) ∈ given h
  unentered : ∀ {i n}, (φ i).unentered = some n →
    w.pending.lookup n = none
  owed : ∀ {i n c}, (n, c) ∈ (φ i).opens →
    c < w.nextChan ∧ Owed w n c

namespace EntryInv

variable {w w' : DapClient} {φ φ' : Nat → CallPhase} {h : ClientHistory}
  {ev : ClientEvent} {i : Nat} {n : Int}

/-- A number is one caller's. -/
theorem same_owner {j : Nat} (hI : EntryInv w φ h)
    (hi : (i, n) ∈ given h) (hj : (j, n) ∈ given h) : i = j :=
  congrArg Prod.fst (List.inj_on_of_nodup_map hI.given_nodup hi hj rfl)

/-- A step off the table, after which callers have no more open. -/
theorem quiet (hI : EntryInv w φ h) (hs : SameTable w w')
    (hg : given (ev :: h) = given h)
    (hφ : ∀ j, (φ j).Shrinks (φ' j)) : EntryInv w' φ' (ev :: h) where
  given_le := by
    rw [hg, hs.seq]
    exact hI.given_le
  given_nodup := by
    rw [hg]
    exact hI.given_nodup
  owns := by
    intro j m hm
    rw [hg]
    exact hI.owns ((hφ j).numbers.subset hm)
  nodup := fun j => (hI.nodup j).sublist (hφ j).numbers
  table := hs.table hI.table
  keys := by
    rw [hs.pending, hg]
    exact hI.keys
  unentered := by
    intro j m hm
    rw [hs.pending]
    rcases (hφ j).unentered with hu | hu
    · rw [hu] at hm
      cases hm
    · exact hI.unentered (hu ▸ hm)
  owed := by
    intro j m c hm
    obtain ⟨hc, ho⟩ := hI.owed ((hφ j).opens _ hm)
    exact ⟨hs.nextChan ▸ hc, hs.owed ho⟩

/-- A caller moves on with no more open. -/
theorem moved {q q' : CallPhase} (hφ : φ i = q)
    (hq : q.Shrinks q') (j : Nat) :
    (φ j).Shrinks (Function.update φ i q' j) := by
  by_cases hij : j = i
  · subst hij
    rw [Function.update_self, hφ]
    exact hq
  · rw [Function.update_of_ne hij]
    exact .refl _

/-- A number is given out. -/
theorem nextSeq {plan : List PlanStep} {sv : Option (Int × ChanId)}
    {ar : Bool} (hI : EntryInv w φ h) (hφ : φ i = .active plan .idle sv ar) :
    EntryInv { w with seq := w.seq + 1 }
      (Function.update φ i (.active plan (.numbered (w.seq + 1)) sv ar))
      (.act i .nextSeq (w.seq + 1) w { w with seq := w.seq + 1 } :: h) := by
  have hnew : ∀ {j : Nat}, (j, w.seq + 1) ∉ given h := fun hj => by
    have := hI.given_le hj
    omega
  have hnum : (φ i).numbers = (sv.map Prod.fst).toList := by
    rw [hφ]
    rfl
  refine ⟨fun {j n} hj => ?_, ?_, fun {j n} hn => ?_, fun j => ?_, ?_,
    fun hc => ?_, fun {j n} hn => ?_, fun {j n c} hn => ?_⟩
  · show n ≤ w.seq + 1
    rcases List.mem_cons.mp hj with hj | hj
    · cases hj
      exact Int.le_refl _
    · have := hI.given_le hj
      omega
  · refine List.nodup_cons.mpr ⟨fun hm => ?_, hI.given_nodup⟩
    obtain ⟨⟨j, n⟩, hj, hn⟩ := List.mem_map.mp hm
    cases hn
    exact hnew hj
  · show (j, n) ∈ (i, w.seq + 1) :: given h
    by_cases hij : j = i
    · subst hij
      rw [Function.update_self] at hn
      rcases List.mem_cons.mp hn with rfl | hn
      · exact List.mem_cons_self ..
      · exact List.mem_cons_of_mem _ (hI.owns (hnum ▸ hn))
    · rw [Function.update_of_ne hij] at hn
      exact List.mem_cons_of_mem _ (hI.owns hn)
  · by_cases hij : j = i
    · subst hij
      rw [Function.update_self]
      refine List.nodup_cons.mpr ⟨fun hm => ?_, hnum ▸ hI.nodup j⟩
      exact hnew (hI.owns (hnum ▸ hm))
    · rw [Function.update_of_ne hij]
      exact hI.nodup j
  · exact ⟨hI.table.fresh, hI.table.inj, hI.table.unused, hI.table.good,
      hI.table.queue_nodup, hI.table.queue_fresh⟩
  · obtain ⟨j, hj⟩ := hI.keys hc
    exact ⟨j, List.mem_cons_of_mem _ hj⟩
  · by_cases hij : j = i
    · subst hij
      rw [Function.update_self] at hn
      cases hn
      cases hl : w.pending.lookup (w.seq + 1) with
      | none => rfl
      | some c =>
          obtain ⟨j, hj⟩ := hI.keys hl
          exact absurd hj hnew
    · rw [Function.update_of_ne hij] at hn
      exact hI.unentered hn
  · have hold : (n, c) ∈ (φ j).opens := by
      by_cases hij : j = i
      · subst hij
        rw [Function.update_self] at hn
        rw [hφ]
        exact hn
      · rw [Function.update_of_ne hij] at hn
        exact hn
    obtain ⟨hc, ho⟩ := hI.owed hold
    refine ⟨hc, ?_⟩
    cases ho with
    | pending h => exact .pending h
    | queued hn r hq hr => exact .queued hn r hq hr
    | sent hn r hc hr => exact .sent hn r hc hr

/-- Other callers keep what they have open through a step on one
caller's entry. -/
theorem owed_only {j : Nat} {m : Int} {c : ChanId} (hI : EntryInv w φ h)
    (ho : OnlyEntry n w w') (hi : (i, n) ∈ given h) (hij : j ≠ i)
    (hm : (m, c) ∈ (φ j).opens) : c < w'.nextChan ∧ Owed w' m c := by
  obtain ⟨hc, hw⟩ := hI.owed hm
  refine ⟨hc.trans_le ho.nextChan, ho.owed (fun he => ?_) hw⟩
  subst he
  exact hij (hI.same_owner (hI.owns (CallPhase.mem_numbers hm)) hi)

/-- The deferred request has a number of its own. -/
theorem deferred_ne {plan : List PlanStep} {sv : Option (Int × ChanId)}
    {ar : Bool} {m : Int} {c : ChanId} (hI : EntryInv w φ h)
    (hφ : φ i = .active plan (.numbered n) sv ar)
    (hsv : (m, c) ∈ sv.toList) : m ≠ n := by
  rintro rfl
  have hnd := hI.nodup i
  rw [hφ] at hnd
  have hnd : (m :: (sv.map Prod.fst).toList).Nodup := hnd
  refine (List.nodup_cons.mp hnd).1 ?_
  rw [Option.mem_toList] at hsv ⊢
  rw [show sv = some (m, c) from hsv]
  rfl

/-- An entry is registered. -/
theorem registerPending {plan : List PlanStep}
    {sv : Option (Int × ChanId)} {ar : Bool} (hI : EntryInv w φ h)
    (hφ : φ i = .active plan (.numbered n) sv ar) :
    EntryInv (w.registerPending n).2
      (Function.update φ i (.active plan (.registered n w.nextChan) sv ar))
      (.act i (.registerPending n) w.nextChan w
        (w.registerPending n).2 :: h) := by
  have hun : w.pending.lookup n = none :=
    hI.unentered (i := i) (by rw [hφ]; rfl)
  have hi : (i, n) ∈ given h := hI.owns (by
    rw [hφ]
    exact List.mem_cons_self ..)
  have hnum : (φ i).numbers = n :: (sv.map Prod.fst).toList := by
    rw [hφ]
    rfl
  have honly := PendingInv.register_only w n
  rw [DapClient.registerPending_new hun]
  refine ⟨hI.given_le, hI.given_nodup, fun {j m} hm => ?_, fun j => ?_,
    hI.table.register, fun {m c} hm => ?_, fun {j m} hm => ?_,
    fun {j m c} hm => ?_⟩
  · by_cases hij : j = i
    · subst hij
      rw [Function.update_self] at hm
      exact hI.owns (hnum ▸ hm)
    · rw [Function.update_of_ne hij] at hm
      exact hI.owns hm
  · by_cases hij : j = i
    · subst hij
      rw [Function.update_self]
      have hnd := hI.nodup j
      rw [hnum] at hnd
      exact hnd
    · rw [Function.update_of_ne hij]
      exact hI.nodup j
  · by_cases hmn : m = n
    · subst hmn
      exact ⟨i, hi⟩
    · dsimp only at hm
      rw [AList.lookup_insert_ne hmn] at hm
      exact hI.keys hm
  · by_cases hij : j = i
    · subst hij
      rw [Function.update_self] at hm
      cases hm
    · rw [Function.update_of_ne hij] at hm
      have hmn : m ≠ n := fun he => by
        subst he
        refine hij (hI.same_owner (hI.owns ?_) hi)
        cases hp : φ j with
        | active pl st s a =>
            rw [hp] at hm
            cases st with
            | numbered k =>
                cases hm
                exact List.mem_cons_self ..
            | _ => cases hm
        | _ =>
            rw [hp] at hm
            cases hm
      exact (honly.lookup hmn).trans (hI.unentered hm)
  · by_cases hij : j = i
    · subst hij
      rw [Function.update_self] at hm
      rcases List.mem_cons.mp hm with hm | hsv
      · cases hm
        exact ⟨Nat.lt_succ_self _, .pending (AList.lookup_insert _)⟩
      · have hsv : (m, c) ∈ sv.toList := hsv
        have hold : (m, c) ∈ (φ j).opens := by
          rw [hφ]
          exact hsv
        obtain ⟨hc, ho⟩ := hI.owed hold
        exact ⟨hc.trans_le honly.nextChan,
          honly.owed (hI.deferred_ne hφ hsv) ho⟩
    · rw [Function.update_of_ne hij] at hm
      exact hI.owed_only honly hi hij hm

/-- A caller that failed removes its entry. -/
theorem removePending {ar : Bool} (hI : EntryInv w φ h)
    (hφ : φ i = .removing n ar) :
    EntryInv (w.removePending n) (Function.update φ i (.failing ar))
      (.act i (.removePending n) () w (w.removePending n) :: h) := by
  have hshrink : (φ i).Shrinks (.failing ar) := by
    rw [hφ]
    exact ⟨List.nil_sublist _, nofun, .inl rfl⟩
  have hi : (i, n) ∈ given h := hI.owns (by
    rw [hφ]
    exact List.mem_singleton_self n)
  cases hl : w.pending.lookup n with
  | none =>
      rw [DapClient.removePending_none hl]
      exact hI.quiet (.refl w) rfl (moved rfl hshrink)
  | some c =>
      rw [DapClient.removePending_some hl]
      have hmv := moved (φ := φ) rfl hshrink
      refine ⟨hI.given_le, hI.given_nodup,
        fun {j m} hm => hI.owns ((hmv j).numbers.subset hm),
        fun j => (hI.nodup j).sublist (hmv j).numbers,
        hI.table.remove hl, fun hm => hI.keys (lookup_erase_some hm).2,
        fun {j m} hm => ?_, fun {j m c} hm => ?_⟩
      · rcases (hmv j).unentered with hu | hu
        · rw [hu] at hm
          cases hm
        · have hnone := hI.unentered (hu ▸ hm)
          by_cases hmn : m = n
          · subst hmn
            exact AList.lookup_erase _ _
          · exact (AList.lookup_erase_ne hmn).trans hnone
      · by_cases hij : j = i
        · subst hij
          rw [Function.update_self] at hm
          cases hm
        · rw [Function.update_of_ne hij] at hm
          exact hI.owed_only (hI.table.remove_only hl) hi hij hm

/-- A step of the read loop. -/
theorem reader {k : Nat} (hI : EntryInv w φ h) (ht : TableStep w k w') :
    EntryInv w' φ (.env (.reader k) w w' :: h) := by
  have hsub : ∀ {n c}, w'.pending.lookup n = some c →
      w.pending.lookup n = some c := by
    intro n c hl
    cases ht with
    | quiet hs hr hd => rwa [hs.pending] at hl
    | take hw hn => exact (lookup_erase_some hl).2
    | drain hw => exact absurd hl PendingInv.lookup_empty
    | deliver hw hk => exact hl
  have hseq : w'.seq = w.seq ∧ w'.nextChan = w.nextChan := by
    cases ht with
    | quiet hs hr hd => exact ⟨hs.seq, hs.nextChan⟩
    | _ => exact ⟨rfl, rfl⟩
  refine ⟨fun hj => hseq.1 ▸ hI.given_le hj, hI.given_nodup, hI.owns,
    hI.nodup, ht.table hI.table, fun hl => hI.keys (hsub hl),
    fun {j n} hn => ?_, fun hm => ?_⟩
  · cases hl : w'.pending.lookup n with
    | none => rfl
    | some c => cases (hI.unentered hn).symm.trans (hsub hl)
  · obtain ⟨hc, ho⟩ := hI.owed hm
    exact ⟨hseq.2 ▸ hc, ht.owed hI.table ho⟩

end EntryInv

/-- A phase that has nothing open. -/
theorem CallPhase.Shrinks.clear {p p' : CallPhase}
    (hn : p'.numbers = []) (ho : p'.opens = [])
    (hu : p'.unentered = none) : p.Shrinks p' where
  numbers := hn ▸ List.nil_sublist _
  opens x hx := by
    rw [ho] at hx
    cases hx
  unentered := .inl hu

/-- Off the table, no caller opens anything, and no number is given
out. -/
theorem PlanNext.off_table {p p' : CallPhase} {β : Type}
    {op : ClientOp β} {b : β} (hq : PlanNext p op b p')
    (hop : op.onTable = false) : p.Shrinks p' ∧ op.gives b = none := by
  cases hq with
  | number | register | remove => cases hop
  | write | writeDeferred | park =>
      exact ⟨⟨.refl _, fun _ h => h, .inl rfl⟩, rfl⟩
  | ready | fired | registerStop =>
      exact ⟨⟨.refl _, fun _ h => h, .inl rfl⟩, rfl⟩
  | answer =>
      exact ⟨⟨List.sublist_cons_self .., fun _ h =>
        List.mem_cons_of_mem _ h, .inl rfl⟩, rfl⟩
  | response => exact ⟨.clear rfl rfl rfl, rfl⟩
  | writeFail s q hs rest sv ar n c x hx =>
      exact ⟨⟨List.Sublist.cons_cons n (List.nil_sublist _), nofun,
        .inl rfl⟩, rfl⟩
  | drop q check rest sv ar n c =>
      exact ⟨⟨List.Sublist.cons_cons n (List.nil_sublist _), nofun,
        .inl rfl⟩, rfl⟩
  | writeDropped | refuse | responseFail | release | unpark | stopped
  | stopDrop => exact ⟨.clear rfl rfl rfl, rfl⟩

/-- The requests' invariant is kept by every step. -/
theorem entryInv : Inductive clientMachine PlanNext (fun _ _ => True)
    EntryInv where
  act := by
    intro w w' φ h i β op a b q' hI hr hq _
    have hr : w.run i op a = some (b, w') := hr
    cases hop : op.onTable with
    | false =>
        obtain ⟨hs, hg⟩ := hq.off_table hop
        refine hI.quiet (DapClient.run_off_table hr hop) ?_
          (EntryInv.moved rfl hs)
        rw [given, hg]
    | true =>
        generalize hp : φ i = p at hq
        cases hq with
        | number s q hs rest sv ar n =>
            obtain ⟨rfl, rfl⟩ := DapClient.run_nextSeq hr
            exact hI.nextSeq hp
        | register s rest sv ar n c =>
            have he := DapClient.run_registerPending hr
            cases he
            exact hI.registerPending hp
        | remove n ar =>
            have he := DapClient.run_removePending hr
            subst he
            exact hI.removePending hp
        | _ => cases hop
  env := by
    intro w w' φ h e hI he _
    have he : w.envMove e = some w' := he
    cases e with
    | reader k => exact hI.reader (DapClient.reader_table he)
    | frame m =>
        obtain ⟨hw, -, rfl⟩ := DapClient.envMove_frame he
        refine hI.quiet ⟨rfl, rfl, rfl, rfl, ?_, fun _ => ?_⟩ rfl
          fun j => .refl _
        · rw [hw]
          exact queued_dispatch m
        · exact dispatch_good m
    | eof =>
        obtain ⟨hw, -, rfl⟩ := DapClient.envMove_eof he
        refine hI.quiet ⟨rfl, rfl, rfl, rfl, ?_, fun _ op hop => ?_⟩ rfl
          fun j => .refl _
        · rw [hw]
          rfl
        · rcases List.mem_cons.mp hop with rfl | hop
          · rfl
          · rcases List.mem_cons.mp hop with rfl | hop
            · trivial
            · rw [List.mem_singleton.mp hop]
              trivial

end DebugMcp
