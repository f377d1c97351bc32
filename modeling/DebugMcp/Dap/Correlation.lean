/-
Requests and responses are correlated: whatever callers do, wherever
they are dropped and whatever the adapter sends, a caller receives the
response to its own number or an error of the transport.

# Method

A caller's phase keeps the number it was given and, while it waits, the
channel it waits on. Until it has its result, exactly one of three
things is true of that channel (`Owed`): the table still maps the number
to it, the read loop has taken it out and is about to send, or the
result is in it. Every step moves a call along this list, so the result
a call finds is the one its own entry was resolved with. Channels are
allocated in order and never reused, and numbers come again only from the
2^64th on (`GivenOut`), which is what keeps the steps of different calls
apart.

The invariant looks at the counter only as a bound on the numbers given
out. For the client whose counter wraps it is the invariant of the same
client with the counter at the top of its range (`WrappedInv`).
-/
import DebugMcp.Dap.Counter

namespace DebugMcp

open Conc

-- =============================================================== calls

/-- A call on the client: the three ways to send a request. The receiver
`send_async` hands out is awaited by its caller. -/
inductive ClientCall
  | send (r : DapRequest)
  | sendAsync (r : DapRequest)
  | sendAndAwaitBoth (r : DapRequest)

/-- `send_async` and the await of its receiver, which may be dropped
there. -/
def sendAsyncAndRecv (request : DapRequest) :
    ClientProg (Option PendingResult) := do
  match ← sendAsync request with
  | none => return none
  | some (.error e) => return some (.error e)
  | some (.ok rx) =>
  match ← client (.recv rx) with
  | none => return none
  | some r => return some (pendingResult r)

/-- A call's program. -/
def ClientCall.prog : ClientCall → ClientProg (Option PendingResult)
  | send r => DebugMcp.send r
  | sendAsync r => sendAsyncAndRecv r
  | sendAndAwaitBoth r => DebugMcp.sendAndAwaitBoth r

/-- A client with every call about to start. -/
def clientPool (calls : Nat → ClientCall) :
    Pool ClientOp (Option PendingResult) DapClient where
  world := .new
  prog i := some (calls i).prog

-- ============================================================ protocol

/-- Where a call is, with its number and its channel. `g`: the call
leaves no entry behind, whichever way it ends. -/
inductive SendPhase
  | start (g : Bool)
  | numbered (g : Bool) (n : Int)
  | waiting (g : Bool) (n : Int) (c : ChanId)
  | removed (n : Int)
  | got (n : Int) (r : Except Unit PendingResult)

/-- The number the call was given. -/
def SendPhase.number : SendPhase → Option Int
  | start _ => none
  | numbered _ n | waiting _ n _ | removed n | got n _ => some n

/-- May the call end with its entry in the table? -/
def SendPhase.mayLeave : SendPhase → Bool
  | start g | numbered g _ | waiting g _ _ => !g
  | removed _ | got _ _ => false

/-- The phase a call starts in. -/
def ClientCall.phase₀ : ClientCall → SendPhase
  | send _ => .start true
  | sendAsync _ => .start false
  | sendAndAwaitBoth _ => .start false

/-- The protocol of the client's callers. -/
inductive SendNext : ⦃β : Type⦄ → SendPhase → ClientOp β → β →
    SendPhase → Prop
  | number (g : Bool) (n : Int) :
      SendNext (.start g) .nextSeq n (.numbered g n)
  | register (g : Bool) (n : Int) (c : ChanId) :
      SendNext (.numbered g n) (.registerPending n) c (.waiting g n c)
  | write (g : Bool) (n : Int) (c : ChanId) (r : DapRequest)
      (x : Written) :
      SendNext (.waiting g n c) (.writeRequest (r.setSeq n)) x
        (.waiting g n c)
  | remove (g : Bool) (n : Int) (c : ChanId) :
      SendNext (.waiting g n c) (.removePending n) () (.removed n)
  | recv (g : Bool) (n : Int) (c : ChanId)
      (r : Except Unit PendingResult) :
      SendNext (.waiting g n c) (.recv c) (some r) (.got n r)
  | recvDropped (g : Bool) (n : Int) (c : ChanId) :
      SendNext (.waiting g n c) (.recv c) none (.waiting g n c)
  | select (g p : Bool) (n : Int) (c : ChanId)
      (r : Except Unit PendingResult) :
      SendNext (.waiting g n c) (.selectBoth c p) (some (.response r))
        (.got n r)
  | selectOther (g p : Bool) (n : Int) (c : ChanId)
      (x : Option Selected) (hx : ∀ r, x ≠ some (.response r)) :
      SendNext (.waiting g n c) (.selectBoth c p) x (.waiting g n c)
  | poll (n : Int) (r : Except Unit PendingResult) (x : Bool) :
      SendNext (.got n r) .pollInitialized x (.got n r)
  | recvInit (n : Int) (r : Except Unit PendingResult)
      (x : Option Unit) :
      SendNext (.got n r) .recvInitialized x (.got n r)
  | removeGot (n : Int) (r : Except Unit PendingResult) :
      SendNext (.got n r) (.removePending n) () (.got n r)

/-- How a call ends: dropped, with what it received, or with the error
of its write. One that leaves no entry behind ends only after its entry
is gone. -/
inductive Finished : SendPhase → Option PendingResult → Prop
  | dropped (n : Int) (c : ChanId) : Finished (.waiting false n c) none
  | removed (n : Int) : Finished (.removed n) none
  | failed (n : Int) (err : String) :
      Finished (.removed n) (some (.error (writeError err)))
  | got (n : Int) (r : Except Unit PendingResult) :
      Finished (.got n r) (some (pendingResult r))
  | gotDropped (n : Int) (r : Except Unit PendingResult) :
      Finished (.got n r) none

/-- `send` obeys the protocol. -/
theorem send_obeys (r : DapRequest) :
    Obeys SendNext Finished (send r) (.start true) := by
  intro n
  refine ⟨_, .number true n, fun c => ⟨_, .register true n c, ?_⟩⟩
  intro x
  refine ⟨_, .write true n c r x, ?_⟩
  cases x with
  | failed reached err =>
      exact fun _ => ⟨_, .remove true n c, .failed n err⟩
  | cancelled reached => exact fun _ => ⟨_, .remove true n c, .removed n⟩
  | ok =>
      intro x
      cases x with
      | none =>
          exact ⟨_, .recvDropped true n c, fun _ =>
            ⟨_, .remove true n c, .removed n⟩⟩
      | some x => exact ⟨_, .recv true n c x, .got n x⟩

/-- What `send_async_with_seq` ends with, before its caller goes on. -/
inductive AsyncSent :
    SendPhase → Option (Except BackendError (ChanId × Int)) → Prop
  | dropped (n : Int) (c : ChanId) : AsyncSent (.waiting false n c) none
  | failed (n : Int) (err : String) :
      AsyncSent (.removed n) (some (.error (writeError err)))
  | ok (n : Int) (c : ChanId) :
      AsyncSent (.waiting false n c) (some (.ok (c, n)))

theorem sendAsyncWithSeq_obeys (r : DapRequest) :
    Obeys SendNext AsyncSent (sendAsyncWithSeq r) (.start false) := by
  intro n
  refine ⟨_, .number false n, fun c => ⟨_, .register false n c, ?_⟩⟩
  intro x
  refine ⟨_, .write false n c r x, ?_⟩
  cases x with
  | failed reached err =>
      exact fun _ => ⟨_, .remove false n c, .failed n err⟩
  | cancelled reached => exact .dropped n c
  | ok => exact .ok n c

/-- `send_async` and the await of its receiver obey the protocol. -/
theorem sendAsyncAndRecv_obeys (r : DapRequest) :
    Obeys SendNext Finished (sendAsyncAndRecv r) (.start false) := by
  unfold sendAsyncAndRecv sendAsync
  rw [Prog.bind_assoc]
  refine (sendAsyncWithSeq_obeys r).bind fun q a ha => ?_
  cases ha with
  | dropped n c => exact .dropped n c
  | failed n err => exact .failed n err
  | ok n c =>
      intro x
      cases x with
      | none => exact ⟨_, .recvDropped false n c, .dropped n c⟩
      | some x => exact ⟨_, .recv false n c x, .got n x⟩

/-- What the loop of `send_and_await_both` ends with. -/
inductive BothEnd (n : Int) (c : ChanId) :
    SendPhase → Option PendingResult → Prop
  | dropped : BothEnd n c (.waiting false n c) none
  | got (r : Except Unit PendingResult) :
      BothEnd n c (.got n r) (some (pendingResult r))
  | gotDropped (r : Except Unit PendingResult) :
      BothEnd n c (.got n r) none

/-- Awaiting the signal with the response in changes nothing of it. -/
private theorem awaitInitialized_obeys (n : Int) (c : ChanId)
    (p : Bool) (r : Except Unit PendingResult) :
    Obeys SendNext (BothEnd n c)
      (awaitInitialized p >>= fun x => match x with
        | none => pure none
        | some () => pure (some (pendingResult r))) (.got n r) := by
  have hrecv : Obeys SendNext (BothEnd n c)
      (client .recvInitialized >>= fun x => match x with
        | none => pure none
        | some () => pure (some (pendingResult r))) (.got n r) := by
    intro x
    refine ⟨_, .recvInit n r x, ?_⟩
    cases x with
    | none => exact .gotDropped r
    | some _ => exact .got r
  cases p with
  | true => exact hrecv
  | false =>
      intro x
      refine ⟨_, .poll n r x, ?_⟩
      cases x with
      | true => exact .got r
      | false => exact hrecv

/-- A turn of the loop obeys the protocol if the next one does. -/
private theorem selectTurn_obeys (n : Int) (c : ChanId) (p : Bool)
    {again : ClientProg (Option PendingResult)}
    (h : Obeys SendNext (BothEnd n c) again (.waiting false n c)) :
    Obeys SendNext (BothEnd n c) (selectTurn c p again)
      (.waiting false n c) := by
  intro x
  cases x with
  | none => exact ⟨_, .selectOther false p n c none nofun, .dropped⟩
  | some x =>
      cases x with
      | response r =>
          exact ⟨_, .select false p n c r, awaitInitialized_obeys n c p r⟩
      | parked => exact ⟨_, .selectOther false p n c _ nofun, h⟩
      | initialized =>
          refine ⟨_, .selectOther false p n c _ nofun, fun x => ?_⟩
          cases x with
          | none => exact ⟨_, .recvDropped false n c, .dropped⟩
          | some r => exact ⟨_, .recv false n c r, .got r⟩

/-- `send_and_await_both` obeys the protocol. -/
theorem sendAndAwaitBoth_obeys (r : DapRequest) :
    Obeys SendNext Finished (sendAndAwaitBoth r) (.start false) := by
  refine (sendAsyncWithSeq_obeys r).bind fun q a ha => ?_
  cases ha with
  | dropped n c => exact .dropped n c
  | failed n err => exact .failed n err
  | ok n c =>
      have hloop : Obeys SendNext (BothEnd n c) (awaitBoth c)
          (.waiting false n c) :=
        selectTurn_obeys n c false (selectTurn_obeys n c true .dropped)
      refine hloop.bind fun q a ha => ?_
      cases ha with
      | dropped =>
          exact fun _ => ⟨_, .remove false n c, .removed n⟩
      | got r => exact .got n r
      | gotDropped r =>
          exact fun _ => ⟨_, .removeGot n r, .gotDropped n r⟩

/-- Every call obeys the protocol. -/
theorem ClientCall.obeys (c : ClientCall) :
    Obeys SendNext Finished c.prog c.phase₀ := by
  cases c with
  | send r => exact send_obeys r
  | sendAsync r => exact sendAsyncAndRecv_obeys r
  | sendAndAwaitBoth r => exact sendAndAwaitBoth_obeys r

-- =========================================================== histories

/-- The numbers whose entries the read loop has resolved. -/
def resolved : ClientHistory → List Int
  | [] => []
  | .env (.reader _) w _ :: h => w.resolves ++ resolved h
  | _ :: h => resolved h

/-- The channels the read loop has sent to. -/
def delivered : ClientHistory → List ChanId
  | [] => []
  | .env (.reader k) w _ :: h => (w.delivers k).toList ++ delivered h
  | _ :: h => delivered h

-- =========================================================== invariant

/-- What is known of a call in a phase. -/
def Holds (w : DapClient) (done : List Int) : SendPhase → Prop
  | .start _ => True
  | .numbered _ n => w.pending.lookup n = none ∧ n ∉ done
  | .waiting _ n c => c < w.nextChan ∧ Owed w n c
  | .removed n => w.pending.lookup n = none
  | .got n r => w.pending.lookup n = none ∧
      ∀ x, r = .ok x → Answers n x

/-- The invariant of the client. -/
structure ClientInv (w : DapClient) (φ : Nat → SendPhase)
    (h : ClientHistory) : Prop where
  given_le : ∀ {i n}, (i, n) ∈ given h → n ≤ w.seq
  given_nodup : ((given h).map (·.2)).Nodup
  number : ∀ {i n}, (i, n) ∈ given h ↔ (φ i).number = some n
  table : PendingInv w
  keys : ∀ {n c}, w.pending.lookup n = some c →
    (∃ i, (i, n) ∈ given h) ∧ n ∉ resolved h
  resolved_nodup : (resolved h).Nodup
  resolved_given : ∀ {n}, n ∈ resolved h → ∃ i, (i, n) ∈ given h
  delivered_nodup : (delivered h).Nodup
  delivered_full : ∀ {c}, c ∈ delivered h →
    c < w.nextChan ∧ w.chans c ≠ .empty
  holds : ∀ i, Holds w (resolved h) (φ i)

-- ============================================================== frames

/-- What is known of a call survives a step off the table. -/
theorem SameTable.holds {w w' : DapClient} {done : List Int}
    {q : SendPhase} (hs : SameTable w w') (h : Holds w done q) :
    Holds w' done q := by
  cases q with
  | start g => trivial
  | waiting g n c => exact ⟨hs.nextChan ▸ h.1, hs.owed h.2⟩
  | numbered g n | removed n | got n r =>
      unfold Holds at h ⊢
      rw [hs.pending]
      exact h

namespace ClientInv

variable {w w' : DapClient} {φ φ' : Nat → SendPhase} {h : ClientHistory}
  {ev : ClientEvent} {i : Nat}

/-- A step that leaves the table alone and gives out no number. -/
theorem quiet (hI : ClientInv w φ h) (hs : SameTable w w')
    (hg : given (ev :: h) = given h)
    (hr : resolved (ev :: h) = resolved h)
    (hd : delivered (ev :: h) = delivered h)
    (hφ : ∀ j, (φ' j).number = (φ j).number ∧ Holds w (resolved h) (φ' j)) :
    ClientInv w' φ' (ev :: h) where
  given_le := by
    rw [hg, hs.seq]
    exact hI.given_le
  given_nodup := by
    rw [hg]
    exact hI.given_nodup
  number := by
    intro j n
    rw [hg, (hφ j).1]
    exact hI.number
  table := hs.table hI.table
  keys := by
    rw [hs.pending, hg, hr]
    exact hI.keys
  resolved_nodup := by
    rw [hr]
    exact hI.resolved_nodup
  resolved_given := by
    rw [hr, hg]
    exact hI.resolved_given
  delivered_nodup := by
    rw [hd]
    exact hI.delivered_nodup
  delivered_full := by
    rw [hd, hs.nextChan, hs.chans]
    exact hI.delivered_full
  holds := fun j => by
    rw [hr]
    exact hs.holds (hφ j).2

/-- The phases after call `i` moves within its number. -/
theorem moved {q' : SendPhase} (hI : ClientInv w φ h)
    (hn : q'.number = (φ i).number) (hq : Holds w (resolved h) q')
    (j : Nat) :
    (Function.update φ i q' j).number = (φ j).number ∧
      Holds w (resolved h) (Function.update φ i q' j) := by
  by_cases hij : j = i
  · subst hij
    rw [Function.update_self]
    exact ⟨hn, hq⟩
  · rw [Function.update_of_ne hij]
    exact ⟨rfl, hI.holds j⟩

/-- Two calls with one number are one call. -/
theorem same_call {j : Nat} {n : Int} (hI : ClientInv w φ h)
    (hi : (φ i).number = some n) (hj : (φ j).number = some n) :
    i = j := by
  have hi := hI.number.mpr hi
  have hj := hI.number.mpr hj
  have := List.inj_on_of_nodup_map hI.given_nodup hi hj rfl
  exact congrArg Prod.fst this

-- ==================================================== numbers, entries

/-- A number is given out that nobody has. -/
theorem numbered {g : Bool} {n seq : Int} (hI : ClientInv w φ h)
    (hφ : φ i = .start g) (hnew : ∀ j, (j, n) ∉ given h)
    (hseq : w.seq ≤ seq) (hn : n ≤ seq)
    (hg : given (ev :: h) = (i, n) :: given h)
    (hr : resolved (ev :: h) = resolved h)
    (hd : delivered (ev :: h) = delivered h) :
    ClientInv { w with seq } (Function.update φ i (.numbered g n))
      (ev :: h) := by
  have hnone : ∀ {m : Int}, (i, m) ∉ given h := fun hi => by
    have := hI.number.mp hi
    rw [hφ] at this
    cases this
  refine ⟨fun {j m} hj => ?_, ?_, fun {j m} => ?_, ?_, fun {m c} hc => ?_,
    hr ▸ hI.resolved_nodup, fun {m} hm => ?_, hd ▸ hI.delivered_nodup, ?_,
    fun j => ?_⟩
  · show m ≤ seq
    rw [hg] at hj
    rcases List.mem_cons.mp hj with hj | hj
    · cases hj
      exact hn
    · exact (hI.given_le hj).trans hseq
  · rw [hg]
    refine List.nodup_cons.mpr ⟨fun hm => ?_, hI.given_nodup⟩
    obtain ⟨⟨j, m⟩, hj, hm⟩ := List.mem_map.mp hm
    cases hm
    exact hnew j hj
  · rw [hg]
    by_cases hij : j = i
    · subst hij
      rw [Function.update_self, List.mem_cons]
      simp [hnone, SendPhase.number, eq_comm]
    · rw [Function.update_of_ne hij, List.mem_cons, ← hI.number]
      simp [hij]
  · exact ⟨hI.table.fresh, hI.table.inj, hI.table.unused, hI.table.good,
      hI.table.queue_nodup, hI.table.queue_fresh⟩
  · obtain ⟨⟨j, hj⟩, hm⟩ := hI.keys hc
    rw [hg, hr]
    exact ⟨⟨j, List.mem_cons_of_mem _ hj⟩, hm⟩
  · rw [hr] at hm
    obtain ⟨j, hj⟩ := hI.resolved_given hm
    rw [hg]
    exact ⟨j, List.mem_cons_of_mem _ hj⟩
  · rw [hd]
    exact hI.delivered_full
  · rw [hr]
    by_cases hij : j = i
    · subst hij
      rw [Function.update_self]
      refine ⟨?_, fun hm => ?_⟩
      · cases hl : w.pending.lookup n with
        | none => rfl
        | some c =>
            obtain ⟨⟨j, hj⟩, -⟩ := hI.keys hl
            exact absurd hj (hnew j)
      · obtain ⟨j, hj⟩ := hI.resolved_given hm
        exact hnew j hj
    · rw [Function.update_of_ne hij]
      have hh := hI.holds j
      cases hp : φ j with
      | waiting g n c =>
          rw [hp] at hh
          refine ⟨hh.1, ?_⟩
          cases hh.2 with
          | pending h => exact .pending h
          | queued hn r hq hr => exact .queued hn r hq hr
          | sent hn r hc hr => exact .sent hn r hc hr
      | _ =>
          rw [hp] at hh
          exact hh

/-- The next number is given out. -/
theorem nextSeq {g : Bool} (hI : ClientInv w φ h)
    (hφ : φ i = .start g) :
    ClientInv { w with seq := w.seq + 1 }
      (Function.update φ i (.numbered g (w.seq + 1)))
      (.act i .nextSeq (w.seq + 1) w { w with seq := w.seq + 1 } :: h) := by
  refine hI.numbered hφ (fun j hj => ?_) ?_ (Int.le_refl _) rfl rfl rfl
  · have := hI.given_le hj
    omega
  · omega

/-- The invariant reads the numbers, the entries and the channels off the
history, and not the worlds. -/
theorem reread {h' : ClientHistory} (hI : ClientInv w φ h)
    (hg : given h' = given h) (hr : resolved h' = resolved h)
    (hd : delivered h' = delivered h) : ClientInv w φ h' where
  given_le := by
    rw [hg]
    exact hI.given_le
  given_nodup := hg ▸ hI.given_nodup
  number := by
    rw [hg]
    exact hI.number
  table := hI.table
  keys := by
    rw [hg, hr]
    exact hI.keys
  resolved_nodup := hr ▸ hI.resolved_nodup
  resolved_given := by
    rw [hg, hr]
    exact hI.resolved_given
  delivered_nodup := hd ▸ hI.delivered_nodup
  delivered_full := by
    rw [hd]
    exact hI.delivered_full
  holds := hr ▸ hI.holds

end ClientInv

/-- What is known of the calls with other numbers survives. -/
theorem OnlyEntry.holds {n : Int} {w w' : DapClient}
    {done done' : List Int} {q : SendPhase} (ho : OnlyEntry n w w')
    (hd : ∀ m ∈ done', m = n ∨ m ∈ done) (hne : q.number ≠ some n)
    (h : Holds w done q) : Holds w' done' q := by
  have hl : ∀ m, q.number = some m →
      w'.pending.lookup m = w.pending.lookup m := fun m hm =>
    ho.lookup fun he => hne (he ▸ hm)
  cases q with
  | start g => trivial
  | waiting g m c =>
      exact ⟨h.1.trans_le ho.nextChan,
        ho.owed (fun he => hne (congrArg some he)) h.2⟩
  | numbered g m =>
      refine ⟨(hl m rfl).trans h.1, fun hm => ?_⟩
      rcases hd m hm with he | hm
      · exact hne (congrArg some he)
      · exact h.2 hm
  | got m r => exact ⟨(hl m rfl).trans h.1, h.2⟩
  | removed m => exact (hl m rfl).trans h

namespace ClientInv

variable {w : DapClient} {φ : Nat → SendPhase} {h : ClientHistory}
  {i : Nat} {n : Int}

/-- The phases after call `i`, with number `n`, moves with a step that
touches only its entry. -/
theorem moved_entry {w' : DapClient} {q' : SendPhase}
    (hI : ClientInv w φ h) (ho : OnlyEntry n w w')
    (hn : (φ i).number = some n) (hq : Holds w' (resolved h) q') (j : Nat) :
    Holds w' (resolved h) (Function.update φ i q' j) := by
  by_cases hij : j = i
  · subst hij
    rw [Function.update_self]
    exact hq
  · rw [Function.update_of_ne hij]
    refine ho.holds (fun m hm => .inr hm) (fun hj => ?_) (hI.holds j)
    exact hij (hI.same_call hj hn)

/-- Moving within one's number keeps the numbers. -/
theorem moved_number {q' : SendPhase} (hI : ClientInv w φ h)
    (hn : (φ i).number = some n) (hq : q'.number = some n) {j : Nat}
    {m : Int} :
    (j, m) ∈ given h ↔ (Function.update φ i q' j).number = some m := by
  by_cases hij : j = i
  · subst hij
    rw [Function.update_self, hI.number, hn, hq]
  · rw [Function.update_of_ne hij]
    exact hI.number

/-- An entry is registered. -/
theorem registerPending {g : Bool} (hI : ClientInv w φ h)
    (hφ : φ i = .numbered g n) :
    ClientInv (w.registerPending n).2
      (Function.update φ i (.waiting g n w.nextChan))
      (.act i (.registerPending n) w.nextChan w
        (w.registerPending n).2 :: h) := by
  have hn : (φ i).number = some n := by rw [hφ]; rfl
  have hnone : w.pending.lookup n = none ∧ n ∉ resolved h := by
    have hh := hI.holds i
    rw [hφ] at hh
    exact hh
  rw [DapClient.registerPending_new hnone.1]
  refine ⟨hI.given_le, hI.given_nodup, hI.moved_number hn rfl,
    hI.table.register, fun {m c} hm => ?_,
    hI.resolved_nodup, hI.resolved_given, hI.delivered_nodup, ?_, ?_⟩
  · by_cases hmn : m = n
    · subst hmn
      exact ⟨⟨i, hI.number.mpr hn⟩, hnone.2⟩
    · dsimp only at hm
      rw [AList.lookup_insert_ne hmn] at hm
      exact hI.keys hm
  · intro c hc
    have := hI.delivered_full hc
    exact ⟨this.1.trans (Nat.lt_succ_self _), this.2⟩
  · exact hI.moved_entry (PendingInv.register_only w n) hn
      ⟨Nat.lt_succ_self _, .pending (AList.lookup_insert _)⟩

/-- A call removes the entry of its number. -/
theorem removePending {q' : SendPhase} (hI : ClientInv w φ h)
    (hn : (φ i).number = some n) (hq : q'.number = some n)
    (hh : ∀ w' : DapClient, w'.pending.lookup n = none →
      Holds w' (resolved h) q') :
    ClientInv (w.removePending n) (Function.update φ i q')
      (.act i (.removePending n) () w (w.removePending n) :: h) := by
  cases hl : w.pending.lookup n with
  | none =>
      rw [DapClient.removePending_none hl]
      exact hI.quiet (.refl w) rfl rfl rfl
        (hI.moved (hq.trans hn.symm) (hh w hl))
  | some c =>
      rw [DapClient.removePending_some hl]
      obtain ⟨hc, he⟩ := hI.table.fresh hl
      refine ⟨hI.given_le, hI.given_nodup, hI.moved_number hn hq,
        hI.table.remove hl, fun hm => hI.keys (lookup_erase_some hm).2,
        hI.resolved_nodup, hI.resolved_given, hI.delivered_nodup,
        fun {d} hd => ?_, hI.moved_entry (hI.table.remove_only hl) hn
          (hh _ (AList.lookup_erase _ _))⟩
      refine ⟨(hI.delivered_full hd).1, ?_⟩
      dsimp only
      rw [he]
      by_cases hdc : d = c
      · subst hdc
        rw [Function.update_self]
        nofun
      · rw [Function.update_of_ne hdc]
        exact (hI.delivered_full hd).2

/-- A waiting call finds its result. -/
theorem received {g : Bool} {c : ChanId} {r : Except Unit PendingResult}
    (hI : ClientInv w φ h) (hφ : φ i = .waiting g n c)
    (hr : (w.chans c).recv = some r) : Holds w (resolved h) (.got n r) := by
  have hh := hI.holds i
  rw [hφ] at hh
  -- An entry's channel and a queued one are empty.
  cases hh.2 with
  | pending h =>
      rw [(hI.table.fresh h).2] at hr
      cases hr
  | queued hn x hq hx =>
      rw [(hI.table.queue_fresh hq).2.1] at hr
      cases hr
  | sent hn x hs hx =>
      rw [hs] at hr
      cases hr
      refine ⟨hn, fun y hy => ?_⟩
      cases hy
      exact hx

end ClientInv

-- ======================================================= the read loop

namespace ClientInv

variable {w w' : DapClient} {φ : Nat → SendPhase} {h : ClientHistory}
  {k : Nat} {rest : List ReaderOp}

/-- A step of the read loop on neither the table nor a channel. -/
theorem reader_quiet (hI : ClientInv w φ h) (hs : SameTable w w')
    (hr : w.resolves = []) (hd : w.delivers k = none) :
    ClientInv w' φ (.env (.reader k) w w' :: h) := by
  refine hI.quiet hs rfl ?_ ?_ fun j => ⟨rfl, hI.holds j⟩
  · show w.resolves ++ resolved h = resolved h
    rw [hr, List.nil_append]
  · show (w.delivers k).toList ++ delivered h = delivered h
    rw [hd]
    rfl

/-- What a step of the read loop adds to the resolved numbers. -/
theorem resolved_reader (w w' : DapClient) (k : Nat) (h : ClientHistory) :
    resolved (.env (.reader k) w w' :: h) = w.resolves ++ resolved h :=
  rfl

/-- What a step of the read loop adds to the delivered channels. -/
theorem delivered_reader (w w' : DapClient) (k : Nat)
    (h : ClientHistory) : delivered (.env (.reader k) w w' :: h)
      = (w.delivers k).toList ++ delivered h := rfl

/-- A response takes the entry of its number. -/
theorem take {n : Int} {m : DapMessage} {c : ChanId}
    (hI : ClientInv w φ h) (hw : w.reader = .takePending n m :: rest)
    (hn : w.pending.lookup n = some c) :
    ClientInv (w.taken n c m rest) φ
      (.env (.reader k) w (w.taken n c m rest) :: h) := by
  have hres : w.resolves = [n] := by
    unfold DapClient.resolves
    rw [hw]
    dsimp only
    rw [if_pos (AList.lookup_isSome.mp (by rw [hn]; rfl))]
  have hdel : w.delivers k = none := by
    unfold DapClient.delivers
    rw [hw]
  have hnot : n ∉ resolved h := (hI.keys hn).2
  refine ⟨hI.given_le, hI.given_nodup, hI.number, hI.table.take hw hn,
    ?_, ?_, ?_, ?_, ?_, fun j => ?_⟩
  · intro m' d hm'
    obtain ⟨hne, hm'⟩ := lookup_erase_some hm'
    obtain ⟨hg, hr⟩ := hI.keys hm'
    rw [resolved_reader, hres]
    exact ⟨hg, List.not_mem_cons_of_ne_of_not_mem hne hr⟩
  · rw [resolved_reader, hres]
    exact List.nodup_cons.mpr ⟨hnot, hI.resolved_nodup⟩
  · rw [resolved_reader, hres]
    intro m' hm'
    rcases List.mem_cons.mp hm' with rfl | hm'
    · exact (hI.keys hn).1
    · exact hI.resolved_given hm'
  · rw [delivered_reader, hdel]
    exact hI.delivered_nodup
  · rw [delivered_reader, hdel]
    exact hI.delivered_full
  · rw [resolved_reader, hres]
    have hh := hI.holds j
    have herase : ∀ m', w.pending.lookup m' = none →
        (w.pending.erase n).lookup m' = none := fun m' hm' => by
      by_cases hmn : m' = n
      · subst hmn
        exact AList.lookup_erase _ _
      · rw [AList.lookup_erase_ne hmn, hm']
    cases hp : φ j with
    | start g => trivial
    | waiting g m' c' =>
        rw [hp] at hh
        exact ⟨hh.1, hI.table.take_owed hw hn hh.2⟩
    | numbered g m' =>
        rw [hp] at hh
        refine ⟨herase m' hh.1, fun hm' => ?_⟩
        rcases List.mem_cons.mp hm' with rfl | hm'
        · cases hh.1.symm.trans hn
        · exact hh.2 hm'
    | got m' r =>
        rw [hp] at hh
        exact ⟨herase m' hh.1, hh.2⟩
    | removed m' =>
        rw [hp] at hh
        exact herase m' hh

/-- The end of the stream takes every entry. -/
theorem drain {e : BackendError} (hI : ClientInv w φ h)
    (hw : w.reader = .drainPending e :: rest) :
    ClientInv (w.drained e rest) φ
      (.env (.reader k) w (w.drained e rest) :: h) := by
  have hres : w.resolves = w.pending.keys := by
    unfold DapClient.resolves
    rw [hw]
  have hdel : w.delivers k = none := by
    unfold DapClient.delivers
    rw [hw]
  have hkey : ∀ {n : Int}, n ∈ w.pending.keys →
      ∃ c, w.pending.lookup n = some c := fun hn =>
    Option.isSome_iff_exists.mp (AList.lookup_isSome.mpr hn)
  refine ⟨hI.given_le, hI.given_nodup, hI.number, hI.table.drain hw,
    fun hm => absurd hm PendingInv.lookup_empty, ?_, ?_, ?_, ?_,
    fun j => ?_⟩
  · rw [resolved_reader, hres]
    refine List.Nodup.append w.pending.keys_nodup hI.resolved_nodup ?_
    intro n hn hr
    obtain ⟨c, hc⟩ := hkey hn
    exact (hI.keys hc).2 hr
  · rw [resolved_reader, hres]
    intro n hn
    rcases List.mem_append.mp hn with hn | hn
    · obtain ⟨c, hc⟩ := hkey hn
      exact (hI.keys hc).1
    · exact hI.resolved_given hn
  · rw [delivered_reader, hdel]
    exact hI.delivered_nodup
  · rw [delivered_reader, hdel]
    exact hI.delivered_full
  · rw [resolved_reader, hres]
    have hh := hI.holds j
    cases hp : φ j with
    | start g => trivial
    | numbered g n =>
        rw [hp] at hh
        refine ⟨rfl, fun hn => ?_⟩
        rcases List.mem_append.mp hn with hn | hn
        · obtain ⟨c, hc⟩ := hkey hn
          cases hc.symm.trans hh.1
        · exact hh.2 hn
    | waiting g n c =>
        rw [hp] at hh
        exact ⟨hh.1, hI.table.drain_owed hw hh.2⟩
    | removed n => rfl
    | got n r =>
        rw [hp] at hh
        exact ⟨rfl, hh.2⟩

/-- A result is sent to its channel. -/
theorem deliver {cs : List ChanId} {r : PendingResult} {c : ChanId}
    (hI : ClientInv w φ h) (hw : w.reader = .sendPending cs r :: rest)
    (hk : cs[k]? = some c) :
    ClientInv (w.delivered cs r c k rest) φ
      (.env (.reader k) w (w.delivered cs r c k rest) :: h) := by
  obtain ⟨-, hc, he, -⟩ := hI.table.next_queued hw hk
  have hres : w.resolves = [] := by
    unfold DapClient.resolves
    rw [hw]
  have hdel : w.delivers k = some c := by
    unfold DapClient.delivers
    rw [hw]
    exact hk
  refine ⟨hI.given_le, hI.given_nodup, hI.number, hI.table.deliver hw hk,
    ?_, ?_, ?_, ?_, ?_, fun j => ?_⟩
  · rw [resolved_reader, hres]
    exact hI.keys
  · rw [resolved_reader, hres]
    exact hI.resolved_nodup
  · rw [resolved_reader, hres]
    exact hI.resolved_given
  · rw [delivered_reader, hdel]
    refine List.nodup_cons.mpr ⟨fun hm => ?_, hI.delivered_nodup⟩
    exact (hI.delivered_full hm).2 he
  · rw [delivered_reader, hdel]
    intro d hd
    by_cases hdc : d = c
    · subst hdc
      rw [PendingInv.delivered_self he]
      exact ⟨hc, nofun⟩
    · rw [PendingInv.delivered_other hdc]
      exact hI.delivered_full
        ((List.mem_cons.mp hd).resolve_left hdc)
  · rw [resolved_reader, hres]
    have hh := hI.holds j
    cases hp : φ j with
    | waiting g n d =>
        rw [hp] at hh
        exact ⟨hh.1, hI.table.deliver_owed hw hk hh.2⟩
    | _ =>
        rw [hp] at hh
        exact hh

/-- A step of the read loop. -/
theorem reader (hI : ClientInv w φ h) (ht : TableStep w k w') :
    ClientInv w' φ (.env (.reader k) w w' :: h) := by
  cases ht with
  | quiet hs hr hd => exact hI.reader_quiet hs hr hd
  | take hw hn => exact hI.take hw hn
  | drain hw => exact hI.drain hw
  | deliver hw hk => exact hI.deliver hw hk

/-- The read loop reads a frame or the end of the stream. -/
theorem read {e : ClientMove} {ops : List ReaderOp} {ended : Bool}
    (hI : ClientInv w φ h) (hw : w.reader.isEmpty = true)
    (hops : queued ops = []) (hgood : ∀ op ∈ ops, op.Good)
    (hr : resolved (.env e w w' :: h) = resolved h)
    (hd : delivered (.env e w w' :: h) = delivered h)
    (hw' : w' = { w with reader := ops, ended := ended }) :
    ClientInv w' φ (.env e w w' :: h) := by
  subst hw'
  refine hI.quiet ⟨rfl, rfl, rfl, rfl, ?_, fun _ => hgood⟩ rfl hr hd
    fun j => ⟨rfl, hI.holds j⟩
  rw [List.isEmpty_iff.mp hw]
  exact hops

end ClientInv

theorem clientInv_inductive :
    Inductive clientMachine SendNext (fun _ _ => True) ClientInv where
  act := by
    intro w w' φ h i β op a b q' hI hr hq _
    have hr : w.run i op a = some (b, w') := hr
    generalize hφ : φ i = q at hq
    have hnum : (φ i).number = q.number := by rw [hφ]
    have hold : Holds w (resolved h) q := hφ ▸ hI.holds i
    cases hq with
    | number g n =>
        obtain ⟨rfl, rfl⟩ := DapClient.run_nextSeq hr
        exact hI.nextSeq hφ
    | register g n c =>
        have he := DapClient.run_registerPending hr
        rw [DapClient.registerPending_new hold.1] at he
        cases he
        have := hI.registerPending hφ
        rw [DapClient.registerPending_new hold.1] at this
        exact this
    | write g n c r x =>
        cases DapClient.run_writeRequest hr
        exact hI.quiet (.refl w) rfl rfl rfl (hI.moved hnum.symm hold)
    | remove g n c =>
        cases DapClient.run_removePending hr
        exact hI.removePending hnum rfl fun _ h => h
    | recv g n c r =>
        obtain ⟨rfl, hc⟩ := DapClient.run_recv hr
        exact hI.quiet (.refl _) rfl rfl rfl
          (hI.moved hnum.symm (hI.received hφ (hc r rfl)))
    | recvDropped g n c =>
        obtain ⟨rfl, -⟩ := DapClient.run_recv hr
        exact hI.quiet (.refl _) rfl rfl rfl (hI.moved hnum.symm hold)
    | select g p n c r =>
        obtain ⟨hs, hc⟩ := DapClient.run_selectBoth hr
        exact hI.quiet hs rfl rfl rfl
          (hI.moved hnum.symm (hI.received hφ (hc r rfl)))
    | selectOther g p n c x hx =>
        obtain ⟨hs, -⟩ := DapClient.run_selectBoth hr
        exact hI.quiet hs rfl rfl rfl (hI.moved hnum.symm hold)
    | poll n r x =>
        exact hI.quiet (DapClient.run_pollInitialized hr) rfl rfl rfl
          (hI.moved hnum.symm hold)
    | recvInit n r x =>
        cases DapClient.run_recvInitialized hr
        exact hI.quiet (.refl w) rfl rfl rfl (hI.moved hnum.symm hold)
    | removeGot n r =>
        cases DapClient.run_removePending hr
        exact hI.removePending hnum rfl fun _ h => ⟨h, hold.2⟩
  env := by
    intro w w' φ h e hI he _
    have he : w.envMove e = some w' := he
    cases e with
    | frame m =>
        unfold DapClient.envMove at he
        dsimp only at he
        split at he
        · next hc =>
            cases he
            rw [Bool.and_eq_true] at hc
            exact hI.read hc.1 (queued_dispatch m) (dispatch_good m) rfl
              rfl rfl
        · cases he
    | eof =>
        unfold DapClient.envMove at he
        dsimp only at he
        split at he
        · next hc =>
            cases he
            rw [Bool.and_eq_true] at hc
            refine hI.read hc.1 rfl (fun op hop => ?_) rfl rfl rfl
            simp only [recover, List.mem_cons, List.not_mem_nil,
              or_false] at hop
            rcases hop with rfl | rfl | rfl
            · rfl
            · trivial
            · trivial
        · cases he
    | reader k => exact hI.reader (DapClient.reader_table he)

-- ===================================================== the wrapped counter

/-- The client with its counter at the top of the range. -/
def DapClient.topped (w : DapClient) : DapClient := { w with seq := 2 ^ 63 }

/-- The numbers are counted, and while fewer than 2^64 are given out the
invariant holds of the client with its counter at the top. -/
def WrappedInv (w : DapClient) (φ : Nat → SendPhase)
    (h : ClientHistory) : Prop :=
  GivenOut w h ∧ ((given h).length < 2 ^ 64 → ClientInv w.topped φ h)

/-- Who is given a number has none yet. -/
theorem SendNext.gives {β : Type} {q q' : SendPhase} {op : ClientOp β}
    {b : β} {n : Int} (hq : SendNext q op b q') (hg : op.gives b = some n) :
    ∃ g, q = .start g ∧ q' = .numbered g n := by
  cases hq with
  | number g m =>
      cases hg
      exact ⟨g, rfl, rfl⟩
  | _ => cases hg

theorem wrappedInv_inductive :
    Inductive wrappingMachine SendNext (fun _ _ => True) WrappedInv where
  act := by
    intro w w' φ h i β op a b q' hI hr hq _
    obtain ⟨hC, hI⟩ := hI
    have hr : w.runWrapping i op a = some (b, w') := hr
    cases hg : op.gives b with
    | none =>
        obtain ⟨htop, hseq⟩ := runWrapping_other hr hg (2 ^ 63)
        have hgiven : given (.act i op b w w' :: h) = given h := by
          rw [given, hg]
        refine ⟨hC.other hseq hgiven, fun hlt => ?_⟩
        rw [hgiven] at hlt
        exact (clientInv_inductive.act (hI hlt) htop hq trivial).reread
          rfl rfl rfl
    | some n =>
        obtain ⟨rfl, rfl⟩ := runWrapping_gives hr hg
        obtain ⟨g, hφ, rfl⟩ := hq.gives hg
        have hgiven : given
            (.act i op b w { w with seq := w.nextSeq } :: h)
              = (i, w.nextSeq) :: given h := by
          rw [given, hg]
        refine ⟨hC.next hgiven, fun hlt => ?_⟩
        rw [hgiven, List.length_cons] at hlt
        apply (hI (Nat.lt_of_succ_lt hlt)).numbered hφ (hC.fresh hlt)
          (Int.le_refl _) _ hgiven rfl rfl
        rw [DapClient.nextSeq, hC.seq, wrapped_succ]
        exact (wrapped_lt _).le
  env := by
    intro w w' φ h e hI he _
    obtain ⟨hC, hI⟩ := hI
    obtain ⟨htop, hseq⟩ := envMove_seq he (2 ^ 63)
    refine ⟨hC.other hseq rfl, fun hlt => ?_⟩
    refine (clientInv_inductive.env (hI hlt) htop trivial).reread rfl ?_ ?_
    · cases e <;> rfl
    · cases e <;> rfl

-- ========================================================== the result

/-- Before anything happened. -/
theorem ClientInv.init (calls : Nat → ClientCall) :
    ClientInv DapClient.new.topped (fun i => (calls i).phase₀) [] where
  given_le := nofun
  given_nodup := List.nodup_nil
  number := by
    intro i n
    cases calls i <;> exact ⟨nofun, nofun⟩
  table := ⟨pendingInv_new.fresh, pendingInv_new.inj,
    pendingInv_new.unused, pendingInv_new.good,
    pendingInv_new.queue_nodup, pendingInv_new.queue_fresh⟩
  keys := nofun
  resolved_nodup := List.nodup_nil
  resolved_given := nofun
  delivered_nodup := List.nodup_nil
  delivered_full := nofun
  holds := by
    intro i
    cases calls i <;> trivial

/-- Requests and responses are correlated in a run of `calls`. -/
structure Correlated (calls : Nat → ClientCall) (h : ClientHistory)
    (s : Pool ClientOp (Option PendingResult) DapClient) : Prop where
  /-- No number is given out twice. -/
  numbers_distinct : ((given h).map (·.2)).Nodup
  /-- A request is written with the number its call was given. -/
  stamped : ∀ {i r x w w' h'}, h = .act i (.writeRequest r) x w w' :: h' →
    (i, r.seq) ∈ given h'
  /-- A call receives the response to its number or an error of the
  transport. -/
  own_response : ∀ {i r}, s.returned i = some (some r) →
    ∃ n, (i, n) ∈ given h ∧
      (Answers n r ∨ ∃ err, r = .error (writeError err))
  /-- An entry is resolved at most once. -/
  resolved_once : (resolved h).Nodup
  /-- A channel is sent to at most once. -/
  delivered_once : (delivered h).Nodup
  /-- A response to a number not given out, or resolved already, changes
  nothing. -/
  stray_ignored : ∀ {k w w' h' n m rest},
    h = .env (.reader k) w w' :: h' →
    w.reader = .takePending n m :: rest →
    n ∉ (given h').map (·.2) ∨ n ∈ resolved h' →
    w' = { w with reader := rest }
  /-- A `send` that has ended, however it ended, has left no entry. -/
  send_leaves_nothing : ∀ {i r n a}, calls i = .send r →
    (i, n) ∈ given h → s.returned i = some a →
    n ∉ s.world.pending

section

variable {calls : Nat → ClientCall} {h : ClientHistory}
  {s : Pool ClientOp (Option PendingResult) DapClient}

/-- A call that may leave its entry was one from the start. -/
theorem SendNext.mayLeave {β : Type} {q q' : SendPhase}
    {op : ClientOp β} {b : β} (hq : SendNext q op b q')
    (h : q'.mayLeave = true) : q.mayLeave = true := by
  cases hq with
  | remove g n c | recv g n c r | select g p n c r => cases h
  | _ => exact h

/-- The number a written request bears. -/
def ClientOp.stamp {β : Type} : ClientOp β → Option Int
  | .writeRequest r => some r.seq
  | _ => none

/-- A request is written with its call's number. -/
theorem SendNext.stamp {β : Type} {q q' : SendPhase} {op : ClientOp β}
    {b : β} {n : Int} (hq : SendNext q op b q') (h : op.stamp = some n) :
    q.number = some n := by
  cases hq with
  | write g m c r x => exact h
  | _ => cases h

/-- The invariant, and that a call that may leave its entry was one from
the start. -/
theorem wrappedInv_leave (calls : Nat → ClientCall) :
    Inductive wrappingMachine SendNext (fun _ _ => True)
      (fun w φ h => WrappedInv w φ h ∧
        ∀ i, (φ i).mayLeave = true → (calls i).phase₀.mayLeave = true)
    where
  act := by
    intro w w' φ h i β op a b q' hI hr hq hok
    refine ⟨wrappedInv_inductive.act hI.1 hr hq hok, fun j hj => ?_⟩
    by_cases hij : j = i
    · subst hij
      rw [Function.update_self] at hj
      exact hI.2 j (hq.mayLeave hj)
    · rw [Function.update_of_ne hij] at hj
      exact hI.2 j hj
  env hI he hok := ⟨wrappedInv_inductive.env hI.1 he hok, hI.2⟩

/-- The invariant holds in every state of a run. -/
theorem wrappedRun_invariant
    (hr : Run wrappingMachine (clientPool calls) h s)
    (hn : (given h).length < 2 ^ 64) :
    ∃ φ, (ClientInv s.world.topped φ h ∧
        ∀ i, (φ i).mayLeave = true → (calls i).phase₀.mayLeave = true) ∧
      ∀ i p, s.prog i = some p → Obeys SendNext Finished p (φ i) := by
  obtain ⟨φ, ⟨hW, hleave⟩, hobey⟩ := hr.invariant
    (wrappedInv_leave calls)
    (fun i _ hp => Option.some.inj hp ▸ (calls i).obeys)
    ⟨⟨givenOut_new, fun _ => .init calls⟩, fun _ => id⟩
  exact ⟨φ, ⟨hW.2 hn, hleave⟩, hobey⟩

/-- A number without an entry is skipped by the read loop. -/
theorem ClientInv.stray {w : DapClient} {φ : Nat → SendPhase} {n : Int}
    (hI : ClientInv w φ h)
    (hn : n ∉ (given h).map (·.2) ∨ n ∈ resolved h) :
    w.pending.lookup n = none := by
  cases hl : w.pending.lookup n with
  | none => rfl
  | some c =>
      obtain ⟨⟨i, hi⟩, hr⟩ := hI.keys hl
      rcases hn with hn | hn
      · exact absurd (List.mem_map.mpr ⟨(i, n), hi, rfl⟩) hn
      · exact absurd hn hr

/-- In every run of concurrent callers, whatever the adapter sends and
wherever callers are dropped, requests and responses are correlated, as
long as fewer than 2^64 numbers are given out. -/
theorem run_correlated (hr : Run wrappingMachine (clientPool calls) h s)
    (hn : (given h).length < 2 ^ 64) : Correlated calls h s := by
  obtain ⟨φ, ⟨hI, hleave⟩, hobey⟩ := wrappedRun_invariant hr hn
  have hfin : ∀ {i a}, s.returned i = some a → Finished (φ i) a :=
    fun ha => hobey _ _ (Pool.prog_of_returned ha)
  refine ⟨hI.given_nodup, ?_, fun {i r} ha => ?_, hI.resolved_nodup,
    hI.delivered_nodup, ?_, fun {i r n a} hc hgiven ha => ?_⟩
  · rintro i r x w w' h' rfl
    cases hr with
    | snoc hr hs _ =>
        obtain ⟨φ', ⟨hI', -⟩, hobey'⟩ := wrappedRun_invariant hr
          (given_length_le.trans_lt hn)
        cases hs with
        | act hp _ =>
            obtain ⟨q', hq, -⟩ := hobey' i _ hp x
            exact hI'.number.mpr (hq.stamp rfl)
  · have hf := hfin ha
    have hh := hI.holds i
    have hnum := fun n => (hI.number (i := i) (n := n)).mpr
    generalize φ i = q at hf hh hnum
    cases hf with
    | failed n err => exact ⟨n, hnum n rfl, .inr ⟨err, rfl⟩⟩
    | got n x =>
        refine ⟨n, hnum n rfl, .inl ?_⟩
        cases x with
        | ok y => exact hh.2 y rfl
        | error u => exact .closed
  · rintro k w w' h' n m rest rfl hw hstray
    cases hr with
    | snoc hr hs _ =>
        obtain ⟨φ', ⟨hI', -⟩, -⟩ := wrappedRun_invariant hr hn
        cases hs with
        | env he =>
            exact DapClient.take_absent he hw (hI'.stray hstray)
  · rw [← AList.lookup_eq_none]
    have hf := hfin ha
    have hh := hI.holds i
    have hl := hleave i
    have hnum := hI.number.mp hgiven
    rw [hc] at hl
    generalize φ i = q at hf hh hnum hl
    cases hf with
    | dropped n c => exact absurd (hl rfl) nofun
    | removed n' | failed n' err =>
        cases hnum
        exact hh
    | got n' x | gotDropped n' x =>
        cases hnum
        exact hh.1

end

/-- A `send`, a `send` whose write fails, a `send_async` dropped at its
write and a `send_and_await_both`. -/
def mixedCalls : Nat → ClientCall
  | 0 | 1 => .send (.new "threads" none)
  | 2 => .sendAsync (.new "launch" none)
  | _ => .sendAndAwaitBoth (.new "attach" none)

/-- A response to request `n`. -/
def responseTo (n : Int) : DapMessage :=
  .response ⟨0, "response", n, true, "threads", "", none⟩

/-- A frame and the read loop's steps on it. -/
def dispatched (m : DapMessage) (n : Nat) :
    List (Action Reply ClientMove) :=
  .env (.frame m) :: List.replicate n (.env (.reader 0))

/-- All four calls register; the answers come out of order, one of them
twice and one to a number nobody has; then the stream ends. -/
def mixedSteps : List (Action Reply ClientMove) :=
  [.step 0 .sync, .step 1 .sync, .step 1 .sync, .step 0 .sync,
    .step 2 .sync, .step 2 .sync, .step 3 .sync, .step 3 .sync,
    .step 3 .sync, .step 0 .sync, .step 1 (.fail true "io error"),
    .step 1 .sync, .step 2 (.cancel false)]
  ++ dispatched (responseTo 9) 1 ++ dispatched (responseTo 4) 3
  ++ dispatched (responseTo 4) 1 ++ dispatched (responseTo 1) 3
  ++ [.step 3 .other, .step 0 .sync, .step 3 .sync]
  ++ dispatched (.event .initialized) 1
  ++ [.step 3 .sync, .env .eof] ++ List.replicate 5 (.env (.reader 0))

/-- How that run ends: every call has returned, the failed one and the
first `send` left nothing, and the entry of the one dropped at its write
is resolved by the end of the stream. -/
def MixedEnd (h : ClientHistory)
    (s : Pool ClientOp (Option PendingResult) DapClient) : Prop :=
  given h = [(3, 4), (2, 3), (1, 2), (0, 1)] ∧ resolved h = [3, 1, 4] ∧
    ∀ i < 4, (s.returned i).isSome

instance (h : ClientHistory)
    (s : Pool ClientOp (Option PendingResult) DapClient) :
    Decidable (MixedEnd h s) :=
  inferInstanceAs (Decidable (given h = _ ∧ resolved h = _ ∧
    ∀ i < 4, (s.returned i).isSome))

/-- Four calls run to their ends, out of order and with strays. -/
theorem mixed_correlated :
    ∃ h s, Run wrappingMachine (clientPool mixedCalls) h s ∧
      Correlated mixedCalls h s ∧ MixedEnd h s := by
  obtain ⟨h, s, hr, hend⟩ := exec_witness wrappingMachine
    (clientPool mixedCalls) mixedSteps MixedEnd (by decide +kernel)
  refine ⟨h, s, hr, run_correlated hr ?_, hend⟩
  rw [hend.1]
  decide

end DebugMcp
