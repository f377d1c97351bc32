/-
The table of pending requests and the response channels.

Every operation of a caller and every step of the read loop is taken
apart here once, by what it does to the table, the channels and the read
loop's queue; a proof about callers starts from these.

# A response's way

Until a request has its result, exactly one of three things is true of
its channel (`Owed`): the table still maps the number to it, the read
loop has taken it out and is about to send, or the result is in it.
`PendingInv` is what keeps the three apart, and `TableStep` lists the
steps that move a channel from one to the next.
-/
import DebugMcp.Dap.Client

namespace DebugMcp

open Conc

/-- The events of a run of the client's callers. -/
abbrev ClientEvent := Event ClientOp ClientMove DapClient

/-- The history of such a run, newest first. -/
abbrev ClientHistory := List ClientEvent

-- =========================================================== histories

/-- The number an operation gives out. -/
def ClientOp.gives {β : Type} (op : ClientOp β) (b : β) : Option Int :=
  match op, b with
  | .nextSeq, n => some n
  | _, _ => none

/-- The numbers given out, each with the call it was given to. -/
def given : ClientHistory → List (Nat × Int)
  | [] => []
  | .act i op b _ _ :: h =>
      match op.gives b with
      | some n => (i, n) :: given h
      | none => given h
  | .env _ _ _ :: h => given h

/-- The numbers whose entries the read loop's next step resolves. -/
def DapClient.resolves (w : DapClient) : List Int :=
  match w.reader with
  | .takePending n _ :: _ => if n ∈ w.pending then [n] else []
  | .drainPending _ :: _ => w.pending.keys
  | _ => []

/-- The channel the read loop's next step sends to. -/
def DapClient.delivers (w : DapClient) (k : Nat) : Option ChanId :=
  match w.reader with
  | .sendPending cs _ :: _ => cs[k]?
  | _ => none

/-- A result call number `n` may receive: the response to `n`, or that
the transport closed. -/
inductive Answers (n : Int) : PendingResult → Prop
  | response (r : Response) (h : r.requestSeq = n) :
      Answers n (.ok (.response r))
  | closed : Answers n (.error .closed)

-- ============================================================ the table

/-- A step the read loop can be at: responses are taken out under their
own number, and the table is drained to close. -/
def ReaderOp.Good : ReaderOp → Prop
  | takePending n m => Answers n (.ok m)
  | drainPending e => e = .closed
  | _ => True

/-- The channels the read loop has taken out and has still to send to,
with what it will send. -/
def queued : List ReaderOp → List (ChanId × PendingResult)
  | [] => []
  | .sendPending cs r :: ops => cs.map (·, r) ++ queued ops
  | _ :: ops => queued ops

/-- The result of number `n`, waited for on channel `c`: still to be
resolved, taken out by the read loop, or sent. -/
inductive Owed (w : DapClient) (n : Int) (c : ChanId) : Prop
  | pending (h : w.pending.lookup n = some c)
  | queued (hn : w.pending.lookup n = none) (r : PendingResult)
      (hq : (c, r) ∈ queued w.reader) (hr : Answers n r)
  | sent (hn : w.pending.lookup n = none) (r : PendingResult)
      (hs : w.chans c = .sent r) (hr : Answers n r)

/-- The table and the channels of the read loop. -/
structure PendingInv (w : DapClient) : Prop where
  fresh : ∀ {n c}, w.pending.lookup n = some c →
    c < w.nextChan ∧ w.chans c = .empty
  inj : ∀ {n n' c}, w.pending.lookup n = some c →
    w.pending.lookup n' = some c → n = n'
  unused : ∀ {c}, w.nextChan ≤ c → w.chans c = .empty
  good : ∀ op ∈ w.reader, op.Good
  queue_nodup : ((queued w.reader).map (·.1)).Nodup
  queue_fresh : ∀ {c r}, (c, r) ∈ queued w.reader →
    c < w.nextChan ∧ w.chans c = .empty ∧
      ∀ n, w.pending.lookup n ≠ some c

/-- Nothing is pending at the start. -/
theorem pendingInv_new : PendingInv DapClient.new where
  fresh := nofun
  inj := nofun
  unused _ := rfl
  good _ hop := absurd hop List.not_mem_nil
  queue_nodup := .nil
  queue_fresh := nofun

-- ========================================================= operations

section Ops

variable {w w' : DapClient} {i : Nat} {a : Reply}

theorem DapClient.run_nextSeq {n : Int}
    (hr : w.run i .nextSeq a = some (n, w')) :
    n = w.seq + 1 ∧ w' = { w with seq := w.seq + 1 } := by
  cases a <;> cases hr
  exact ⟨rfl, rfl⟩

theorem DapClient.run_registerPending {n : Int} {c : ChanId}
    (hr : w.run i (.registerPending n) a = some (c, w')) :
    (c, w') = w.registerPending n := by
  cases a <;> cases hr
  rfl

theorem DapClient.run_removePending {n : Int} {x : Unit}
    (hr : w.run i (.removePending n) a = some (x, w')) :
    w' = w.removePending n := by
  cases a <;> cases hr
  rfl

theorem DapClient.run_writeRequest {r : DapRequest} {x : Written}
    (hr : w.run i (.writeRequest r) a = some (x, w')) : w' = w := by
  cases a <;> cases hr <;> rfl

theorem DapClient.run_recv {c : ChanId}
    {x : Option (Except Unit PendingResult)}
    (hr : w.run i (.recv c) a = some (x, w')) :
    w' = w ∧ ∀ r, x = some r → (w.chans c).recv = some r := by
  cases a with
  | sync =>
      obtain ⟨r, hc, he⟩ := Option.map_eq_some_iff.mp hr
      cases he
      refine ⟨rfl, fun r' h => ?_⟩
      cases h
      exact hc
  | cancel _ =>
      cases hr
      exact ⟨rfl, nofun⟩
  | _ => cases hr

end Ops

-- ============================================================== frames

/-- The steps that leave the table, the channels and what is queued for
them as they are. -/
structure SameTable (w w' : DapClient) : Prop where
  seq : w'.seq = w.seq
  pending : w'.pending = w.pending
  nextChan : w'.nextChan = w.nextChan
  chans : w'.chans = w.chans
  queue : queued w'.reader = queued w.reader
  good : (∀ op ∈ w.reader, op.Good) → ∀ op ∈ w'.reader, op.Good

namespace SameTable

variable {w w' : DapClient}

theorem refl (w : DapClient) : SameTable w w :=
  ⟨rfl, rfl, rfl, rfl, rfl, id⟩

/-- Only the signals and the stop waiter moved. -/
theorem of_eq (hs : w'.seq = w.seq) (hp : w'.pending = w.pending)
    (hn : w'.nextChan = w.nextChan) (hc : w'.chans = w.chans)
    (hr : w'.reader = w.reader) : SameTable w w' :=
  ⟨hs, hp, hn, hc, by rw [hr], by rw [hr]; exact id⟩

theorem owed {n : Int} {c : ChanId} (hs : SameTable w w')
    (h : Owed w n c) : Owed w' n c := by
  cases h with
  | pending h =>
      rw [← hs.pending] at h
      exact .pending h
  | queued hn r hq hr =>
      rw [← hs.pending] at hn
      rw [← hs.queue] at hq
      exact .queued hn r hq hr
  | sent hn r hc hr =>
      rw [← hs.pending] at hn
      rw [← hs.chans] at hc
      exact .sent hn r hc hr

theorem table (hs : SameTable w w') (h : PendingInv w) : PendingInv w' where
  fresh := by
    rw [hs.pending, hs.nextChan, hs.chans]
    exact h.fresh
  inj := by
    rw [hs.pending]
    exact h.inj
  unused := by
    rw [hs.nextChan, hs.chans]
    exact h.unused
  good := hs.good h.good
  queue_nodup := by
    rw [hs.queue]
    exact h.queue_nodup
  queue_fresh := by
    rw [hs.queue, hs.nextChan, hs.chans, hs.pending]
    exact h.queue_fresh

/-- Polling the initialized signal. -/
theorem pollInitialized (w : DapClient) (i : Nat) :
    SameTable w (w.pollInitialized i).2 := by
  unfold DapClient.pollInitialized
  split
  · exact refl w
  · exact of_eq rfl rfl rfl rfl rfl

end SameTable

/-- Registering a number that has no entry. -/
theorem DapClient.registerPending_new {w : DapClient} {n : Int}
    (hn : w.pending.lookup n = none) :
    w.registerPending n = (w.nextChan, { w with
      pending := w.pending.insert n w.nextChan
      nextChan := w.nextChan + 1 }) := by
  unfold registerPending
  rw [hn]

/-- Removing an entry. -/
theorem DapClient.removePending_some {w : DapClient} {n : Int}
    {c : ChanId} (hn : w.pending.lookup n = some c) :
    w.removePending n = { w with
      pending := w.pending.erase n
      chans := Function.update w.chans c (w.chans c).close } := by
  unfold removePending
  rw [hn]

/-- Removing an entry that is gone. -/
theorem DapClient.removePending_none {w : DapClient} {n : Int}
    (hn : w.pending.lookup n = none) : w.removePending n = w := by
  unfold removePending
  rw [hn]

/-- What is left when an entry is taken out. -/
theorem lookup_erase_some {t : AList fun _ : Int => ChanId} {n m : Int}
    {c : ChanId} (h : (t.erase n).lookup m = some c) :
    m ≠ n ∧ t.lookup m = some c := by
  by_cases hmn : m = n
  · subst hmn
    rw [AList.lookup_erase] at h
    cases h
  · rw [AList.lookup_erase_ne hmn] at h
    exact ⟨hmn, h⟩

/-- A step that touches the entry of `n` and no other, and no channel
that holds a result. -/
structure OnlyEntry (n : Int) (w w' : DapClient) : Prop where
  nextChan : w.nextChan ≤ w'.nextChan
  lookup : ∀ {m}, m ≠ n → w'.pending.lookup m = w.pending.lookup m
  sent : ∀ {c r}, w.chans c = .sent r → w'.chans c = .sent r
  queue : ∀ x ∈ queued w.reader, x ∈ queued w'.reader

/-- What a select over a response can give. -/
theorem DapClient.run_selectBoth {w w' : DapClient} {i : Nat} {a : Reply}
    {c : ChanId} {p : Bool} {x : Option Selected}
    (hr : w.run i (.selectBoth c p) a = some (x, w')) :
    SameTable w w' ∧
      ∀ r, x = some (.response r) → (w.chans c).recv = some r := by
  cases a with
  | sync =>
      have hr : (w.chans c).recv.map (fun r =>
          (some (Selected.response r), w)) = some (x, w') := by
        cases p <;> exact hr
      obtain ⟨r, hc, he⟩ := Option.map_eq_some_iff.mp hr
      cases he
      refine ⟨.refl w, fun r' h => ?_⟩
      cases h
      exact hc
  | other =>
      cases p with
      | true =>
          obtain ⟨r, -, he⟩ := Option.map_eq_some_iff.mp hr
          cases he
          exact ⟨.refl w, nofun⟩
      | false =>
          have hs := SameTable.pollInitialized w i
          unfold run at hr
          dsimp only at hr
          split at hr
          · next w₁ he =>
              cases hr
              rw [he] at hs
              exact ⟨hs, nofun⟩
          · next w₁ he =>
              cases hr
              rw [he] at hs
              exact ⟨hs, nofun⟩
  | fail _ _ => cases p <;> cases hr
  | cancel _ =>
      have hr : some (none, w) = some (x, w') := by
        cases p <;> exact hr
      cases hr
      exact ⟨.refl w, nofun⟩

/-- Polling the signal. -/
theorem DapClient.run_pollInitialized {w w' : DapClient} {i : Nat}
    {a : Reply} {x : Bool}
    (hr : w.run i .pollInitialized a = some (x, w')) : SameTable w w' := by
  cases a with
  | sync =>
      have hs := SameTable.pollInitialized w i
      have he : w.pollInitialized i = (x, w') := Option.some.inj hr
      rw [he] at hs
      exact hs
  | _ => cases hr

/-- Awaiting the signal. -/
theorem DapClient.run_recvInitialized {w w' : DapClient} {i : Nat}
    {a : Reply} {x : Option Unit}
    (hr : w.run i .recvInitialized a = some (x, w')) : w' = w := by
  cases a with
  | sync =>
      obtain ⟨r, -, he⟩ := Option.map_eq_some_iff.mp hr
      cases he
      rfl
  | cancel _ =>
      cases hr
      rfl
  | _ => cases hr

/-- What a dispatched message queues sends nothing yet. -/
theorem queued_dispatch (m : DapMessage) : queued (dispatch m) = [] := by
  cases m with
  | event e => cases e <;> rfl
  | _ => rfl

/-- What a message may be dispatched as. -/
inductive DispatchedAs : DapMessage → ReaderOp → Prop
  | take (r : Response) :
      DispatchedAs (.response r) (.takePending r.requestSeq (.response r))
  | stop (e : DapEvent) (o : StopOutcome) :
      DispatchedAs (.event e) (.takeStop o)
  | signal (e : DapEvent) : DispatchedAs (.event e) .signalInitialized
  | output (e : DapEvent) (c : OutputChunk) :
      DispatchedAs (.event e) (.output c)
  | exit (e : DapEvent) (code : Int) :
      DispatchedAs (.event e) (.recordExit code)
  | fire (e : DapEvent) : DispatchedAs (.event e) .fireTerminated

/-- A response is looked up, an event goes to the signals and the
sinks. -/
theorem mem_dispatch {m : DapMessage} {op : ReaderOp}
    (hop : op ∈ dispatch m) : DispatchedAs m op := by
  cases m with
  | response r =>
      rw [List.mem_singleton.mp hop]
      exact .take r
  | event e =>
      cases e with
      | stopped e =>
          rw [List.mem_singleton.mp hop]
          exact .stop _ _
      | initialized =>
          rw [List.mem_singleton.mp hop]
          exact .signal _
      | output e =>
          rw [List.mem_singleton.mp hop]
          exact .output _ _
      | exited e =>
          rcases List.mem_cons.mp hop with rfl | hop
          · exact .exit _ _
          · rw [List.mem_singleton.mp hop]
            exact .stop _ _
      | terminated =>
          rcases List.mem_cons.mp hop with rfl | hop
          · exact .fire _
          · rw [List.mem_singleton.mp hop]
            exact .stop _ _
      | _ => cases hop
  | other e => cases hop

/-- A response is dispatched under its own number. -/
theorem dispatch_good (m : DapMessage) : ∀ op ∈ dispatch m, op.Good := by
  intro op hop
  cases mem_dispatch hop with
  | take r => exact .response r rfl
  | _ => trivial

/-- A response whose number has no entry changes nothing. -/
theorem DapClient.take_absent {w w' : DapClient} {k : Nat} {n : Int}
    {m : DapMessage} {rest : List ReaderOp}
    (he : w.envMove (.reader k) = some w')
    (hw : w.reader = .takePending n m :: rest)
    (hn : w.pending.lookup n = none) : w' = { w with reader := rest } := by
  unfold envMove at he
  rw [hw] at he
  unfold readerStep at he
  dsimp only at he
  rw [hn] at he
  exact (Option.some.inj he).symm

-- =========================================== entries come and go

/-- What is owed to other numbers survives. -/
theorem OnlyEntry.owed {w w' : DapClient} {n m : Int} {c : ChanId}
    (ho : OnlyEntry n w w') (hne : m ≠ n) (h : Owed w m c) :
    Owed w' m c := by
  have hl := ho.lookup hne
  cases h with
  | pending h => exact .pending (hl.trans h)
  | queued hn r hq hr => exact .queued (hl.trans hn) r (ho.queue _ hq) hr
  | sent hn r hc hr => exact .sent (hl.trans hn) r (ho.sent hc) hr

namespace DapClient

/-- The client after a response has taken the entry of its number. -/
def taken (w : DapClient) (n : Int) (c : ChanId) (m : DapMessage)
    (rest : List ReaderOp) : DapClient :=
  { w with
    pending := w.pending.erase n
    reader := .sendPending [c] (.ok m) :: rest }

/-- The client after the end of the stream has taken every entry. -/
def drained (w : DapClient) (e : BackendError)
    (rest : List ReaderOp) : DapClient :=
  { w with
    pending := ∅
    reader := .sendPending (w.pending.entries.map (·.2)) (.error e)
      :: rest }

/-- The client after a result was sent to its channel. -/
def delivered (w : DapClient) (cs : List ChanId) (r : PendingResult)
    (c : ChanId) (k : Nat) (rest : List ReaderOp) : DapClient :=
  { w with
    chans := Function.update w.chans c ((w.chans c).send r)
    reader := .sendPending (cs.eraseIdx k) r :: rest }

end DapClient

namespace PendingInv

variable {w : DapClient} {n : Int} {c : ChanId} {k : Nat}
  {rest : List ReaderOp}

/-- Registering touches the new entry only. -/
theorem register_only (w : DapClient) (n : Int) :
    OnlyEntry n w { w with
      pending := w.pending.insert n w.nextChan
      nextChan := w.nextChan + 1 } :=
  ⟨Nat.le_succ _, fun hm => AList.lookup_insert_ne hm, id,
    fun _ hx => hx⟩

/-- An entry is registered under a number that has none. -/
theorem register (hI : PendingInv w) :
    PendingInv { w with
      pending := w.pending.insert n w.nextChan
      nextChan := w.nextChan + 1 } := by
  have hcases : ∀ {m c}, (w.pending.insert n w.nextChan).lookup m = some c →
      m = n ∧ c = w.nextChan ∨ m ≠ n ∧ w.pending.lookup m = some c := by
    intro m c hm
    by_cases hmn : m = n
    · subst hmn
      rw [AList.lookup_insert] at hm
      exact .inl ⟨rfl, (Option.some.inj hm).symm⟩
    · rw [AList.lookup_insert_ne hmn] at hm
      exact .inr ⟨hmn, hm⟩
  -- No channel in use is the new one.
  have hold : ∀ {m}, w.pending.lookup m ≠ some w.nextChan := fun hm =>
    Nat.lt_irrefl _ (hI.fresh hm).1
  refine ⟨?_, ?_, fun hc => hI.unused (Nat.le_of_succ_le hc), hI.good,
    hI.queue_nodup, ?_⟩
  · intro m c hm
    rcases hcases hm with ⟨rfl, rfl⟩ | ⟨-, hold⟩
    · exact ⟨Nat.lt_succ_self _, hI.unused (Nat.le_refl _)⟩
    · have := hI.fresh hold
      exact ⟨this.1.trans (Nat.lt_succ_self _), this.2⟩
  · intro m m' c hm hm'
    rcases hcases hm with ⟨rfl, rfl⟩ | ⟨-, ho⟩
    · rcases hcases hm' with ⟨rfl, -⟩ | ⟨-, ho'⟩
      · rfl
      · exact absurd ho' hold
    · rcases hcases hm' with ⟨rfl, rfl⟩ | ⟨-, ho'⟩
      · exact absurd ho hold
      · exact hI.inj ho ho'
  · intro c r hq
    obtain ⟨hc, he, hno⟩ := hI.queue_fresh hq
    refine ⟨hc.trans (Nat.lt_succ_self _), he, fun m hm => ?_⟩
    rcases hcases hm with ⟨-, rfl⟩ | ⟨-, ho⟩
    · exact Nat.lt_irrefl _ hc
    · exact hno m ho

/-- Removing touches the removed entry only. -/
theorem remove_only (hI : PendingInv w)
    (hl : w.pending.lookup n = some c) :
    OnlyEntry n w { w with
      pending := w.pending.erase n
      chans := Function.update w.chans c (w.chans c).close } := by
  refine ⟨Nat.le_refl _, AList.lookup_erase_ne, fun {d r} hd => ?_,
    fun _ hx => hx⟩
  have hdc : d ≠ c := fun e => by
    rw [e, (hI.fresh hl).2] at hd
    cases hd
  dsimp only
  rw [Function.update_of_ne hdc]
  exact hd

/-- An entry is removed, and its sender dropped. -/
theorem remove (hI : PendingInv w) (hl : w.pending.lookup n = some c) :
    PendingInv { w with
      pending := w.pending.erase n
      chans := Function.update w.chans c (w.chans c).close } := by
  obtain ⟨hc, he⟩ := hI.fresh hl
  refine ⟨fun {m d} hm => ?_, fun hm hm' => ?_, fun {d} hd => ?_,
    hI.good, hI.queue_nodup, fun {d r} hd => ?_⟩
  · obtain ⟨hmn, hm⟩ := lookup_erase_some hm
    have hdc : d ≠ c := fun e => hmn (hI.inj hm (e ▸ hl))
    refine ⟨(hI.fresh hm).1, ?_⟩
    dsimp only
    rw [Function.update_of_ne hdc]
    exact (hI.fresh hm).2
  · exact hI.inj (lookup_erase_some hm).2 (lookup_erase_some hm').2
  · have hdc : d ≠ c := fun e => Nat.lt_irrefl _ (hc.trans_le (e ▸ hd))
    dsimp only
    rw [Function.update_of_ne hdc]
    exact hI.unused hd
  · obtain ⟨hd, hde, hno⟩ := hI.queue_fresh hd
    have hdc : d ≠ c := fun e => hno n (e ▸ hl)
    refine ⟨hd, ?_, fun m hm => hno m (lookup_erase_some hm).2⟩
    dsimp only
    rw [Function.update_of_ne hdc]
    exact hde

-- ======================================================= the read loop

/-- A response takes the entry of its number. -/
theorem take {m : DapMessage} (hI : PendingInv w)
    (hw : w.reader = .takePending n m :: rest)
    (hn : w.pending.lookup n = some c) :
    PendingInv (w.taken n c m rest) := by
  have hq : queued w.reader = queued rest := by rw [hw]; rfl
  have hgood := hI.good
  rw [hw] at hgood
  obtain ⟨hc, he⟩ := hI.fresh hn
  refine ⟨fun hm => hI.fresh (lookup_erase_some hm).2,
    fun hm hm' => hI.inj (lookup_erase_some hm).2
      (lookup_erase_some hm').2,
    hI.unused, fun op hop => ?_, ?_, fun {d r} hd => ?_⟩
  · rcases List.mem_cons.mp hop with rfl | hop
    · trivial
    · exact hgood op (List.mem_cons_of_mem _ hop)
  · refine List.nodup_cons.mpr ⟨fun hm => ?_, hq ▸ hI.queue_nodup⟩
    obtain ⟨⟨d, r⟩, hd, hdc⟩ := List.mem_map.mp hm
    cases hdc
    rw [← hq] at hd
    exact (hI.queue_fresh hd).2.2 n hn
  · rcases List.mem_cons.mp hd with hd | hd
    · cases hd
      refine ⟨hc, he, fun m' hm' => ?_⟩
      obtain ⟨hne, hm'⟩ := lookup_erase_some hm'
      exact hne (hI.inj hm' hn)
    · rw [← hq] at hd
      obtain ⟨hd, hde, hno⟩ := hI.queue_fresh hd
      exact ⟨hd, hde, fun m' hm' => hno m' (lookup_erase_some hm').2⟩

/-- What is owed is owed still. -/
theorem take_owed {m : DapMessage} {n' : Int} {d : ChanId}
    (hI : PendingInv w) (hw : w.reader = .takePending n m :: rest)
    (hn : w.pending.lookup n = some c) (ho : Owed w n' d) :
    Owed (w.taken n c m rest) n' d := by
  have hq : queued w.reader = queued rest := by rw [hw]; rfl
  have hgood := hI.good
  rw [hw] at hgood
  have hans : Answers n (.ok m) := hgood _ (List.mem_cons_self ..)
  by_cases hnn : n' = n
  · subst hnn
    cases ho with
    | pending hl =>
        cases hl.symm.trans hn
        exact .queued (AList.lookup_erase _ _) _ (List.mem_cons_self ..)
          hans
    | queued hl => cases hl.symm.trans hn
    | sent hl => cases hl.symm.trans hn
  · have honly : OnlyEntry n w (w.taken n c m rest) := by
      refine ⟨Nat.le_refl _, AList.lookup_erase_ne, id, fun x hx => ?_⟩
      rw [hq] at hx
      exact List.mem_cons_of_mem _ hx
    exact honly.owed hnn ho

/-- The channels of the table. -/
theorem mem_entries {c : ChanId} : c ∈ w.pending.entries.map (·.2) ↔
    ∃ n, w.pending.lookup n = some c := by
  rw [List.mem_map]
  constructor
  · rintro ⟨⟨n, d⟩, hm, rfl⟩
    exact ⟨n, AList.mem_lookup_iff.mpr hm⟩
  · rintro ⟨n, hn⟩
    exact ⟨⟨n, c⟩, AList.mem_lookup_iff.mp hn, rfl⟩

/-- The channels of a queued list. -/
theorem map_fst_pairs (cs : List ChanId) (r : PendingResult) :
    (cs.map fun c => (c, r)).map (·.1) = cs := by
  rw [List.map_map]
  exact List.map_id cs

/-- The empty table has no entry. -/
theorem lookup_empty {n : Int} {c : ChanId} :
    (∅ : AList fun _ : Int => ChanId).lookup n ≠ some c := nofun

/-- The end of the stream takes every entry. -/
theorem drain {e : BackendError} (hI : PendingInv w)
    (hw : w.reader = .drainPending e :: rest) :
    PendingInv (w.drained e rest) := by
  have hq : queued w.reader = queued rest := by rw [hw]; rfl
  have hgood := hI.good
  rw [hw] at hgood
  have hnodup : (w.pending.entries.map (·.2)).Nodup := by
    refine List.Nodup.map_on ?_ w.pending.nodupKeys.nodup
    rintro ⟨n, c⟩ hm ⟨n', c'⟩ hm' rfl
    have : n = n' := hI.inj (AList.mem_lookup_iff.mpr hm)
      (AList.mem_lookup_iff.mpr hm')
    rw [this]
  refine ⟨fun hm => absurd hm lookup_empty,
    fun hm => absurd hm lookup_empty, hI.unused, fun op hop => ?_, ?_,
    fun {d r} hd => ?_⟩
  · rcases List.mem_cons.mp hop with rfl | hop
    · trivial
    · exact hgood op (List.mem_cons_of_mem _ hop)
  · show (((w.pending.entries.map (·.2)).map
      (fun c => (c, (Except.error e : PendingResult)))
      ++ queued rest).map (·.1)).Nodup
    rw [List.map_append, map_fst_pairs]
    refine List.Nodup.append hnodup (hq ▸ hI.queue_nodup) ?_
    intro c hc hc'
    obtain ⟨n, hn⟩ := mem_entries.mp hc
    obtain ⟨⟨d, r⟩, hd, rfl⟩ := List.mem_map.mp hc'
    rw [← hq] at hd
    exact (hI.queue_fresh hd).2.2 n hn
  · rcases List.mem_append.mp hd with hd | hd
    · obtain ⟨c, hc, he⟩ := List.mem_map.mp hd
      cases he
      obtain ⟨n, hn⟩ := mem_entries.mp hc
      have hf := hI.fresh hn
      exact ⟨hf.1, hf.2, fun _ => lookup_empty⟩
    · rw [← hq] at hd
      have hf := hI.queue_fresh hd
      exact ⟨hf.1, hf.2.1, fun _ => lookup_empty⟩

/-- What is owed is owed still. -/
theorem drain_owed {e : BackendError} (hI : PendingInv w)
    (hw : w.reader = .drainPending e :: rest) (ho : Owed w n c) :
    Owed (w.drained e rest) n c := by
  have hq : queued w.reader = queued rest := by rw [hw]; rfl
  have hgood := hI.good
  rw [hw] at hgood
  have he : e = .closed := hgood _ (List.mem_cons_self ..)
  subst he
  cases ho with
  | pending hl =>
      refine .queued rfl (.error .closed) ?_ .closed
      exact List.mem_append_left _
        (List.mem_map.mpr ⟨c, mem_entries.mpr ⟨n, hl⟩, rfl⟩)
  | queued hl r hd hr =>
      rw [hq] at hd
      exact .queued rfl r (List.mem_append_right _ hd) hr
  | sent hl r hs hr => exact .sent rfl r hs hr

section

variable {cs : List ChanId} {r : PendingResult} {d : ChanId}

/-- The channel a result is about to be sent to is in the queue, empty,
and nobody's entry. -/
theorem next_queued (hI : PendingInv w)
    (hw : w.reader = .sendPending cs r :: rest) (hk : cs[k]? = some c) :
    (c, r) ∈ queued w.reader ∧ c < w.nextChan ∧ w.chans c = .empty ∧
      ∀ n, w.pending.lookup n ≠ some c := by
  have hin : (c, r) ∈ queued w.reader := by
    rw [hw]
    exact List.mem_append_left _
      (List.mem_map.mpr ⟨c, List.mem_of_getElem? hk, rfl⟩)
  exact ⟨hin, hI.queue_fresh hin⟩

/-- A sent result leaves the queue, and nothing else does. -/
theorem mem_delivered {x : PendingResult} (hI : PendingInv w)
    (hw : w.reader = .sendPending cs r :: rest) (hk : cs[k]? = some c) :
    (d, x) ∈ queued (w.delivered cs r c k rest).reader ↔
      d ≠ c ∧ (d, x) ∈ queued w.reader := by
  have hnd := hI.queue_nodup
  rw [hw] at hnd ⊢
  show (d, x) ∈ (cs.eraseIdx k).map (·, r) ++ queued rest ↔
    d ≠ c ∧ (d, x) ∈ cs.map (·, r) ++ queued rest
  have hnd : ((cs.map (·, r) ++ queued rest).map (·.1)).Nodup := hnd
  rw [List.map_append, map_fst_pairs] at hnd
  obtain ⟨hcs, -, hdisj⟩ := List.nodup_append.mp hnd
  have hmem : c ∈ cs := List.mem_of_getElem? hk
  have herase : ∀ {d : ChanId}, d ∈ cs.eraseIdx k ↔ d ≠ c ∧ d ∈ cs := by
    intro d
    obtain ⟨hlt, hget⟩ := List.getElem?_eq_some_iff.mp hk
    rw [← hcs.erase_getElem k hlt, hget, hcs.mem_erase_iff]
  rw [List.mem_append, List.mem_append, List.mem_map, List.mem_map]
  constructor
  · rintro (⟨d', hd, hx⟩ | hd)
    · cases hx
      exact ⟨(herase.mp hd).1, .inl ⟨d, (herase.mp hd).2, rfl⟩⟩
    · refine ⟨fun hdc => ?_, .inr hd⟩
      have := List.mem_map_of_mem (f := Prod.fst) hd
      exact hdisj c hmem d this hdc.symm
  · rintro ⟨hdc, ⟨d', hd, hx⟩ | hd⟩
    · cases hx
      exact .inl ⟨d, herase.mpr ⟨hdc, hd⟩, rfl⟩
    · exact .inr hd

/-- Other channels are as they were. -/
theorem delivered_other (hd : d ≠ c) :
    (w.delivered cs r c k rest).chans d = w.chans d :=
  Function.update_of_ne hd _ _

/-- The channel holds what was sent. -/
theorem delivered_self (he : w.chans c = .empty) :
    (w.delivered cs r c k rest).chans c = .sent r := by
  unfold DapClient.delivered
  dsimp only
  rw [Function.update_self, he]
  rfl

/-- A result is sent to its channel. -/
theorem deliver (hI : PendingInv w)
    (hw : w.reader = .sendPending cs r :: rest) (hk : cs[k]? = some c) :
    PendingInv (w.delivered cs r c k rest) := by
  obtain ⟨hin, hc, he, hno⟩ := hI.next_queued hw hk
  have hnd := hI.queue_nodup
  refine ⟨fun {n d} hm => ?_, hI.inj, fun {d} hd => ?_, fun op hop => ?_,
    ?_, fun {d x} hd => ?_⟩
  · have hdc : d ≠ c := fun e => hno n (e ▸ hm)
    rw [delivered_other hdc]
    exact hI.fresh hm
  · have hdc : d ≠ c := fun e => Nat.lt_irrefl _ (hc.trans_le (e ▸ hd))
    rw [delivered_other hdc]
    exact hI.unused hd
  · rcases List.mem_cons.mp hop with rfl | hop
    · trivial
    · refine hI.good op ?_
      rw [hw]
      exact List.mem_cons_of_mem _ hop
  · rw [hw] at hnd
    have hnd : ((cs.map (·, r) ++ queued rest).map (·.1)).Nodup := hnd
    show (((cs.eraseIdx k).map (·, r) ++ queued rest).map (·.1)).Nodup
    rw [List.map_append, map_fst_pairs] at hnd ⊢
    refine hnd.sublist (List.Sublist.append ?_ (List.Sublist.refl _))
    exact List.eraseIdx_sublist cs k
  · obtain ⟨hdc, hd⟩ := (hI.mem_delivered hw hk).mp hd
    rw [delivered_other hdc]
    exact hI.queue_fresh hd

/-- What is owed is owed still. -/
theorem deliver_owed (hI : PendingInv w)
    (hw : w.reader = .sendPending cs r :: rest) (hk : cs[k]? = some c)
    (ho : Owed w n d) : Owed (w.delivered cs r c k rest) n d := by
  obtain ⟨hin, hc, he, hno⟩ := hI.next_queued hw hk
  cases ho with
  | pending hl => exact .pending hl
  | queued hl x hd hx =>
      by_cases hdc : d = c
      · subst hdc
        have hx' : x = r := congrArg Prod.snd
          (List.inj_on_of_nodup_map hI.queue_nodup hd hin rfl)
        subst hx'
        exact .sent hl x (delivered_self he) hx
      · exact .queued hl x ((hI.mem_delivered hw hk).mpr ⟨hdc, hd⟩) hx
  | sent hl x hs hx =>
      have hdc : d ≠ c := fun e => by
        rw [e, he] at hs
        cases hs
      exact .sent hl x ((delivered_other hdc).trans hs) hx

end

end PendingInv

/-- What a step of the read loop does to the table, the channels and its
queue. -/
inductive TableStep (w : DapClient) (k : Nat) : DapClient → Prop
  | quiet {w' : DapClient} (hs : SameTable w w') (hr : w.resolves = [])
      (hd : w.delivers k = none) : TableStep w k w'
  | take {n : Int} {m : DapMessage} {c : ChanId} {rest : List ReaderOp}
      (hw : w.reader = .takePending n m :: rest)
      (hn : w.pending.lookup n = some c) :
      TableStep w k (w.taken n c m rest)
  | drain {e : BackendError} {rest : List ReaderOp}
      (hw : w.reader = .drainPending e :: rest) :
      TableStep w k (w.drained e rest)
  | deliver {cs : List ChanId} {r : PendingResult} {c : ChanId}
      {rest : List ReaderOp} (hw : w.reader = .sendPending cs r :: rest)
      (hk : cs[k]? = some c) :
      TableStep w k (w.delivered cs r c k rest)

/-- Does a step of the read loop work on the table or a response
channel? -/
def ReaderOp.onTable : ReaderOp → Bool
  | takePending _ _ | sendPending _ _ | drainPending _ => true
  | _ => false

section

variable {w w' : DapClient} {k : Nat} {op : ReaderOp}
  {rest : List ReaderOp}

/-- A step off the table resolves and delivers nothing. -/
theorem DapClient.off_table (hw : w.reader = op :: rest)
    (hop : op.onTable = false) :
    w.resolves = [] ∧ w.delivers k = none ∧
      queued w.reader = queued rest := by
  unfold DapClient.resolves DapClient.delivers
  rw [hw]
  cases op with
  | takePending n m | sendPending cs r | drainPending e => cases hop
  | _ => exact ⟨rfl, rfl, rfl⟩

/-- A step off the table leaves it as it is. -/
theorem DapClient.table_quiet (hw : w.reader = op :: rest)
    (hop : op.onTable = false) (hs : w'.seq = w.seq)
    (hp : w'.pending = w.pending) (hn : w'.nextChan = w.nextChan)
    (hc : w'.chans = w.chans)
    (hre : w'.reader = rest ∨ ∃ i o, w'.reader = .sendStop i o :: rest) :
    TableStep w k w' := by
  obtain ⟨hr, hd, hq⟩ := off_table (k := k) hw hop
  refine .quiet ⟨hs, hp, hn, hc, ?_, fun hg => ?_⟩ hr hd
  · rw [hq]
    rcases hre with hre | ⟨i, o, hre⟩ <;> rw [hre]
    rfl
  · have hrest : ∀ op ∈ rest, op.Good := fun op' hm =>
      hg op' (hw ▸ List.mem_cons_of_mem _ hm)
    rcases hre with hre | ⟨i, o, hre⟩ <;> rw [hre]
    · exact hrest
    · intro op' hm
      rcases List.mem_cons.mp hm with rfl | hm
      · trivial
      · exact hrest op' hm

/-- A step on the table that finds nothing to do. -/
theorem DapClient.table_idle (hw : w.reader = op :: rest)
    (hq : queued w.reader = queued rest) (hr : w.resolves = [])
    (hd : w.delivers k = none) :
    TableStep w k { w with reader := rest } :=
  .quiet ⟨rfl, rfl, rfl, rfl, hq.symm, fun hg op' hm =>
    hg op' (hw ▸ List.mem_cons_of_mem _ hm)⟩ hr hd

/-- What the read loop does to the table. -/
theorem DapClient.reader_table (he : w.envMove (.reader k) = some w') :
    TableStep w k w' := by
  unfold DapClient.envMove at he
  dsimp only at he
  split at he
  · cases he
  · next op rest hw =>
      unfold DapClient.readerStep at he
      cases op with
      | takePending n m =>
          dsimp only at he
          split at he
          · next c hn =>
              cases he
              exact .take hw hn
          · next hn =>
              cases he
              refine table_idle hw (by rw [hw]; rfl) ?_ ?_
              · unfold DapClient.resolves
                rw [hw]
                dsimp only
                rw [if_neg (AList.lookup_eq_none.mp hn)]
              · unfold DapClient.delivers
                rw [hw]
      | sendPending cs r =>
          dsimp only at he
          split at he
          · next c hk =>
              cases he
              exact .deliver hw hk
          · next hk =>
              split at he
              · next hcs =>
                  cases he
                  have hcs : cs = [] := List.isEmpty_iff.mp hcs
                  subst hcs
                  refine table_idle hw (by rw [hw]; rfl) ?_ ?_
                  · unfold DapClient.resolves
                    rw [hw]
                  · unfold DapClient.delivers
                    rw [hw]
                    rfl
              · cases he
      | drainPending e =>
          cases he
          exact .drain hw
      | takeStop o =>
          dsimp only at he
          split at he
          · cases he
            exact table_quiet hw rfl rfl rfl rfl rfl (.inr ⟨_, _, rfl⟩)
          · cases he
            exact table_quiet hw rfl rfl rfl rfl rfl (.inl rfl)
      | _ =>
          cases he
          exact table_quiet hw rfl rfl rfl rfl rfl (.inl rfl)

/-- The read loop gives out no number and no channel. -/
theorem TableStep.seq (ht : TableStep w k w') : w'.seq = w.seq := by
  cases ht with
  | quiet hs hr hd => exact hs.seq
  | _ => rfl

/-- The read loop keeps the table in order. -/
theorem TableStep.table (ht : TableStep w k w') (hI : PendingInv w) :
    PendingInv w' := by
  cases ht with
  | quiet hs hr hd => exact hs.table hI
  | take hw hn => exact hI.take hw hn
  | drain hw => exact hI.drain hw
  | deliver hw hk => exact hI.deliver hw hk

/-- What is owed is owed still. -/
theorem TableStep.owed {n : Int} {c : ChanId} (ht : TableStep w k w')
    (hI : PendingInv w) (ho : Owed w n c) : Owed w' n c := by
  cases ht with
  | quiet hs hr hd => exact hs.owed ho
  | take hw hn => exact hI.take_owed hw hn ho
  | drain hw => exact hI.drain_owed hw ho
  | deliver hw hk => exact hI.deliver_owed hw hk ho

end

end DebugMcp
