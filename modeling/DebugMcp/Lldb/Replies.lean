/-
What a caller has written, and what became of it.

`writes` is the list of requests a call has put on the wire, `outcome`
the result that was settled for a number since it was registered: the
first response dispatched under it, or the end of the stream. A caller
that receives on a request's channel receives that outcome
(`ReplyInv`), and what it has written is the front of its plan
(`SentInv`). Both hold over every run of every pool of callers.
-/
import DebugMcp.Lldb.Signals

namespace DebugMcp

open Conc

-- =========================================================== histories

/-- The request an operation has written. -/
def ClientOp.wrote {β : Type} (op : ClientOp β) (b : β) :
    Option DapRequest :=
  match op, b with
  | .writeRequest q, .ok => some q
  | _, _ => none

/-- The requests call `i` has written, oldest first. -/
def writes (i : Nat) : ClientHistory → List DapRequest
  | [] => []
  | .act j op b _ _ :: h =>
      if j = i then writes i h ++ (op.wrote b).toList else writes i h
  | .env _ _ _ :: h => writes i h

/-- What the read loop's next step settles for number `n`. -/
def DapClient.settles (w : DapClient) (n : Int) : Option PendingResult :=
  match w.head with
  | some (.takePending m msg) => if m = n then some (.ok msg) else none
  | some (.drainPending e) => some (.error e)
  | _ => none

/-- What was settled for number `n` since it was registered. -/
def outcome (n : Int) : ClientHistory → Option PendingResult
  | [] => none
  | .act _ (.registerPending m) _ _ _ :: h =>
      if m = n then none else outcome n h
  | .env (.reader _) w _ :: h => (outcome n h).or (w.settles n)
  | _ :: h => outcome n h

/-- Does an operation make an entry? -/
def ClientOp.enters {β : Type} : ClientOp β → Bool
  | .registerPending _ => true
  | _ => false

/-- Off the table, none does. -/
theorem ClientOp.enters_off {β : Type} {op : ClientOp β}
    (hop : op.onTable = false) : op.enters = false := by
  cases op with
  | registerPending n => cases hop
  | _ => rfl

/-- An operation that makes no entry settles nothing. -/
theorem outcome_act {i : Nat} {n : Int} {h : ClientHistory}
    {w w' : DapClient} {β : Type} {op : ClientOp β} {b : β}
    (hop : op.enters = false) :
    outcome n (.act i op b w w' :: h) = outcome n h := by
  cases op with
  | registerPending m => cases hop
  | _ => rfl

-- ============================================================= replies

/-- The result of number `n` on channel `c`, with what it is. -/
inductive Settled (w : DapClient) (n : Int) (c : ChanId) :
    Option PendingResult → Prop
  | pending (h : w.pending.lookup n = some c) : Settled w n c none
  | queued (hn : w.pending.lookup n = none) (r : PendingResult)
      (hq : (c, r) ∈ queued w.reader) : Settled w n c (some r)
  | sent (hn : w.pending.lookup n = none) (r : PendingResult)
      (hs : w.chans c = .sent r) : Settled w n c (some r)

/-- What is open is settled as the history says. -/
def ReplyInv (w : DapClient) (φ : Nat → CallPhase)
    (h : ClientHistory) : Prop :=
  ∀ {i n c}, (n, c) ∈ (φ i).opens → Settled w n c (outcome n h)

section

variable {w w' : DapClient} {n : Int} {c : ChanId} {k : Nat}
  {h : ClientHistory}

/-- Table, channels and queue decide. -/
theorem settled_same {x : Option PendingResult} (hr : Settled w n c x)
    (hp : w'.pending = w.pending) (hc : w'.chans = w.chans)
    (hq : queued w'.reader = queued w.reader) : Settled w' n c x := by
  cases hr with
  | pending h => exact .pending (hp ▸ h)
  | queued hn r hd => exact .queued (hp ▸ hn) r (hq ▸ hd)
  | sent hn r hs => exact .sent (hp ▸ hn) r (hc ▸ hs)

/-- A step off the table. -/
theorem SameTable.reply {x : Option PendingResult} (hs : SameTable w w')
    (hr : Settled w n c x) : Settled w' n c x :=
  settled_same hr hs.pending hs.chans hs.queue

/-- A step on another entry. -/
theorem OnlyEntry.reply {m : Int} {x : Option PendingResult}
    (ho : OnlyEntry n w w') (hne : m ≠ n) (hr : Settled w m c x) :
    Settled w' m c x := by
  have hl := ho.lookup hne
  cases hr with
  | pending h => exact .pending (hl.trans h)
  | queued hn r hq => exact .queued (hl.trans hn) r (ho.queue _ hq)
  | sent hn r hc => exact .sent (hl.trans hn) r (ho.sent hc)

/-- A step of the read loop settles what it takes out of the table. -/
theorem TableStep.reply (ht : TableStep w k w') (hI : PendingInv w)
    (hr : Settled w n c (outcome n h)) :
    Settled w' n c (outcome n (.env (.reader k) w w' :: h)) := by
  show Settled w' n c ((outcome n h).or (w.settles n))
  generalize outcome n h = x at hr ⊢
  cases ht with
  | quiet hs hres hdel =>
      cases hr with
      | pending hl =>
          have hset : w.settles n = none := by
            have hmem : n ∈ w.pending :=
              AList.lookup_isSome.mp (by rw [hl]; rfl)
            unfold DapClient.settles DapClient.head
            unfold DapClient.resolves at hres
            cases hw : w.reader with
            | nil => rfl
            | cons op rest =>
                rw [hw] at hres
                cases op with
                | takePending m msg =>
                    by_cases hmn : m = n
                    · subst hmn
                      dsimp only at hres
                      rw [if_pos hmem] at hres
                      cases hres
                    · exact if_neg hmn
                | drainPending e =>
                    have := AList.mem_keys.mp hmem
                    rw [show w.pending.keys = [] from hres] at this
                    cases this
                | _ => rfl
          rw [hset]
          exact .pending (hs.pending ▸ hl)
      | queued hn r hq => exact hs.reply (.queued hn r hq)
      | sent hn r hc => exact hs.reply (.sent hn r hc)
  | @take m msg d rest hw hm =>
      by_cases hnm : n = m
      · subst hnm
        cases hr with
        | pending hl =>
            cases hl.symm.trans hm
            have hset : w.settles n = some (.ok msg) := by
              unfold DapClient.settles
              rw [DapClient.head_of_reader hw]
              exact if_pos rfl
            rw [hset]
            exact .queued (AList.lookup_erase _ _) _
              (List.mem_cons_self ..)
        | queued hn => cases hn.symm.trans hm
        | sent hn => cases hn.symm.trans hm
      · have honly : OnlyEntry m w (w.taken m d msg rest) := by
          refine ⟨Nat.le_refl _, AList.lookup_erase_ne, id, fun x hx => ?_⟩
          rw [hw] at hx
          exact List.mem_cons_of_mem _ hx
        have hset : w.settles n = none := by
          unfold DapClient.settles
          rw [DapClient.head_of_reader hw]
          exact if_neg fun e => hnm e.symm
        rw [hset, Option.or_none]
        exact honly.reply hnm hr
  | @drain e rest hw =>
      have hset : w.settles n = some (.error e) := by
        unfold DapClient.settles
        rw [DapClient.head_of_reader hw]
      rw [hset]
      cases hr with
      | pending hl =>
          refine .queued rfl _ (List.mem_append_left _ ?_)
          exact List.mem_map.mpr
            ⟨c, PendingInv.mem_entries.mpr ⟨n, hl⟩, rfl⟩
      | queued hn r hq =>
          rw [hw] at hq
          exact .queued rfl r (List.mem_append_right _ hq)
      | sent hn r hc => exact .sent rfl r hc
  | @deliver cs r d rest hw hk =>
      have hset : w.settles n = none := by
        unfold DapClient.settles
        rw [DapClient.head_of_reader hw]
      rw [hset, Option.or_none]
      obtain ⟨hin, -, he, -⟩ := hI.next_queued hw hk
      cases hr with
      | pending hl => exact .pending hl
      | queued hl x hd =>
          have hl : (w.delivered cs r d k rest).pending.lookup n = none := hl
          by_cases hcd : c = d
          · subst hcd
            have hx : x = r := congrArg Prod.snd
              (List.inj_on_of_nodup_map hI.queue_nodup hd hin rfl)
            subst hx
            exact .sent hl x (PendingInv.delivered_self he)
          · exact .queued hl x ((hI.mem_delivered hw hk).mpr ⟨hcd, hd⟩)
      | sent hl x hs =>
          have hl : (w.delivered cs r d k rest).pending.lookup n = none := hl
          have hcd : c ≠ d := fun e => by
            rw [e, he] at hs
            cases hs
          exact .sent hl x ((PendingInv.delivered_other hcd).trans hs)

end

/-- The replies' invariant is kept by every step. -/
theorem replyInv : InductiveOver clientMachine PlanNext (fun _ _ => True)
    EntryInv ReplyInv where
  act := by
    intro w w' φ h i β op a b q' hE hI hr hq _ j m c hm
    have hr : w.run i op a = some (b, w') := hr
    cases hop : op.onTable with
    | false =>
        rw [outcome_act (ClientOp.enters_off hop)]
        have hsub := EntryInv.moved (φ := φ) rfl (hq.off_table hop).1 j
        exact (DapClient.run_off_table hr hop).reply (hI (hsub.opens _ hm))
    | true =>
        generalize hp : φ i = p at hq
        cases hq with
        | number s q hs rest sv ar n =>
            obtain ⟨rfl, rfl⟩ := DapClient.run_nextSeq hr
            rw [outcome_act rfl]
            have hold : (m, c) ∈ (φ j).opens := by
              by_cases hij : j = i
              · subst hij
                rw [Function.update_self] at hm
                rw [hp]
                exact hm
              · rw [Function.update_of_ne hij] at hm
                exact hm
            exact settled_same (hI hold) rfl rfl rfl
        | register s rest sv ar n d =>
            have he := DapClient.run_registerPending hr
            have hun : w.pending.lookup n = none :=
              hE.unentered (i := i) (by rw [hp]; rfl)
            rw [DapClient.registerPending_new hun] at he
            cases he
            have honly := PendingInv.register_only w n
            show Settled _ m c (if n = m then none else outcome m h)
            by_cases hij : j = i
            · subst hij
              rw [Function.update_self] at hm
              rcases List.mem_cons.mp hm with he | hsv
              · cases he
                rw [if_pos rfl]
                exact .pending (AList.lookup_insert _)
              · have hne := hE.deferred_ne hp hsv
                rw [if_neg fun e => hne e.symm]
                refine honly.reply hne (hI (i := j) ?_)
                rw [hp]
                exact hsv
            · rw [Function.update_of_ne hij] at hm
              have hne : m ≠ n := fun he => by
                subst he
                refine hij (hE.same_owner
                  (hE.owns (CallPhase.mem_numbers hm)) (hE.owns ?_))
                rw [hp]
                exact List.mem_cons_self ..
              rw [if_neg fun e => hne e.symm]
              exact honly.reply hne (hI hm)
        | remove n ar =>
            have he := DapClient.run_removePending hr
            subst he
            rw [outcome_act rfl]
            by_cases hij : j = i
            · subst hij
              rw [Function.update_self] at hm
              cases hm
            · rw [Function.update_of_ne hij] at hm
              cases hl : w.pending.lookup n with
              | none =>
                  rw [DapClient.removePending_none hl]
                  exact hI hm
              | some d =>
                  rw [DapClient.removePending_some hl]
                  have hne : m ≠ n := fun he => by
                    subst he
                    refine hij (hE.same_owner
                      (hE.owns (CallPhase.mem_numbers hm)) (hE.owns ?_))
                    rw [hp]
                    exact List.mem_singleton_self _
                  exact (hE.table.remove_only hl).reply hne (hI hm)
        | _ => cases hop
  env := by
    intro w w' φ h e hE hI he _ j m c hm
    have he : w.envMove e = some w' := he
    cases e with
    | reader k =>
        exact (DapClient.reader_table he).reply hE.table (hI hm)
    | frame msg =>
        obtain ⟨hw, -, rfl⟩ := DapClient.envMove_frame he
        have hs : SameTable w { w with reader := dispatch msg } :=
          ⟨rfl, rfl, rfl, rfl, by rw [hw]; exact queued_dispatch msg,
            fun _ => dispatch_good msg⟩
        exact hs.reply (hI hm)
    | eof =>
        obtain ⟨hw, -, rfl⟩ := DapClient.envMove_eof he
        exact settled_same (hI hm) rfl rfl (by rw [hw]; rfl)

-- ======================================================== what was sent

/-- The requests of a plan, unnumbered. -/
def requests (p : List PlanStep) : List DapRequest :=
  (p.filterMap PlanStep.request?).map (·.setSeq 0)

namespace CallPhase

/-- Has the caller not failed? -/
def live : CallPhase → Bool
  | active _ _ _ _ | got _ => true
  | _ => false

/-- The requests a caller has still to write. -/
def unsent : CallPhase → List DapRequest
  | active p (.awaiting _ _) _ _ => requests p.tail
  | active p _ _ _ => requests p
  | _ => []

end CallPhase

/-- A step writes the next request of its plan, or none. -/
theorem PlanNext.sends {p p' : CallPhase} {β : Type} {op : ClientOp β}
    {b : β} (hq : PlanNext p op b p') (hp : p'.live = true) :
    p.live = true ∧ p.unsent =
      (op.wrote b).toList.map (·.setSeq 0) ++ p'.unsent := by
  cases hq with
  | number | register | write | writeDeferred | answer | ready | park
  | fired | registerStop | response | stopped => exact ⟨rfl, rfl⟩
  | _ => cases hp

/-- A caller that is at a step of its plan was at one before. -/
theorem PlanNext.from_active {p : CallPhase} {q : List PlanStep}
    {st : Stage} {sv : Option (Int × ChanId)} {ar : Bool} {β : Type}
    {op : ClientOp β} {b : β} (hq : PlanNext p op b (.active q st sv ar)) :
    ∃ p₀ st₀ sv₀ ar₀, p = .active p₀ st₀ sv₀ ar₀ := by
  have hl := (hq.sends rfl).1
  cases p with
  | active p₀ st₀ sv₀ ar₀ => exact ⟨p₀, st₀, sv₀, ar₀, rfl⟩
  | got r => cases hq
  | _ => cases hl

/-- A failing step has written nothing. -/
theorem PlanNext.fails {p p' : CallPhase} {β : Type} {op : ClientOp β}
    {b : β} (hq : PlanNext p op b p') (hp : p'.live = false) :
    op.wrote b = none := by
  cases hq with
  | writeFail s q hs rest sv ar n c x hx =>
      cases x with
      | ok => exact absurd rfl hx
      | _ => rfl
  | writeDropped | refuse | drop | remove | release | unpark
  | responseFail | stopDrop => rfl
  | _ => cases hp

/-- What an operation has received, and on which channel. -/
def ClientOp.received {β : Type} (op : ClientOp β) (b : β) :
    Option (ChanId × Except Unit PendingResult) :=
  match op, b with
  | .recv c, some r => some (c, r)
  | _, _ => none

theorem DapClient.run_received {w w' : DapClient} {i : Nat} {β : Type}
    {op : ClientOp β} {b : β} {a : Reply} {c : ChanId}
    {r : Except Unit PendingResult} (hr : w.run i op a = some (b, w'))
    (hx : op.received b = some (c, r)) : (w.chans c).recv = some r := by
  cases op with
  | recv d =>
      cases b with
      | none => cases hx
      | some x =>
          cases hx
          exact (run_recv hr).2 _ rfl
  | _ => cases hx

/-- How a caller that has not failed moves along its plan, with what it
writes and what it receives. -/
inductive PlanMove : List PlanStep → Option (Int × ChanId) →
    Option DapRequest → Option (ChanId × Except Unit PendingResult) →
    List PlanStep → Option (Int × ChanId) → Prop
  | within (p : List PlanStep) (sv : Option (Int × ChanId)) :
      PlanMove p sv none none p sv
  | past (s : PlanStep) (p : List PlanStep) (sv : Option (Int × ChanId))
      (x : Option (ChanId × Except Unit PendingResult))
      (hs : ∀ check, s ≠ .response check) :
      PlanMove (s :: p) sv none x p sv
  | write (q : DapRequest) (check : DapMessage → Except BackendError Unit)
      (p : List PlanStep) (sv : Option (Int × ChanId)) (n : Int) :
      PlanMove (.request q check :: p) sv (some (q.setSeq n)) none
        (.request q check :: p) sv
  | defer (q : DapRequest) (p : List PlanStep) (n : Int) (c : ChanId) :
      PlanMove (.deferred q :: p) none (some (q.setSeq n)) none p
        (some (n, c))
  | collect (check : DapMessage → Except BackendError Unit)
      (p : List PlanStep) (n : Int) (c : ChanId)
      (r : Except Unit PendingResult) (hr : passes check r = true) :
      PlanMove (.response check :: p) (some (n, c)) none (some (c, r)) p
        none

theorem PlanNext.move {p p' : List PlanStep} {st st' : Stage}
    {sv sv' : Option (Int × ChanId)} {ar ar' : Bool} {β : Type}
    {op : ClientOp β} {b : β}
    (hq : PlanNext (.active p st sv ar) op b (.active p' st' sv' ar')) :
    PlanMove p sv (op.wrote b) (op.received b) p' sv' := by
  cases hq with
  | number | register | park => exact .within _ _
  | write => exact .write _ _ _ _ _
  | writeDeferred => exact .defer _ _ _ _
  | answer | ready | fired | registerStop => exact .past _ _ _ _ nofun
  | response => exact .collect _ _ _ _ _ ‹_›

/-- What a call has written is the front of its plan; what it has still
to write is the rest, as long as it has not failed. -/
structure SentInv (calls : Nat → LldbCall) (φ : Nat → CallPhase)
    (h : ClientHistory) : Prop where
  front : ∀ i, (writes i h).map (·.setSeq 0) <+: requests (calls i).plan
  rest : ∀ i, (φ i).live = true →
    (writes i h).map (·.setSeq 0) ++ (φ i).unsent
      = requests (calls i).plan
  written : ∀ {i n c}, (n, c) ∈ (φ i).written →
    ∃ q ∈ writes i h, q.seq = n

/-- A step adds what it has written. -/
theorem writes_act {i j : Nat} {h : ClientHistory} {w w' : DapClient}
    {β : Type} {op : ClientOp β} {b : β} :
    writes i (.act j op b w w' :: h)
      = writes i h ++ if j = i then (op.wrote b).toList else [] := by
  show (if j = i then writes i h ++ (op.wrote b).toList else writes i h)
    = _
  split
  · rfl
  · exact (List.append_nil _).symm

/-- A caller gets to hold the channel of a request it has written. -/
theorem PlanNext.written_wrote {p p' : CallPhase} {β : Type}
    {op : ClientOp β} {b : β} (hq : PlanNext p op b p') {n : Int}
    {c : ChanId} (hm : (n, c) ∈ p'.written) :
    (n, c) ∈ p.written ∨ ∃ q, op.wrote b = some q ∧ q.seq = n := by
  cases hq with
  | write q check rest sv ar m d =>
      rcases List.mem_cons.mp hm with he | hm
      · cases he
        exact .inr ⟨_, rfl, rfl⟩
      · exact .inl hm
  | writeDeferred q rest ar m d =>
      rcases List.mem_cons.mp hm with he | hm
      · cases he
        exact .inr ⟨_, rfl, rfl⟩
      · cases hm
  | answer => exact .inl (List.mem_cons_of_mem _ hm)
  | number | register | ready | park | fired | registerStop =>
      exact .inl hm
  | _ => cases hm

/-- What was sent is kept by every step. -/
theorem sentInv (calls : Nat → LldbCall) :
    Inductive clientMachine PlanNext (fun _ _ => True)
      (fun _ φ h => SentInv calls φ h) where
  act := by
    intro w w' φ h i β op a b q' hI _ hq _
    refine ⟨fun j => ?_, fun j hj => ?_, fun {j n c} hm => ?_⟩
    · rw [writes_act]
      by_cases hij : i = j
      · subst hij
        rw [if_pos rfl]
        cases hl : q'.live with
        | true =>
            obtain ⟨hlive, hs⟩ := hq.sends hl
            rw [List.map_append, ← hI.rest i hlive, hs,
              ← List.append_assoc]
            exact List.prefix_append _ _
        | false =>
            rw [hq.fails hl, Option.toList_none, List.append_nil]
            exact hI.front i
      · rw [if_neg hij, List.append_nil]
        exact hI.front j
    · rw [writes_act]
      by_cases hij : i = j
      · subst hij
        rw [Function.update_self] at hj ⊢
        obtain ⟨hlive, hs⟩ := hq.sends hj
        rw [if_pos rfl, List.map_append, List.append_assoc, ← hs]
        exact hI.rest i hlive
      · rw [Function.update_of_ne fun e => hij e.symm] at hj ⊢
        rw [if_neg hij, List.append_nil]
        exact hI.rest j hj
    · rw [writes_act]
      by_cases hij : i = j
      · subst hij
        rw [Function.update_self] at hm
        rw [if_pos rfl]
        rcases hq.written_wrote hm with hm | ⟨q, hw, hn⟩
        · obtain ⟨q, hq, hn⟩ := hI.written hm
          exact ⟨q, List.mem_append_left _ hq, hn⟩
        · rw [hw]
          exact ⟨q, List.mem_append_right _ (List.mem_singleton_self q),
            hn⟩
      · rw [Function.update_of_ne fun e => hij e.symm] at hm
        rw [if_neg hij, List.append_nil]
        exact hI.written hm
  env h _ _ := ⟨h.front, h.rest, h.written⟩

/-- A caller that got an outcome got the one it was woken with. -/
def GotInv (φ : Nat → CallPhase) (h : ClientHistory) : Prop :=
  ∀ {i r}, φ i = .got r → woken i h = some r

/-- Once woken, a caller stays woken with the same outcome. -/
theorem woken_stays {i : Nat} {h : ClientHistory} {ev : ClientEvent}
    {r : Except Unit StopOutcome} (hw : woken i h = some r)
    (hne : ev.who ≠ some i) : woken i (ev :: h) = some r := by
  cases ev with
  | act j op b w w' =>
      cases op with
      | registerStop =>
          show (if j = i then none else (woken i h).or _) = some r
          rw [if_neg fun e => hne (congrArg some e), hw]
          rfl
      | _ => exact hw
  | env e w w' =>
      cases e with
      | reader k =>
          rw [woken, hw]
          split <;> rfl
      | _ => exact hw

theorem gotInv : InductiveOver clientMachine PlanNext (fun _ _ => True)
    StopInv (fun _ φ h => GotInv φ h) where
  act := by
    intro w w' φ h i β op a b q' hS hI hr hq _ j r hj
    have hr : w.run i op a = some (b, w') := hr
    by_cases hij : j = i
    · subst hij
      rw [Function.update_self] at hj
      subst hj
      generalize hp : φ j = p at hq
      cases hq with
      | stopped sv r =>
          obtain ⟨-, hrecv⟩ := DapClient.run_recvStop hr
          have hrecv := hrecv r rfl
          have hx := hS.held j (by rw [hp]; rfl)
          show woken j h = some r
          generalize woken j h = x at hx
          cases hx with
          | waiting hs he =>
              rw [he] at hrecv
              cases hrecv
          | taken o rest hre he =>
              rw [he] at hrecv
              cases hrecv
          | resolved r' hr' => exact hr'.symm.trans hrecv
    · rw [Function.update_of_ne hij] at hj
      exact woken_stays (hI hj) fun e => hij (Option.some.inj e).symm
  env := by
    intro w w' φ h e _ hI _ _ i r hi
    exact woken_stays (hI hi) nofun

/-- A caller that receives on the channel of an open request receives
what was settled for its number. -/
theorem recv_outcome {w : DapClient} {φ : Nat → CallPhase}
    {h : ClientHistory} {i : Nat} {n : Int} {c : ChanId}
    {r : Except Unit PendingResult} (hE : EntryInv w φ h)
    (hI : ReplyInv w φ h) (hm : (n, c) ∈ (φ i).opens)
    (hr : (w.chans c).recv = some r) :
    ∃ x, r = .ok x ∧ outcome n h = some x := by
  have hx := hI hm
  generalize outcome n h = x at hx ⊢
  cases hx with
  | pending hl =>
      rw [(hE.table.fresh hl).2] at hr
      cases hr
  | queued hn x hq =>
      rw [(hE.table.queue_fresh hq).2.1] at hr
      cases hr
  | sent hn x hs =>
      rw [hs] at hr
      cases hr
      exact ⟨x, rfl, rfl⟩

/-- A settled channel nothing is queued for is resolved. -/
theorem Settled.resolved {w : DapClient} {n : Int} {c : ChanId}
    {x : Option PendingResult} (hs : Settled w n c x) (hx : x.isSome)
    (hr : w.reader = []) : (w.chans c).pending = false := by
  cases hs with
  | pending => cases hx
  | queued hn r hq =>
      rw [hr] at hq
      cases hq
  | sent hn r hs =>
      rw [hs]
      rfl

-- ============================================================ numbers

/-- The number a caller has still to write under. -/
def CallPhase.toWrite : CallPhase → Option Int
  | active _ (.numbered n) _ _ | active _ (.registered n _) _ _ => some n
  | _ => none

/-- A number to enter is one to write under. -/
theorem CallPhase.unentered_toWrite {p : CallPhase} {n : Int}
    (hn : p.unentered = some n) : p.toWrite = some n := by
  cases p with
  | active plan st sv ar =>
      cases st with
      | numbered m => exact hn
      | _ => cases hn
  | _ => cases hn

/-- A caller writes once under each number. -/
structure SeqInv (φ : Nat → CallPhase) (h : ClientHistory) : Prop where
  given : ∀ {i q}, q ∈ writes i h → (i, q.seq) ∈ DebugMcp.given h
  fresh : ∀ {i q}, q ∈ writes i h → (φ i).toWrite ≠ some q.seq
  nodup : ∀ i, ((writes i h).map (·.seq)).Nodup

/-- A caller writes under the number it has to. -/
theorem PlanNext.wrote_open {p p' : CallPhase} {β : Type}
    {op : ClientOp β} {b : β} (hq : PlanNext p op b p') {q : DapRequest}
    (hw : op.wrote b = some q) :
    q.seq ∈ p.numbers ∧ p.toWrite = some q.seq ∧ p'.toWrite = none := by
  cases hq with
  | write q' check rest sv ar n c =>
      cases hw
      exact ⟨List.mem_cons_self .., rfl, rfl⟩
  | writeDeferred q' rest ar n c =>
      cases hw
      exact ⟨List.mem_cons_self .., rfl, rfl⟩
  | writeFail s q' hs rest sv ar n c x hx =>
      cases x with
      | ok => exact absurd rfl hx
      | _ => cases hw
  | _ => cases hw

/-- A caller's number to write under is the last one it was given. -/
theorem PlanNext.toWrite {p p' : CallPhase} {β : Type}
    {op : ClientOp β} {b : β} (hq : PlanNext p op b p') {n : Int}
    (hn : p'.toWrite = some n) :
    op.gives b = some n ∨ p.toWrite = some n := by
  cases hq with
  | number s q hs rest sv ar m =>
      cases hn
      exact .inl rfl
  | register => exact .inr hn
  | _ => cases hn

/-- What was given out stays given out. -/
theorem given_cons {x : Nat × Int} {ev : ClientEvent} {h : ClientHistory}
    (hx : x ∈ given h) : x ∈ given (ev :: h) := by
  cases ev with
  | act i op b w w' =>
      rw [given]
      split
      · exact List.mem_cons_of_mem _ hx
      · exact hx
  | env e w w' => exact hx

/-- What a caller's step leaves of the numbers. -/
theorem DapClient.run_seq {w w' : DapClient} {i : Nat} {β : Type}
    {op : ClientOp β} {b : β} {a : Reply}
    (hr : w.run i op a = some (b, w')) :
    w.seq ≤ w'.seq ∧ ∀ n, op.gives b = some n → w.seq < n := by
  cases op with
  | nextSeq =>
      obtain ⟨rfl, rfl⟩ := run_nextSeq hr
      refine ⟨Int.le_of_lt (Int.lt_succ _), fun n hn => ?_⟩
      have := Option.some.inj hn
      omega
  | registerPending m =>
      have he := run_registerPending hr
      cases he
      exact ⟨Int.le_refl _, nofun⟩
  | removePending m =>
      have he := run_removePending hr
      subst he
      refine ⟨?_, nofun⟩
      unfold removePending
      split <;> exact Int.le_refl _
  | _ =>
      have hs := run_off_table hr rfl
      exact ⟨Int.le_of_eq hs.seq.symm, nofun⟩

theorem seqInv : InductiveOver clientMachine PlanNext (fun _ _ => True)
    EntryInv (fun _ φ h => SeqInv φ h) where
  act := by
    intro w w' φ h i β op a b q' hE hI hr hq _
    have hr : w.run i op a = some (b, w') := hr
    refine ⟨fun {j q} hj => ?_, fun {j q} hj => ?_, fun j => ?_⟩
    all_goals rw [writes_act] at *
    all_goals by_cases hij : i = j
    · subst hij
      rw [if_pos rfl] at hj
      rcases List.mem_append.mp hj with hj | hj
      · exact given_cons (hI.given hj)
      · rw [Option.mem_toList] at hj
        exact given_cons (hE.owns (hq.wrote_open hj).1)
    · rw [if_neg hij, List.append_nil] at hj
      exact given_cons (hI.given hj)
    · subst hij
      rw [if_pos rfl] at hj
      rw [Function.update_self]
      rcases List.mem_append.mp hj with hj | hj
      · intro hn
        rcases hq.toWrite hn with hg | hn
        · -- A number given now is above every one given before.
          have := (DapClient.run_seq hr).2 _ hg
          have := hE.given_le (hI.given hj)
          omega
        · exact hI.fresh hj hn
      · rw [Option.mem_toList] at hj
        rw [(hq.wrote_open hj).2.2]
        exact nofun
    · rw [if_neg hij, List.append_nil] at hj
      rw [Function.update_of_ne fun e => hij e.symm]
      exact hI.fresh hj
    · subst hij
      rw [if_pos rfl]
      cases hw : op.wrote b with
      | none =>
          rw [Option.toList_none, List.append_nil]
          exact hI.nodup i
      | some q =>
          rw [List.map_append]
          refine List.Nodup.append (hI.nodup i) (List.nodup_singleton _) ?_
          intro n hn hn'
          obtain ⟨q', hq', rfl⟩ := List.mem_map.mp hn
          have hseq : q'.seq = q.seq := List.mem_singleton.mp hn'
          exact hI.fresh hq' (hseq ▸ (hq.wrote_open hw).2.1)
    · rw [if_neg hij, List.append_nil]
      exact hI.nodup j
  env := fun _ hI _ _ => ⟨hI.given, hI.fresh, hI.nodup⟩

/-- A caller registers the number it has to enter. -/
theorem PlanNext.enters {p p' : CallPhase} {β : Type}
    {op : ClientOp β} {b : β} (hq : PlanNext p op b p')
    (hop : op.enters = true) :
    ∃ n, p.unentered = some n ∧ n ∈ p.numbers ∧
      ∀ {i m h w w'}, m ≠ n →
        outcome m (.act i op b w w' :: h) = outcome m h := by
  cases hq with
  | register s rest sv ar n c =>
      exact ⟨n, rfl, List.mem_cons_self .., fun hm =>
        if_neg fun e => hm e.symm⟩
  | _ => cases hop

/-- What was settled for a written request stays. -/
theorem outcome_kept {w w' : DapClient} {φ : Nat → CallPhase}
    {h : ClientHistory} {i j : Nat} {q : DapRequest} {β : Type}
    {op : ClientOp β} {b : β} {p' : CallPhase} (hE : EntryInv w φ h)
    (hS : SeqInv φ h) (hq : PlanNext (φ j) op b p')
    (hw : q ∈ writes i h) :
    outcome q.seq (.act j op b w w' :: h) = outcome q.seq h := by
  cases hop : op.enters with
  | false => exact outcome_act hop
  | true =>
      obtain ⟨n, hu, hn, hout⟩ := hq.enters hop
      refine hout fun he => ?_
      have hij : j = i := hE.same_owner (hE.owns hn) (he ▸ hS.given hw)
      subst hij
      refine hS.fresh hw (CallPhase.unentered_toWrite ?_)
      rw [hu, he]

/-- What was settled stays settled when the environment moves. -/
theorem outcome_env {w w' : DapClient} {h : ClientHistory}
    {e : ClientMove} {n : Int} {r : PendingResult}
    (hr : outcome n h = some r) :
    outcome n (.env e w w' :: h) = some r := by
  cases e with
  | reader k =>
      show (outcome n h).or (w.settles n) = some r
      rw [hr]
      rfl
  | _ => exact hr

-- =========================================================== all of it

/-- What is known of the state of a run of callers, with its history. -/
structure WireInv (calls : Nat → LldbCall) (w : DapClient)
    (φ : Nat → CallPhase) (h : ClientHistory) : Prop where
  caller : CallerInv calls w φ h
  reply : ReplyInv w φ h
  sent : SentInv calls φ h
  got : GotInv φ h
  seq : SeqInv φ h

theorem wireInv (calls : Nat → LldbCall) :
    Inductive clientMachine PlanNext (fun _ _ => True)
      (WireInv calls) where
  act h hr hq hok := ⟨(callerInv calls).act h.caller hr hq hok,
    replyInv.act h.caller.entry h.reply hr hq hok,
    (sentInv calls).act h.sent hr hq hok,
    gotInv.act h.caller.stop h.got hr hq hok,
    seqInv.act h.caller.entry h.seq hr hq hok⟩
  env h he hok := ⟨(callerInv calls).env h.caller he hok,
    replyInv.env h.caller.entry h.reply he hok,
    (sentInv calls).env h.sent he hok,
    gotInv.env h.caller.stop h.got he hok,
    seqInv.env h.caller.entry h.seq he hok⟩

theorem WireInv.start (calls : Nat → LldbCall) :
    WireInv calls .new (fun i => (calls i).phase₀) [] where
  caller := .start calls
  reply := nofun
  sent := ⟨fun _ => List.nil_prefix, fun _ _ => rfl, nofun⟩
  got := nofun
  seq := ⟨nofun, nofun, fun _ => .nil⟩

-- ================================================================ at rest

/-- Is every request call `i` has written settled? -/
def allSettled (i : Nat) (h : ClientHistory) : Bool :=
  (writes i h).all fun q => (outcome q.seq h).isSome

/-- At rest, with every request it has written settled and the signal
fired if it parked, a call that waits is at its stop waiter, which
nothing has resolved. -/
theorem WireInv.waits_stop {calls : Nat → LldbCall} {φ : Nat → CallPhase}
    {h : ClientHistory} {s : Pool ClientOp LldbResult DapClient} {i : Nat}
    {R : CallPhase → LldbResult → Prop} (hW : WireInv calls s.world φ h)
    (hobey : ∀ q, s.prog i = some q → Obeys PlanNext R q (φ i))
    (hrest : s.world.reader = []) (hset : allSettled i h = true)
    (hfired : .initialized ∈ (φ i).plan → fired h = true)
    (hw : waiting s i = true) :
    (∃ sv, φ i = .active [.stop] .idle sv true) ∧ woken i h = none := by
  obtain ⟨β, op, hs, ha⟩ := waiting_awaits hobey hw
  cases op with
  | recv c =>
      obtain ⟨n, hm⟩ := ha
      obtain ⟨q, hq, hn⟩ := hW.sent.written hm
      have hout := List.all_eq_true.mp hset q hq
      have hrep := hW.reply (CallPhase.written_opens hm)
      rw [hn] at hout
      cases (hrep.resolved hout hrest).symm.trans hs
  | recvInitialized =>
      obtain ⟨rest, sv, ar, hp⟩ := ha
      have hpk : (φ i).parked = true := by
        rw [hp]
        rfl
      have hx := hW.caller.signal.parked i hpk
      generalize signalled i h = x at hx
      cases hx with
      | waiting hwait =>
          rw [hW.caller.signal.clear
            (hW.caller.signal.fired.trans (hfired (by
              rw [hp]
              exact List.mem_cons_self ..)))] at hwait
          cases hwait
      | woken hres =>
          have hs : (s.world.initRx i).recv.isNone = true := hs
          rw [Option.isNone_iff_eq_none.mp hs] at hres
          cases hres
  | recvStop =>
      obtain ⟨sv, hp⟩ := ha
      refine ⟨⟨sv, hp⟩, ?_⟩
      have hx := hW.caller.stop.held i (by rw [hp]; rfl)
      generalize woken i h = x at hx
      cases hx with
      | waiting => rfl
      | taken o rest hre =>
          rw [hrest] at hre
          cases hre
      | resolved r hre =>
          have hs : (s.world.stopRx i).recv.isNone = true := hs
          rw [hre] at hs
          cases hs
  | selectBoth c p => cases ha
  | _ => cases hs

-- =========================================================== schedules

/-- The adapter answers request `n`, and the answer is dispatched. -/
def answering (n : Int) (success : Bool) (command : String) :
    List (Action Reply ClientMove) :=
  [.env (.frame (.response
      { seq := 0, ty := "response", requestSeq := n, success, command,
        message := "", body := none })),
    .env (.reader 0), .env (.reader 0), .env (.reader 0)]

/-- Call `i` takes `k` steps. -/
def steps (i k : Nat) : List (Action Reply ClientMove) :=
  List.replicate k (.step i .sync)

/-- Up to the launch request: it waits for `initialized`. -/
def launching : List (Action Reply ClientMove) :=
  steps 0 3 ++ answering 1 true "initialize" ++ steps 0 5

end DebugMcp
