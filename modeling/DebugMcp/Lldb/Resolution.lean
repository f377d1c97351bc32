/-
What the read loop resolves.

An event that ends a resume resolves the stop waiter, and the end of the
stream the response channels; nothing else sends an error to either.
What a caller's operation does to the waiters of the others is here too:
only a registration touches them.
-/
import DebugMcp.Dap.Correlation
import DebugMcp.Lldb.StopWaiter

namespace DebugMcp

open Conc

-- ============================================================ messages

/-- Does the message end a resume: a stop, an exit, a termination? -/
def DapMessage.endsResume : DapMessage → Bool
  | .event (.stopped _) | .event (.exited _) | .event .terminated => true
  | _ => false

/-- Does it end the session? -/
def DapMessage.endsSession : DapMessage → Bool
  | .event (.exited _) | .event .terminated => true
  | _ => false

/-- Is the outcome a stop? -/
def StopOutcome.isStop : StopOutcome → Bool
  | .stopped _ => true
  | _ => false

/-- Does the step give the stop waiter something? -/
def ReaderOp.takesStop : ReaderOp → Bool
  | takeStop _ => true
  | _ => false

/-- A step that takes the stop waiter. -/
theorem ReaderOp.eq_takeStop {op : ReaderOp} (h : op.takesStop = true) :
    ∃ o, op = .takeStop o := by
  cases op with
  | takeStop o => exact ⟨o, rfl⟩
  | _ => cases h

/-- An outcome is dispatched for an event that ends a resume; other than
for a stop, for one that ends the session. -/
theorem takeStop_dispatch {m : DapMessage} {o : StopOutcome}
    (h : .takeStop o ∈ dispatch m) :
    m.endsResume = true ∧ (o.isStop = false → m.endsSession = true) := by
  cases m with
  | event e =>
      cases e with
      | stopped e =>
          cases List.mem_singleton.mp h
          exact ⟨rfl, nofun⟩
      | exited e | terminated => exact ⟨rfl, fun _ => rfl⟩
      | initialized | output => cases List.mem_singleton.mp h
      | _ => cases h
  | response r => cases List.mem_singleton.mp h
  | other e => cases h

-- ============================================================= waiters

section

variable {i j : Nat} {β : Type} {op : ClientOp β} {b : β}
  {w w' : DapClient} {h : ClientHistory}

/-- Another caller's operation leaves what a caller holds. -/
theorem holdsStop_other (hij : i ≠ j) :
    holdsStop j (.act i op b w w' :: h) = holdsStop j h := by
  cases op with
  | registerStop =>
      show (decide (i = j) || holdsStop j h) = _
      rw [decide_eq_false hij]
      rfl
  | dropStop =>
      show (decide (i ≠ j) && holdsStop j h) = _
      rw [decide_eq_true hij]
      rfl
  | _ => rfl

/-- A call has registered if it had, or does. -/
theorem hasRegistered_act
    (hop : i = j → op.registersStop = false) :
    hasRegistered j (.act i op b w w' :: h) = hasRegistered j h := by
  show (decide (i = j) && op.registersStop || hasRegistered j h) = _
  by_cases hij : i = j
  · rw [hop hij, Bool.and_false]
    rfl
  · rw [decide_eq_false hij]
    rfl

/-- Only a registration, and the read loop, resolve a waiter. -/
theorem woken_quiet (hop : op.registersStop = false) :
    woken j (.act i op b w w' :: h) = woken j h := by
  cases op with
  | registerStop => cases hop
  | _ => rfl

/-- A call's waiter is unresolved when it is registered. -/
theorem woken_register :
    woken i (.act i .registerStop () w w' :: h) = none := if_pos rfl

/-- A caller's operation gives no waiter an outcome. -/
theorem woken_ok_act {o : StopOutcome}
    (hw : woken j (.act i op b w w' :: h) = some (.ok o)) :
    woken j h = some (.ok o) := by
  cases op with
  | registerStop =>
      have hw : (if i = j then none
        else (woken j h).or (some (.error ()))) = some (.ok o) := hw
      split at hw
      · cases hw
      · cases hx : woken j h with
        | none =>
            rw [hx] at hw
            cases hw
        | some r =>
            rw [hx] at hw
            exact hw
  | _ => exact hw

end

/-- What a caller that holds its receiver gets is what its waiter was
resolved to. -/
theorem Held.recv {w : DapClient} {i : Nat}
    {x : Option (Except Unit StopOutcome)} {r : Except Unit StopOutcome}
    (hx : Held w i x) (hr : (w.stopRx i).recv = some r) : x = some r := by
  cases hx with
  | waiting hs he hq =>
      rw [he] at hr
      cases hr
  | taken o rest hre he hs =>
      rw [he] at hr
      cases hr
  | resolved r' hr' => exact hr'.symm.trans hr

-- ================================================== errors of the client

/-- An error is sent to a caller only after the end of the stream. -/
structure ClosedInv (w : DapClient) : Prop where
  inQueue : ∀ {c e}, (c, .error e) ∈ queued w.reader → w.ended = true
  inChan : ∀ {c e}, w.chans c = .sent (.error e) → w.ended = true
  drains : ∀ {e}, .drainPending e ∈ w.reader → w.ended = true

/-- Dropping a sender sends nothing. -/
theorem Oneshot.sent_of_close {α : Type} {o : Oneshot α} {a : α}
    (h : o.close = .sent a) : o = .sent a := by
  cases o with
  | empty => cases h
  | _ => exact h

namespace ClosedInv

variable {w w' : DapClient} {i : Nat} {β : Type} {op : ClientOp β}
  {a : Reply} {b : β}

/-- Where one sender at most was dropped, nothing was sent. -/
private theorem sent_of_update {d : ChanId} {r : PendingResult}
    {c : ChanId}
    (h : Function.update w.chans d (w.chans d).close c = .sent r) :
    w.chans c = .sent r := by
  by_cases hcd : c = d
  · subst hcd
    rw [Function.update_self] at h
    exact Oneshot.sent_of_close h
  · rw [Function.update_of_ne hcd] at h
    exact h

/-- A caller sends nothing to a response channel. -/
theorem sent_of_run (hr : w.run i op a = some (b, w')) {c : ChanId}
    {r : PendingResult} (h : w'.chans c = .sent r) :
    w.chans c = .sent r := by
  rcases DapClient.run_world hr with rfl | ⟨-, rfl | ⟨n, rfl⟩ | ⟨n, rfl⟩⟩ |
    ⟨-, rfl⟩ | ⟨-, rfl | rfl⟩
  case inr.inl.inr.inl =>
    unfold DapClient.registerPending at h
    dsimp only at h
    split at h
    · exact sent_of_update h
    · exact h
  case inr.inl.inr.inr =>
    unfold DapClient.removePending at h
    split at h
    · exact sent_of_update h
    · exact h
  all_goals exact h

theorem act (hI : ClosedInv w) (hr : w.run i op a = some (b, w')) :
    ClosedInv w' := by
  obtain ⟨hreader, hended⟩ := DapClient.run_reader hr
  refine ⟨fun h => ?_, fun h => ?_, fun h => ?_⟩ <;> rw [hended]
  · rw [hreader] at h
    exact hI.inQueue h
  · exact hI.inChan (sent_of_run hr h)
  · rw [hreader] at h
    exact hI.drains h

/-- A step of the read loop sends errors only when it recovers. -/
theorem reader {k : Nat} (hI : ClosedInv w)
    (he : w.envMove (.reader k) = some w') : ClosedInv w' := by
  obtain ⟨op, rest, hw, hs⟩ := DapClient.envMove_reader he
  have hf := DapClient.readerStep_frame hw hs
  have hended := hf.ended
  have hdrains : ∀ {e}, .drainPending e ∈ w'.reader →
      w'.ended = true := by
    intro e hm
    rw [hended]
    rcases hf.mem hm with hsend | hm
    · cases hsend
    · exact hI.drains hm
  -- what is queued or sent was queued or sent, unless the table drains
  have hkeeps : (∀ {c r}, (c, r) ∈ queued w'.reader →
        (c, r) ∈ queued w.reader ∨ ∃ m, r = .ok m) →
      (∀ {c r}, w'.chans c = .sent r →
        w.chans c = .sent r ∨ (c, r) ∈ queued w.reader) →
      ClosedInv w' := by
    intro hq hc
    refine ⟨fun h => ?_, fun h => ?_, hdrains⟩ <;> rw [hended]
    · rcases hq h with h | ⟨m, h⟩
      · exact hI.inQueue h
      · cases h
    · rcases hc h with h | h
      · exact hI.inChan h
      · exact hI.inQueue h
  cases DapClient.reader_table he with
  | quiet hs hr hd =>
      refine hkeeps (fun h => ?_) fun h => ?_
      · rw [hs.queue] at h
        exact .inl h
      · rw [hs.chans] at h
        exact .inl h
  | @take n m c rest hw hn =>
      refine hkeeps (fun h => ?_) fun h => .inl h
      rcases List.mem_cons.mp h with h | h
      · cases h
        exact .inr ⟨m, rfl⟩
      · rw [hw]
        exact .inl h
  | drain hw =>
      have hend : w.ended = true :=
        hI.drains (by rw [hw]; exact List.mem_cons_self ..)
      exact ⟨fun _ => hend, fun _ => hend, fun _ => hend⟩
  | @deliver cs r c rest hw hk =>
      have hin : (c, r) ∈ queued w.reader := by
        rw [hw]
        exact List.mem_append_left _
          (List.mem_map.mpr ⟨c, List.mem_of_getElem? hk, rfl⟩)
      refine hkeeps (fun {d x} h => .inl ?_) fun {d x} h => ?_
      · rw [hw]
        rcases List.mem_append.mp h with h | h
        · obtain ⟨d', hd, he⟩ := List.mem_map.mp h
          cases he
          exact List.mem_append_left _ (List.mem_map.mpr
            ⟨d, List.mem_of_mem_eraseIdx hd, rfl⟩)
        · exact List.mem_append_right _ h
      · by_cases hdc : d = c
        · subst hdc
          have h : Function.update w.chans d ((w.chans d).send r) d
              = .sent x := h
          rw [Function.update_self] at h
          cases hd : w.chans d with
          | empty =>
              rw [hd] at h
              cases h
              exact .inr hin
          | _ =>
              rw [hd] at h
              exact .inl h
        · rw [PendingInv.delivered_other hdc] at h
          exact .inl h

/-- So does the rest of the environment. -/
theorem env {e : ClientMove} (hI : ClosedInv w)
    (he : w.envMove e = some w') : ClosedInv w' := by
  cases e with
  | reader k => exact hI.reader he
  | frame m =>
      obtain ⟨-, -, rfl⟩ := DapClient.envMove_frame he
      refine ⟨fun h => ?_, hI.inChan, fun h => ?_⟩
      · dsimp only at h
        rw [queued_dispatch] at h
        cases h
      · cases mem_dispatch h
  | eof =>
      obtain ⟨-, -, rfl⟩ := DapClient.envMove_eof he
      exact ⟨fun _ => rfl, fun _ => rfl, fun _ => rfl⟩

end ClosedInv

-- ============================================================ channels

/-- The read loop only sends. -/
theorem DapClient.envMove_chans {w w' : DapClient} {e : ClientMove}
    (he : w.envMove e = some w') (c : ChanId) :
    w'.chans c = w.chans c ∨
      w.chans c = .empty ∧ ∃ r, w'.chans c = .sent r := by
  cases e with
  | frame m =>
      obtain ⟨-, -, rfl⟩ := envMove_frame he
      exact .inl rfl
  | eof =>
      obtain ⟨-, -, rfl⟩ := envMove_eof he
      exact .inl rfl
  | reader k =>
      cases reader_table he with
      | quiet hs hr hd => exact .inl (congrFun hs.chans c)
      | take hw hn => exact .inl rfl
      | drain hw => exact .inl rfl
      | @deliver cs r d rest hw hk =>
          show Function.update w.chans d ((w.chans d).send r) c = _ ∨
            _ ∧ ∃ r', Function.update w.chans d ((w.chans d).send r) c = _
          by_cases hcd : c = d
          · subst hcd
            rw [Function.update_self]
            cases hc : w.chans c with
            | empty => exact .inr ⟨rfl, r, rfl⟩
            | _ => exact .inl rfl
          · rw [Function.update_of_ne hcd]
            exact .inl rfl

/-- Channels are allocated in order, and none is closed before it is. -/
structure DapClient.InOrder (w : DapClient) : Prop where
  unclosed : ∀ c, w.nextChan ≤ c → w.chans c ≠ .closed
  entries : ∀ n c, w.pending.lookup n = some c → c < w.nextChan

namespace DapClient.InOrder

variable {w w' : DapClient} {n : Int} {c : ChanId}

/-- Dropping the sender of an entry closes no channel to come. -/
private theorem update_unclosed {d : ChanId} {k : Nat} (hI : w.InOrder)
    (hd : d < w.nextChan) (hk : w.nextChan ≤ k) (c : ChanId)
    (hc : k ≤ c) :
    Function.update w.chans d (w.chans d).close c ≠ .closed := by
  have hle : w.nextChan ≤ c := Nat.le_trans hk hc
  rw [Function.update_of_ne (Nat.ne_of_gt (Nat.lt_of_lt_of_le hd hle))]
  exact hI.unclosed c hle

/-- The channel of a request that is registered is not closed. -/
theorem registered (hI : w.InOrder) (hw : (c, w') = w.registerPending n) :
    w'.chans c ≠ .closed := by
  unfold registerPending at hw
  cases hw
  dsimp only
  split
  · next old hn =>
      exact hI.update_unclosed (hI.entries n old hn) (Nat.le_refl _) _
        (Nat.le_refl _)
  · exact hI.unclosed _ (Nat.le_refl _)

/-- Registering keeps the order. -/
theorem register (hI : w.InOrder) : (w.registerPending n).2.InOrder := by
  refine ⟨fun c hc => ?_, fun m c hm => ?_⟩
  · have hc : w.nextChan + 1 ≤ c := hc
    unfold registerPending
    dsimp only
    split
    · next old hn =>
        exact hI.update_unclosed (hI.entries n old hn) (Nat.le_succ _) c hc
    · exact hI.unclosed c (Nat.le_of_succ_le hc)
  · show c < w.nextChan + 1
    have hm : (w.pending.insert n w.nextChan).lookup m = some c := hm
    by_cases hmn : m = n
    · subst hmn
      rw [AList.lookup_insert] at hm
      cases hm
      exact Nat.lt_succ_self _
    · rw [AList.lookup_insert_ne hmn] at hm
      exact Nat.lt_succ_of_lt (hI.entries m c hm)

/-- So does removing an entry. -/
theorem remove (hI : w.InOrder) : (w.removePending n).InOrder := by
  unfold removePending
  split
  · next d hn =>
      exact ⟨hI.update_unclosed (hI.entries n d hn) (Nat.le_refl _),
        fun m c hm => hI.entries m c (lookup_erase_some hm).2⟩
  · exact hI

/-- No operation of a caller breaks it. -/
theorem act {i : Nat} {β : Type} {op : ClientOp β} {a : Reply} {b : β}
    (hI : w.InOrder) (hr : w.run i op a = some (b, w')) : w'.InOrder := by
  rcases run_world hr with rfl | ⟨-, rfl | ⟨n, rfl⟩ | ⟨n, rfl⟩⟩ |
    ⟨-, rfl⟩ | ⟨-, rfl | rfl⟩
  case inr.inl.inr.inl => exact hI.register
  case inr.inl.inr.inr => exact hI.remove
  all_goals exact ⟨hI.unclosed, hI.entries⟩

/-- Nor does the read loop. -/
theorem env {e : ClientMove} (hI : w.InOrder)
    (he : w.envMove e = some w') : w'.InOrder := by
  have hchans : w'.nextChan = w.nextChan →
      ∀ c, w'.nextChan ≤ c → w'.chans c ≠ .closed := by
    intro hn c hc hclosed
    rcases envMove_chans he c with h | ⟨-, r, h⟩
    · exact hI.unclosed c (hn ▸ hc) (h ▸ hclosed)
    · cases h.symm.trans hclosed
  cases e with
  | frame m =>
      obtain ⟨-, -, rfl⟩ := envMove_frame he
      exact ⟨hI.unclosed, hI.entries⟩
  | eof =>
      obtain ⟨-, -, rfl⟩ := envMove_eof he
      exact ⟨hI.unclosed, hI.entries⟩
  | reader k =>
      cases reader_table he with
      | quiet hs hr hd =>
          refine ⟨hchans hs.nextChan, ?_⟩
          rw [hs.pending, hs.nextChan]
          exact hI.entries
      | take hw hn =>
          exact ⟨hchans rfl, fun m c hm =>
            hI.entries m c (lookup_erase_some hm).2⟩
      | drain hw =>
          exact ⟨hchans rfl, fun m c hm =>
            absurd hm PendingInv.lookup_empty⟩
      | deliver hw hk => exact ⟨hchans rfl, hI.entries⟩

end DapClient.InOrder

/-- Whatever its callers do, a client keeps its channels in order, and
sends errors only at the end of its stream. -/
theorem DapClient.reached_inOrder {α : Type}
    {s₀ s : Pool ClientOp α DapClient} {h : ClientHistory}
    (hw : s₀.world = .new) (hr : Run clientMachine s₀ h s) :
    ClosedInv s.world ∧ s.world.InOrder := by
  induction hr with
  | nil =>
      rw [hw]
      exact ⟨⟨nofun, nofun, nofun⟩, fun _ _ => nofun, nofun⟩
  | snoc _ hs _ ih =>
      cases hs with
      | act _ hr => exact ⟨ih.1.act hr, ih.2.act hr⟩
      | env he => exact ⟨ih.1.env he, ih.2.env he⟩

-- ============================================================= at rest

/-- A client that no call is using: nothing is pending, no waiter is
registered, no frame is being dispatched. -/
structure DapClient.AtRest (w : DapClient) : Prop where
  slot : w.slot = none
  reader : w.reader = []
  pending : w.pending = ∅
  /-- Channels are allocated in order. -/
  unused : ∀ c, w.nextChan ≤ c → w.chans c = .empty
  /-- An error was sent at the end of the stream. -/
  errors : ∀ {c e}, w.chans c = .sent (.error e) → w.ended = true

namespace DapClient.AtRest

variable {w : DapClient}

theorem queued_nil (hw : w.AtRest) : queued w.reader = [] := by
  rw [hw.reader]
  rfl

theorem lookup_ne (hw : w.AtRest) {n : Int} {c : ChanId} :
    w.pending.lookup n ≠ some c := by
  intro hn
  rw [hw.pending] at hn
  exact PendingInv.lookup_empty hn

/-- Its table is that of callers none of which has started. -/
theorem clientInv (hw : w.AtRest) :
    ClientInv w (fun _ => .start true) [] where
  given_le := nofun
  given_nodup := List.nodup_nil
  number := ⟨nofun, nofun⟩
  table := {
    fresh := fun hn => absurd hn hw.lookup_ne
    inj := fun hn => absurd hn hw.lookup_ne
    unused := fun hc => hw.unused _ hc
    good := fun op hop => by
      rw [hw.reader] at hop
      cases hop
    queue_nodup := by
      rw [hw.queued_nil]
      exact List.nodup_nil
    queue_fresh := fun hc => by
      rw [hw.queued_nil] at hc
      cases hc }
  keys := fun hn => absurd hn hw.lookup_ne
  resolved_nodup := List.nodup_nil
  resolved_given := nofun
  delivered_nodup := List.nodup_nil
  delivered_full := nofun
  holds := fun _ => trivial

theorem closedInv (hw : w.AtRest) : ClosedInv w where
  inQueue hc := by
    rw [hw.queued_nil] at hc
    cases hc
  inChan := hw.errors
  drains hm := by
    rw [hw.reader] at hm
    cases hm

theorem waiterInv (hw : w.AtRest) : WaiterInv w [] := by
  refine ⟨fun op hop => ?_, fun i _ => ⟨?_, fun o ho => ?_⟩, nofun⟩
  · rw [hw.reader] at hop
    cases hop
  · rw [hw.slot]
    nofun
  · rw [hw.reader] at ho
    cases ho

end DapClient.AtRest

end DebugMcp
