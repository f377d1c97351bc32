/-
The request counter at its own width.

`next_seq` adds one to an `AtomicI64`, and both the counter and the sum
wrap. `DapClient.run` counts on instead; here is the client whose counter
wraps, with all its other operations.

# Result

`GivenOut`: the `k`th number given out is `k`, wrapped (`givenOut_step`),
so numbers repeat only from the 2^64th on (`wrapped_inj`), and below 2^63
none is wrapped: till then a run of the wrapping client is one of the
client that counts on (`unwrapped_run`), for any calls.
-/
import DebugMcp.Dap.Pending

namespace DebugMcp

open Conc

-- =============================================================== machine

namespace DapClient

/-- `next_seq`: `fetch_add` wraps, and so does the sum. (Where overflow
is checked the sum panics instead, at one number of the 2^64.) -/
def nextSeq (w : DapClient) : Int := (w.seq + 1).bmod (2 ^ 64)

/-- One operation of call `i`. -/
def runWrapping {β : Type} (i : Nat) (op : ClientOp β) (a : Reply)
    (w : DapClient) : Option (β × DapClient) :=
  match op, a with
  | .nextSeq, .sync => some (w.nextSeq, { w with seq := w.nextSeq })
  | op, a => w.run i op a

end DapClient

/-- The client as a machine, with a counter that wraps. -/
def wrappingMachine : Machine ClientOp Reply ClientMove DapClient where
  run i op a w := w.runWrapping i op a
  env e w := w.envMove e

-- ============================================================== counting

/-- The `k`th number. -/
def wrapped (k : Nat) : Int := (k : Int).bmod (2 ^ 64)

/-- It is one of 64 bits. -/
theorem wrapped_lt (k : Nat) : wrapped k < 2 ^ 63 := by
  unfold wrapped
  have hlt := Int.bmod_lt (x := (k : Int)) (show 0 < 2 ^ 64 by decide)
  omega

/-- Below 2^63 nothing is wrapped. -/
theorem wrapped_small {k : Nat} (hk : k < 2 ^ 63) : wrapped k = k := by
  apply Int.bmod_eq_of_le
  · omega
  · omega

/-- The next number. -/
theorem wrapped_succ (k : Nat) :
    (wrapped k + 1).bmod (2 ^ 64) = wrapped (k + 1) := by
  unfold wrapped
  rw [Int.bmod_add_bmod]
  rfl

/-- Two of them, fewer than 2^64 apart, differ. -/
theorem wrapped_inj {j k : Nat} (hjk : j < k) (hk : k < j + 2 ^ 64) :
    wrapped j ≠ wrapped k := by
  intro he
  have hj : wrapped j % (2 ^ 64 : Nat) = (j : Int) % (2 ^ 64 : Nat) :=
    Int.bmod_emod
  have hk' : wrapped k % (2 ^ 64 : Nat) = (k : Int) % (2 ^ 64 : Nat) :=
    Int.bmod_emod
  rw [he] at hj
  omega

section

variable {w w' : DapClient} {h : ClientHistory} {i : Nat} {β : Type}
  {op : ClientOp β} {a : Reply} {b : β}

/-- The counter is at the last number, and the numbers given out are the
first ones. -/
structure GivenOut (w : DapClient) (h : ClientHistory) : Prop where
  seq : w.seq = wrapped (given h).length
  given : ∀ {i n}, (i, n) ∈ given h →
    ∃ k, 1 ≤ k ∧ k ≤ (given h).length ∧ n = wrapped k

theorem givenOut_new : GivenOut .new [] where
  seq := rfl
  given := nofun

namespace GivenOut

/-- What gives out no number keeps the count. -/
theorem other {ev : ClientEvent} (hC : GivenOut w h) (hseq : w'.seq = w.seq)
    (hg : DebugMcp.given (ev :: h) = DebugMcp.given h) :
    GivenOut w' (ev :: h) where
  seq := by
    rw [hseq, hg]
    exact hC.seq
  given := by
    rw [hg]
    exact hC.given

/-- The next number is given out. -/
theorem next {ev : ClientEvent} (hC : GivenOut w h)
    (hg : DebugMcp.given (ev :: h) = (i, w.nextSeq) :: DebugMcp.given h) :
    GivenOut { w with seq := w.nextSeq } (ev :: h) := by
  have hlen : (DebugMcp.given (ev :: h)).length
      = (DebugMcp.given h).length + 1 := congrArg List.length hg
  have hnext : w.nextSeq = wrapped ((DebugMcp.given h).length + 1) := by
    rw [DapClient.nextSeq, hC.seq, wrapped_succ]
  refine ⟨by rw [hlen]; exact hnext, fun {j n} hj => ?_⟩
  rw [hg] at hj
  rcases List.mem_cons.mp hj with hj | hj
  · cases hj
    exact ⟨_, Nat.le_add_left 1 _, hlen.ge, hnext⟩
  · obtain ⟨k, hlow, hhigh, hn⟩ := hC.given hj
    exact ⟨k, hlow, hlen ▸ Nat.le_succ_of_le hhigh, hn⟩

/-- As long as fewer than 2^64 numbers are given out the next one is
new. -/
theorem fresh (hC : GivenOut w h)
    (hlt : (DebugMcp.given h).length + 1 < 2 ^ 64) (j : Nat) :
    (j, w.nextSeq) ∉ DebugMcp.given h := by
  intro hj
  obtain ⟨k, hlow, hhigh, hn⟩ := hC.given hj
  rw [DapClient.nextSeq, hC.seq, wrapped_succ] at hn
  exact wrapped_inj (show k < (DebugMcp.given h).length + 1 by omega)
    (by omega) hn.symm

end GivenOut

-- ================================================================ steps

/-- The operation that gives out a number moves the counter. -/
theorem runWrapping_gives {n : Int}
    (hr : w.runWrapping i op a = some (b, w')) (hg : op.gives b = some n) :
    n = w.nextSeq ∧ w' = { w with seq := w.nextSeq } := by
  cases op with
  | nextSeq =>
      cases hg
      cases a <;> cases hr
      exact ⟨rfl, rfl⟩
  | _ => cases hg

/-- What a receiver gives leaves the client. -/
private theorem received_seq {γ : Type} {o : Option γ} {f : γ → β}
    (n : Int) (hr : o.map (fun x => (f x, w)) = some (b, w')) :
    o.map (fun x => (f x, ({ w with seq := n } : DapClient)))
      = some (b, { w' with seq := n }) ∧ w'.seq = w.seq := by
  obtain ⟨x, rfl, he⟩ := Option.map_eq_some_iff.mp hr
  cases he
  exact ⟨rfl, rfl⟩

/-- Polling the signal does not look at the counter. -/
private theorem poll_seq (n : Int) :
    ({ w with seq := n } : DapClient).pollInitialized i
      = ((w.pollInitialized i).1,
          { (w.pollInitialized i).2 with seq := n }) ∧
    (w.pollInitialized i).2.seq = w.seq := by
  unfold DapClient.pollInitialized
  by_cases hf : w.initFired = true
  · rw [if_pos hf, if_pos hf]
    exact ⟨rfl, rfl⟩
  · rw [if_neg hf, if_neg hf]
    exact ⟨rfl, rfl⟩

/-- Nor does a select that polls it. -/
private theorem select_seq {x : Option Selected} {c : ChanId} (n : Int)
    (hr : w.run i (.selectBoth c false) .other = some (x, w')) :
    ({ w with seq := n } : DapClient).run i (.selectBoth c false) .other
      = some (x, { w' with seq := n }) ∧ w'.seq = w.seq := by
  obtain ⟨hpoll, hseq⟩ := poll_seq (w := w) (i := i) n
  unfold DapClient.run at hr ⊢
  rw [hpoll]
  rcases hp : w.pollInitialized i with ⟨fired, w₁⟩
  rw [hp] at hr hseq
  cases fired with
  | true | false =>
      cases hr
      exact ⟨rfl, hseq⟩

/-- Every other operation is the same with any counter, and leaves it. -/
theorem runWrapping_other (hr : w.runWrapping i op a = some (b, w'))
    (hg : op.gives b = none) (n : Int) :
    ({ w with seq := n } : DapClient).run i op a
      = some (b, { w' with seq := n }) ∧ w'.seq = w.seq := by
  cases op with
  | nextSeq => cases hg
  | registerPending seq | registerStop | dropStop =>
      cases a <;> cases hr
      exact ⟨rfl, rfl⟩
  | removePending seq =>
      cases a <;> cases hr
      unfold DapClient.run DapClient.removePending
      dsimp only
      cases w.pending.lookup seq with
      | none => exact ⟨rfl, rfl⟩
      | some c => exact ⟨rfl, rfl⟩
  | writeRequest r => cases a <;> cases hr <;> exact ⟨rfl, rfl⟩
  | recv c | recvInitialized | recvStop =>
      cases a with
      | sync => exact received_seq n hr
      | cancel _ =>
          cases hr
          exact ⟨rfl, rfl⟩
      | other | fail _ _ => cases hr
  | pollInitialized =>
      obtain ⟨hpoll, hseq⟩ := poll_seq (w := w) (i := i) n
      cases a with
      | sync =>
          have he : w.pollInitialized i = (b, w') := Option.some.inj hr
          rw [he] at hpoll hseq
          exact ⟨congrArg some hpoll, hseq⟩
      | _ => cases hr
  | selectBoth c parked =>
      cases a with
      | sync => exact received_seq n hr
      | cancel _ =>
          cases hr
          exact ⟨rfl, rfl⟩
      | fail _ _ => cases hr
      | other =>
          cases parked with
          | true => exact received_seq n hr
          | false => exact select_seq n hr

/-- A step of the read loop is the same with any counter. -/
private theorem readerStep_seq {k : Nat} {rest : List ReaderOp}
    {r : ReaderOp} (he : w.readerStep k rest r = some w') (n : Int) :
    ({ w with seq := n } : DapClient).readerStep k rest r
      = some { w' with seq := n } := by
  unfold DapClient.readerStep at he ⊢
  cases r with
  | takePending seq m =>
      dsimp only at he ⊢
      cases hl : w.pending.lookup seq <;> rw [hl] at he <;> cases he <;> rfl
  | sendPending cs r =>
      dsimp only at he ⊢
      cases hk : cs[k]? with
      | some c =>
          rw [hk] at he
          cases he
          rfl
      | none =>
          rw [hk] at he
          obtain ⟨hc, hw'⟩ := Option.ite_none_right_eq_some.mp he
          cases hw'
          exact if_pos hc
  | takeStop o =>
      dsimp only at he ⊢
      cases hl : w.slot <;> rw [hl] at he <;> cases he <;> rfl
  | _ =>
      cases he
      rfl

/-- So is every move of the environment. -/
theorem envMove_seq {e : ClientMove} (he : w.envMove e = some w')
    (n : Int) :
    ({ w with seq := n } : DapClient).envMove e
      = some { w' with seq := n } ∧ w'.seq = w.seq := by
  cases e with
  | frame m | eof =>
      obtain ⟨hc, hw'⟩ := Option.ite_none_right_eq_some.mp he
      cases hw'
      exact ⟨if_pos hc, rfl⟩
  | reader k =>
      refine ⟨?_, (DapClient.reader_table he).seq⟩
      unfold DapClient.envMove at he ⊢
      dsimp only at he ⊢
      cases hops : w.reader with
      | nil =>
          rw [hops] at he
          cases he
      | cons op rest =>
          rw [hops] at he
          exact readerStep_seq he n

-- ============================================================= unwrapped

/-- An operation of the client whose counter wraps is one of the client
that counts on, if the number it gives out is not wrapped. -/
theorem run_of_runWrapping (hr : w.runWrapping i op a = some (b, w'))
    (hn : op.gives b ≠ none → w.nextSeq = w.seq + 1) :
    w.run i op a = some (b, w') := by
  cases op with
  | nextSeq =>
      replace hn := hn (Option.some_ne_none b)
      cases a <;> cases hr
      rw [hn]
      rfl
  | _ => exact hr

/-- The numbers given out are counted in every run. -/
theorem givenOut_of_run {α : Type} {s₀ s : Pool ClientOp α DapClient}
    (hw : GivenOut s₀.world [])
    (hr : Run wrappingMachine s₀ h s) : GivenOut s.world h := by
  induction hr with
  | nil => exact hw
  | snoc _ hs _ ih =>
      cases hs with
      | @act i β op k a b w' hp hr =>
          cases hg : op.gives b with
          | none =>
              refine ih.other (runWrapping_other hr hg 0).2 ?_
              rw [given, hg]
          | some n =>
              obtain ⟨rfl, hw'⟩ := runWrapping_gives hr hg
              rw [hw']
              apply ih.next
              rw [given, hg]
      | env he => exact ih.other (envMove_seq he 0).2 rfl

/-- Numbers are not taken back. -/
theorem given_length_le {ev : ClientEvent} :
    (given h).length ≤ (given (ev :: h)).length := by
  cases ev with
  | act i op b w w' =>
      rw [given]
      cases op.gives b with
      | none => exact Nat.le_refl _
      | some n => exact Nat.le_succ _
  | env e w w' => exact Nat.le_refl _

/-- While fewer than 2^63 numbers are given out, a run of the client
whose counter wraps is one of the client that counts on. -/
theorem unwrapped_run {α : Type} {prog : Nat → Option (Prog ClientOp α)}
    {s : Pool ClientOp α DapClient}
    (hr : Run wrappingMachine ⟨.new, prog⟩ h s)
    (hn : (given h).length < 2 ^ 63) :
    Run clientMachine ⟨.new, prog⟩ h s := by
  induction hr with
  | nil => exact .nil
  | snoc hr hs _ ih =>
      have hrun := ih (given_length_le.trans_lt hn)
      cases hs with
      | @act i β op k a b w' hp hstep =>
          refine .snoc hrun (.act hp (run_of_runWrapping hstep ?_)) trivial
          intro hg
          obtain ⟨n, hg⟩ := Option.ne_none_iff_exists'.mp hg
          have hC := givenOut_of_run givenOut_new hr
          rw [given, hg, List.length_cons] at hn
          rw [DapClient.nextSeq, hC.seq, wrapped_succ, wrapped_small hn,
            wrapped_small (Nat.lt_of_succ_lt hn)]
          rfl
      | env he => exact .snoc hrun (.env he) trivial

end

end DebugMcp
