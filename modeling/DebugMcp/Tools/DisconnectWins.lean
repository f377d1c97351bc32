/-
A disconnect against a connect in flight.

`disconnect` is allowed while a connect is configuring. It takes the
backend out of the slot, drops it and resets; the connect handler, which
looks at neither slot nor generation again, may install its backend or
set the session's state after that.

# Result

`disconnect_wins`: one connect handler of any of the four kinds and one
`disconnect`, started on any server a run of tool calls reaches. In
every interleaving in which the connect handler installs no backend
after the disconnect took the slot, and neither sets the state nor
snapshots a generation for its pump after the disconnect's reset, the
session is idle and the slot is empty from the disconnect's return on.
Event pumps are part of the run: a pump of an earlier session, or of
this connect, terminates nothing, because the generation it was spawned
under is past.

`connect_survives` is the run in which the disconnect lands during
`factory.connect()`.
-/
import DebugMcp.Tools.ConnectExclusion

namespace DebugMcp

open Conc

-- ========================================================= stale pumps

/-- Every pump, and every snapshot a handler is about to spawn one
with, is of an epoch that has begun. -/
structure PumpInv (g₀ : UInt64) (w : ToolServer) (φ : Nat → Phase)
    (h : History) : Prop where
  generation : GenOf g₀ w.session.inner.generation (epoch h)
  pumps : ∀ p ∈ w.pumps, ∃ e ≤ epoch h, GenOf g₀ p.2 e
  stamps : ∀ i b g, φ i = .conn (.stamped b g) →
    ∃ e ≤ epoch h, GenOf g₀ g e

/-- A pump is spawned with its handler's snapshot. -/
theorem ToolNext.spawned {q q' : Phase} {β : Type} {op : ToolOp β}
    {b : β} {p : BackendId × UInt64} (hq : ToolNext q op b q')
    (hp : op.spawned = some p) : q = .conn (.stamped p.1 p.2) := by
  cases hq with
  | conn hq =>
      cases hq with
      | spawn b g =>
          cases hp
          rfl
      | handshakeOk b op hop => cases hop <;> cases hp
      | handshakeErr b op hop => cases hop <;> cases hp
      | handshakeCancel b op hop => cases hop <;> cases hp
      | settle op hs => cases hs <;> cases hp
      | _ => cases hp
  | disc hq => cases hq <;> cases hp
  | res hq =>
      cases hq with
      | cancelled g op hop | err g op hop | stop g op hop | exit g op hop
      | terminate g op hop => cases hop <;> cases hp
      | _ => cases hp
  | bp hq => cases hq <;> cases hp
  | _ => cases hp

/-- A snapshot about to be stamped is the current generation. -/
theorem ToolNext.stamped {q q' : Phase} {β : Type} {op : ToolOp β}
    {a : Answer} {x : β} {w w' : ToolServer} {b : BackendId}
    {g : UInt64} (hq : ToolNext q op x q')
    (hr : w.run op a = some (x, w'))
    (hq' : q' = .conn (.stamped b g)) :
    q = .conn (.installed b) ∧ g = w.session.inner.generation := by
  cases hq with
  | conn hq =>
      cases hq with
      | stamp b g =>
          cases hq'
          exact ⟨rfl, (ToolServer.run_inl hr).1.symm⟩
      | _ => cases hq'
  | _ => cases hq'

theorem pumpInv_inductive (g₀ : UInt64)
    {ok : History → ToolEvent → Prop} :
    Inductive toolMachine ToolNext ok (PumpInv g₀) where
  act := by
    intro w w' φ h i β op a b q' hI hr hq _
    have hle := epoch_le_cons (.act i op b w w') h
    refine ⟨generation_step hI.generation hr, fun p hp => ?_,
      fun j b' g hj => ?_⟩
    · rw [ToolServer.run_pumps hr, List.mem_append] at hp
      rcases hp with hp | hp
      · obtain ⟨e, he, hg⟩ := hI.pumps p hp
        exact ⟨e, he.trans hle, hg⟩
      · rw [Option.mem_toList] at hp
        obtain ⟨e, he, hg⟩ := hI.stamps i _ _ (hq.spawned hp)
        exact ⟨e, he.trans hle, hg⟩
    · by_cases hij : j = i
      · subst hij
        rw [Function.update_self] at hj
        obtain ⟨-, rfl⟩ := hq.stamped hr hj
        exact ⟨epoch h, hle, hI.generation⟩
      · rw [Function.update_of_ne hij] at hj
        obtain ⟨e, he, hg⟩ := hI.stamps j b' g hj
        exact ⟨e, he.trans hle, hg⟩
  env := by
    intro w w' φ h e hI he _
    have hle := epoch_le_cons (.env e w w') h
    refine ⟨generation_env hI.generation he, fun p hp => ?_,
      fun j b g hj => ?_⟩
    · obtain ⟨e, hee, hg⟩ := hI.pumps p (pumps_env he ▸ hp)
      exact ⟨e, hee.trans hle, hg⟩
    · obtain ⟨e, hee, hg⟩ := hI.stamps j b g hj
      exact ⟨e, hee.trans hle, hg⟩

/-- `g` is the generation of neither of the next two resets. -/
def Stale (g₁ g : UInt64) : Prop :=
  ∀ e, 1 ≤ e → e ≤ 2 → ¬ GenOf g₁ g e

/-- On a server some run reaches, short of one turn of the counter, no
pump is of a generation to come. -/
theorem pumps_stale {host : Host} {calls : Nat → Call} {h : History}
    {s : Pool ToolOp ToolOutcome ToolServer}
    (hr : ToolRun host calls .new h s) (hturn : epoch h + 2 < 2 ^ 64) :
    ∀ p ∈ s.world.pumps, Stale s.world.session.inner.generation p.2 := by
  obtain ⟨φ, hI, -⟩ := toolRun_invariant (pumpInv_inductive 0)
    (show PumpInv 0 .new _ [] from ⟨GenOf.zero 0, nofun, fun i b g hi => by
      cases hc : calls i <;> rw [hc] at hi <;> cases hi⟩) hr
  intro p hp e he he2 hg
  obtain ⟨e', he', hg'⟩ := hI.pumps p hp
  have hgen := hI.generation
  rw [GenOf] at hg hg' hgen
  rw [hgen, hg', show (0 : UInt64).toNat = 0 from rfl] at hg
  omega

-- ======================================================== the condition

/-- Is the call one of the four connects? -/
def Call.isConnect : Call → Bool
  | .launch _ | .attach _ | .openCrashDump _ | .attachKernel _ => true
  | _ => false

/-- A connect, call 0, and a disconnect, call 1, neither started. -/
def pairPool (host : Host) (c : Call) (args : Args) (w : ToolServer) :
    Pool ToolOp ToolOutcome ToolServer where
  world := w
  prog
    | 0 => some (c.prog host)
    | 1 => some ((Call.disconnect args).prog host)
    | _ => none

/-- The disconnect took the backend out of the slot. -/
def tookSlot (h : History) : Bool := h.any isTake

/-- The disconnect reset the session. -/
def wiped (h : History) : Bool :=
  h.any fun ev => isReset ev && ev.who == some 1

/-- The state is set, or the generation snapshotted. -/
def setsOrStamps : ToolEvent → Bool
  | .act _ (.inl (.setState _)) _ _ _ => true
  | .act _ (.inl .generation) _ _ _ => true
  | _ => false

/-- The connect handler installs nothing once the slot was taken, and
neither sets the state nor snapshots the generation once the session was
reset. -/
def ConnectYields (h : History) (ev : ToolEvent) : Prop :=
  ev.who = some 0 →
    (isInstall ev = true → tookSlot h = false) ∧
    (setsOrStamps ev = true → wiped h = false)

instance (h : History) (ev : ToolEvent) :
    Decidable (ConnectYields h ev) :=
  inferInstanceAs (Decidable (ev.who = some 0 →
    (isInstall ev = true → tookSlot h = false) ∧
    (setsOrStamps ev = true → wiped h = false)))

-- ======================================================== the invariant

/-- How many resets a call in this phase may have performed. -/
def Phase.resets : Phase → Nat
  | .conn .failReset | .conn .failDrained | .conn .failCleared
  | .conn .cancelReset | .conn .done => 1
  | .disc .wiped | .disc .done => 1
  | _ => 0

/-- What the disconnect has done, by its phase. -/
def DiscInv (h : History) : Phase → Prop
  | .disc .start => wiped h = false ∧ guardEpoch 1 h = none
  | .disc .guarded => wiped h = false
  | .disc .taken => wiped h = false ∧ tookSlot h = true
  | .disc .wiped => wiped h = true
  | .disc .done => wiped h = true ∨ guardEpoch 1 h = none
  | _ => False

/-- Once the slot was taken it is empty; once the session was reset it
is idle, and no pump is of its generation or the next. -/
structure PairInv (g₁ : UInt64) (w : ToolServer) (φ : Nat → Phase)
    (h : History) : Prop where
  conn : ∃ q, φ 0 = .conn q
  disc : DiscInv h (φ 1)
  others : ∀ i, 2 ≤ i → φ i = .other
  generation : GenOf g₁ w.session.inner.generation (epoch h)
  bound : epoch h ≤ (φ 0).resets + (φ 1).resets
  before : wiped h = false → epoch h ≤ (φ 0).resets
  after : wiped h = true → 1 ≤ epoch h ∧ tookSlot h = true
  pumps : ∀ p ∈ w.pumps, Stale g₁ p.2
  stamp : ∀ b g, φ 0 = .conn (.stamped b g) → Stale g₁ g
  slot : tookSlot h = true → w.backend = none
  idle : wiped h = true → w.session.inner.state = .idle

section

variable {g₁ : UInt64} {φ : Nat → Phase} {h : History} {q q' : ConnPhase}
  {β : Type} {op : ToolOp β} {b : β} {a : Answer} {w w' : ToolServer}

/-- What a connect handler's operations are not, and how its resets are
counted. -/
theorem ConnNext.facts (w w' : ToolServer) (hq : ConnNext q op b q') :
    isTake (.act 0 op b w w') = false ∧
    (op.target ≠ none → setsOrStamps (.act 0 op b w w') = true) ∧
    (isReset (.act 0 op b w w') = true →
      (Phase.conn q).resets = 0 ∧ (Phase.conn q').resets = 1) ∧
    (Phase.conn q).resets ≤ (Phase.conn q').resets := by
  cases hq with
  | handshakeOk b op hop | handshakeErr b op hop
  | handshakeCancel b op hop =>
      cases hop <;> exact ⟨rfl, fun hc => (hc rfl).elim, nofun,
        Nat.le_refl 0⟩
  | selectFail | failReset | cancelReset =>
      exact ⟨rfl, fun hc => (hc rfl).elim, fun _ => ⟨rfl, rfl⟩,
        Nat.zero_le 1⟩
  | settle op hs =>
      cases hs with
      | setState st => exact ⟨rfl, fun _ => rfl, nofun, Nat.le_refl 0⟩
      | _ => exact ⟨rfl, fun hc => (hc rfl).elim, nofun, Nat.le_refl 0⟩
  | configure => exact ⟨rfl, fun _ => rfl, nofun, Nat.le_refl 0⟩
  | guardErr => exact ⟨rfl, fun hc => (hc rfl).elim, nofun, Nat.zero_le 1⟩
  | _ =>
      exact ⟨rfl, fun hc => (hc rfl).elim, nofun, Nat.le_refl _⟩

/-- An event of the connect handler that is no take changes neither of
what the disconnect did. -/
theorem DiscInv.cons_conn {p : Phase} {ev : ToolEvent}
    (hd : DiscInv h p) (hw : ev.who ≠ some 1)
    (ht : isTake ev = false) : DiscInv (ev :: h) p := by
  have hwiped : wiped (ev :: h) = wiped h := by
    rw [wiped, List.any_cons, beq_false_of_ne hw, Bool.and_false,
      Bool.false_or]
    rfl
  have htook : tookSlot (ev :: h) = tookSlot h := by
    rw [tookSlot, List.any_cons, ht, Bool.false_or]
    rfl
  have hguard := guardEpoch_cons_other h hw
  cases p with
  | disc p =>
      cases p <;> simp only [DiscInv, hwiped, htook, hguard] at hd ⊢ <;>
        exact hd
  | _ => exact hd

/-- A step of the connect handler. -/
private theorem PairInv.connStep (hI : PairInv g₁ w φ h)
    (hφ : φ 0 = .conn q) (hr : w.run op a = some (b, w'))
    (hq : ConnNext q op b q')
    (hok : ConnectYields h (.act 0 op b w w')) :
    PairInv g₁ w' (Function.update φ 0 (.conn q'))
      (.act 0 op b w w' :: h) := by
  obtain ⟨hinst, hset⟩ := hok rfl
  obtain ⟨htake, htarget, hreset, hmono⟩ := hq.facts w w'
  have hwiped : wiped (.act 0 op b w w' :: h) = wiped h := by
    rw [wiped, List.any_cons]
    simp [Event.who, wiped]
  have htook : tookSlot (.act 0 op b w w' :: h) = tookSlot h := by
    rw [tookSlot, List.any_cons, htake, Bool.false_or]
    rfl
  have hepoch : epoch (.act 0 op b w w' :: h) + (φ 0).resets
      ≤ epoch h + (Phase.conn q').resets := by
    rw [epoch_cons, hφ]
    split
    · obtain ⟨h0, h1⟩ := hreset ‹_›
      omega
    · omega
  have hle := epoch_le_cons (.act 0 op b w w') h
  have hother : ∀ i, i ≠ 0 → Function.update φ 0 (.conn q') i = φ i :=
    fun i hi => Function.update_of_ne hi _ _
  refine ⟨⟨q', Function.update_self _ _ _⟩, ?_, fun i hi => ?_,
    generation_step hI.generation hr, ?_, fun hw => ?_, fun hw => ?_,
    fun p hp => ?_, fun b' g hs => ?_, fun ht => ?_, fun hw => ?_⟩
  · rw [hother 1 (by decide)]
    exact hI.disc.cons_conn nofun htake
  · rw [hother i (by omega)]
    exact hI.others i hi
  · rw [hother 1 (by decide), Function.update_self]
    have := hI.bound
    omega
  · rw [hwiped] at hw
    rw [Function.update_self]
    have := hI.before hw
    omega
  · rw [hwiped] at hw
    rw [htook]
    exact ⟨(hI.after hw).1.trans hle, (hI.after hw).2⟩
  · rw [ToolServer.run_pumps hr, List.mem_append] at hp
    rcases hp with hp | hp
    · exact hI.pumps p hp
    · rw [Option.mem_toList] at hp
      exact hI.stamp _ _ (hφ.trans ((ToolNext.conn hq).spawned hp))
  · -- A snapshot is taken in the first epoch: nothing was reset yet.
    rw [Function.update_self] at hs
    obtain ⟨hinstalled, rfl⟩ := (ToolNext.conn hq).stamped hr hs
    have hnot : wiped h = false := by
      cases hinstalled
      cases hs
      cases hq with
      | stamp => exact hset rfl
    have hzero : epoch h = 0 := by
      have := hI.before hnot
      rw [hφ, hinstalled] at this
      exact Nat.le_zero.mp this
    have hg := hI.generation
    rw [hzero] at hg
    intro e he he2 hge
    exact hg.ne hge (by omega) (by omega) rfl
  · rw [htook] at ht
    have hno : isInstall (.act 0 op b w w') = false := by
      cases hin : isInstall (.act 0 op b w w') with
      | false => rfl
      | true => rw [hinst hin] at ht; cases ht
    rcases backend_step hr hno with ⟨-, hb⟩ | ⟨-, hb⟩
    · exact hb
    · exact hb.trans (hI.slot ht)
  · rw [hwiped] at hw
    cases op with
    | inr op =>
        rw [ToolServer.run_inr hr]
        exact hI.idle hw
    | inl op =>
        rw [(ToolServer.run_inl hr).2]
        cases hres : op.isReset with
        | true =>
            cases op with
            | resetInner => rfl
            | _ => cases hres
        | false =>
            rcases op.run_state w.session hres with hs | hs
            · exact hs.trans (hI.idle hw)
            · have hno := hset (htarget (by
                show op.target ≠ none
                rw [hs]
                nofun))
              rw [hno] at hw
              cases hw

/-- A step of another call that writes neither slot nor state. -/
private theorem PairInv.quiet {i : Nat} {p' : Phase}
    (hI : PairInv g₁ w φ h) (a : Answer) (hi : i ≠ 0)
    (hr : w.run op a = some (b, w'))
    (hres : isReset (.act i op b w w') = false)
    (htake : isTake (.act i op b w w') = false)
    (hinst : isInstall (.act i op b w w') = false)
    (htarget : op.target = none) (hspawn : op.spawned = none)
    (hdisc : DiscInv (.act i op b w w' :: h)
      (Function.update φ i p' 1))
    (hothers : ∀ j, 2 ≤ j → Function.update φ i p' j = .other)
    (hmono : (φ 1).resets ≤ (Function.update φ i p' 1).resets) :
    PairInv g₁ w' (Function.update φ i p') (.act i op b w w' :: h) := by
  have h0 : Function.update φ i p' 0 = φ 0 :=
    Function.update_of_ne hi.symm _ _
  have hwiped : wiped (.act i op b w w' :: h) = wiped h := by
    rw [wiped, List.any_cons, hres]
    rfl
  have htook : tookSlot (.act i op b w w' :: h) = tookSlot h := by
    rw [tookSlot, List.any_cons, htake]
    rfl
  have hepoch : epoch (.act i op b w w' :: h) = epoch h := by
    rw [epoch_cons, hres]
    rfl
  refine ⟨h0 ▸ hI.conn, hdisc, hothers,
    generation_step hI.generation hr, ?_, ?_, ?_, ?_, ?_, ?_, ?_⟩
  · rw [hepoch, h0]
    exact hI.bound.trans (Nat.add_le_add_left hmono _)
  · rw [hepoch, h0, hwiped]
    exact hI.before
  · rw [hepoch, hwiped, htook]
    exact hI.after
  · rw [ToolServer.run_pumps hr, hspawn, Option.toList_none,
      List.append_nil]
    exact hI.pumps
  · rw [h0]
    exact hI.stamp
  · rw [htook]
    intro ht
    rcases backend_step hr hinst with ⟨-, hb⟩ | ⟨-, hb⟩
    · exact hb
    · exact hb.trans (hI.slot ht)
  · rw [hwiped]
    intro hw
    cases op with
    | inr op =>
        rw [ToolServer.run_inr hr]
        exact hI.idle hw
    | inl op =>
        rw [(ToolServer.run_inl hr).2]
        rcases op.run_state w.session hres with hs | hs
        · exact hs.trans (hI.idle hw)
        · have htarget : op.target = none := htarget
          rw [htarget] at hs
          cases hs

/-- A step of the disconnect. -/
private theorem PairInv.discStep {p p' : DiscPhase}
    (hI : PairInv g₁ w φ h) (hφ : φ 1 = .disc p)
    (hr : w.run op a = some (b, w')) (hq : DiscNext p op b p') :
    PairInv g₁ w' (Function.update φ 1 (.disc p'))
      (.act 1 op b w w' :: h) := by
  have hd := hI.disc
  rw [hφ] at hd
  have hself : Function.update φ 1 (.disc p') 1 = .disc p' :=
    Function.update_self _ _ _
  have hothers : ∀ j, 2 ≤ j →
      Function.update φ 1 (Phase.disc p') j = .other := fun j hj => by
    rw [Function.update_of_ne (by omega)]
    exact hI.others j hj
  have h0 : Function.update φ 1 (.disc p') 0 = φ 0 :=
    Function.update_of_ne (by decide) _ _
  cases hq with
  | guardOk =>
      refine hI.quiet a (by decide) hr rfl rfl rfl rfl rfl ?_ hothers ?_
      · rw [hself]
        exact hd.1
      · rw [hself, hφ]
        exact Nat.le_refl 0
  | guardErr e =>
      refine hI.quiet a (by decide) hr rfl rfl rfl rfl rfl ?_ hothers ?_
      · rw [hself]
        exact .inr ((guardEpoch_cons_quiet h rfl).trans hd.2)
      · rw [hself, hφ]
        exact Nat.zero_le 1
  | current b =>
      refine hI.quiet a (by decide) hr rfl rfl rfl rfl rfl ?_ hothers ?_
      · rw [hself]
        exact hd
      · rw [hself, hφ]
  | disconnect b t =>
      refine hI.quiet a (by decide) hr rfl rfl rfl rfl rfl ?_ hothers ?_
      · rw [hself]
        exact hd
      · rw [hself, hφ]
  | name =>
      refine hI.quiet a (by decide) hr rfl rfl rfl rfl rfl ?_ hothers ?_
      · rw [hself]
        exact hd
      · rw [hself, hφ]
  | drop b =>
      refine hI.quiet a (by decide) hr rfl rfl rfl rfl rfl ?_ hothers ?_
      · rw [hself]
        exact hd
      · rw [hself, hφ]
  | drain es =>
      refine hI.quiet a (by decide) hr rfl rfl rfl rfl rfl ?_ hothers ?_
      · rw [hself]
        exact .inl hd
      · rw [hself, hφ]
        exact Nat.le_refl 1
  | take b =>
      have hnot : wiped h = false := hd
      cases hr
      refine ⟨h0 ▸ hI.conn, ?_, hothers, hI.generation, ?_, ?_, ?_,
        hI.pumps, ?_, fun _ => rfl, ?_⟩
      · rw [hself]
        exact ⟨hnot, rfl⟩
      · rw [h0, hself]
        exact (hI.before hnot).trans (Nat.le_add_right _ _)
      · rw [h0]
        exact hI.before
      · intro hw
        exact ⟨(hI.after hw).1, rfl⟩
      · rw [h0]
        exact hI.stamp
      · exact hI.idle
  | reset =>
      obtain ⟨hnot, htook⟩ := hd
      have hepoch : epoch (.act 1 (.inl .resetInner) () w w' :: h)
          = epoch h + 1 := epoch_cons _ _
      have hbefore := hI.before hnot
      have hgen : GenOf g₁ w'.session.inner.generation
          (epoch (.act 1 (.inl .resetInner) () w w' :: h)) :=
        generation_step hI.generation hr
      cases hr
      refine ⟨h0 ▸ hI.conn, ?_, hothers, hgen, ?_, fun hw => ?_,
        fun _ => ⟨?_, htook⟩, hI.pumps, ?_, fun _ => hI.slot htook,
        fun _ => rfl⟩
      · rw [hself]
        exact rfl
      · rw [h0, hself, hepoch]
        exact Nat.add_le_add_right hbefore 1
      · cases hw
      · rw [hepoch]
        exact Nat.le_add_left 1 _
      · rw [h0]
        exact hI.stamp

end

theorem pairInv_inductive (g₁ : UInt64) :
    Inductive toolMachine ToolNext ConnectYields (PairInv g₁) where
  act := by
    intro w w' φ h i β op a b q' hI hr hq hok
    have hr : w.run op a = some (b, w') := hr
    match i with
    | 0 =>
        obtain ⟨q, hφ⟩ := hI.conn
        rw [hφ] at hq
        cases hq with
        | conn hn => exact hI.connStep hφ hr hn hok
    | 1 =>
        have hd := hI.disc
        cases hφ : φ 1 with
        | disc p =>
            rw [hφ] at hq
            cases hq with
            | disc hn => exact hI.discStep hφ hr hn
        | _ =>
            rw [hφ] at hd
            exact hd.elim
    | i + 2 =>
        rw [hI.others (i + 2) (by omega)] at hq
        have h1 : ∀ p : Phase, Function.update φ (i + 2) p 1 = φ 1 :=
          fun p => Function.update_of_ne (by omega) _ _
        have hother : ∀ j, 2 ≤ j →
            Function.update φ (i + 2) .other j = .other := by
          intro j hj
          by_cases hij : j = i + 2
          · rw [hij, Function.update_self]
          · rw [Function.update_of_ne hij]
            exact hI.others j hj
        cases hq <;>
          exact hI.quiet a (by omega) hr rfl rfl rfl rfl rfl
            (by
              rw [h1]
              exact hI.disc.cons_conn (by simp [Event.who]) rfl)
            hother (by rw [h1])
  env := by
    intro w w' φ h e hI he _
    have hle := epoch_le_cons (.env e w w') h
    refine ⟨hI.conn, hI.disc.cons_conn nofun rfl, hI.others,
      generation_env hI.generation he, hI.bound, hI.before, hI.after,
      pumps_env he ▸ hI.pumps, hI.stamp, fun ht => ?_, fun hw => ?_⟩
    · rw [backend_env he]
      exact hI.slot ht
    · -- A pump that could terminate the session would be of its epoch.
      cases delivers_env he with
      | output | stale => exact hI.idle hw
      | @ends _ p hp code heq =>
          have hres : ∀ q : Phase, q.resets ≤ 1 := by
            intro q
            unfold Phase.resets
            split <;> decide
          have hbound := hI.bound
          have h0 := hres (φ 0)
          have h1 := hres (φ 1)
          exact (hI.pumps p (List.mem_of_getElem? hp) (epoch h)
            (hI.after hw).1 (by omega) (heq ▸ hI.generation)).elim

-- =========================================================== the results

/-- The phases the two calls start in. -/
def pairPhase : Nat → Phase
  | 0 => .conn .start
  | 1 => .disc .start
  | _ => .other

theorem pairPool_obeys (host : Host) {c : Call} (hc : c.isConnect = true)
    (args : Args) (w : ToolServer) :
    ∀ i p, (pairPool host c args w).prog i = some p →
      Obeys ToolNext Returned p (pairPhase i) := by
  intro i p hp
  match i, hp with
  | 0, hp =>
      cases Option.some.inj hp
      have h := c.obeys host
      cases c with
      | launch | attach | openCrashDump | attachKernel => exact h
      | _ => cases hc
  | 1, hp =>
      cases Option.some.inj hp
      exact (Call.disconnect args).obeys host
  | i + 2, hp => cases hp

/-- A disconnect against one connect in flight wins: from its return on
the session is idle and the slot is empty, in every run whose connect
handler yields. -/
theorem disconnect_wins {host : Host} {calls : Nat → Call}
    {h₀ : History} {s₀ : Pool ToolOp ToolOutcome ToolServer}
    (hr₀ : ToolRun host calls .new h₀ s₀)
    (hturn : epoch h₀ + 2 < 2 ^ 64) {c : Call}
    (hc : c.isConnect = true) {args : Args} {h : History}
    {s : Pool ToolOp ToolOutcome ToolServer} {o : ToolOutcome}
    (hr : RunIf toolMachine ConnectYields
      (pairPool host c args s₀.world) h s)
    (hret : s.returned 1 = some o) (hguard : guardEpoch 1 h ≠ none) :
    s.world.session.inner.state = .idle ∧ s.world.backend = none := by
  have hinit : PairInv s₀.world.session.inner.generation s₀.world
      pairPhase [] :=
    { conn := ⟨.start, rfl⟩
      disc := ⟨rfl, rfl⟩
      others := fun i hi => by
        match i, hi with
        | i + 2, _ => rfl
      generation := GenOf.zero _
      bound := Nat.zero_le _
      before := fun _ => Nat.zero_le _
      after := fun hw => by cases hw
      pumps := pumps_stale hr₀ hturn
      stamp := fun b g hs => by cases hs
      slot := fun ht => by cases ht
      idle := fun hw => by cases hw }
  obtain ⟨φ, hI, hobey⟩ := hr.invariant (pairInv_inductive _)
    (pairPool_obeys host hc args s₀.world) hinit
  have hdone : Returned (φ 1) o := hobey 1 _ (Pool.prog_of_returned hret)
  have hd := hI.disc
  cases hφ : φ 1 with
  | disc p =>
      rw [hφ] at hd hdone
      cases (show p = .done from hdone)
      have hw : wiped h = true := hd.resolve_right hguard
      exact ⟨hI.idle hw, hI.slot (hI.after hw).2⟩
  | _ =>
      rw [hφ] at hd
      exact hd.elim

/-- A disconnect that lands while the handshake of an attach is pending;
the attach then fails and cleans up. -/
theorem disconnect_wins_handshake :
    ∃ h s, Run toolMachine
        (pairPool lldbHost (.attach ⟨[("pid", .num 7)]⟩) ⟨[]⟩ .new) h s ∧
      (s.returned 0).isSome = true ∧
      s.world.session.inner.state = .idle ∧ s.world.backend = none := by
  obtain ⟨h, s, hr, hm, h0, h1, hg⟩ :=
    exec_witness toolMachine
      (pairPool lldbHost (.attach ⟨[("pid", .num 7)]⟩) ⟨[]⟩ .new)
      (sync 0 2 ++ [.step 0 (.connect (.ok ()))] ++ sync 0 4 ++ sync 1 8
        ++ [.step 0 (.attach (some (.error .closed)))] ++ sync 0 4)
      (fun h s => Meets ConnectYields h ∧ (s.returned 0).isSome = true ∧
        (s.returned 1).isSome = true ∧ guardEpoch 1 h ≠ none)
      (by decide +kernel)
  obtain ⟨o, ho⟩ := Option.isSome_iff_exists.mp h1
  have hstart : ToolRun lldbHost (fun _ => .pause) .new []
      (callPool lldbHost (fun _ => .pause) .new) := .nil
  exact ⟨h, s, hr, h0,
    disconnect_wins hstart (by decide) rfl (.ofMeets hr hm) ho hg⟩

/-- A disconnect that lands during `factory.connect()`: the attach goes
on to install its backend and report a stop, on the session the
disconnect reported disconnected. -/
theorem connect_survives :
    ∃ h s, Run toolMachine
        (pairPool lldbHost (.attach ⟨[("pid", .num 7)]⟩) ⟨[]⟩ .new) h s ∧
      (s.returned 0).isSome = true ∧ (s.returned 1).isSome = true ∧
      guardEpoch 1 h = some 0 ∧
      s.world.session.inner.state = .stopped ∧
      s.world.backend = some 0 :=
  exec_witness toolMachine
    (pairPool lldbHost (.attach ⟨[("pid", .num 7)]⟩) ⟨[]⟩ .new)
    (sync 0 2 ++ sync 1 6 ++ [.step 0 (.connect (.ok ()))] ++ sync 0 4
      ++ [.step 0 (.attach (some (.ok (.stopped entryStop))))]
      ++ sync 0 5)
    (fun h s => (s.returned 0).isSome = true ∧
      (s.returned 1).isSome = true ∧ guardEpoch 1 h = some 0 ∧
      s.world.session.inner.state = .stopped ∧
      s.world.backend = some 0)
    (by decide +kernel)

end DebugMcp
