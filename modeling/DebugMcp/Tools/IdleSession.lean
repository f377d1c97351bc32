/-
Idle sessions, as a sequential client meets them.

A call that runs alone on an idle session must not be disturbed by what
earlier sessions left behind. Two things could: a backend still in the
slot, and a pump whose generation is the current one. `IdleSession` says
there is neither, and `sequential_idle` that every sequential run of
calls from a fresh server, fewer of them than the generation counter can
count, ends in such a session whenever it ends idle.
-/
import DebugMcp.Lib.Alone
import DebugMcp.Tools.History

namespace DebugMcp

open Conc

/-- An idle session between two calls: nothing is connected, and the
pumps there are belong to generations that are over. -/
structure IdleSession (w : ToolServer) : Prop where
  state : w.session.inner.state = .idle
  slot : w.backend = none
  pumps : ∀ p ∈ w.pumps, p.2 ≠ w.session.inner.generation ∧
    p.2 ≠ w.session.inner.generation + 1

-- ======================================================== generations

/-- At most `n` resets so far, and no pump of a generation to come. -/
def Reached (n : Nat) (w : ToolServer) : Prop :=
  ∃ e ≤ n, GenOf 0 w.session.inner.generation e ∧
    ∀ p ∈ w.pumps, ∃ e' ≤ e, GenOf 0 p.2 e'

/-- And none of the current one while the session is idle; then nothing
is connected either. -/
def Rested (n : Nat) (w : ToolServer) : Prop :=
  ∃ e ≤ n, GenOf 0 w.session.inner.generation e ∧
    (∀ p ∈ w.pumps, ∃ e' ≤ e, GenOf 0 p.2 e') ∧
    (w.session.inner.state = .idle →
      w.backend = none ∧ ∀ p ∈ w.pumps, ∃ e' < e, GenOf 0 p.2 e')

section

variable {n : Nat} {w w' : ToolServer}

theorem Rested.reached (h : Rested n w) : Reached n w := by
  obtain ⟨e, he, hg, hp, -⟩ := h
  exact ⟨e, he, hg, hp⟩

theorem Reached.rested (h : Reached n w)
    (hn : w.session.inner.state ≠ .idle) : Rested n w := by
  obtain ⟨e, he, hg, hp⟩ := h
  exact ⟨e, he, hg, hp, fun hi => (hn hi).elim⟩

theorem Rested.succ (h : Rested n w) : Rested (n + 1) w := by
  obtain ⟨e, he, h⟩ := h
  exact ⟨e, Nat.le_succ_of_le he, h⟩

/-- A session that rests short of the counter's turn is idle in earnest
when it is idle. -/
theorem Rested.idle (h : Rested n w) (hturn : n + 1 < 2 ^ 64)
    (hi : w.session.inner.state = .idle) : IdleSession w := by
  obtain ⟨e, he, hg, -, hidle⟩ := h
  obtain ⟨hslot, hpumps⟩ := hidle hi
  refine ⟨hi, hslot, fun p hp => ?_⟩
  obtain ⟨e', hlt, hg'⟩ := hpumps p hp
  exact ⟨(hg'.ne hg hlt (by omega)).symm,
    (hg'.ne hg.succ (by omega) (by omega)).symm⟩

/-- What keeps the generation and the pumps keeps both. -/
theorem Reached.same (h : Reached n w)
    (hg : w'.session.inner.generation = w.session.inner.generation)
    (hp : w'.pumps = w.pumps) : Reached n w' := by
  rw [Reached, hg, hp]
  exact h

theorem Rested.same (h : Rested n w)
    (hg : w'.session.inner.generation = w.session.inner.generation)
    (hp : w'.pumps = w.pumps)
    (hi : w'.session.inner.state = .idle →
      w.session.inner.state = .idle ∧ (w.backend = none →
        w'.backend = none)) : Rested n w' := by
  obtain ⟨e, he, hgen, hpumps, hidle⟩ := h
  refine ⟨e, he, hg ▸ hgen, hp ▸ hpumps, fun hs => ?_⟩
  obtain ⟨hs, hb⟩ := hi hs
  obtain ⟨hslot, hpast⟩ := hidle hs
  exact ⟨hb hslot, hp ▸ hpast⟩

/-- A reset with the slot empty puts the session to rest. -/
theorem Reached.reset (h : Reached n w) (hb : w.backend = none) :
    Rested (n + 1) { w with session := w.session.resetInner } := by
  obtain ⟨e, he, hg, hp⟩ := h
  refine ⟨e + 1, Nat.succ_le_succ he, hg.succ, fun p hp' => ?_,
    fun _ => ⟨hb, fun p hp' => ?_⟩⟩
  · obtain ⟨e', hle, hg'⟩ := hp p hp'
    exact ⟨e', Nat.le_succ_of_le hle, hg'⟩
  · obtain ⟨e', hle, hg'⟩ := hp p hp'
    exact ⟨e', Nat.lt_succ_of_le hle, hg'⟩

end

-- ======================================================= the invariant

/-- A call that entered the session and has not reset it. -/
def Inside (n : Nat) (w : ToolServer) : Prop :=
  Reached n w ∧ w.session.inner.state ≠ .idle

/-- What holds while the pool's one call is in a phase; there were `n`
calls before it. -/
def RestInv (n : Nat) (w : ToolServer) : Phase → Prop
  | .conn .start | .disc .start | .disc .guarded => Rested n w
  | .conn .guarded => Rested n w ∧ w.backend = none
  | .conn .configuring | .conn .failing | .conn (.connected _)
  | .conn .cancelCleared => Inside n w ∧ w.backend = none
  | .conn (.stamped _ g) =>
      Inside n w ∧ g = w.session.inner.generation
  | .conn (.installed _) | .conn (.handshaking _) | .conn .settling
  | .conn .cancelling => Inside n w
  | .disc .taken => Reached n w ∧ w.backend = none
  | _ => Rested (n + 1) w

section

variable {n i : Nat} {w w' : ToolServer} {q q' : Phase} {β : Type}
  {op : ToolOp β} {a : Answer} {b : β} {h : History}

theorem Inside.rested (hI : Inside n w) : Rested (n + 1) w :=
  (hI.1.rested hI.2).succ

/-- An operation that neither resets nor spawns keeps the generation and
the pumps. -/
theorem run_quiet (hr : w.run op a = some (b, w'))
    (hres : isReset (.act i op b w w') = false)
    (hspawn : op.spawned = none) :
    w'.session.inner.generation = w.session.inner.generation ∧
      w'.pumps = w.pumps := by
  constructor
  · cases op with
    | inr op => rw [ToolServer.run_inr hr]
    | inl op =>
        rw [(ToolServer.run_inl hr).2]
        show (op.run w.session).2.inner.generation = _
        have hres : op.isReset = false := hres
        rw [op.run_generation, hres, if_neg Bool.false_ne_true]
  · rw [ToolServer.run_pumps hr, hspawn, Option.toList_none,
      List.append_nil]

/-- An event that neither installs nor empties keeps the slot. -/
theorem run_backend (hr : w.run op a = some (b, w'))
    (hin : isInstall (.act i op b w w') = false)
    (hem : emptiesSlot (.act i op b w w') = false) :
    w'.backend = w.backend := by
  rcases backend_step hr hin with ⟨hc, -⟩ | ⟨-, hb⟩
  · rw [hem] at hc
    cases hc
  · exact hb

/-- A step inside a session stays inside. -/
theorem Inside.step (hI : Inside n w) (hq : ToolNext q op b q')
    (hr : w.run op a = some (b, w'))
    (hres : isReset (.act i op b w w') = false)
    (hspawn : op.spawned = none) : Inside n w' := by
  obtain ⟨hg, hp⟩ := run_quiet hr hres hspawn
  exact ⟨hI.1.same hg hp, state_ne_idle_step hq hr hres hI.2⟩

/-- A step that does not touch the slot keeps a session at rest. -/
theorem Rested.step (hI : Rested n w) (hq : ToolNext q op b q')
    (hr : w.run op a = some (b, w'))
    (hres : isReset (.act i op b w w') = false)
    (hspawn : op.spawned = none)
    (hin : isInstall (.act i op b w w') = false) : Rested n w' := by
  obtain ⟨hg, hp⟩ := run_quiet hr hres hspawn
  refine hI.same hg hp fun hs => ⟨?_, fun hb => ?_⟩
  · by_contra hn
    exact state_ne_idle_step hq hr hres hn hs
  · rcases backend_step hr hin with ⟨-, hb'⟩ | ⟨-, hb'⟩
    · exact hb'
    · exact hb'.trans hb

/-- A guard that passes found an allowed state. -/
theorem checkState_ok {s : SessionManager} {allowed : List State}
    (h : s.checkState allowed = .ok ()) : s.inner.state ∈ allowed := by
  rw [SessionManager.checkState] at h
  by_contra hnot
  rw [if_neg hnot] at h
  cases hs : s.inner.state <;> rw [hs] at h <;> cases h

/-- A connect handler's step keeps the invariant. -/
theorem RestInv.conn {q q' : ConnPhase} (hI : RestInv n w (.conn q))
    (hq : ConnNext q op b q') (hr : w.run op a = some (b, w')) :
    RestInv n w' (.conn q') := by
  have hn : ToolNext (.conn q) op b (.conn q') := .conn hq
  cases hq with
  | guardOk =>
      have hidle : w.session.inner.state = .idle :=
        List.mem_singleton.mp (checkState_ok (ToolServer.run_inl hr).1)
      rw [(ToolServer.run_inl hr).2]
      obtain ⟨e, he, hg, hp, hrest⟩ := hI
      exact ⟨⟨e, he, hg, hp, hrest⟩, (hrest hidle).1⟩
  | guardErr e =>
      exact (Rested.step (i := 0) hI hn hr rfl rfl rfl).succ
  | configure =>
      cases hr
      exact ⟨⟨hI.1.reached, nofun⟩, hI.2⟩
  | flush r | connectErr f e | connectOk f b =>
      refine ⟨hI.1.step (i := 0) hn hr rfl rfl, ?_⟩
      exact (run_backend (i := 0) hr rfl rfl).trans hI.2
  | selectFail | failReset | cancelReset =>
      rw [(ToolServer.run_inl hr).2]
      exact hI.1.1.reset hI.2
  | failDrain es | failClear | failName | cancelDrain es =>
      exact Rested.step (i := 0) hI hn hr rfl rfl rfl
  | install b => exact hI.1.step (i := 0) hn hr rfl rfl
  | name b f => exact Inside.step (i := 0) hI hn hr rfl rfl
  | stamp b g =>
      have hb := (ToolServer.run_inl hr).1
      cases hr
      exact ⟨hI, hb.symm⟩
  | spawn b g =>
      obtain ⟨⟨⟨e, he, hgen, hp⟩, hne⟩, rfl⟩ := hI
      cases hr
      refine ⟨⟨e, he, hgen, fun p hp' => ?_⟩, hne⟩
      rcases List.mem_append.mp hp' with hp' | hp'
      · exact hp p hp'
      · cases List.mem_singleton.mp hp'
        exact ⟨e, Nat.le_refl e, hgen⟩
  | handshakeOk b op hop o | handshakeErr b op hop e
  | handshakeCancel b op hop =>
      refine Inside.step (i := 0) hI hn hr rfl ?_
      cases hop <;> rfl
  | cancelClear =>
      refine ⟨Inside.step (i := 0) hI hn hr rfl rfl, ?_⟩
      cases hr
      rfl
  | cancelName =>
      refine ⟨hI.1.step (i := 0) hn hr rfl rfl, ?_⟩
      exact (run_backend (i := 0) hr rfl rfl).trans hI.2
  | settle op hs x =>
      refine Inside.step (i := 0) hI hn hr ?_ ?_ <;> cases hs <;> rfl

/-- So does a disconnect's. -/
theorem RestInv.disc {q q' : DiscPhase} (hI : RestInv n w (.disc q))
    (hq : DiscNext q op b q') (hr : w.run op a = some (b, w')) :
    RestInv n w' (.disc q') := by
  have hn : ToolNext (.disc q) op b (.disc q') := .disc hq
  cases hq with
  | guardOk | current b | disconnect b t =>
      exact Rested.step (i := 0) hI hn hr rfl rfl rfl
  | guardErr e =>
      exact (Rested.step (i := 0) hI hn hr rfl rfl rfl).succ
  | take b =>
      obtain ⟨hg, hp⟩ := run_quiet (i := 0) hr rfl rfl
      refine ⟨(Rested.reached hI).same hg hp, ?_⟩
      cases hr
      rfl
  | name | drop b =>
      obtain ⟨hg, hp⟩ := run_quiet (i := 0) hr rfl rfl
      refine ⟨hI.1.same hg hp, ?_⟩
      exact (run_backend (i := 0) hr rfl rfl).trans hI.2
  | reset =>
      rw [(ToolServer.run_inl hr).2]
      exact hI.1.reset hI.2
  | drain es => exact Rested.step (i := 0) hI hn hr rfl rfl rfl

/-- The other handlers neither reset, nor connect, nor install. -/
theorem RestInv.plain (hI : Rested (n + 1) w) (hq : ToolNext q op b q')
    (hr : w.run op a = some (b, w'))
    (hplain : (∃ p, q = .res p) ∨ (∃ p, q = .bp p) ∨ q = .other) :
    Rested (n + 1) w' := by
  have hop : isReset (.act 0 op b w w') = false ∧ op.spawned = none ∧
      isInstall (.act 0 op b w w') = false := by
    rcases hplain with ⟨p, rfl⟩ | ⟨p, rfl⟩ | rfl
    · cases hq with
      | res hq =>
          cases hq with
          | cancelled g op hop | err g op hop e | stop g op hop info
          | exit g op hop code | terminate g op hop =>
              cases hop <;> exact ⟨rfl, rfl, rfl⟩
          | _ => exact ⟨rfl, rfl, rfl⟩
    · cases hq with
      | bp hq => cases hq <;> exact ⟨rfl, rfl, rfl⟩
    · cases hq <;> exact ⟨rfl, rfl, rfl⟩
  exact hI.step (i := 0) hq hr hop.1 hop.2.1 hop.2.2

/-- A pump keeps the invariant: it never makes the session idle. -/
theorem RestInv.env {e : EnvMove} (hI : RestInv n w q)
    (he : w.envMove e = some w') : RestInv n w' q := by
  have hg := generation_of_env he
  have hp := pumps_env he
  have hb := backend_env he
  have hrest : ∀ {n}, Rested n w → Rested n w' := by
    intro n h
    refine h.same hg hp fun hs => ⟨?_, fun hnone => hb.trans hnone⟩
    by_contra hn
    exact state_ne_idle_env he hn hs
  have hin : Inside n w → Inside n w' := fun h =>
    ⟨h.1.same hg hp, state_ne_idle_env he h.2⟩
  cases q with
  | conn q =>
      cases q with
      | start | failReset | failDrained | failCleared | cancelReset
      | done => exact hrest hI
      | guarded => exact ⟨hrest hI.1, hb.trans hI.2⟩
      | configuring | failing | connected b | cancelCleared =>
          exact ⟨hin hI.1, hb.trans hI.2⟩
      | stamped b g => exact ⟨hin hI.1, hI.2.trans hg.symm⟩
      | installed b | handshaking b | settling | cancelling =>
          exact hin hI
  | disc q =>
      cases q with
      | taken => exact ⟨hI.1.same hg hp, hb.trans hI.2⟩
      | _ => exact hrest hI
  | _ => exact hrest hI

/-- Every step of a call keeps the invariant of its phase. -/
theorem RestInv.step (hI : RestInv n w q) (hq : ToolNext q op b q')
    (hr : w.run op a = some (b, w')) : RestInv n w' q' := by
  cases hq with
  | conn hq => exact hI.conn hq hr
  | disc hq => exact hI.disc hq hr
  | res hq => exact RestInv.plain hI (.res hq) hr (.inl ⟨_, rfl⟩)
  | bp hq => exact RestInv.plain hI (.bp hq) hr (.inr (.inl ⟨_, rfl⟩))
  | otherGuard st r =>
      exact RestInv.plain hI (.otherGuard st r) hr (.inr (.inr rfl))
  | otherCurrent b =>
      exact RestInv.plain hI (.otherCurrent b) hr (.inr (.inr rfl))
  | otherPause b r =>
      exact RestInv.plain hI (.otherPause b r) hr (.inr (.inr rfl))
  | otherDrain es =>
      exact RestInv.plain hI (.otherDrain es) hr (.inr (.inr rfl))
  | otherList r =>
      exact RestInv.plain hI (.otherList r) hr (.inr (.inr rfl))

end

-- =========================================================== the result

/-- What holds in the last phase of a call holds after it. -/
theorem RestInv.rested {n : Nat} {w : ToolServer} {q : Phase}
    {o : ToolOutcome} (hI : RestInv n w q) (hq : Returned q o) :
    Rested (n + 1) w := by
  cases q with
  | conn q =>
      cases q with
      | start => exact Rested.succ hI
      | guarded => exact hI.1.succ
      | configuring | failing | connected | cancelCleared | stamped =>
          exact hI.1.rested
      | installed | handshaking | settling | cancelling =>
          exact Inside.rested hI
      | _ => exact hI
  | disc q =>
      cases hq
      exact hI
  | _ => exact hI

/-- One call more. -/
theorem rested_call {host : Host} {c : Call} {n : Nat} {w : ToolServer}
    {h : History} {s : Pool ToolOp ToolOutcome ToolServer}
    {o : ToolOutcome} (hw : Rested n w)
    (hr : Run toolMachine (solo (c.prog host) w) h s)
    (ho : s.returned 0 = some o) : Rested (n + 1) s.world := by
  have hends : Ensures toolMachine (fun _ _ => True)
      (fun o w _ => ∃ q, Returned q o ∧ RestInv n w q) (c.prog host)
      (fun w _ => RestInv n w c.phase₀) :=
    .ofObeys (J := fun q w _ => RestInv n w q)
      (fun q _ _ _ _ hI he _ => hI.env he)
      (fun hq _ _ _ _ hI hr _ => hI.step hq hr) (c.obeys host)
  have hinit : RestInv n w c.phase₀ := by
    cases c <;> first | exact hw | exact hw.succ
  obtain ⟨q, hq, hI⟩ :=
    hends.sound (fun _ _ _ _ hI he _ => hI.env he) hinit hr ho
  exact hI.rested hq

/-- After every sequential run of calls from a fresh server, fewer than
the generation counter can count, an idle session is idle in earnest. -/
theorem sequential_idle (host : Host) {cs : List Call} {w : ToolServer}
    (hr : SeqRun toolMachine (fun _ _ => True) (Call.prog host) .new cs w)
    (hturn : cs.length + 1 < 2 ^ 64)
    (hi : w.session.inner.state = .idle) : IdleSession w := by
  have hrest : Rested cs.length w := by
    clear hturn hi
    induction hr with
    | nil =>
        exact ⟨0, Nat.le_refl 0, .zero 0,
          fun p hp => (List.not_mem_nil hp).elim,
          fun _ => ⟨rfl, fun p hp => (List.not_mem_nil hp).elim⟩⟩
    | call _ c hr ho ih => exact rested_call ih hr ho
  exact hrest.idle hturn hi

end DebugMcp
