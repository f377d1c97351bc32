/-
Runs of the tool server, and what their histories say.

The session's generation is a wrapping counter; a run's *epoch*, the
number of resets in its history, is the number that counter stands for.
`generation_epoch` ties the two: every proof about staleness argues with
epochs and comes down to the counter only here.
-/
import DebugMcp.Tools.Calls

namespace DebugMcp

open Conc

/-- An event of the tool server. -/
abbrev ToolEvent := Event ToolOp EnvMove ToolServer

/-- The history of a run, newest event first. -/
abbrev History := List ToolEvent

/-- The runs of the calls `calls` from `w₀` whose steps meet `ok`. -/
abbrev ToolRunIf (host : Host) (calls : Nat → Call) (w₀ : ToolServer)
    (ok : History → ToolEvent → Prop) :
    History → Pool ToolOp ToolOutcome ToolServer → Prop :=
  RunIf toolMachine ok (callPool host calls w₀)

/-- All runs of the calls `calls` from `w₀`. -/
abbrev ToolRun (host : Host) (calls : Nat → Call) (w₀ : ToolServer) :
    History → Pool ToolOp ToolOutcome ToolServer → Prop :=
  Run toolMachine (callPool host calls w₀)

section

variable {host : Host} {calls : Nat → Call} {w₀ : ToolServer}
  {ok : History → ToolEvent → Prop}
  {I : ToolServer → (Nat → Phase) → History → Prop} {h : History}
  {s : Pool ToolOp ToolOutcome ToolServer}

/-- The induction principle for runs of tool calls. -/
theorem toolRun_invariant (hI : Inductive toolMachine ToolNext ok I)
    (hinit : I w₀ (fun i => (calls i).phase₀) [])
    (hr : ToolRunIf host calls w₀ ok h s) :
    ∃ φ, I s.world φ h ∧
      ∀ i p, s.prog i = some p → Obeys ToolNext Returned p (φ i) :=
  hr.invariant hI
    (fun i _ hp => Option.some.inj hp ▸ (calls i).obeys host) hinit

/-- The last event of a run, when it is call `i`'s: an operation its
protocol allows, performed in a state where the invariant holds. -/
theorem toolRun_last (hI : Inductive toolMachine ToolNext ok I)
    (hinit : I w₀ (fun i => (calls i).phase₀) []) {ev : ToolEvent}
    {i : Nat} (hr : ToolRunIf host calls w₀ ok (ev :: h) s)
    (hi : ev.who = some i) :
    ∃ (φ : Nat → Phase) (w : ToolServer) (β : Type) (op : ToolOp β)
      (a : Answer) (b : β) (q' : Phase),
      ev = .act i op b w s.world ∧ w.run op a = some (b, s.world) ∧
      ToolNext (φ i) op b q' ∧ I w φ h ∧ ok h ev := by
  cases hr with
  | snoc hr hs hok =>
      obtain ⟨φ, hφ, hobey⟩ := toolRun_invariant hI hinit hr
      cases hs with
      | @act j β op k a b w' hp hrun =>
          cases Option.some.inj hi
          obtain ⟨q', hq, -⟩ := hobey i _ hp b
          exact ⟨φ, _, β, op, a, b, q', rfl, hrun, hq, hφ, hok⟩
      | env _ => cases hi

end

-- ============================================== what operations change

/-- Is the operation the first half of `reset`? -/
def SessionOp.isReset {β : Type} : SessionOp β → Bool
  | .resetInner => true
  | _ => false

/-- The state an operation may set, a reset apart. -/
def SessionOp.target {β : Type} : SessionOp β → Option State
  | .setState st => some st
  | .setStateIfGeneration _ st => some st
  | .terminateIfGeneration _ _ => some .terminated
  | _ => none

/-- The state a handler's operation may set, a reset apart. -/
def ToolOp.target {β : Type} : ToolOp β → Option State
  | .inl op => op.target
  | .inr _ => none

/-- The pump an operation of the server spawns. -/
def ServerOp.spawned {β : Type} :
    ServerOp β → Option (BackendId × UInt64)
  | .spawnEventPump b g => some (b, g)
  | _ => none

/-- The pump a handler's operation spawns. -/
def ToolOp.spawned {β : Type} : ToolOp β → Option (BackendId × UInt64)
  | .inl _ => none
  | .inr op => op.spawned

/-- The generation moves only at a reset. -/
theorem SessionOp.run_generation {β : Type} (op : SessionOp β)
    (s : SessionManager) :
    (op.run s).2.inner.generation
      = if op.isReset then s.inner.generation + 1
        else s.inner.generation := by
  cases op with
  | setStateIfGeneration g st =>
      simp only [SessionOp.run, SessionManager.setStateIfGeneration]
      split <;> rfl
  | terminateIfGeneration g code =>
      simp only [SessionOp.run, SessionManager.terminateIfGeneration]
      split <;> rfl
  | removeBreakpointById id =>
      simp only [SessionOp.run, SessionManager.removeBreakpointById]
      split
      · rfl
      · split <;> rfl
  | _ => rfl

/-- The state stays, or becomes the operation's target. -/
theorem SessionOp.run_state {β : Type} (op : SessionOp β)
    (s : SessionManager) (h : op.isReset = false) :
    (op.run s).2.inner.state = s.inner.state ∨
      op.target = some (op.run s).2.inner.state := by
  cases op with
  | setState st => exact .inr rfl
  | setStateIfGeneration g st =>
      simp only [SessionOp.run, SessionManager.setStateIfGeneration]
      split
      · exact .inl rfl
      · exact .inr rfl
  | terminateIfGeneration g code =>
      simp only [SessionOp.run, SessionManager.terminateIfGeneration]
      split
      · exact .inl rfl
      · exact .inr rfl
  | resetInner => cases h
  | removeBreakpointById id =>
      simp only [SessionOp.run, SessionManager.removeBreakpointById]
      split
      · exact .inl rfl
      · split <;> exact .inl rfl
  | _ => exact .inl rfl

/-- An await changes nothing of the server. -/
theorem map_pair_snd {β γ : Type} {o : Option β} {w w' : γ}
    {b : β} (h : o.map (·, w) = some (b, w')) : w' = w := by
  obtain ⟨x, -, hx⟩ := Option.map_eq_some_iff.mp h
  exact (congrArg Prod.snd hx).symm

/-- A server operation leaves the session alone. -/
theorem ToolServer.runServer_session {β : Type} {op : ServerOp β}
    {a : Answer} {w w' : ToolServer} {b : β}
    (h : w.runServer op a = some (b, w')) : w'.session = w.session := by
  cases op with
  | connect f =>
      obtain ⟨r, -, hx⟩ := Option.map_eq_some_iff.mp h
      cases r <;> cases hx <;> rfl
  | currentBackend => cases h; rfl
  | setSlot b => cases h; rfl
  | clearSlot => cases h; rfl
  | takeSlot => cases h; rfl
  | setName n => cases h; rfl
  | spawnEventPump b g => cases h; rfl
  | disconnect b t => cases h; rfl
  | dropBackend b => cases h; rfl
  | _ => rw [map_pair_snd h]

/-- A lock section of the session: its answer and its effect. -/
theorem ToolServer.run_inl {β : Type} {op : SessionOp β} {a : Answer}
    {w w' : ToolServer} {b : β} (h : w.run (.inl op) a = some (b, w')) :
    (op.run w.session).1 = b ∧
      w' = { w with session := (op.run w.session).2 } := by
  cases h
  exact ⟨rfl, rfl⟩

/-- A server operation leaves the session alone. -/
theorem ToolServer.run_inr {β : Type} {op : ServerOp β} {a : Answer}
    {w w' : ToolServer} {b : β} (h : w.run (.inr op) a = some (b, w')) :
    w'.session = w.session := runServer_session h

/-- The pumps are those there were, and the one spawned. -/
theorem ToolServer.run_pumps {β : Type} {op : ToolOp β} {a : Answer}
    {w w' : ToolServer} {b : β} (h : w.run op a = some (b, w')) :
    w'.pumps = w.pumps ++ op.spawned.toList := by
  cases op with
  | inl op =>
      rw [(run_inl h).2]
      exact (List.append_nil _).symm
  | inr op =>
      have h : w.runServer op a = some (b, w') := h
      cases op with
      | connect f =>
          obtain ⟨r, -, hx⟩ := Option.map_eq_some_iff.mp h
          cases r <;> cases hx <;> exact (List.append_nil _).symm
      | spawnEventPump b g =>
          cases h
          rfl
      | currentBackend | setSlot | clearSlot | takeSlot | setName
      | disconnect | dropBackend =>
          cases h
          exact (List.append_nil _).symm
      | _ =>
          rw [map_pair_snd h]
          exact (List.append_nil _).symm

-- ============================================================== epochs

/-- Is the event the first half of a `reset`? -/
def isReset : ToolEvent → Bool
  | .act _ (.inl op) _ _ _ => op.isReset
  | _ => false

/-- The number of resets so far. -/
def epoch (h : History) : Nat := h.countP isReset

@[simp] theorem epoch_nil : epoch [] = 0 := rfl

theorem epoch_cons (ev : ToolEvent) (h : History) :
    epoch (ev :: h) = epoch h + if isReset ev then 1 else 0 := by
  rw [epoch, List.countP_cons]
  rfl

theorem epoch_le_cons (ev : ToolEvent) (h : History) :
    epoch h ≤ epoch (ev :: h) := by
  rw [epoch_cons]
  exact Nat.le_add_right _ _

/-- `g` is the generation of epoch `e`, when a run starts at generation
`g₀`. -/
def GenOf (g₀ g : UInt64) (e : Nat) : Prop :=
  g.toNat = (g₀.toNat + e) % 2 ^ 64

theorem GenOf.zero (g₀ : UInt64) : GenOf g₀ g₀ 0 := by
  rw [GenOf, Nat.add_zero, Nat.mod_eq_of_lt g₀.toNat_lt]

theorem GenOf.succ {g₀ g : UInt64} {e : Nat} (h : GenOf g₀ g e) :
    GenOf g₀ (g + 1) (e + 1) := by
  rw [GenOf] at h ⊢
  rw [UInt64.toNat_add, h, show (1 : UInt64).toNat = 1 from rfl]
  omega

/-- Two epochs less than a full turn of the counter apart have different
generations. -/
theorem GenOf.ne {g₀ g g' : UInt64} {e e' : Nat} (h : GenOf g₀ g e)
    (h' : GenOf g₀ g' e') (hlt : e < e') (hturn : e' - e < 2 ^ 64) :
    g' ≠ g := by
  intro heq
  rw [GenOf] at h h'
  subst heq
  omega

/-- One step moves the generation with the epoch. -/
theorem generation_step {w w' : ToolServer} {g₀ : UInt64} {h : History}
    {i : Nat} {β : Type} {op : ToolOp β} {a : Answer} {b : β}
    (hg : GenOf g₀ w.session.inner.generation (epoch h))
    (hr : w.run op a = some (b, w')) :
    GenOf g₀ w'.session.inner.generation
      (epoch (.act i op b w w' :: h)) := by
  rw [epoch_cons]
  cases op with
  | inl op =>
      cases hr
      show GenOf g₀ (op.run w.session).2.inner.generation
        (epoch h + if op.isReset then 1 else 0)
      rw [op.run_generation]
      cases op.isReset with
      | true => exact hg.succ
      | false => exact hg
  | inr op =>
      rw [ToolServer.runServer_session hr]
      exact hg

/-- What a pump does to the server: it appends output, or terminates the
session if that is still of its generation. -/
inductive Delivers (w : ToolServer) : EnvMove → ToolServer → Prop
  | output {k : Nat} {p : BackendId × UInt64} (hp : w.pumps[k]? = some p)
      (c t : String) :
      Delivers w (.pump k (.output c t))
        { w with session := w.session.appendOutput c t }
  | stale {k : Nat} {p : BackendId × UInt64} (hp : w.pumps[k]? = some p)
      (code : Option Int) (hg : w.session.inner.generation ≠ p.2) :
      Delivers w (.pump k (.terminated code)) w
  | ends {k : Nat} {p : BackendId × UInt64} (hp : w.pumps[k]? = some p)
      (code : Option Int) (hg : w.session.inner.generation = p.2) :
      Delivers w (.pump k (.terminated code))
        { w with session := { w.session with inner := { w.session.inner with
            exitCode := code.or w.session.inner.exitCode
            state := .terminated } } }

/-- The environment only delivers. -/
theorem delivers_env {w w' : ToolServer} {e : EnvMove}
    (he : w.envMove e = some w') : Delivers w e w' := by
  cases e with
  | pump k ev =>
      rw [ToolServer.envMove, Option.map_eq_some_iff] at he
      obtain ⟨p, hp, rfl⟩ := he
      cases ev with
      | output c t => exact .output hp c t
      | terminated code =>
          rw [ToolServer.pumpEvent, SessionManager.terminateIfGeneration]
          by_cases hg : w.session.inner.generation = p.2
          · rw [if_neg (not_not_intro hg)]
            exact .ends hp code hg
          · rw [if_pos hg]
            exact .stale hp code hg

/-- A pump spawns none. -/
theorem pumps_env {w w' : ToolServer} {e : EnvMove}
    (he : w.envMove e = some w') : w'.pumps = w.pumps := by
  cases delivers_env he <;> rfl

/-- A pump does not move the generation. -/
theorem generation_of_env {w w' : ToolServer} {e : EnvMove}
    (he : w.envMove e = some w') :
    w'.session.inner.generation = w.session.inner.generation := by
  cases delivers_env he <;> rfl

/-- A pump leaves the slot. -/
theorem backend_env {w w' : ToolServer} {e : EnvMove}
    (he : w.envMove e = some w') : w'.backend = w.backend := by
  cases delivers_env he <;> rfl

/-- A pump connects nothing. -/
theorem nextBackend_env {w w' : ToolServer} {e : EnvMove}
    (he : w.envMove e = some w') : w'.nextBackend = w.nextBackend := by
  cases delivers_env he <;> rfl

/-- A pump moves neither. -/
theorem generation_env {w w' : ToolServer} {g₀ : UInt64} {h : History}
    {e : EnvMove} (hg : GenOf g₀ w.session.inner.generation (epoch h))
    (he : w.envMove e = some w') :
    GenOf g₀ w'.session.inner.generation
      (epoch (.env e w w' :: h)) := by
  rw [generation_of_env he, epoch_cons]
  exact hg

-- ============================================== who did what, and when

/-- The epoch in which call `i` took its first step. -/
def beganAt (i : Nat) : History → Option Nat
  | [] => none
  | ev :: h =>
      (beganAt i h).or (if ev.who = some i then some (epoch h) else none)

/-- No call began in an epoch still to come. -/
theorem beganAt_le {i e : Nat} {h : History} (hb : beganAt i h = some e) :
    e ≤ epoch h := by
  induction h with
  | nil => cases hb
  | cons ev h ih =>
      have hle := epoch_le_cons ev h
      rw [beganAt, Option.or_eq_some_iff] at hb
      rcases hb with hb | ⟨-, hb⟩
      · exact (ih hb).trans hle
      · split at hb
        · cases hb
          exact hle
        · cases hb

/-- The calls whose events since the last reset satisfy `p`, newest
first. -/
def sinceReset (p : ToolEvent → Bool) : History → List Nat
  | [] => []
  | ev :: h =>
      if isReset ev then []
      else (if p ev then ev.who.toList else []) ++ sinceReset p h

section

variable {p : ToolEvent → Bool} {ev : ToolEvent} {h : History}

theorem sinceReset_cons_reset (hr : isReset ev = true) :
    sinceReset p (ev :: h) = [] := if_pos hr

theorem sinceReset_cons_other (hr : isReset ev = false)
    (hp : p ev = false) : sinceReset p (ev :: h) = sinceReset p h := by
  rw [sinceReset, hr, hp]
  rfl

theorem sinceReset_cons_hit {i : Nat} (hr : isReset ev = false)
    (hp : p ev = true) (hi : ev.who = some i) :
    sinceReset p (ev :: h) = i :: sinceReset p h := by
  rw [sinceReset, hr, hp, hi]
  rfl

end

/-- A connect handler sets the state configuring. -/
def isConfigure : ToolEvent → Bool
  | .act _ (.inl (.setState .configuring)) _ _ _ => true
  | _ => false

/-- A connect handler is handed a backend. -/
def isConnect : ToolEvent → Bool
  | .act _ (.inr (.connect _)) (.ok _) _ _ => true
  | _ => false

/-- A backend is put into the slot. -/
def isInstall : ToolEvent → Bool
  | .act _ (.inr (.setSlot _)) _ _ _ => true
  | _ => false

/-- A disconnect takes the backend out of the slot. -/
def isTake : ToolEvent → Bool
  | .act _ (.inr .takeSlot) _ _ _ => true
  | _ => false

/-- The slot is cleared, or its backend taken. -/
def emptiesSlot : ToolEvent → Bool
  | .act _ (.inr .clearSlot) _ _ _ => true
  | .act _ (.inr .takeSlot) _ _ _ => true
  | _ => false

/-- The calls that set the state configuring since the last reset. -/
abbrev entered : History → List Nat := sinceReset isConfigure

/-- The calls that were handed a backend since the last reset. -/
abbrev connected : History → List Nat := sinceReset isConnect

/-- The calls that installed a backend since the last reset. -/
abbrev installed : History → List Nat := sinceReset isInstall

/-- The disconnects that took the slot since the last reset. -/
abbrev taken : History → List Nat := sinceReset isTake

/-- The call that installed the backend last put into the slot. -/
def installer : History → Option Nat
  | [] => none
  | ev :: h => if isInstall ev then ev.who else installer h

/-- Does a state guard succeed in this event? -/
def passesGuard : ToolEvent → Bool
  | .act _ (.inl (.checkState _)) (.ok _) _ _ => true
  | _ => false

/-- The epoch in which call `i` passed its state guard. -/
def guardEpoch (i : Nat) : History → Option Nat
  | [] => none
  | ev :: h =>
      if ev.who = some i ∧ passesGuard ev = true then some (epoch h)
      else guardEpoch i h

theorem guardEpoch_cons_other {i : Nat} {ev : ToolEvent} (h : History)
    (hi : ev.who ≠ some i) : guardEpoch i (ev :: h) = guardEpoch i h :=
  if_neg fun hc => hi hc.1

theorem guardEpoch_cons_quiet {i : Nat} {ev : ToolEvent} (h : History)
    (hq : passesGuard ev = false) :
    guardEpoch i (ev :: h) = guardEpoch i h := by
  refine if_neg fun hc => ?_
  rw [hq] at hc
  cases hc.2

/-- The slot changes only at an install, and when it is emptied. -/
theorem backend_step {i : Nat} {β : Type} {op : ToolOp β} {a : Answer}
    {b : β} {w w' : ToolServer} (hr : w.run op a = some (b, w'))
    (hin : isInstall (.act i op b w w') = false) :
    (emptiesSlot (.act i op b w w') = true ∧ w'.backend = none) ∨
    (emptiesSlot (.act i op b w w') = false ∧
      w'.backend = w.backend) := by
  cases op with
  | inl op =>
      rw [(ToolServer.run_inl hr).2]
      exact .inr ⟨rfl, rfl⟩
  | inr op =>
      have hr : w.runServer op a = some (b, w') := hr
      cases op with
      | connect f =>
          obtain ⟨r, -, hx⟩ := Option.map_eq_some_iff.mp hr
          cases r <;> cases hx <;> exact .inr ⟨rfl, rfl⟩
      | setSlot b => cases hin
      | clearSlot | takeSlot =>
          cases hr
          exact .inl ⟨rfl, rfl⟩
      | currentBackend | setName | spawnEventPump | disconnect
      | dropBackend =>
          cases hr
          exact .inr ⟨rfl, rfl⟩
      | _ =>
          rw [map_pair_snd hr]
          exact .inr ⟨rfl, rfl⟩

-- ======================================================= leaving idle

/-- No handler sets the state idle. -/
theorem ToolNext.target_ne {q q' : Phase} {β : Type} {op : ToolOp β}
    {x : β} {st : State} (hq : ToolNext q op x q')
    (hst : op.target = some st) : st ≠ .idle := by
  cases hq with
  | conn hq =>
      cases hq with
      | configure =>
          cases hst
          nofun
      | settle op hs =>
          cases hs with
          | setState st hne hne' =>
              cases hst
              exact hne
          | _ => cases hst
      | _ => cases hst
  | disc hq => cases hq <;> cases hst
  | res hq =>
      cases hq with
      | run | revert | applied | skipped | exitWrite | terminateWrite =>
          cases hst
          nofun
      | _ => cases hst
  | bp hq => cases hq <;> cases hst
  | _ => cases hst

/-- A session that left idle returns to it only by a reset. -/
theorem state_ne_idle_step {q q' : Phase} {β : Type} {op : ToolOp β}
    {a : Answer} {b : β} {w w' : ToolServer} {i : Nat}
    (hq : ToolNext q op b q') (hr : w.run op a = some (b, w'))
    (hres : isReset (.act i op b w w') = false)
    (hn : w.session.inner.state ≠ .idle) :
    w'.session.inner.state ≠ .idle := by
  cases op with
  | inr op =>
      rw [ToolServer.run_inr hr]
      exact hn
  | inl op =>
      rw [(ToolServer.run_inl hr).2]
      rcases op.run_state w.session hres with hs | hs
      · exact fun hc => hn (hs.symm.trans hc)
      · exact hq.target_ne hs

/-- A pump never returns a session to idle. -/
theorem state_ne_idle_env {w w' : ToolServer} {e : EnvMove}
    (he : w.envMove e = some w') (hn : w.session.inner.state ≠ .idle) :
    w'.session.inner.state ≠ .idle := by
  cases delivers_env he with
  | output | stale => exact hn
  | ends => exact State.noConfusion

-- ===================================================== entered sessions

/-- A session some call entered since the last reset is not idle. -/
def EnteredInv (w : ToolServer) (_ : Nat → Phase) (h : History) : Prop :=
  entered h ≠ [] → w.session.inner.state ≠ .idle

/-- An event that configures leaves the session configuring. -/
theorem isConfigure_post {i : Nat} {β : Type} {op : ToolOp β}
    {a : Answer} {b : β} {w w' : ToolServer}
    (hr : w.run op a = some (b, w'))
    (hc : isConfigure (.act i op b w w') = true) :
    w'.session.inner.state = .configuring := by
  cases op with
  | inr op => cases hc
  | inl op =>
      cases op with
      | setState st =>
          cases st with
          | configuring =>
              rw [(ToolServer.run_inl hr).2]
              rfl
          | _ => cases hc
      | _ => cases hc

theorem enteredInv_inductive
    {ok : History → ToolEvent → Prop} :
    Inductive toolMachine ToolNext ok EnteredInv where
  act := by
    intro w w' φ h i β op a b q' hI hr hq _ hne
    cases hres : isReset (.act i op b w w') with
    | true => exact absurd (sinceReset_cons_reset hres) hne
    | false =>
        cases hc : isConfigure (.act i op b w w') with
        | true =>
            rw [isConfigure_post hr hc]
            nofun
        | false =>
            rw [entered, sinceReset_cons_other hres hc] at hne
            exact state_ne_idle_step hq hr hres (hI hne)
  env := by
    intro w w' φ h e hI he _ hne
    rw [entered, sinceReset_cons_other rfl rfl] at hne
    exact state_ne_idle_env he (hI hne)

/-- In a run, a session some call entered since the last reset is not
idle. -/
theorem entered_not_idle {host : Host} {calls : Nat → Call}
    {w₀ : ToolServer} {ok : History → ToolEvent → Prop} {h : History}
    {s : Pool ToolOp ToolOutcome ToolServer}
    (hr : ToolRunIf host calls w₀ ok h s) (hne : entered h ≠ []) :
    s.world.session.inner.state ≠ .idle := by
  obtain ⟨φ, hI, -⟩ := toolRun_invariant enteredInv_inductive
    (fun hc => absurd rfl hc) hr
  exact hI hne

-- ============================================================ scenarios

/-- A host with the lldb backend registered, for concrete runs. -/
def lldbHost : Host where
  registry := ⟨["lldb"], "lldb", none⟩
  text := ⟨fun _ => .ok [], fun _ => .ok []⟩

/-- A host with WinDbg alone. -/
def winOnlyHost : Host where
  registry := ⟨["windbg"], "windbg", none⟩
  text := ⟨fun _ => .ok [], fun _ => .ok []⟩

/-- A stop on entry. -/
def entryStop : StopInfo := ⟨"entry", 1, "", []⟩

/-- `n` steps of call `i` that answer by themselves. -/
def sync (i n : Nat) : List (Action Answer EnvMove) :=
  List.replicate n (.step i .sync)

/-- Call `i`, a launch, up to its handshake. -/
def launchSteps (i : Nat) : List (Action Answer EnvMove) :=
  sync i 3 ++ [.step i (.connect (.ok ()))] ++ sync i 4

/-- Call `i`, an attach by pid, run to its end: it stops on entry. -/
def attachSteps (i : Nat) : List (Action Answer EnvMove) :=
  sync i 2 ++ [.step i (.connect (.ok ()))] ++ sync i 4
    ++ [.step i (.attach (some (.ok (.stopped entryStop))))] ++ sync i 5

end DebugMcp
