/-
A launch that fails.

`launch` moves the pending breakpoints into the active lists before it
selects a backend, and every failure from there on goes through `reset`,
which clears all session state, the breakpoints with it. Only a launch
refused for its arguments returns before the move.

# Result

`failed_launch_exact`: a launch that runs alone on an idle session and
returns an error leaves the session idle and the slot empty. The pending
breakpoints are as they were if and only if its arguments were refused or
nothing was pending, and none are left of a launch that got further.
`failed_launch_forgets` is a launch whose connect fails.
-/
import DebugMcp.Tools.IdleSession

namespace DebugMcp

open Conc

-- ============================================================= pending

/-- The breakpoints buffered for the next launch. -/
def SessionManager.pending (s : SessionManager) :
    SourceMap × List FunctionBp :=
  (s.inner.pendingSourceBps, s.inner.pendingFunctionBps)

/-- The session is idle, nothing is installed, and the breakpoints
pending in `w₀` still are. -/
def LeftAsFound (w₀ w : ToolServer) : Prop :=
  w.session.inner.state = .idle ∧ w.backend = none ∧
    w.session.pending = w₀.session.pending

-- =========================================================== assertions

/-- The call has changed nothing yet. -/
def Before (w₀ : ToolServer) : Assertion ToolOp EnvMove ToolServer :=
  fun w _ => w.session.inner = w₀.session.inner ∧ w.backend = none ∧
    w.pumps = w₀.pumps

/-- No reset so far, and no pump of the generation the next one
starts. -/
def Unreset (w₀ : ToolServer) : Assertion ToolOp EnvMove ToolServer :=
  fun w _ => w.session.inner.generation = w₀.session.inner.generation ∧
    ∀ p ∈ w.pumps, p.2 ≠ w₀.session.inner.generation + 1

/-- The session was reset, and nothing can touch it. -/
def Wiped (w₀ : ToolServer) : Assertion ToolOp EnvMove ToolServer :=
  fun w _ => w.session.inner = { Inner.new with
      generation := w₀.session.inner.generation + 1 } ∧
    ∀ p ∈ w.pumps, p.2 ≠ w₀.session.inner.generation + 1

/-- The session was reset and the slot is empty. -/
def Cleared (w₀ : ToolServer) : Assertion ToolOp EnvMove ToolServer :=
  fun w h => w.backend = none ∧ Wiped w₀ w h

section

variable {w₀ : ToolServer}
  {ok : List ToolEvent → ToolEvent → Prop}

/-- A pump of another generation leaves the session's record. -/
theorem inner_env {w w' : ToolServer} {e : EnvMove}
    (he : w.envMove e = some w')
    (hp : ∀ p ∈ w.pumps, p.2 ≠ w.session.inner.generation) :
    w'.session.inner = w.session.inner ∧ w'.backend = w.backend ∧
      w'.pumps = w.pumps := by
  cases delivers_env he with
  | output | stale => exact ⟨rfl, rfl, rfl⟩
  | ends hk code hg =>
      exact absurd hg.symm (hp _ (List.mem_of_getElem? hk))

theorem before_stable (hidle : IdleSession w₀) :
    Stable toolMachine ok (Before w₀) := by
  intro w w' h e hw he _
  obtain ⟨hin, hslot, hpumps⟩ := hw
  obtain ⟨hin', hslot', hpumps'⟩ := inner_env he fun p hp => by
    rw [hin]
    rw [hpumps] at hp
    exact (hidle.pumps p hp).1
  exact ⟨hin'.trans hin, hslot'.trans hslot, hpumps'.trans hpumps⟩

theorem unreset_stable : Stable toolMachine ok (Unreset w₀) := by
  intro w w' h e hw he _
  refine ⟨(generation_of_env he).trans hw.1, ?_⟩
  rw [pumps_env he]
  exact hw.2

theorem wiped_stable : Stable toolMachine ok (Wiped w₀) := by
  intro w w' h e hw he _
  obtain ⟨hin, hpumps⟩ := hw
  obtain ⟨hin', -, hpumps'⟩ := inner_env he fun p hp => by
    rw [hin]
    exact hpumps p hp
  exact ⟨hin'.trans hin, hpumps' ▸ hpumps⟩

/-- An assertion beside an empty slot is as stable as it was. -/
theorem emptied_stable {P : Assertion ToolOp EnvMove ToolServer}
    (hP : Stable toolMachine ok P) :
    Stable toolMachine ok (fun w h => w.backend = none ∧ P w h) := by
  intro w w' h e hw he hok
  exact ⟨(backend_env he).trans hw.1, hP hw.2 he hok⟩

theorem cleared_stable : Stable toolMachine ok (Cleared w₀) :=
  emptied_stable wiped_stable

-- ============================================================ the steps

/-- Does the operation neither reset the session nor spawn a pump? -/
def ToolOp.isQuiet {β : Type} : ToolOp β → Bool
  | .inl op => !op.isReset
  | .inr op => op.spawned.isNone

theorem unreset_op {β : Type} {op : ToolOp β} (b : β)
    (hq : op.isQuiet = true) :
    Leads toolMachine ok (Unreset w₀) op b (Unreset w₀) := by
  intro a w w' h hw hr _
  have hr : w.run op a = some (b, w') := hr
  obtain ⟨hgen, hpumps⟩ := hw
  have hspawn : op.spawned = none := by
    cases op with
    | inl op => rfl
    | inr op => exact Option.isNone_iff_eq_none.mp hq
  refine ⟨?_, ?_⟩
  · cases op with
    | inr op => rw [ToolServer.run_inr hr, hgen]
    | inl op =>
        have hres : op.isReset = false := by
          simpa [ToolOp.isQuiet] using hq
        rw [(ToolServer.run_inl hr).2]
        show (op.run w.session).2.inner.generation = _
        rw [op.run_generation, hres, if_neg Bool.false_ne_true, hgen]
  · rw [ToolServer.run_pumps hr, hspawn, Option.toList_none,
      List.append_nil]
    exact hpumps

theorem unreset_reset :
    Leads toolMachine ok (Unreset w₀) (.inl .resetInner) ()
      (Wiped w₀) := by
  intro a w w' h hw hr _
  cases hr
  refine ⟨?_, hw.2⟩
  show { Inner.new with generation := w.session.inner.generation + 1 } = _
  rw [hw.1]

/-- A failed select or connect, from its reset on. -/
theorem connectFailed_ends {α : Type}
    {Q : α → Assertion ToolOp EnvMove ToolServer} {o : α}
    (hQ : ∀ w h, Cleared w₀ w h → Q o w h) :
    Ensures toolMachine ok Q
      (reset >>= fun _ => clearBackend >>= fun _ =>
        (pure o : ToolProg α)) (Unreset w₀) := by
  refine fun _ => ⟨_, wiped_stable, unreset_reset, fun es =>
    ⟨Wiped w₀, wiped_stable, ?_, fun _ => ⟨Cleared w₀,
      cleared_stable, ?_, fun _ => ⟨Cleared w₀, cleared_stable, ?_,
        hQ⟩⟩⟩⟩
  · intro a w w' h hw hr _
    cases hr
    exact hw
  · intro a w w' h hw hr _
    cases hr
    exact ⟨rfl, hw⟩
  · intro a w w' h hw hr _
    cases hr
    exact hw

/-- A failed or cancelled handshake, from its cleanup on. -/
theorem cleanup_ends {α : Type}
    {Q : α → Assertion ToolOp EnvMove ToolServer} {o : α}
    (hQ : ∀ w h, Cleared w₀ w h → Q o w h) :
    Ensures toolMachine ok Q
      (cleanupAfterCancel >>= fun _ => (pure o : ToolProg α))
      (Unreset w₀) := by
  have hst : Stable toolMachine ok
      (fun w h => w.backend = none ∧ Unreset w₀ w h) :=
    emptied_stable unreset_stable
  refine fun _ => ⟨_, hst, ?_, fun _ => ⟨_, hst, ?_, fun _ =>
    ⟨Cleared w₀, cleared_stable, ?_, fun es => ⟨Cleared w₀,
      cleared_stable, ?_, hQ⟩⟩⟩⟩
  · intro a w w' h hw hr _
    cases hr
    exact ⟨rfl, hw⟩
  · intro a w w' h hw hr _
    cases hr
    exact hw
  · intro a w w' h hw hr hok
    have hslot : w'.backend = none := by
      cases hr
      exact hw.1
    exact ⟨hslot, unreset_reset hw.2 hr hok⟩
  · intro a w w' h hw hr _
    cases hr
    exact hw

/-- No generation is the next one. -/
theorem generation_ne_succ (g : UInt64) : g ≠ g + 1 := by
  intro h
  have hn := congrArg UInt64.toNat h
  rw [UInt64.toNat_add, show (1 : UInt64).toNat = 1 from rfl] at hn
  have hlt := g.toNat_lt
  omega

/-- The connect section fails with everything cleared, or hands out a
backend. -/
theorem connectSection_ends (registry : Registry)
    (requested : Option String) (unknown : String → String) :
    Ensures toolMachine ok
      (fun r w h => match r with
        | .error _ => Cleared w₀ w h
        | .ok _ => Unreset w₀ w h)
      (connectSection registry requested unknown) (Unreset w₀) := by
  unfold connectSection
  cases registry.select requested with
  | error e => exact connectFailed_ends fun _ _ hw => hw
  | ok factory =>
      refine fun r => ⟨_, unreset_stable, unreset_op r rfl, ?_⟩
      cases r with
      | error e => exact connectFailed_ends fun _ _ hw => hw
      | ok b =>
          refine fun _ => ⟨_, unreset_stable, unreset_op _ rfl, fun _ =>
            ⟨_, unreset_stable, unreset_op _ rfl, ?_⟩⟩
          refine Ensures.learn
            (fun g => g = w₀.session.inner.generation) unreset_stable
            (fun g a w w' h hw hr hok => ⟨?_, unreset_op g rfl hw hr hok⟩)
            fun g hg => ?_
          · rw [← (ToolServer.run_inl (a := a) hr).1]
            exact hw.1
          · refine fun _ => ⟨Unreset w₀, unreset_stable, ?_,
              fun _ _ hw => hw⟩
            intro a w w' h hw hr _
            cases hr
            refine ⟨hw.1, fun p hp => ?_⟩
            rcases List.mem_append.mp hp with hp | hp
            · exact hw.2 p hp
            · cases List.mem_singleton.mp hp
              rw [hg]
              exact generation_ne_succ _

/-- What a launch that passed its argument checks may end in. -/
def LaunchEnd (w₀ : ToolServer) (o : ToolOutcome) :
    Assertion ToolOp EnvMove ToolServer :=
  fun w h => o.isError = true → Cleared w₀ w h

/-- A part of a handler that returns no error. -/
theorem noError_bind {β : Type} {op : ToolOp β}
    {k : β → ToolProg ToolOutcome}
    (hk : ∀ x, Ensures toolMachine ok (LaunchEnd w₀) (k x)
      (fun _ _ => True)) :
    Ensures toolMachine ok (LaunchEnd w₀) (Prog.perform op >>= k)
      (fun _ _ => True) :=
  .keep (fun _ _ _ _ hw _ _ => hw) (fun _ _ _ _ _ hw _ _ => hw) hk

theorem launchSettled_ends (program : String) (b : BackendId)
    (outcome : LaunchOutcome) :
    Ensures toolMachine ok (LaunchEnd w₀)
      (launchSettled program b outcome) (fun _ _ => True) := by
  refine noError_bind fun _ => noError_bind fun p => ?_
  have hrecord : Ensures toolMachine ok (fun (_ : Unit) _ _ => True)
      (recordPid p) (fun _ _ => True) := by
    cases p with
    | none => exact fun _ _ _ => trivial
    | some pid =>
        exact fun _ => ⟨fun _ _ => True, fun _ _ _ _ hw _ _ => hw,
          fun _ _ _ _ hw _ _ => hw, fun _ _ _ => trivial⟩
  refine hrecord.bind fun _ => noError_bind fun pid => ?_
  cases outcome with
  | stopped info =>
      exact noError_bind fun _ => noError_bind fun _ _ _ _ herr =>
        nomatch herr
  | running => exact noError_bind fun _ _ _ _ herr => nomatch herr
  | exited code => exact noError_bind fun _ _ _ _ herr => nomatch herr

theorem launchConfigured_ends (registry : Registry) (backend : String)
    (spec : LaunchSpec) :
    Ensures toolMachine ok (LaunchEnd w₀)
      (launchConfigured registry backend spec) (Unreset w₀) := by
  refine fun _ => ⟨_, unreset_stable, unreset_op _ rfl, fun bps =>
    ⟨_, unreset_stable, unreset_op bps rfl, ?_⟩⟩
  refine (connectSection_ends registry _ _).bind fun r => ?_
  cases r with
  | error outcome => exact fun w h hw _ => hw
  | ok c =>
      obtain ⟨factory, b⟩ := c
      refine fun o => ⟨_, unreset_stable, unreset_op o rfl, ?_⟩
      match o with
      | none => exact cleanup_ends fun _ _ hw _ => hw
      | some (.error e) => exact cleanup_ends fun _ _ hw _ => hw
      | some (.ok outcome) =>
          exact (launchSettled_ends spec.program b outcome).pre
            fun _ _ _ => trivial

/-- A launch whose arguments are refused has changed nothing. -/
theorem refusedLaunch_ends (registry : Registry) (text : JsonText)
    (args : Args) (hidle : IdleSession w₀)
    (hrefused : refusesLaunch text args = true) :
    Ensures toolMachine ok (fun _ => Before w₀)
      (handleLaunch registry text args) (Before w₀) := by
  have hkept : ∀ r, Leads toolMachine ok (Before w₀)
      (.inl (.checkState [.idle])) r (Before w₀) := by
    intro r a w w' h hw hr _
    cases hr
    exact hw
  refine fun r => ⟨_, before_stable hidle, hkept r, ?_⟩
  cases r with
  | error e => exact fun _ _ hw => hw
  | ok u =>
      rw [refusesLaunch] at hrefused
      dsimp only
      cases hp : args.requireString "program" with
      | error e => exact fun _ _ hw => hw
      | ok program =>
          cases ha : args.parseJsonArray text "args" with
          | error e => exact fun _ _ hw => hw
          | ok programArgs =>
              dsimp only
              cases he : args.parseJsonObject text "env" with
              | error e => exact fun _ _ hw => hw
              | ok env =>
                  rw [hp, ha, he] at hrefused
                  cases hrefused

/-- A launch whose arguments are accepted, and that fails, has cleared
everything. -/
theorem acceptedLaunch_ends (registry : Registry) (text : JsonText)
    (args : Args) (hidle : IdleSession w₀)
    (haccepted : refusesLaunch text args = false) :
    Ensures toolMachine ok (LaunchEnd w₀)
      (handleLaunch registry text args) (Before w₀) := by
  refine Ensures.learn (fun r => r = .ok ()) (before_stable hidle)
    (fun r a w w' h hw hr hok => ?_) fun r hok => ?_
  · have hin : w.session.inner = w₀.session.inner := hw.1
    have hstate : w.session.inner.state = .idle := by
      rw [hin, hidle.state]
    have hb := (ToolServer.run_inl (a := a) hr).1
    cases hr
    refine ⟨?_, hw⟩
    show w.session.checkState [.idle] = _
    rw [SessionManager.checkState, hstate]
    rfl
  · subst hok
    rw [refusesLaunch] at haccepted
    dsimp only
    cases hp : args.requireString "program" with
    | error e =>
        rw [hp] at haccepted
        cases haccepted
    | ok program =>
        cases ha : args.parseJsonArray text "args" with
        | error e =>
            rw [hp, ha] at haccepted
            cases haccepted
        | ok programArgs =>
            dsimp only
            cases he : args.parseJsonObject text "env" with
            | error e =>
                rw [hp, ha, he] at haccepted
                cases haccepted
            | ok env =>
                refine (launchConfigured_ends _ _ _).pre
                  fun w h hw => ?_
                obtain ⟨hin, -, hpumps⟩ := hw
                refine ⟨by rw [hin], fun p hp => ?_⟩
                rw [hpumps] at hp
                exact (hidle.pumps p hp).2

end

-- =========================================================== the results

/-- A launch that runs alone on an idle session and returns an error
leaves it idle and the slot empty. It leaves all as it found it if and
only if its arguments were refused, or nothing was pending; otherwise
nothing is pending any more. -/
theorem failed_launch_exact (host : Host) (args : Args) {w : ToolServer}
    (hidle : IdleSession w) {h : History}
    {s : Pool ToolOp ToolOutcome ToolServer} {o : ToolOutcome}
    (hr : Run toolMachine (solo ((Call.launch args).prog host) w) h s)
    (ho : s.returned 0 = some o) (herr : o.isError = true) :
    s.world.session.inner.state = .idle ∧ s.world.backend = none ∧
    (LeftAsFound w s.world ↔
      refusesLaunch host.text args = true ∨
        w.session.pending = (∅, [])) ∧
    (refusesLaunch host.text args = false →
      s.world.session.pending = (∅, [])) := by
  have hbefore : Before w w [] := ⟨rfl, hidle.slot, rfl⟩
  cases hrefused : refusesLaunch host.text args with
  | true =>
      obtain ⟨hin, hslot, -⟩ :=
        (refusedLaunch_ends host.registry host.text args hidle
          hrefused).sound (before_stable hidle) hbefore hr ho
      have hstate : s.world.session.inner.state = .idle := by
        rw [hin, hidle.state]
      have hpend : s.world.session.pending = w.session.pending := by
        rw [SessionManager.pending, hin]
        rfl
      exact ⟨hstate, hslot, iff_of_true ⟨hstate, hslot, hpend⟩ (.inl rfl),
        fun hc => (by cases hc)⟩
  | false =>
      obtain ⟨hslot, hin, -⟩ :=
        (acceptedLaunch_ends host.registry host.text args hidle
          hrefused).sound (before_stable hidle) hbefore hr ho herr
      have hstate : s.world.session.inner.state = .idle := by
        rw [hin]
        rfl
      have hpend : s.world.session.pending = (∅, []) := by
        rw [SessionManager.pending, hin]
        rfl
      refine ⟨hstate, hslot, ?_, fun _ => hpend⟩
      constructor
      · intro hleft
        exact .inr (hleft.2.2.symm.trans hpend)
      · rintro (hc | hnone)
        · cases hc
        · exact ⟨hstate, hslot, hpend.trans hnone.symm⟩

/-- A session with one breakpoint pending. -/
def pendingServer : ToolServer :=
  { ToolServer.new with
    session := SessionManager.new.addPendingSourceBreakpoint "a.c" 3 "" }

/-- A launch without a program. -/
theorem failed_launch_exact_witness :
    ∃ h s o, Run toolMachine
        (solo ((Call.launch ⟨[]⟩).prog lldbHost) pendingServer) h s ∧
      s.returned 0 = some o ∧ o.isError = true ∧
      s.world.session.inner.state = .idle ∧ s.world.backend = none ∧
      (LeftAsFound pendingServer s.world ↔
        refusesLaunch lldbHost.text ⟨[]⟩ = true ∨
          pendingServer.session.pending = (∅, [])) ∧
      (refusesLaunch lldbHost.text ⟨[]⟩ = false →
        s.world.session.pending = (∅, [])) := by
  obtain ⟨h, s, hr, he⟩ := exec_witness toolMachine
    (solo ((Call.launch ⟨[]⟩).prog lldbHost) pendingServer) (sync 0 1)
    (fun _ s => (s.returned 0).any (·.isError) = true)
    (by decide +kernel)
  obtain ⟨o, ho, herr⟩ := (Option.any_eq_true _ _).mp he
  exact ⟨h, s, o, hr, ho, herr, failed_launch_exact lldbHost ⟨[]⟩
    ⟨rfl, rfl, fun p hp => (List.not_mem_nil hp).elim⟩ hr ho herr⟩

/-- A launch of a good program whose connect fails: the pending
breakpoint is gone. -/
theorem failed_launch_forgets :
    ∃ h s o, Run toolMachine
        (solo ((Call.launch ⟨[("program", .str "a")]⟩).prog lldbHost)
          pendingServer) h s ∧
      IdleSession pendingServer ∧ s.returned 0 = some o ∧
      o.isError = true ∧
      pendingServer.session.pending.1.lookup "a.c" = some [⟨3, ""⟩] ∧
      s.world.session.pending.1.lookup "a.c" = none ∧
      ¬ LeftAsFound pendingServer s.world := by
  obtain ⟨h, s, hr, he, hgone⟩ := exec_witness toolMachine
    (solo ((Call.launch ⟨[("program", .str "a")]⟩).prog lldbHost)
      pendingServer)
    (sync 0 3 ++ [.step 0 (.connect (.error (.detect "not found")))]
      ++ sync 0 4)
    (fun _ s => (s.returned 0).any (·.isError) = true ∧
      s.world.session.pending.1.lookup "a.c" = none)
    (by decide +kernel)
  obtain ⟨o, ho, herr⟩ := (Option.any_eq_true _ _).mp he
  refine ⟨h, s, o, hr, ⟨rfl, rfl, fun p hp => (List.not_mem_nil hp).elim⟩,
    ho, herr, rfl, hgone, fun hleft => ?_⟩
  rw [hleft.2.2] at hgone
  cases hgone

end DebugMcp
