/-
The connects of a session over WinDbg, and its runs.

A connect handler is not known by its protocol alone: what a launch sends
to the engine is what its flush took, and the protocol forgets that. So
the handlers are opened here, down to the handshake: `ConnHeld` says what
holds of a connect for given requests, and `handshake_ends` what the
handshake has to do for the session to be in step after it.

`listed_are_set`: after every sequence of calls the entries that are
verified are breakpoints DbgEng has, and DbgEng has none that is not
asked for.
-/
import DebugMcp.Tools.EngineTable

namespace DebugMcp

open Conc

/-- The requests are tracked, and nothing is listed. -/
structure Configured (reqs : List Request) (s : SessionManager) : Prop where
  entries : s.inner.bpResponses = ∅
  tracked : ∀ r ∈ reqs, r ∈ s.tracked r.column

/-- The session is configured for the requests, and has left idle. -/
def Configuring (reqs : List Request) (w : WinStack) : Prop :=
  Configured reqs w.server.session ∧ w.server.session.inner.state ≠ .idle

/-- What holds while a backend is connected for the requests: the slot is
empty until it is filled with a new backend. -/
def ConnHeld (reqs : List Request) (w : WinStack) : ConnPhase → Prop
  | .start | .guarded => False
  | .configuring | .failing =>
      Configuring reqs w ∧ w.server.backend = none
  | .failReset | .failDrained | .failCleared | .cancelReset =>
      w.server.backend = none ∧ NoTables w.server.session
  | .connected _ =>
      Configuring reqs w ∧ w.server.backend = none ∧ w.windbg = .new
  | .installed _ | .stamped _ _ | .handshaking _ =>
      Configuring reqs w ∧ w.server.backend ≠ none ∧ w.windbg = .new
  | .cancelling | .settling => True
  | .cancelCleared => w.server.backend = none
  | .done => InStep w

-- =============================================================== flushes

/-- What is tracked for a file stays so when files are added. -/
theorem mem_extendFiles {f : String} {bp : SourceBp}
    (files : List (String × List SourceBp)) :
    ∀ {m : SourceMap},
      (bp ∈ m.forFile f ∨ ∃ bps, (f, bps) ∈ files ∧ bp ∈ bps) →
      bp ∈ (SessionManager.extendFiles m files).forFile f := by
  induction files with
  | nil =>
      intro m h
      rcases h with h | ⟨bps, hmem, -⟩
      · exact h
      · cases hmem
  | cons x files ih =>
      obtain ⟨g, cs⟩ := x
      intro m h
      apply ih
      by_cases hf : f = g
      · subst hf
        rw [SourceMap.forFile_modify_self]
        rcases h with h | ⟨bps, hmem, hbp⟩
        · exact .inl (List.mem_append_left _ h)
        · rcases List.mem_cons.mp hmem with he | hmem
          · cases he
            exact .inl (List.mem_append_right _ hbp)
          · exact .inr ⟨bps, hmem, hbp⟩
      · rw [SourceMap.forFile_modify_ne _ _ hf]
        rcases h with h | ⟨bps, hmem, hbp⟩
        · exact .inl h
        · rcases List.mem_cons.mp hmem with he | hmem
          · cases he
            exact absurd rfl hf
          · exact .inr ⟨bps, hmem, hbp⟩

/-- The spec a launch sends after a flush. -/
def LaunchSpec.flushed (spec : LaunchSpec)
    (r : List (String × List SourceBp) × List FunctionBp) : LaunchSpec :=
  { spec with sourceBreakpoints := r.1, functionBreakpoints := r.2 }

/-- A flush leaves tracked what was. -/
theorem tracked_flush {s : SessionManager} {r : Request}
    (h : r ∈ s.tracked r.column) :
    r ∈ s.flushPendingBreakpoints.2.tracked r.column := by
  cases r with
  | source f bp =>
      obtain ⟨bp', hbp, he⟩ := List.mem_map.mp h
      cases he
      exact List.mem_map_of_mem (mem_extendFiles _ (.inl hbp))
  | function bp =>
      obtain ⟨bp', hbp, he⟩ := List.mem_map.mp h
      cases he
      exact List.mem_map_of_mem (List.mem_append_left _ hbp)

/-- What a flush returns is tracked after it. -/
theorem flushed_tracked (s : SessionManager) (spec : LaunchSpec) :
    ∀ r ∈ (spec.flushed s.flushPendingBreakpoints.1).requests,
      r ∈ s.flushPendingBreakpoints.2.tracked r.column := by
  intro r hr
  rcases List.mem_append.mp hr with hr | hr
  · obtain ⟨⟨f, bps⟩, hfile, hr⟩ := List.mem_flatMap.mp hr
    obtain ⟨bp, hbp, rfl⟩ := List.mem_map.mp hr
    exact List.mem_map_of_mem (mem_extendFiles _ (.inr ⟨bps, hfile, hbp⟩))
  · obtain ⟨bp, hbp, rfl⟩ := List.mem_map.mp hr
    exact List.mem_map_of_mem (List.mem_append_right _ hbp)

-- ============================================================= the steps

section

variable {e : EngineModel} {reqs : List Request} {w w' : WinStack}
  {β : Type} {op : ToolOp β} {a : StackAnswer} {x : β}

theorem Untouched.configuring (h : Untouched w w')
    (hc : Configuring reqs w) : Configuring reqs w' := by
  refine ⟨⟨h.tables.table.trans hc.1.entries, fun r hr => ?_⟩,
    fun hidle => hc.2 (h.idle hidle)⟩
  rw [h.tables.columns]
  exact hc.1.tracked r hr

theorem Untouched.connHeld {q : ConnPhase} (h : Untouched w w')
    (hq : ConnHeld reqs w q) : ConnHeld reqs w' q := by
  cases q with
  | start | guarded => cases hq
  | configuring | failing =>
      exact ⟨h.configuring hq.1, h.slot.trans hq.2⟩
  | failReset | failDrained | failCleared | cancelReset =>
      exact ⟨h.slot.trans hq.1, h.empty hq.2⟩
  | connected b =>
      obtain ⟨hc, hb, hnew⟩ := hq
      exact ⟨h.configuring hc, h.slot.trans hb, h.windbg.trans hnew⟩
  | installed b | stamped b g | handshaking b =>
      obtain ⟨hc, hb, hnew⟩ := hq
      exact ⟨h.configuring hc, h.slot ▸ hb, h.windbg.trans hnew⟩
  | cancelling | settling => trivial
  | cancelCleared => exact h.slot.trans hq
  | done => exact h.inStep hq

/-- A connect leaves the session and the slot; the backend it hands out
is new. -/
theorem run_connect {f : String} {r : Except BackendError BackendId}
    (hr : w.run e (.inr (.connect f)) a = some (r, w')) :
    w'.server.session = w.server.session ∧
      w'.server.backend = w.server.backend ∧ w'.windbg = .new := by
  obtain ⟨⟨r', server⟩, hserver, he⟩ := Option.map_eq_some_iff.mp hr
  cases he
  refine ⟨ToolServer.runServer_session hserver, ?_, rfl⟩
  obtain ⟨c, -, hc⟩ := Option.map_eq_some_iff.mp hserver
  have hserver : (w.server.connect c).2 = server := congrArg Prod.snd hc
  rw [← hserver]
  cases c <;> rfl

/-- A step of a connect. -/
theorem connHeld_step {q q' : ConnPhase} (hq : ConnNext q op x q')
    (hH : ConnHeld reqs w q) (hr : w.run e op a = some (x, w')) :
    ConnHeld reqs w' q' := by
  have hquiet : op.spares = true → op.target ≠ some .idle →
      Untouched w w' := untouched_run hr
  cases hq with
  | guardOk | guardErr | configure => cases hH
  | flush r =>
      rw [(WinStack.run_inl hr).2]
      obtain ⟨⟨hc, hstate⟩, hb⟩ := hH
      have htracked := fun r hr => tracked_flush (hc.tracked r hr)
      exact ⟨⟨⟨hc.entries, htracked⟩, hstate⟩, hb⟩
  | selectFail | failReset =>
      rw [(WinStack.run_inl hr).2]
      exact ⟨hH.2, .reset _⟩
  | connectErr f err =>
      obtain ⟨hs, hb, -⟩ := run_connect hr
      refine ⟨?_, hb.trans hH.2⟩
      rw [Configuring, hs]
      exact hH.1
  | connectOk f b =>
      obtain ⟨hs, hb, hnew⟩ := run_connect hr
      refine ⟨?_, hb.trans hH.2, hnew⟩
      rw [Configuring, hs]
      exact hH.1
  | failDrain es => exact (hquiet rfl nofun).connHeld hH
  | failClear =>
      cases hr
      exact ⟨rfl, hH.2⟩
  | failName =>
      have hu := hquiet rfl nofun
      exact (hu.empty hH.2).inStep (hu.slot.trans hH.1)
  | install b =>
      cases hr
      exact ⟨hH.1, Option.some_ne_none b, hH.2.2⟩
  | name b f | stamp b g | spawn b g =>
      exact (hquiet rfl nofun).connHeld hH
  | handshakeOk | handshakeErr | handshakeCancel | settle => trivial
  | cancelClear =>
      cases hr
      rfl
  | cancelName => exact (hquiet rfl nofun).connHeld hH
  | cancelReset =>
      rw [(WinStack.run_inl hr).2]
      exact ⟨hH, .reset _⟩
  | cancelDrain es =>
      have hu := hquiet rfl nofun
      exact (hu.empty hH.2).inStep (hu.slot.trans hH.1)

/-- A section of a connect that has settled leaves it in step. -/
theorem settled_step {q q' : ConnPhase} (hq : ConnNext q op x q')
    (hH : q = .settling ∧ InStep w)
    (hr : w.run e op a = some (x, w')) : q' = .settling ∧ InStep w' := by
  obtain ⟨rfl, hI⟩ := hH
  cases hq with
  | settle op hs x =>
      have hspares : op.spares = true := by
        cases hs <;> rfl
      have hidle : op.target ≠ some .idle := by
        cases hs with
        | setState st hne hne' =>
            intro he
            exact hne (Option.some.inj he)
        | _ => nofun
      exact ⟨rfl, (untouched_run hr hspares hidle).inStep hI⟩

end

-- ========================================================= handshakes

section

variable {e : EngineModel} {reqs : List Request} {w w' : WinStack}
  {a : StackAnswer} {i : Nat} {b : BackendId}

/-- A new backend has no breakpoint. -/
theorem OnEngine.new (cols : Columns) : OnEngine cols ∅ .new where
  consistent := .new
  plain loc r hr := by cases loc <;> cases hr
  wanted hlive := (List.not_mem_nil hlive).elim
  keyed hinfo := nomatch hinfo
  listed hinfo := nomatch hinfo
  counted _ := Nat.zero_le _

/-- A launch that succeeds is the engine's. -/
theorem run_launch {spec : LaunchSpec} {o : LaunchOutcome}
    (hr : w.run e (.inr (.launch b spec)) a = some (some (.ok o), w')) :
    ∃ d', winDbgLaunch e spec w.windbg = (.ok o, d') ∧
      w' = { w with windbg := d' } := by
  have hrun : ∀ {p : Except BackendError LaunchOutcome × WinDbg},
      some (some p.1, { w with windbg := p.2 }) = some (some (.ok o), w') →
      ∃ d', p = (.ok o, d') ∧ w' = { w with windbg := d' } := by
    intro p h
    obtain ⟨out, d⟩ := p
    cases h
    exact ⟨d, rfl, rfl⟩
  obtain ⟨a, d⟩ := a
  cases a with
  | launch r =>
      cases r with
      | none => cases hr
      | some r => exact hrun hr
  | _ => exact hrun hr

/-- A launch that succeeds leaves the session in step if what it sent is
tracked. -/
theorem launch_inStep [e.Fresh] [e.SetsWhole] {spec : LaunchSpec}
    {o : LaunchOutcome}
    (hsent : ∀ r ∈ spec.requests, r ∈ reqs)
    (hH : ConnHeld reqs w (.handshaking b))
    (hr : w.run e (.inr (.launch b spec)) a = some (some (.ok o), w'))
    (hcare : CarefulLaunch e spec) : InStep w' := by
  obtain ⟨⟨hc, hstate⟩, hb, hnew⟩ := hH
  obtain ⟨d', hlaunch, rfl⟩ := run_launch hr
  rw [hnew] at hlaunch
  obtain ⟨hconsistent, hplain, hwanted⟩ := launch_flushed hcare hlaunch
  refine Live.inStep ⟨hb, hstate⟩ fun _ => ?_
  show OnEngine w.server.session.tracked
    w.server.session.inner.bpResponses d'
  rw [hc.entries]
  have hnone := OnEngine.new w.server.session.tracked
  refine ⟨hconsistent, hplain, ?_, hnone.keyed, ?_, hnone.counted⟩
  · intro id loc hlive
    obtain ⟨r, hr, hloc⟩ := hwanted hlive
    exact ⟨r, hc.tracked r (hsent r hr), hloc⟩
  · intro id info hinfo
    cases hinfo

/-- So does any other handshake: the engine has no breakpoint. -/
theorem ConnHeld.quiet (hH : ConnHeld reqs w (.handshaking b))
    (hu : Untouched w w') : InStep w' := by
  obtain ⟨hc, hb, hnew⟩ := hu.connHeld (q := .handshaking b) hH
  refine Live.inStep ⟨hb, hc.2⟩ fun _ => ?_
  rw [hc.1.entries, hnew]
  exact .new _

end

-- ============================================================ handlers

/-- A handler leaves what it finds in step, if no step of it sets a
breakpoint twice. -/
abbrev LeavesInStep (e : EngineModel) (p : ToolProg ToolOutcome)
    (P : WinStack → Prop) : Prop :=
  Ensures (stackMachine e) (fun _ ev => CarefulStep e ev)
    (fun _ w _ => InStep w) p (fun w _ => P w)

section

variable {e : EngineModel} {reqs : List Request} {b : BackendId}

/-- What a pump delivers takes nothing away. -/
theorem connHeld_stable (reqs : List Request) (q : ConnPhase) :
    Stable (stackMachine e) (fun _ ev => CarefulStep e ev)
      (fun w _ => ConnHeld reqs w q) :=
  fun _ _ _ _ hH he _ => (untouched_env he).connHeld hH

/-- A part of a connect that obeys the protocol. -/
theorem connects {α : Type} {R : ConnPhase → α → Prop}
    {p : ToolProg α} {q : ConnPhase} (reqs : List Request)
    (hp : Obeys ConnNext R p q) :
    Ensures (stackMachine e) (fun _ ev => CarefulStep e ev)
      (fun a w _ => ∃ q, R q a ∧ ConnHeld reqs w q) p
      (fun w _ => ConnHeld reqs w q) :=
  .ofObeys (J := fun q w _ => ConnHeld reqs w q) (connHeld_stable reqs)
    (fun hq _ _ _ _ hH hr _ => connHeld_step hq hH hr) hp

/-- The end of a connect whose handshake succeeded. -/
theorem settles {p : ToolProg ToolOutcome}
    (hp : Obeys ConnNext Any p .settling) : LeavesInStep e p InStep := by
  have hends : Ensures (stackMachine e) (fun _ ev => CarefulStep e ev)
      (fun o w _ => ∃ q, Any q o ∧ q = ConnPhase.settling ∧ InStep w) p
      (fun w _ => ConnPhase.settling = .settling ∧ InStep w) :=
    .ofObeys (J := fun (q : ConnPhase) (w : WinStack) _ =>
        q = .settling ∧ InStep w)
      (fun _ _ _ _ _ hH he _ => ⟨hH.1, (untouched_env he).inStep hH.2⟩)
      (fun hq _ _ _ _ hH hr _ => settled_step hq hH hr) hp
  apply (hends.pre fun w _ hI => ⟨rfl, hI⟩).mono
  rintro o w h ⟨q, -, -, hI⟩
  exact hI

/-- The end of a connect whose handshake failed or was cancelled. -/
theorem cleans (outcome : ToolOutcome) :
    LeavesInStep e (cleanupAfterCancel >>= fun _ => pure outcome)
      (fun _ => True) := by
  have hobeys : Obeys ConnNext (fun q _ => q = .done)
      (cleanupAfterCancel >>= fun _ =>
        (pure outcome : ToolProg ToolOutcome)) .cancelling := by
    intro _
    exact ⟨_, .cancelClear, fun _ => ⟨_, .cancelName, fun _ =>
      ⟨_, .cancelReset, fun es => ⟨_, .cancelDrain es, rfl⟩⟩⟩⟩
  apply (connects [] hobeys).mono
  rintro o w h ⟨q, rfl, hI⟩
  exact hI

/-- The handshake of a connect, and what comes after it. -/
theorem handshake_ends {γ : Type}
    {op : ServerOp (Option (Except BackendError γ))}
    {k : Option (Except BackendError γ) → ToolProg ToolOutcome}
    (hop : ∀ {o : γ} {a : StackAnswer} {w w' : WinStack},
      ConnHeld reqs w (.handshaking b) →
      w.run e (.inr op) a = some (some (.ok o), w') →
      CarefulStep e (.act 0 (.inr op) (some (.ok o)) w w') → InStep w')
    (hnone : ∃ outcome,
      k none = cleanupAfterCancel >>= fun _ => pure outcome)
    (herr : ∀ err, ∃ outcome, k (some (.error err))
      = cleanupAfterCancel >>= fun _ => pure outcome)
    (hok : ∀ o, Obeys ConnNext Any (k (some (.ok o))) .settling) :
    LeavesInStep e (server op >>= k)
      (fun w => ConnHeld reqs w (.handshaking b)) := by
  have hcleans : ∀ {r : Option (Except BackendError γ)},
      (∃ outcome, k r = cleanupAfterCancel >>= fun _ => pure outcome) →
      LeavesInStep e (k r) (fun _ => True) := by
    rintro r ⟨outcome, hk⟩
    rw [hk]
    exact cleans outcome
  intro r
  match r with
  | none =>
      exact ⟨fun _ _ => True, fun _ _ _ _ _ _ _ => trivial,
        fun _ _ _ _ _ _ _ => trivial, hcleans hnone⟩
  | some (.error err) =>
      exact ⟨fun _ _ => True, fun _ _ _ _ _ _ _ => trivial,
        fun _ _ _ _ _ _ _ => trivial, hcleans (herr err)⟩
  | some (.ok o) =>
      exact ⟨fun w _ => InStep w,
        fun _ _ _ _ hI he _ => (untouched_env he).inStep hI,
        fun _ _ _ _ hH hr hcare => hop hH hr hcare, settles (hok o)⟩

/-- The connect section, and the handshake after it. -/
theorem connect_ends {registry : Registry} {requested : Option String}
    {unknown : String → String}
    {k : Except ToolOutcome (String × BackendId) → ToolProg ToolOutcome}
    (herr : ∀ outcome, k (.error outcome) = pure outcome)
    (hk : ∀ f b, LeavesInStep e (k (.ok (f, b)))
      (fun w => ConnHeld reqs w (.handshaking b))) :
    LeavesInStep e (connectSection registry requested unknown >>= k)
      (fun w => ConnHeld reqs w .configuring) := by
  refine (connects reqs (connectSection_obeys registry _ _)).bind fun r => ?_
  cases r with
  | error outcome =>
      rw [herr]
      apply Ensures.ret
      rintro w h ⟨q, rfl, hI⟩
      exact hI
  | ok c =>
      apply (hk c.1 c.2).pre
      rintro w h ⟨q, rfl, hH⟩
      exact hH

/-- What holds once a connect has passed its guard. -/
def Guarded (w : WinStack) : Prop :=
  w.server.backend = none ∧ NoTables w.server.session

/-- A connect past its guard configures the session. -/
theorem configure_ends {k : Unit → ToolProg ToolOutcome}
    (hk : LeavesInStep e (k ()) (fun w => ConnHeld [] w .configuring)) :
    LeavesInStep e (session (.setState .configuring) >>= k) Guarded := by
  refine fun _ => ⟨_, connHeld_stable [] .configuring, ?_, hk⟩
  intro a w w' h hG hr _
  obtain ⟨hb, hn⟩ := hG
  rw [(WinStack.run_inl (e := e) (a := a) hr).2]
  refine ⟨⟨⟨hn.entries, ?_⟩, State.noConfusion⟩, hb⟩
  exact fun r hr => (List.not_mem_nil hr).elim

/-- A connect starts with its guard: an idle session has no backend, and
tracks nothing. -/
theorem guardIdle_ends {k : Except String Unit → ToolProg ToolOutcome}
    (herr : ∀ m, k (.error m) = pure (.error m))
    (hk : LeavesInStep e (k (.ok ())) Guarded) :
    LeavesInStep e (session (.checkState [.idle]) >>= k) InStep := by
  intro r
  cases r with
  | error m =>
      refine ⟨fun w _ => InStep w,
        fun _ _ _ _ hI he _ => (untouched_env he).inStep hI, ?_, ?_⟩
      · intro a w w' h hI hr _
        have hr : w.run e (.inl (.checkState [.idle])) a = _ := hr
        exact (untouched_run hr rfl nofun).inStep hI
      · show LeavesInStep e (k (.error m)) InStep
        rw [herr]
        exact fun _ _ hI => hI
  | ok u =>
      refine ⟨fun w _ => Guarded w, ?_, ?_, hk⟩
      · intro w w' h m hG he _
        have hu := untouched_env he
        exact ⟨hu.slot.trans hG.1, hu.empty hG.2⟩
      · intro a w w' h hI hr _
        obtain ⟨hcheck, hw⟩ := WinStack.run_inl (e := e) (a := a) hr
        have hidle : w.server.session.inner.state = .idle := by
          by_contra hne
          have hcheck : w.server.session.checkState [.idle] = .ok () :=
            hcheck
          rw [SessionManager.checkState] at hcheck
          simp only [List.mem_singleton, if_neg hne] at hcheck
          split at hcheck <;> cases hcheck
        have hb := hI.idle hidle
        rw [hw]
        exact ⟨hb, hI.empty hb⟩

/-- A launch past its arguments. -/
theorem launchConfigured_inStep [e.Fresh] [e.SetsWhole]
    (registry : Registry) (backend : String)
    (spec : LaunchSpec) :
    LeavesInStep e (launchConfigured registry backend spec) Guarded := by
  apply configure_ends
  intro r
  refine ⟨_, connHeld_stable (spec.flushed r).requests .configuring,
    ?_, ?_⟩
  · intro a w w' h hH hr _
    obtain ⟨⟨hc, hstate⟩, hb⟩ := hH
    obtain ⟨hflush, hw⟩ := WinStack.run_inl (e := e) (a := a) hr
    rw [hw]
    refine ⟨⟨⟨hc.entries, ?_⟩, hstate⟩, hb⟩
    rw [← hflush]
    exact flushed_tracked w.server.session spec
  · obtain ⟨files, fns⟩ := r
    apply connect_ends (fun _ => rfl)
    intro f b
    apply handshake_ends
    · intro o a w w' hH hr hcare
      exact launch_inStep (fun _ h => h) hH hr (hcare.1 _ rfl)
    · exact ⟨_, rfl⟩
    · exact fun err => ⟨_, rfl⟩
    · exact launchSettled_obeys _ b

/-- A handshake that only the backend sees. -/
theorem quiet_handshake {γ : Type}
    {op : ServerOp (Option (Except BackendError γ))}
    (hspares : op.spares = true) {o : γ} {a : StackAnswer}
    {w w' : WinStack} (hH : ConnHeld reqs w (.handshaking b))
    (hr : w.run e (.inr op) a = some (some (.ok o), w')) : InStep w' :=
  hH.quiet (untouched_run hr hspares nofun)

theorem attachConfigured_inStep (registry : Registry) (backend : String)
    (spec : AttachSpec) (label : String) (explicitPid : Option Int) :
    LeavesInStep e
      (attachConfigured registry backend spec label explicitPid)
      Guarded := by
  apply configure_ends
  apply connect_ends (fun _ => rfl)
  intro f b
  apply handshake_ends
  · exact fun hH hr _ => quiet_handshake rfl hH hr
  · exact ⟨_, rfl⟩
  · exact fun err => ⟨_, rfl⟩
  · exact attachSettled_obeys label explicitPid b

theorem openCrashDumpConfigured_inStep (registry : Registry)
    (path : String) :
    LeavesInStep e (openCrashDumpConfigured registry path) Guarded := by
  apply configure_ends
  apply connect_ends (fun _ => rfl)
  intro f b
  apply handshake_ends
  · exact fun hH hr _ => quiet_handshake rfl hH hr
  · exact ⟨_, rfl⟩
  · intro err
    cases err <;> exact ⟨_, rfl⟩
  · exact dumpSettled_obeys path

theorem attachKernelConfigured_inStep (registry : Registry)
    (connection : String) :
    LeavesInStep e (attachKernelConfigured registry connection)
      Guarded := by
  apply configure_ends
  apply connect_ends (fun _ => rfl)
  intro f b
  apply handshake_ends
  · exact fun hH hr _ => quiet_handshake rfl hH hr
  · exact ⟨_, rfl⟩
  · intro err
    cases err <;> exact ⟨_, rfl⟩
  · intro o
    have hstopped : Settle (.inl (.setState .stopped)) :=
      .setState _ nofun nofun
    have hended : Settle (.inl (.setState .terminated)) :=
      .setState _ nofun nofun
    cases o with
    | stopped info =>
        exact fun u => ⟨_, .settle _ hstopped u, fun u =>
          ⟨_, .settle _ (.setLastStopped info) u, trivial⟩⟩
    | exited code => exact fun u => ⟨_, .settle _ hended u, trivial⟩
    | terminated => exact fun u => ⟨_, .settle _ hended u, trivial⟩

/-- A connect that turns its arguments down after the guard has done
nothing. -/
theorem refused_inStep (outcome : ToolOutcome) :
    LeavesInStep e (pure outcome) Guarded :=
  fun _ _ hG => hG.2.inStep hG.1

theorem handleLaunch_inStep [e.Fresh] [e.SetsWhole]
    (registry : Registry) (text : JsonText)
    (args : Args) :
    LeavesInStep e (handleLaunch registry text args) InStep := by
  apply guardIdle_ends (fun _ => rfl)
  dsimp only
  split
  · exact refused_inStep _
  split
  · exact refused_inStep _
  split
  · exact refused_inStep _
  exact launchConfigured_inStep _ _ _

theorem handleAttach_inStep (registry : Registry) (args : Args) :
    LeavesInStep e (handleAttach registry args) InStep := by
  apply guardIdle_ends (fun _ => rfl)
  dsimp only
  split
  · exact refused_inStep _
  exact attachConfigured_inStep _ _ _ _ _

theorem handleOpenCrashDump_inStep (registry : Registry) (args : Args) :
    LeavesInStep e (handleOpenCrashDump registry args) InStep := by
  apply guardIdle_ends (fun _ => rfl)
  dsimp only
  split
  · exact refused_inStep _
  exact openCrashDumpConfigured_inStep _ _

theorem handleAttachKernel_inStep (registry : Registry) (args : Args) :
    LeavesInStep e (handleAttachKernel registry args) InStep := by
  apply guardIdle_ends (fun _ => rfl)
  dsimp only
  split
  · exact refused_inStep _
  split
  · exact attachKernelConfigured_inStep _ _
  · exact refused_inStep _

/-- A call that connects nothing. -/
theorem held_inStep [e.Fresh] [e.SetsWhole] [e.Removes]
    {p : ToolProg ToolOutcome} {q : Phase}
    (hp : Obeys ToolNext Returned p q)
    (hq : ∀ {w}, InStep w → StackHeld w q) : LeavesInStep e p InStep := by
  have hends : Ensures (stackMachine e) (fun _ ev => CarefulStep e ev)
      (fun o w _ => ∃ q, Returned q o ∧ StackHeld w q) p
      (fun w _ => StackHeld w q) :=
    .ofObeys (J := fun (q : Phase) (w : WinStack) _ => StackHeld w q)
      (fun _ _ _ _ _ hH he _ => (untouched_env he).held hH)
      (fun hq _ _ _ _ hH hr hcare => held_step hq hH hr hcare) hp
  apply (hends.pre fun w _ hI => hq hI).mono
  rintro o w h ⟨q, hret, hH⟩
  cases q with
  | conn q => cases hH
  | disc q =>
      cases hret
      exact hH
  | res q => exact hH
  | other => exact hH
  | bp q =>
      have hret : q.committing = false := hret
      cases q with
      | addFile | addName | added | removing => cases hret
      | start | guarded | done => exact hH
      | ready | readFile | readNames | peeked | peekedReady | cutFile
      | cutNames => exact hH.1

/-- Every call leaves the session in step. -/
theorem call_inStep [e.Fresh] [e.SetsWhole] [e.Removes] (host : Host)
    (c : Call) :
    LeavesInStep e (c.prog host) InStep := by
  have hobeys := c.obeys host
  cases c with
  | launch args => exact handleLaunch_inStep _ _ args
  | attach args => exact handleAttach_inStep _ args
  | openCrashDump args => exact handleOpenCrashDump_inStep _ args
  | attachKernel args => exact handleAttachKernel_inStep _ args
  | _ => exact held_inStep hobeys fun hI => hI

end

-- =========================================================== the results

/-- After every sequence of calls the session is in step. -/
theorem runs_inStep {e : EngineModel} [e.Fresh] [e.SetsWhole] [e.Removes]
    {host : Host} {cs : List Call}
    {w : WinStack} (hr : SeqRun (stackMachine e)
      (fun _ ev => CarefulStep e ev) (Call.prog host) .new cs w) :
    InStep w := by
  have hnone : NoTables WinStack.new.server.session :=
    ⟨fun κ => by cases κ <;> rfl, rfl⟩
  have hnew : InStep .new := hnone.inStep rfl
  apply SeqRun.invariant (J := InStep) _ hnew hr
  intro w c h s o hI hr ho
  apply (call_inStep host c).sound _ hI hr ho
  exact fun _ _ _ _ hI he _ => (untouched_env he).inStep hI

/-- After every sequence of calls that sets no location twice and drops
none that has the engine id 0, as long as there is a backend and its
engine thread: the backend's table is what DbgEng has, DbgEng has no
breakpoint that no tracked request asks for, and a verified entry of
`list_breakpoints` is a breakpoint of DbgEng, under its id and where the
entry says. DbgEng's new ids are fresh, it leaves nothing of a set that
fails, and it removes every breakpoint it has when it is asked to. -/
theorem listed_are_set {e : EngineModel} [e.Fresh] [e.SetsWhole]
    [e.Removes] {host : Host} {cs : List Call}
    {w : WinStack} (hr : SeqRun (stackMachine e)
      (fun _ ev => CarefulStep e ev) (Call.prog host) .new cs w)
    (hb : w.server.backend ≠ none) (hg : w.windbg.engine.gone = false) :
    Consistent w.windbg ∧
      (∀ id loc, (id, loc) ∈ w.windbg.engine.live →
        ∃ r ∈ w.server.session.requests, r.target.loc? = some loc) ∧
      ∀ info ∈ w.server.session.listBreakpoints, info.verified = true →
        ∃ loc, info.target.loc? = some loc ∧
          (info.id, loc) ∈ w.windbg.engine.live := by
  have hE := (runs_inStep hr).engine hb hg
  refine ⟨hE.consistent, ?_, ?_⟩
  · intro id loc hlive
    obtain ⟨r, hr, hloc⟩ := hE.wanted hlive
    refine ⟨r, ?_, hloc⟩
    apply List.count_pos_iff.mp
    rw [count_requests]
    exact List.count_pos_iff.mpr hr
  · intro info hmem hv
    obtain ⟨x, hx, rfl⟩ :=
      List.mem_map.mp (List.mem_mergeSort.mp hmem)
    have hinfo := AList.mem_lookup_iff.mpr hx
    have hlisted := hE.listed hinfo hv
    rwa [← hE.keyed hinfo] at hlisted

-- ============================================================== one run

/-- Steps the engine answers for itself. -/
def onStack (steps : List (Action Answer EnvMove)) :
    List (Action StackAnswer EnvMove) :=
  steps.map fun s =>
    match s with
    | .step i a => .step i (a, .new)
    | .env m => .env m

/-- A function breakpoint before the launch, two lines after it, and the
first of them removed. -/
def stackScript : List (Call × List (Action StackAnswer EnvMove)) :=
  [(.setFunctionBreakpoint ⟨[("name", .str "main")]⟩,
      onStack (sync 0 3)),
    (.launch ⟨[("program", .str "a")]⟩,
      onStack (launchSteps 0 ++ sync 0 2 ++ [.step 0 (.pid none)]
        ++ sync 0 3)),
    (setBreakpointAt "a.c" 1, onStack (sync 0 7)),
    (setBreakpointAt "a.c" 2, onStack (sync 0 7)),
    (.removeBreakpoint ⟨[("breakpoint_id", .num 1)]⟩,
      onStack (sync 0 6))]

/-- The script runs; what is left listed is set. -/
theorem listed_is_set :
    ∃ cs w, SeqRun (stackMachine countingEngine)
        (fun _ ev => CarefulStep countingEngine ev) (Call.prog winOnlyHost)
        .new cs w ∧
      w.server.session.listBreakpoints.map (·.id) = [2] ∧
      w.windbg.engine.live
        = [(2, .fileLine "a.c" 2), (0, .function "main")] ∧
      Consistent w.windbg := by
  obtain ⟨cs, w, hr, hb, hg, hlist, hlive⟩ := seq_witness
    (stackMachine countingEngine)
    (fun _ ev => CarefulStep countingEngine ev) (Call.prog winOnlyHost)
    .new stackScript
    (fun w => w.server.backend ≠ none ∧ w.windbg.engine.gone = false ∧
      w.server.session.listBreakpoints.map (·.id) = [2] ∧
      w.windbg.engine.live
        = [(2, .fileLine "a.c" 2), (0, .function "main")])
    (by decide +kernel)
  exact ⟨cs, w, hr, hlist, hlive, (listed_are_set hr hb hg).1⟩

end DebugMcp
