/-
The calls of a pool, and that each obeys its handler's protocol.

`Call` names a tool call with its arguments; `Call.prog` is its handler
and `Call.phase₀` the phase it starts in. `Call.obeys` is the one fact
the interleaving proofs use about handler texts.
-/
import DebugMcp.Tools.Protocol

namespace DebugMcp

open Conc

/-- A postcondition that asks nothing. -/
def Any {Q α : Type} (_ : Q) (_ : α) : Prop := True

-- ============================================================ connects

/-- What the connect section leaves its caller: nothing more to do after
a failure, the handshake with the connected backend otherwise. -/
def Connected : ConnPhase → Except ToolOutcome (String × BackendId) →
    Prop
  | q, .error _ => q = .done
  | q, .ok (_, b) => q = .handshaking b

/-- A failed select or connect, from the reset on. -/
private theorem connectFailed_obeys (outcome : ToolOutcome) :
    Obeys ConnNext Connected
      (session .drainOutput >>= fun _ => clearBackend >>= fun _ =>
        (pure (.error outcome) :
          ToolProg (Except ToolOutcome (String × BackendId))))
      .failReset := by
  intro es
  exact ⟨_, .failDrain es, fun _ => ⟨_, .failClear, fun _ =>
    ⟨_, .failName, rfl⟩⟩⟩

theorem connectSection_obeys (registry : Registry)
    (requested : Option String) (unknown : String → String) :
    Obeys ConnNext Connected
      (connectSection registry requested unknown) .configuring := by
  unfold connectSection
  cases registry.select requested with
  | error e =>
      exact fun _ => ⟨_, .selectFail, connectFailed_obeys _⟩
  | ok factory =>
      intro r
      cases r with
      | error e =>
          exact ⟨_, .connectErr factory e, fun _ =>
            ⟨_, .failReset, connectFailed_obeys _⟩⟩
      | ok b =>
          refine ⟨_, .connectOk factory b, fun _ => ⟨_, .install b,
            fun _ => ⟨_, .name b factory, fun g => ⟨_, .stamp b g,
              fun _ => ⟨_, .spawn b g, rfl⟩⟩⟩⟩⟩

/-- A failed or cancelled handshake, up to the returned error. -/
private theorem cleanup_obeys (outcome : ToolOutcome) :
    Obeys ConnNext Any
      (cleanupAfterCancel >>= fun _ =>
        (pure outcome : ToolProg ToolOutcome)) .cancelling := by
  intro _
  exact ⟨_, .cancelClear, fun _ => ⟨_, .cancelName, fun _ =>
    ⟨_, .cancelReset, fun es => ⟨_, .cancelDrain es, trivial⟩⟩⟩⟩

/-- One section of the settling part. -/
private theorem settle_bind {β α : Type} {op : ToolOp β}
    {k : β → ToolProg α} (h : Settle op)
    (hk : ∀ x, Obeys ConnNext Any (k x) .settling) :
    Obeys ConnNext Any (Prog.perform op >>= k) .settling :=
  fun x => ⟨_, .settle op h x, hk x⟩

/-- A recorded pid stays in the settling part. -/
private theorem recordPid_obeys (pid : Option Int) :
    Obeys ConnNext (fun q _ => q = .settling) (recordPid pid)
      .settling := by
  cases pid with
  | some pid => exact fun _ => ⟨_, .settle _ (.setPid pid) _, rfl⟩
  | none => exact rfl

theorem launchSettled_obeys (program : String) (b : BackendId)
    (outcome : LaunchOutcome) :
    Obeys ConnNext Any (launchSettled program b outcome) .settling := by
  refine settle_bind (.setProgram program) fun _ => ?_
  refine settle_bind (.debuggerPid b) fun p => ?_
  refine (recordPid_obeys p).bind fun q _ hq => ?_
  subst hq
  refine settle_bind .pid fun pid => ?_
  cases outcome with
  | stopped info =>
      exact settle_bind (.setState _ nofun nofun) fun _ =>
        settle_bind (.setLastStopped info) fun _ => trivial
  | running => exact settle_bind (.setState _ nofun nofun) fun _ => trivial
  | exited code => exact settle_bind (.setState _ nofun nofun) fun _ => trivial

/-- The end of an attach that recorded its pid. -/
private theorem attachOutcome_obeys (outcome : AttachOutcome)
    (stopped : StopInfo → ToolOutcome) (ended : ToolOutcome) :
    Obeys ConnNext Any
      (match outcome with
        | .stopped info => do
            session (.setState .stopped)
            session (.setLastStopped info)
            return stopped info
        | .exited _ | .terminated => do
            session (.setState .terminated)
            return ended) .settling := by
  cases outcome with
  | stopped info =>
      exact settle_bind (.setState _ nofun nofun) fun _ =>
        settle_bind (.setLastStopped info) fun _ => trivial
  | exited code => exact settle_bind (.setState _ nofun nofun) fun _ => trivial
  | terminated => exact settle_bind (.setState _ nofun nofun) fun _ => trivial

theorem attachSettled_obeys (label : String) (explicitPid : Option Int)
    (b : BackendId) (outcome : AttachOutcome) :
    Obeys ConnNext Any (attachSettled label explicitPid b outcome)
      .settling := by
  refine settle_bind (.setProgram label) fun _ => ?_
  cases explicitPid with
  | some pid =>
      exact settle_bind (.setPid pid) fun _ =>
        settle_bind .pid fun _ => attachOutcome_obeys outcome _ _
  | none =>
      refine settle_bind (.debuggerPid b) fun p => ?_
      refine (recordPid_obeys p).bind fun q _ hq => ?_
      subst hq
      exact settle_bind .pid fun _ => attachOutcome_obeys outcome _ _

theorem dumpSettled_obeys (path : String) (outcome : DumpOutcome) :
    Obeys ConnNext Any (dumpSettled path outcome) .settling := by
  refine settle_bind (.setState _ nofun nofun) fun _ => ?_
  refine settle_bind .setDump fun _ => ?_
  cases outcome.stop with
  | some info => exact settle_bind (.setLastStopped info) fun _ => trivial
  | none => trivial

theorem launchConfigured_obeys (registry : Registry) (backend : String)
    (spec : LaunchSpec) :
    Obeys ConnNext Any (launchConfigured registry backend spec)
      .guarded := by
  intro _
  refine ⟨_, .configure, fun r => ⟨_, .flush r, ?_⟩⟩
  refine (connectSection_obeys registry _ _).bind fun q a hq => ?_
  cases a with
  | error outcome => trivial
  | ok c =>
      obtain ⟨factory, b⟩ := c
      cases hq
      intro o
      match o with
      | none =>
          exact ⟨_, .handshakeCancel b _ (.launch b _), cleanup_obeys _⟩
      | some (.error e) =>
          exact ⟨_, .handshakeErr b _ (.launch b _) e, cleanup_obeys _⟩
      | some (.ok outcome) =>
          exact ⟨_, .handshakeOk b _ (.launch b _) outcome,
            launchSettled_obeys _ b outcome⟩

theorem attachConfigured_obeys (registry : Registry) (backend : String)
    (spec : AttachSpec) (label : String) (explicitPid : Option Int) :
    Obeys ConnNext Any
      (attachConfigured registry backend spec label explicitPid)
      .guarded := by
  intro _
  refine ⟨_, .configure, ?_⟩
  refine (connectSection_obeys registry _ _).bind fun q a hq => ?_
  cases a with
  | error outcome => trivial
  | ok c =>
      obtain ⟨factory, b⟩ := c
      cases hq
      intro o
      match o with
      | none =>
          exact ⟨_, .handshakeCancel b _ (.attach b _), cleanup_obeys _⟩
      | some (.error e) =>
          exact ⟨_, .handshakeErr b _ (.attach b _) e, cleanup_obeys _⟩
      | some (.ok outcome) =>
          exact ⟨_, .handshakeOk b _ (.attach b _) outcome,
            attachSettled_obeys label explicitPid b outcome⟩

theorem openCrashDumpConfigured_obeys (registry : Registry)
    (path : String) :
    Obeys ConnNext Any (openCrashDumpConfigured registry path)
      .guarded := by
  intro _
  refine ⟨_, .configure, ?_⟩
  refine (connectSection_obeys registry _ _).bind fun q a hq => ?_
  cases a with
  | error outcome => trivial
  | ok c =>
      obtain ⟨factory, b⟩ := c
      cases hq
      intro o
      match o with
      | none =>
          exact ⟨_, .handshakeCancel b _ (.openDump b _), cleanup_obeys _⟩
      | some (.error e) =>
          refine ⟨_, .handshakeErr b _ (.openDump b _) e, ?_⟩
          cases e <;> exact cleanup_obeys _
      | some (.ok outcome) =>
          exact ⟨_, .handshakeOk b _ (.openDump b _) outcome,
            dumpSettled_obeys path outcome⟩

theorem attachKernelConfigured_obeys (registry : Registry)
    (connection : String) :
    Obeys ConnNext Any (attachKernelConfigured registry connection)
      .guarded := by
  intro _
  refine ⟨_, .configure, ?_⟩
  refine (connectSection_obeys registry _ _).bind fun q a hq => ?_
  cases a with
  | error outcome => trivial
  | ok c =>
      obtain ⟨factory, b⟩ := c
      cases hq
      intro o
      match o with
      | none =>
          exact ⟨_, .handshakeCancel b _ (.attachKernel b _),
            cleanup_obeys _⟩
      | some (.error e) =>
          refine ⟨_, .handshakeErr b _ (.attachKernel b _) e, ?_⟩
          cases e <;> exact cleanup_obeys _
      | some (.ok outcome) =>
          exact ⟨_, .handshakeOk b _ (.attachKernel b _) outcome,
            attachOutcome_obeys outcome _ _⟩

/-- A connect handler that returns from its guard, or goes on guarded. -/
private theorem guardIdle_obeys
    {k : Except String Unit → ToolProg ToolOutcome}
    (herr : ∀ e, k (.error e) = pure (.error e))
    (hok : Obeys ConnNext Any (k (.ok ())) .guarded) :
    Obeys ConnNext Any (session (.checkState [.idle]) >>= k) .start := by
  refine Obeys.perform fun r => ?_
  cases r with
  | error e =>
      refine ⟨_, .guardErr e, ?_⟩
      rw [herr e]
      trivial
  | ok u => exact ⟨_, .guardOk, hok⟩

theorem handleLaunch_obeys (registry : Registry) (text : JsonText)
    (args : Args) :
    Obeys ConnNext Any (handleLaunch registry text args) .start := by
  refine guardIdle_obeys (fun _ => rfl) ?_
  dsimp only
  split
  · trivial
  split
  · trivial
  split
  · trivial
  exact launchConfigured_obeys _ _ _

theorem handleAttach_obeys (registry : Registry) (args : Args) :
    Obeys ConnNext Any (handleAttach registry args) .start := by
  refine guardIdle_obeys (fun _ => rfl) ?_
  dsimp only
  split
  · trivial
  exact attachConfigured_obeys _ _ _ _ _

theorem handleOpenCrashDump_obeys (registry : Registry) (args : Args) :
    Obeys ConnNext Any (handleOpenCrashDump registry args) .start := by
  refine guardIdle_obeys (fun _ => rfl) ?_
  dsimp only
  split
  · trivial
  exact openCrashDumpConfigured_obeys _ _

theorem handleAttachKernel_obeys (registry : Registry) (args : Args) :
    Obeys ConnNext Any (handleAttachKernel registry args) .start := by
  refine guardIdle_obeys (fun _ => rfl) ?_
  dsimp only
  split
  · trivial
  split
  · exact attachKernelConfigured_obeys _ _
  · trivial

-- ========================================================== disconnect

/-- `disconnect` from the slot take on. -/
private theorem disconnectTail_obeys (outcome : ToolOutcome) :
    Obeys DiscNext (fun q _ => q = .done)
      (dropBackendBounded >>= fun _ => reset >>= fun _ =>
        (pure outcome : ToolProg ToolOutcome)) .guarded := by
  intro b
  refine ⟨_, .take b, fun _ => ⟨_, .name, ?_⟩⟩
  cases b with
  | some b =>
      exact fun _ => ⟨_, .drop b, fun _ => ⟨_, .reset, fun es =>
        ⟨_, .drain es, rfl⟩⟩⟩
  | none => exact fun _ => ⟨_, .reset, fun es => ⟨_, .drain es, rfl⟩⟩

/-- `disconnect` returns in its last phase. -/
theorem handleDisconnect_obeys (args : Args) :
    Obeys DiscNext (fun q _ => q = .done) (handleDisconnect args)
      .start := by
  intro r
  cases r with
  | error e => exact ⟨_, .guardErr e, rfl⟩
  | ok u =>
      refine ⟨_, .guardOk, fun b => ⟨_, .current b, ?_⟩⟩
      cases b with
      | some b =>
          exact fun _ => ⟨_, .disconnect b _, disconnectTail_obeys _⟩
      | none => exact disconnectTail_obeys _

-- ============================================================= resumes

/-- The thread is resolved without leaving a phase that allows a look at
the last stop. -/
theorem resolveThreadId_stays {Q : Type} {P : Protocol ToolOp Q} {q : Q}
    (hlast : ∀ i, P q (.inl .lastStopped) i q) (args : Args) :
    Obeys P (fun q' _ => q' = q) (resolveThreadId args) q := by
  unfold resolveThreadId
  cases args.explicitPositiveThreadId with
  | error e => exact rfl
  | ok tid =>
      cases tid with
      | some tid => exact rfl
      | none => exact fun i => ⟨q, hlast i, rfl⟩

/-- What a resume does once its await has ended. -/
def resumeEnd (opErr : OpError) (timeoutMsg : String) (g : UInt64) :
    Option (Except BackendError StopOutcome) → ToolProg ToolOutcome
  | none => pure (.error timeoutMsg)
  | some (.ok outcome) => handleStopResult outcome g
  | some (.error e) => do
      session (.setState .stopped)
      return .error (opErr.render e)

/-- The stop result, in the phase its outcome selects. -/
theorem handleStopResult_obeys (outcome : StopOutcome) (g : UInt64) :
    Obeys ResNext Any (handleStopResult outcome g)
      (match outcome with
        | .stopped info => .stopped g info
        | .exited _ => .exited g
        | .terminated => .terminated g) := by
  cases outcome with
  | stopped info =>
      intro applied
      cases applied with
      | true =>
          exact ⟨_, .applied g info, fun _ => ⟨_, .cache info, fun es =>
            ⟨_, .drain es, trivial⟩⟩⟩
      | false =>
          exact ⟨_, .skipped g info, fun es => ⟨_, .drain es, trivial⟩⟩
  | exited code =>
      exact fun a => ⟨_, .exitWrite g code a, fun es =>
        ⟨_, .drain es, trivial⟩⟩
  | terminated => exact fun a => ⟨_, .terminateWrite g a, trivial⟩

/-- The outcome of the backend call selects the next phase. -/
private theorem runBackend_obeys {b : BackendId} {kind : Resume}
    {tid : Int} {gran : Option Granularity} {g : UInt64}
    {k : Option (Except BackendError StopOutcome) → ToolProg ToolOutcome}
    (hnone : Obeys ResNext Any (k none) .done)
    (herr : ∀ e, Obeys ResNext Any (k (some (.error e))) .failed)
    (hok : ∀ o, k (some (.ok o)) = handleStopResult o g) :
    Obeys ResNext Any (runBackend b kind tid gran >>= k)
      (.running g) := by
  have hcall : ∀ op, ResumeCall op → Obeys ResNext Any
      (server op >>= k) (.running g) := by
    intro op hop
    refine Obeys.perform fun r => ?_
    match r with
    | none => exact ⟨_, .cancelled g op hop, hnone⟩
    | some (.error e) => exact ⟨_, .err g op hop e, herr e⟩
    | some (.ok o) =>
        rw [hok o]
        have h := handleStopResult_obeys o g
        cases o with
        | stopped info => exact ⟨_, .stop g op hop info, h⟩
        | exited code => exact ⟨_, .exit g op hop code, h⟩
        | terminated => exact ⟨_, .terminate g op hop, h⟩
  cases kind with
  | «continue» => exact hcall _ (.cont b tid)
  | step k => exact hcall _ (.step b k tid gran)

theorem resume_obeys (args : Args) (kind : Resume) (opErr : OpError)
    (timeoutMsg : String) :
    Obeys ResNext Any (resume args kind opErr timeoutMsg) .start := by
  intro r
  cases r with
  | error e => exact ⟨_, .guardErr e, trivial⟩
  | ok u =>
      refine ⟨_, .guardOk, fun d => ⟨_, .isDump d, ?_⟩⟩
      cases d with
      | true => trivial
      | false =>
          refine (resolveThreadId_stays .lastStopped args).bind
            fun q t hq => ?_
          subst hq
          cases t with
          | error e => trivial
          | ok tid =>
              intro b
              refine ⟨_, .current b, ?_⟩
              cases b with
              | none => trivial
              | some b =>
                  refine fun g => ⟨_, .snapshot g, fun _ =>
                    ⟨_, .run g, ?_⟩⟩
                  exact runBackend_obeys trivial
                    (fun e _ => ⟨_, .revert, trivial⟩) fun _ => rfl

-- ========================================================= breakpoints

/-- A breakpoint handler returns with nothing left to commit. -/
def Committed (q : BpPhase) (_ : ToolOutcome) : Prop :=
  q.committing = false

/-- A reply selects a result unless it is empty. -/
theorem matchedResult_eq_none (results : List BreakpointResult)
    (line : Int) : matchedResult results line = none ↔ results = [] := by
  rw [matchedResult, Option.or_eq_none_iff, List.getLast?_eq_none_iff]
  constructor
  · exact fun h => h.2
  · intro h
    subst h
    exact ⟨rfl, rfl⟩

theorem setBreakpointStopped_obeys (file : String) (line : Int)
    (condition : String) :
    Obeys BpNext Committed (setBreakpointStopped file line condition)
      .guarded := by
  intro b
  cases b with
  | none => exact ⟨_, .noBackend, rfl⟩
  | some b =>
      refine ⟨_, .current b, fun bps => ⟨_, .readFile b file bps, ?_⟩⟩
      refine Obeys.perform fun r => ?_
      match r with
      | .error e => exact ⟨_, .sendFileErr b file bps _ e, rfl⟩
      | .ok rs =>
          dsimp only
          cases hm : matchedResult rs line with
          | none =>
              rw [matchedResult_eq_none] at hm
              subst hm
              exact ⟨_, .sendFileEmpty b file bps _, rfl⟩
          | some r =>
              exact ⟨_, .sendFile b file bps ⟨line, condition⟩ r rs hm,
                fun _ => ⟨_, .addFile file ⟨line, condition⟩ _, fun _ =>
                  ⟨_, .record _, rfl⟩⟩⟩

/-- A breakpoint handler that returns from its guard, or goes on. -/
private theorem guardBp_obeys {allowed : List State}
    {k : Except String Unit → ToolProg ToolOutcome}
    (herr : ∀ e, k (.error e) = pure (.error e))
    (hok : Obeys BpNext Committed (k (.ok ())) .guarded) :
    Obeys BpNext Committed (session (.checkState allowed) >>= k) .start := by
  refine Obeys.perform fun r => ?_
  cases r with
  | error e =>
      refine ⟨_, .guardErr allowed e, ?_⟩
      rw [herr e]
      rfl
  | ok u => exact ⟨_, .guardOk allowed, hok⟩

theorem handleSetBreakpoint_obeys (args : Args) :
    Obeys BpNext Committed (handleSetBreakpoint args) .start := by
  refine guardBp_obeys (fun _ => rfl) ?_
  dsimp only
  split
  · rfl
  split
  · rfl
  refine Obeys.perform fun st => ⟨_, .state st, ?_⟩
  split
  · exact fun _ => ⟨_, .pendFile _ _ _, rfl⟩
  · exact setBreakpointStopped_obeys _ _ _

theorem setFunctionBreakpointStopped_obeys (name condition : String) :
    Obeys BpNext Committed (setFunctionBreakpointStopped name condition)
      .guarded := by
  intro b
  cases b with
  | none => exact ⟨_, .noBackend, rfl⟩
  | some b =>
      refine ⟨_, .current b, fun bps => ⟨_, .readNames b bps, ?_⟩⟩
      refine Obeys.perform fun r => ?_
      cases r with
      | error e => exact ⟨_, .sendNamesErr b bps _ e, rfl⟩
      | ok rs =>
          cases hl : rs.getLast? with
          | none =>
              refine ⟨_, .sendNames b bps _ rs (by simp [hl]), ?_⟩
              dsimp only
              rw [hl]
              exact fun _ => ⟨_, .addNameOnly ⟨name, condition⟩, rfl⟩
          | some bp =>
              cases hr : bp.rejected with
              | true =>
                  refine ⟨_, .sendNamesRejected b bps _ rs
                    ⟨bp, hl, hr⟩, ?_⟩
                  dsimp only
                  rw [hl]
                  dsimp only
                  rw [hr]
                  rfl
              | false =>
                  refine ⟨_, .sendNames b bps _ rs ?_, ?_⟩
                  · rintro r h
                    rw [hl] at h
                    cases h
                    exact hr
                  · dsimp only
                    rw [hl]
                    dsimp only
                    rw [hr]
                    exact fun _ => ⟨_, .addName ⟨name, condition⟩ _,
                      fun _ => ⟨_, .record _, rfl⟩⟩

theorem handleSetFunctionBreakpoint_obeys (args : Args) :
    Obeys BpNext Committed (handleSetFunctionBreakpoint args) .start := by
  refine guardBp_obeys (fun _ => rfl) ?_
  dsimp only
  split
  · rfl
  refine Obeys.perform fun st => ⟨_, .state st, ?_⟩
  split
  · exact fun _ => ⟨_, .pendName _ _, rfl⟩
  · exact setFunctionBreakpointStopped_obeys _ _

/-- The commit of a removal. -/
private theorem commitRemoval_obeys (id : Int) (info : BreakpointInfo) :
    Obeys BpNext Committed (commitRemoval id) (.removing id info) := by
  intro r
  refine ⟨_, .remove id info r, ?_⟩
  cases r <;> rfl

theorem removeBreakpoint_obeys (id : Int) :
    Obeys BpNext Committed (removeBreakpoint id) .guarded := by
  intro i
  cases i with
  | none => exact ⟨_, .peekNone id, rfl⟩
  | some info =>
      refine ⟨_, .peek id info, Obeys.perform fun b => ?_⟩
      cases b with
      | none => exact ⟨_, .peekedNoBackend id info, rfl⟩
      | some b =>
          refine ⟨_, .peekedCurrent id info b, ?_⟩
          cases hty : info.ty with
          | source =>
              dsimp only
              rw [if_neg (by decide)]
              refine fun bps => ⟨_, .cutFile id info b bps hty, ?_⟩
              intro r
              cases r with
              | error e =>
                  exact ⟨_, .sendCutFileErr id info b bps e, rfl⟩
              | ok rs =>
                  exact ⟨_, .sendCutFile id info b bps rs,
                    commitRemoval_obeys id info⟩
          | function =>
              dsimp only
              rw [if_pos (by decide)]
              refine fun bps => ⟨_, .cutNames id info b bps hty, ?_⟩
              intro r
              cases r with
              | error e =>
                  exact ⟨_, .sendCutNamesErr id info b bps e, rfl⟩
              | ok rs =>
                  exact ⟨_, .sendCutNames id info b bps rs,
                    commitRemoval_obeys id info⟩

theorem handleRemoveBreakpoint_obeys (args : Args) :
    Obeys BpNext Committed (handleRemoveBreakpoint args) .start := by
  refine guardBp_obeys (fun _ => rfl) ?_
  dsimp only
  split
  · rfl
  · exact removeBreakpoint_obeys _

-- =============================================================== calls

/-- A tool call with its arguments. -/
inductive Call
  | launch (args : Args)
  | attach (args : Args)
  | openCrashDump (args : Args)
  | attachKernel (args : Args)
  | disconnect (args : Args)
  | continue (args : Args)
  | stepOver (args : Args)
  | stepInto (args : Args)
  | stepOut (args : Args)
  | pause
  | setBreakpoint (args : Args)
  | setFunctionBreakpoint (args : Args)
  | removeBreakpoint (args : Args)
  | listBreakpoints
  | readOutput

/-- What a server is configured with: the backend registry and the JSON
library. -/
structure Host where
  registry : Registry
  text : JsonText

namespace Call

/-- The handler of a call. -/
def prog (host : Host) : Call → ToolProg ToolOutcome
  | launch args => handleLaunch host.registry host.text args
  | attach args => handleAttach host.registry args
  | openCrashDump args => handleOpenCrashDump host.registry args
  | attachKernel args => handleAttachKernel host.registry args
  | disconnect args => handleDisconnect args
  | .continue args => handleContinue args
  | stepOver args => handleStepOver args
  | stepInto args => handleStepInto args
  | stepOut args => handleStepOut args
  | pause => handlePause
  | setBreakpoint args => handleSetBreakpoint args
  | setFunctionBreakpoint args => handleSetFunctionBreakpoint args
  | removeBreakpoint args => handleRemoveBreakpoint args
  | listBreakpoints => handleListBreakpoints
  | readOutput => handleReadOutput

/-- The phase a call starts in. -/
def phase₀ : Call → Phase
  | launch _ | attach _ | openCrashDump _ | attachKernel _ =>
      .conn .start
  | disconnect _ => .disc .start
  | .continue _ | stepOver _ | stepInto _ | stepOut _ => .res .start
  | setBreakpoint _ | setFunctionBreakpoint _ | removeBreakpoint _ =>
      .bp .start
  | pause | listBreakpoints | readOutput => .other

end Call

/-- What is known of a call that has returned: a disconnect is in its
last phase, a breakpoint handler has nothing left to commit. -/
def Returned : Phase → ToolOutcome → Prop
  | .disc p, _ => p = .done
  | .bp p, _ => p.committing = false
  | _, _ => True

/-- Obeying a handler's own protocol is obeying the calls'. -/
private theorem lift_obeys {Q : Type} {P : Protocol ToolOp Q}
    {R : Q → ToolOutcome → Prop} (f : Q → Phase)
    {p : ToolProg ToolOutcome} {q : Q}
    (hP : ∀ {β : Type} {q q' : Q} {op : ToolOp β} {x : β},
      P q op x q' → ToolNext (f q) op x (f q'))
    (hR : ∀ q a, R q a → Returned (f q) a) (h : Obeys P R p q) :
    Obeys ToolNext Returned p (f q) :=
  h.embed hP hR

section

variable {Q : Type} {P : Protocol ToolOp Q} {R : Q → ToolOutcome → Prop}
  {q : Q}

/-- `pause` stays in a phase that allows its three operations. -/
theorem handlePause_stays
    (hguard : ∀ l r, P q (.inl (.checkState l)) r q)
    (hcur : ∀ b, P q (.inr .currentBackend) b q)
    (hpause : ∀ b r, P q (.inr (.pause b)) r q) (hR : ∀ o, R q o) :
    Obeys P R handlePause q := by
  intro r
  refine ⟨_, hguard _ r, ?_⟩
  cases r with
  | error e => exact hR _
  | ok u =>
      refine fun b => ⟨_, hcur b, ?_⟩
      cases b with
      | none => exact hR _
      | some b =>
          intro r
          refine ⟨_, hpause b r, ?_⟩
          cases r <;> exact hR _

/-- So does `list_breakpoints`. -/
theorem handleListBreakpoints_stays
    (hlist : ∀ r, P q (.inl .listBreakpoints) r q) (hR : ∀ o, R q o) :
    Obeys P R handleListBreakpoints q :=
  fun r => ⟨_, hlist r, hR _⟩

/-- And `read_output`. -/
theorem handleReadOutput_stays
    (hguard : ∀ l r, P q (.inl (.checkState l)) r q)
    (hdrain : ∀ es, P q (.inl .drainOutput) es q) (hR : ∀ o, R q o) :
    Obeys P R handleReadOutput q := by
  intro r
  refine ⟨_, hguard _ r, ?_⟩
  cases r with
  | error e => exact hR _
  | ok u => exact fun es => ⟨_, hdrain es, hR _⟩

end

/-- Every call obeys the protocol of its handler. -/
theorem Call.obeys (host : Host) (c : Call) :
    Obeys ToolNext Returned (c.prog host) c.phase₀ := by
  have htriv : ∀ {Q : Type} {P : Prop} (_ : Q) (_ : ToolOutcome),
      P → True := fun _ _ _ => trivial
  cases c with
  | launch args => exact lift_obeys .conn .conn htriv (handleLaunch_obeys _ _ args)
  | attach args => exact lift_obeys .conn .conn htriv (handleAttach_obeys _ args)
  | openCrashDump args =>
      exact lift_obeys .conn .conn htriv (handleOpenCrashDump_obeys _ args)
  | attachKernel args =>
      exact lift_obeys .conn .conn htriv (handleAttachKernel_obeys _ args)
  | disconnect args =>
      exact lift_obeys .disc .disc (fun _ _ h => h)
        (handleDisconnect_obeys args)
  | «continue» args => exact lift_obeys .res .res htriv (resume_obeys args _ _ _)
  | stepOver args => exact lift_obeys .res .res htriv (resume_obeys args _ _ _)
  | stepInto args => exact lift_obeys .res .res htriv (resume_obeys args _ _ _)
  | stepOut args => exact lift_obeys .res .res htriv (resume_obeys args _ _ _)
  | pause =>
      exact handlePause_stays .otherGuard .otherCurrent .otherPause
        fun _ => trivial
  | setBreakpoint args =>
      exact lift_obeys .bp .bp (fun _ _ h => h)
        (handleSetBreakpoint_obeys args)
  | setFunctionBreakpoint args =>
      exact lift_obeys .bp .bp (fun _ _ h => h)
        (handleSetFunctionBreakpoint_obeys args)
  | removeBreakpoint args =>
      exact lift_obeys .bp .bp (fun _ _ h => h)
        (handleRemoveBreakpoint_obeys args)
  | listBreakpoints =>
      exact handleListBreakpoints_stays .otherList fun _ => trivial
  | readOutput =>
      exact handleReadOutput_stays .otherGuard .otherDrain
        fun _ => trivial

/-- The pool of the calls `calls`, none of which has started, over the
server `w`. -/
def callPool (host : Host) (calls : Nat → Call) (w : ToolServer) :
    Pool ToolOp ToolOutcome ToolServer where
  world := w
  prog i := some ((calls i).prog host)

end DebugMcp
