/-
When a handler may write the session's state, and what it may write.

A handler that changes the state decides to do so in one section and
does it in a later one. A connect handler decides at its guard, unless
its arguments are refused; a resume once it has found a backend, after
its last refusal; and both at the answer of their backend call.
`WritePhase` records whether a decided write is still to come. The phase
is a function of the operations and their answers, so it can be read off
a history (`writePhase`) as well as off a handler's text
(`Call.writes_obeys`). Whoever has returned owes none.
-/
import DebugMcp.Tools.History

namespace DebugMcp

open Conc

-- ============================================================== phases

/-- Does the answer decide that a state other than `Terminated` will be
written? -/
def ServerOp.decides {β : Type} (op : ServerOp β) (b : β) : Bool :=
  match op, b with
  | .currentBackend, some _ => true
  | .launch _ _, some (.ok (.stopped _)) => true
  | .launch _ _, some (.ok .running) => true
  | .attach _ _, some (.ok (.stopped _)) => true
  | .attachKernel _ _, some (.ok (.stopped _)) => true
  | .openDump _ _, some (.ok _) => true
  | .cont _ _, some (.ok (.stopped _)) => true
  | .cont _ _, some (.error _) => true
  | .step _ _ _ _, some (.ok (.stopped _)) => true
  | .step _ _ _ _, some (.error _) => true
  | _, _ => false

/-- A connect handler's passed guard decides it, too. -/
def SessionOp.decides {β : Type} (op : SessionOp β) (b : β) : Bool :=
  match op, b with
  | .checkState allowed, .ok _ => decide (.idle ∈ allowed)
  | _, _ => false

/-- Does the answer decide a later state write? -/
def ToolOp.decides {β : Type} (op : ToolOp β) (b : β) : Bool :=
  match op with
  | .inl op => op.decides b
  | .inr op => op.decides b

/-- May the operation's state write be other than `Terminated`? -/
def ToolOp.revives {β : Type} (op : ToolOp β) : Bool :=
  match op.target with
  | some .terminated | none => false
  | some _ => true

/-- Does a guard let a terminated session through? -/
def SessionOp.admitsTerminated {β : Type} : SessionOp β → Bool
  | .checkState allowed => decide (.terminated ∈ allowed)
  | _ => false

/-- Does a guard let a terminated session through? -/
def ToolOp.admitsTerminated {β : Type} : ToolOp β → Bool
  | .inl op => op.admitsTerminated
  | .inr _ => false

/-- Where a handler is with its state writes: it makes none; it has none
to make now, `Terminated` apart; it has decided one. -/
inductive WritePhase
  | silent
  | quiet
  | owing
  deriving DecidableEq

namespace WritePhase

/-- The phase after an operation. -/
def next {β : Type} (q : WritePhase) (op : ToolOp β) (b : β) :
    WritePhase :=
  match q with
  | silent => silent
  | quiet => if op.decides b then owing else quiet
  | owing => if op.target.isSome then quiet else owing

/-- The operations a handler performs in a phase. -/
def allows {β : Type} (q : WritePhase) (op : ToolOp β) : Bool :=
  match q with
  | silent => op.target.isNone
  | quiet => !op.revives && !op.admitsTerminated
  | owing => true

end WritePhase

/-- The protocol of state writes. -/
abbrev WriteNext : Protocol ToolOp WritePhase :=
  fun _ q op b q' => q.allows op = true ∧ q' = q.next op b

/-- Does `attach_kernel` refuse the arguments? -/
def refusesConnection (args : Args) : Bool :=
  match args.requireString "connection" with
  | .ok connection => !connection.startsWith "net:"
  | .error _ => true

/-- Does a connect handler refuse its arguments? -/
def Call.refuses (host : Host) : Call → Bool
  | .launch args => refusesLaunch host.text args
  | .attach args => !(attachTarget args).isOk
  | .openCrashDump args => !(args.requireString "dump_path").isOk
  | .attachKernel args => refusesConnection args
  | _ => false

/-- The phase a call starts in. -/
def Call.writePhase₀ (host : Host) (c : Call) : WritePhase :=
  match c with
  | .launch _ | .attach _ | .openCrashDump _ | .attachKernel _ =>
      if c.refuses host then .silent else .quiet
  | .continue _ | .stepOver _ | .stepInto _ | .stepOut _ => .quiet
  | .disconnect _ | .pause | .setBreakpoint _ | .setFunctionBreakpoint _
  | .removeBreakpoint _ | .listBreakpoints | .readOutput => .silent

/-- No decided write is to come. -/
def WriteSettled (q : WritePhase) (_ : ToolOutcome) : Prop := q ≠ .owing

/-- The phase in which a backend call that answered leaves its
handler. -/
def settledPhase (stops : Bool) : WritePhase :=
  if stops then .owing else .quiet

/-- Does a launch end in another state than `Terminated`? -/
def LaunchOutcome.stays : LaunchOutcome → Bool
  | .exited _ => false
  | _ => true

/-- Does an attach end in another state than `Terminated`? -/
def AttachOutcome.stays : AttachOutcome → Bool
  | .stopped _ => true
  | _ => false

/-- Does a resume end in another state than `Terminated`? -/
def StopOutcome.stays : StopOutcome → Bool
  | .stopped _ => true
  | _ => false

-- ============================================================= resumes

section

variable {α β : Type} {R : WritePhase → α → Prop} {q : WritePhase}

/-- One operation and the rest. -/
private theorem writes_bind {op : ToolOp β} {k : β → ToolProg α}
    (h : q.allows op = true)
    (hk : ∀ b, Obeys WriteNext R (k b) (q.next op b)) :
    Obeys WriteNext R (Prog.perform op >>= k) q :=
  fun b => ⟨_, ⟨h, rfl⟩, hk b⟩

/-- A return with no write to come. -/
private theorem writes_end {outcome : ToolOutcome}
    (hq : decide (q = .owing) = false) :
    Obeys WriteNext WriteSettled (pure outcome) q :=
  of_decide_eq_false hq

end

/-- The end of a resume: a reported stop is still to be written. -/
theorem handleStopResult_writes (outcome : StopOutcome)
    (generation : UInt64) :
    Obeys WriteNext WriteSettled (handleStopResult outcome generation)
      (settledPhase outcome.stays) := by
  cases outcome with
  | stopped info =>
      refine writes_bind rfl fun applied => ?_
      cases applied with
      | true =>
          exact writes_bind rfl fun _ => writes_bind rfl fun _ =>
            writes_end rfl
      | false => exact writes_bind rfl fun _ => writes_end rfl
  | exited code =>
      exact writes_bind rfl fun _ => writes_bind rfl fun _ =>
        writes_end rfl
  | terminated => exact writes_bind rfl fun _ => writes_end rfl

/-- What a resume does with its backend's answer, whichever call it
makes. -/
private theorem runBackend_writes {b : BackendId} {kind : Resume}
    {tid : Int} {gran : Option Granularity} {generation : UInt64}
    {k : Option (Except BackendError StopOutcome) → ToolProg ToolOutcome}
    (hnone : Obeys WriteNext WriteSettled (k none) .quiet)
    (herr : ∀ e, Obeys WriteNext WriteSettled (k (some (.error e))) .owing)
    (hok : ∀ o, k (some (.ok o)) = handleStopResult o generation) :
    Obeys WriteNext WriteSettled (runBackend b kind tid gran >>= k)
      .quiet := by
  have hend := fun o => handleStopResult_writes o generation
  cases kind with
  | «continue» | step _ =>
      refine writes_bind rfl fun r => ?_
      match r with
      | none => exact hnone
      | some (.error e) => exact herr e
      | some (.ok o) =>
          rw [hok o]
          cases o with
          | stopped info => exact hend (.stopped info)
          | exited code => exact hend (.exited code)
          | terminated => exact hend .terminated

/-- A resume handler decides once it has a backend, and again at its
backend's answer. -/
theorem resume_writes (args : Args) (kind : Resume) (opErr : OpError)
    (timeoutMsg : String) :
    Obeys WriteNext WriteSettled (resume args kind opErr timeoutMsg)
      .quiet := by
  refine writes_bind rfl fun r => ?_
  cases r with
  | error e => exact writes_end rfl
  | ok u =>
      refine writes_bind rfl fun d => ?_
      cases d with
      | true => exact writes_end rfl
      | false =>
          have hthread : Obeys WriteNext (fun q _ => q = .quiet)
              (resolveThreadId args) .quiet :=
            resolveThreadId_stays (fun _ => ⟨rfl, rfl⟩) args
          refine hthread.bind fun q t hq => ?_
          subst hq
          cases t with
          | error e => exact writes_end rfl
          | ok tid =>
              refine writes_bind rfl fun b => ?_
              cases b with
              | none => exact writes_end rfl
              | some b =>
                  refine writes_bind rfl fun g =>
                    writes_bind rfl fun _ => ?_
                  exact runBackend_writes (writes_end rfl)
                    (fun e => writes_bind rfl fun _ => writes_end rfl)
                    fun _ => rfl

-- ====================================================== silent handlers

/-- A disconnect writes no state outside its reset. -/
theorem DiscNext.silent {β : Type} {q q' : DiscPhase} {op : ToolOp β}
    {b : β} (hq : DiscNext q op b q') :
    WriteNext .silent op b .silent := by
  cases hq <;> exact ⟨rfl, rfl⟩

/-- A breakpoint handler writes no state. -/
theorem BpNext.silent {β : Type} {q q' : BpPhase} {op : ToolOp β}
    {b : β} (hq : BpNext q op b q') :
    WriteNext .silent op b .silent := by
  cases hq <;> exact ⟨rfl, rfl⟩

-- ============================================================ connects

/-- The connect section writes no state outside its reset. -/
theorem connectSection_writes (registry : Registry)
    (requested : Option String) (unknown : String → String) :
    Obeys WriteNext (fun q _ => q = .quiet)
      (connectSection registry requested unknown) .quiet := by
  have hfail : ∀ outcome : ToolOutcome,
      Obeys WriteNext (fun q _ => q = .quiet)
        (reset >>= fun _ => clearBackend >>= fun _ =>
          (pure (.error outcome) :
            ToolProg (Except ToolOutcome (String × BackendId))))
        .quiet := fun outcome =>
    writes_bind rfl fun _ => writes_bind rfl
      fun _ => writes_bind rfl fun _ =>
        writes_bind rfl fun _ => rfl
  unfold connectSection
  cases registry.select requested with
  | error e => exact hfail _
  | ok factory =>
      refine writes_bind rfl fun r => ?_
      cases r with
      | error e => exact hfail _
      | ok b =>
          exact writes_bind rfl fun _ =>
            writes_bind rfl fun _ =>
              writes_bind rfl fun _ =>
                writes_bind rfl fun _ => rfl

/-- What follows a cancelled or failed handshake. -/
private theorem cleanup_writes (outcome : ToolOutcome) :
    Obeys WriteNext WriteSettled
      (cleanupAfterCancel >>= fun _ =>
        (pure outcome : ToolProg ToolOutcome)) .quiet := by
  exact writes_bind rfl fun _ => writes_bind rfl
    fun _ => writes_bind rfl fun _ =>
      writes_bind rfl fun _ => writes_end rfl

/-- Recording a pid, before the rest. -/
private theorem recordPid_writes {q : WritePhase} {pid : Option Int}
    {k : Unit → ToolProg ToolOutcome} (hq : q = .quiet ∨ q = .owing)
    (hk : Obeys WriteNext WriteSettled (k ()) q) :
    Obeys WriteNext WriteSettled (recordPid pid >>= k) q := by
  cases pid with
  | none => exact hk
  | some pid =>
      rcases hq with rfl | rfl <;> exact writes_bind rfl fun _ => hk

theorem launchSettled_writes (program : String) (b : BackendId)
    (outcome : LaunchOutcome) :
    Obeys WriteNext WriteSettled (launchSettled program b outcome)
      (settledPhase outcome.stays) := by
  cases outcome with
  | stopped info =>
      exact writes_bind rfl fun _ => writes_bind rfl fun _ =>
        recordPid_writes (.inr rfl) (writes_bind rfl fun _ =>
          writes_bind rfl fun _ => writes_bind rfl fun _ => writes_end rfl)
  | running =>
      exact writes_bind rfl fun _ => writes_bind rfl fun _ =>
        recordPid_writes (.inr rfl) (writes_bind rfl fun _ =>
          writes_bind rfl fun _ => writes_end rfl)
  | exited code =>
      exact writes_bind rfl fun _ => writes_bind rfl fun _ =>
        recordPid_writes (.inl rfl) (writes_bind rfl fun _ =>
          writes_bind rfl fun _ => writes_end rfl)

/-- The end of an attach, on its outcome. -/
private theorem attachOutcome_writes (outcome : AttachOutcome)
    (stopped : StopInfo → ToolOutcome) (ended : ToolOutcome) :
    Obeys WriteNext WriteSettled
      (match outcome with
        | .stopped info => do
            session (.setState .stopped)
            session (.setLastStopped info)
            return stopped info
        | .exited _ | .terminated => do
            session (.setState .terminated)
            return ended) (settledPhase outcome.stays) := by
  cases outcome with
  | stopped info =>
      exact writes_bind rfl fun _ => writes_bind rfl fun _ => writes_end rfl
  | exited code => exact writes_bind rfl fun _ => writes_end rfl
  | terminated => exact writes_bind rfl fun _ => writes_end rfl

theorem attachSettled_writes (label : String) (explicitPid : Option Int)
    (b : BackendId) (outcome : AttachOutcome) :
    Obeys WriteNext WriteSettled (attachSettled label explicitPid b outcome)
      (settledPhase outcome.stays) := by
  have hend := fun pid => attachOutcome_writes outcome
    (stoppedConnect "attached" "program" (.str label) (some pid))
    (.text "Process exited during attach")
  generalize outcome.stays = stays at hend
  cases explicitPid with
  | some pid =>
      cases stays <;> exact writes_bind rfl fun _ =>
        writes_bind rfl fun _ => writes_bind rfl fun pid => hend pid
  | none =>
      cases stays
      · exact writes_bind rfl fun _ => writes_bind rfl fun p =>
          recordPid_writes (.inl rfl) (writes_bind rfl fun pid => hend pid)
      · exact writes_bind rfl fun _ => writes_bind rfl fun p =>
          recordPid_writes (.inr rfl) (writes_bind rfl fun pid => hend pid)

theorem dumpSettled_writes (path : String) (outcome : DumpOutcome) :
    Obeys WriteNext WriteSettled (dumpSettled path outcome) .owing := by
  refine writes_bind rfl fun _ => writes_bind rfl fun _ => ?_
  cases outcome.stop with
  | some info => exact writes_bind rfl fun _ => writes_end rfl
  | none => exact writes_end rfl

theorem kernelSettled_writes (connection : String)
    (outcome : AttachOutcome) :
    Obeys WriteNext WriteSettled (kernelSettled connection outcome)
      (settledPhase outcome.stays) := attachOutcome_writes outcome _ _

/-- A connect handler that returns from its guard, or goes on. -/
private theorem guardIdle_writes {q : WritePhase}
    {k : Except String Unit → ToolProg ToolOutcome}
    (hq : q = .silent ∨ q = .quiet)
    (herr : ∀ e, k (.error e) = pure (.error e))
    (hok : Obeys WriteNext WriteSettled (k (.ok ()))
      (q.next (.inl (.checkState [.idle])) (.ok ()))) :
    Obeys WriteNext WriteSettled (session (.checkState [.idle]) >>= k) q := by
  have hallow : q.allows (.inl (.checkState [.idle])) = true := by
    rcases hq with rfl | rfl <;> rfl
  refine writes_bind hallow fun r => ?_
  cases r with
  | error e =>
      rw [herr e]
      rcases hq with rfl | rfl <;> exact writes_end rfl
  | ok u => exact hok

/-- One whose arguments are refused writes nothing. -/
private theorem refused_writes {e : String}
    {k : Except String Unit → ToolProg ToolOutcome}
    (herr : ∀ e, k (.error e) = pure (.error e))
    (hok : k (.ok ()) = pure (.error e)) :
    Obeys WriteNext WriteSettled (session (.checkState [.idle]) >>= k)
      .silent := by
  apply guardIdle_writes (.inl rfl) herr
  rw [hok]
  exact writes_end rfl

/-- The connect section and what its caller does with the backend. -/
private theorem connect_writes {registry : Registry}
    {requested : Option String} {unknown : String → String}
    {k : Except ToolOutcome (String × BackendId) → ToolProg ToolOutcome}
    (herr : ∀ outcome, k (.error outcome) = pure outcome)
    (hok : ∀ c, Obeys WriteNext WriteSettled (k (.ok c)) .quiet) :
    Obeys WriteNext WriteSettled
      (connectSection registry requested unknown >>= k)
      .quiet := by
  refine (connectSection_writes registry requested unknown).bind
    fun q a hq => ?_
  subst hq
  cases a with
  | error outcome =>
      rw [herr outcome]
      exact writes_end rfl
  | ok c => exact hok c

theorem launchConfigured_writes (registry : Registry) (backend : String)
    (spec : LaunchSpec) :
    Obeys WriteNext WriteSettled (launchConfigured registry backend spec)
      .owing := by
  refine writes_bind rfl fun _ => writes_bind rfl fun r => ?_
  refine connect_writes (fun _ => rfl) fun c => ?_
  refine writes_bind rfl fun o => ?_
  match o with
  | none => exact cleanup_writes _
  | some (.error e) => exact cleanup_writes _
  | some (.ok outcome) =>
      have h := launchSettled_writes
      cases outcome <;> exact h _ _ _

theorem handleLaunch_writes (registry : Registry) (text : JsonText)
    (args : Args) :
    Obeys WriteNext WriteSettled (handleLaunch registry text args)
      (if refusesLaunch text args then .silent else .quiet) := by
  unfold handleLaunch refusesLaunch
  cases args.requireString "program" with
  | error e => exact refused_writes (fun _ => rfl) rfl
  | ok program =>
      cases args.parseJsonArray text "args" with
      | error e => exact refused_writes (fun _ => rfl) rfl
      | ok programArgs =>
          cases args.parseJsonObject text "env" with
          | error e => exact refused_writes (fun _ => rfl) rfl
          | ok env =>
              exact guardIdle_writes (.inr rfl) (fun _ => rfl)
                (launchConfigured_writes _ _ _)

theorem attachConfigured_writes (registry : Registry) (backend : String)
    (spec : AttachSpec) (programLabel : String)
    (explicitPid : Option Int) :
    Obeys WriteNext WriteSettled (attachConfigured registry backend spec
      programLabel explicitPid) .owing := by
  refine writes_bind rfl fun _ => ?_
  refine connect_writes (fun _ => rfl) fun c => ?_
  refine writes_bind rfl fun o => ?_
  match o with
  | none => exact cleanup_writes _
  | some (.error e) => exact cleanup_writes _
  | some (.ok outcome) =>
      have h := attachSettled_writes
      cases outcome <;> exact h _ _ _ _

theorem handleAttach_writes (registry : Registry) (args : Args) :
    Obeys WriteNext WriteSettled (handleAttach registry args)
      (if !(attachTarget args).isOk then .silent else .quiet) := by
  unfold handleAttach
  cases attachTarget args with
  | error e => exact refused_writes (fun _ => rfl) rfl
  | ok target =>
      exact guardIdle_writes (.inr rfl) (fun _ => rfl)
        (attachConfigured_writes _ _ _ _ _)

theorem openCrashDumpConfigured_writes (registry : Registry)
    (dumpPath : String) :
    Obeys WriteNext WriteSettled (openCrashDumpConfigured registry dumpPath)
      .owing := by
  refine writes_bind rfl fun _ => ?_
  refine connect_writes (fun _ => rfl) fun c => ?_
  refine writes_bind rfl fun o => ?_
  match o with
  | none => exact cleanup_writes _
  | some (.error e) => cases e <;> exact cleanup_writes _
  | some (.ok outcome) => exact dumpSettled_writes _ _

theorem handleOpenCrashDump_writes (registry : Registry) (args : Args) :
    Obeys WriteNext WriteSettled (handleOpenCrashDump registry args)
      (if !(args.requireString "dump_path").isOk then .silent
        else .quiet) := by
  unfold handleOpenCrashDump
  cases args.requireString "dump_path" with
  | error e => exact refused_writes (fun _ => rfl) rfl
  | ok dumpPath =>
      exact guardIdle_writes (.inr rfl) (fun _ => rfl)
        (openCrashDumpConfigured_writes _ _)

theorem attachKernelConfigured_writes (registry : Registry)
    (connectionStr : String) :
    Obeys WriteNext WriteSettled
      (attachKernelConfigured registry connectionStr) .owing := by
  refine writes_bind rfl fun _ => ?_
  refine connect_writes (fun _ => rfl) fun c => ?_
  refine writes_bind rfl fun o => ?_
  match o with
  | none => exact cleanup_writes _
  | some (.error e) => cases e <;> exact cleanup_writes _
  | some (.ok outcome) =>
      have h := kernelSettled_writes
      cases outcome <;> exact h _ _

theorem handleAttachKernel_writes (registry : Registry) (args : Args) :
    Obeys WriteNext WriteSettled (handleAttachKernel registry args)
      (if refusesConnection args then .silent else .quiet) := by
  unfold handleAttachKernel
  cases hc : args.requireString "connection" with
  | error e =>
      have hrefused : refusesConnection args = true := by
        rw [refusesConnection, hc]
      rw [hrefused]
      exact refused_writes (fun _ => rfl) rfl
  | ok connection =>
      by_cases hnet : connection.startsWith "net:" = true
      · have hrefused : refusesConnection args = false := by
          rw [refusesConnection, hc]
          exact congrArg not hnet
        rw [hrefused]
        refine guardIdle_writes (.inr rfl) (fun _ => rfl) ?_
        dsimp only
        rw [if_pos hnet]
        exact attachKernelConfigured_writes _ _
      · have hrefused : refusesConnection args = true := by
          rw [refusesConnection, hc]
          exact congrArg not (Bool.eq_false_iff.mpr hnet)
        rw [hrefused]
        apply refused_writes (fun _ => rfl)
        exact if_neg hnet

-- =============================================================== calls

/-- Every call obeys the protocol of state writes, and returns with no
write to come. -/
theorem Call.writes_obeys (host : Host) (c : Call) :
    Obeys WriteNext WriteSettled (c.prog host) (c.writePhase₀ host) := by
  have hsilent : ∀ {Q : Type} {P : Protocol ToolOp Q}
      {R : Q → ToolOutcome → Prop} {p : ToolProg ToolOutcome} {q : Q},
      (∀ {β : Type} {q q' : Q} {op : ToolOp β} {b : β}, P q op b q' →
        WriteNext .silent op b .silent) →
      Obeys P R p q → Obeys WriteNext WriteSettled p .silent := fun hP h =>
    h.embed (f := fun _ => WritePhase.silent) hP fun _ _ _ => nofun
  cases c with
  | launch args => exact handleLaunch_writes _ _ args
  | attach args => exact handleAttach_writes _ args
  | openCrashDump args => exact handleOpenCrashDump_writes _ args
  | attachKernel args => exact handleAttachKernel_writes _ args
  | disconnect args =>
      exact hsilent DiscNext.silent (handleDisconnect_obeys args)
  | «continue» args => exact resume_writes args _ _ _
  | stepOver args => exact resume_writes args _ _ _
  | stepInto args => exact resume_writes args _ _ _
  | stepOut args => exact resume_writes args _ _ _
  | setBreakpoint args =>
      exact hsilent BpNext.silent (handleSetBreakpoint_obeys args)
  | setFunctionBreakpoint args =>
      exact hsilent BpNext.silent (handleSetFunctionBreakpoint_obeys args)
  | removeBreakpoint args =>
      exact hsilent BpNext.silent (handleRemoveBreakpoint_obeys args)
  | pause =>
      refine writes_bind rfl fun r => ?_
      cases r with
      | error e => exact writes_end rfl
      | ok u =>
          refine writes_bind rfl fun b => ?_
          cases b with
          | none => exact writes_end rfl
          | some b =>
              refine writes_bind rfl fun r => ?_
              cases r <;> exact writes_end rfl
  | listBreakpoints => exact writes_bind rfl fun _ => writes_end rfl
  | readOutput =>
      refine writes_bind rfl fun r => ?_
      cases r with
      | error e => exact writes_end rfl
      | ok u => exact writes_bind rfl fun _ => writes_end rfl

/-- The phase of call `i` with its state writes, read off a history. -/
def writePhase (host : Host) (calls : Nat → Call) (i : Nat) :
    History → WritePhase
  | [] => (calls i).writePhase₀ host
  | .act j op b _ _ :: h =>
      if j = i then (writePhase host calls i h).next op b
      else writePhase host calls i h
  | .env _ _ _ :: h => writePhase host calls i h

end DebugMcp
