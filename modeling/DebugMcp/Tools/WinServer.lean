/-
The tool server over the WinDbg backend.

The awaits of `cont` and `step`, and the flag that `pause` sets, are
carried out: a handler's lock sections, the sends of its commands and the
awaits of their replies interleave with the engine thread. The stream
tells the pump of a termination when the thread has ended.

`WinFlightNext` is the protocol of the execution tools over it, from the
sections before the Running write to the last stop that is cached.
-/
import DebugMcp.Tools.Backed
import DebugMcp.WinDbg.Effects

namespace DebugMcp

open Conc

-- ============================================================== machine

/-- The operations of a handler over the WinDbg backend. -/
abbrev WinServerOp := BackedOp WinOp

/-- The server with the engine of its backend. -/
abbrev WinServer := Backed EngineThread

/-- The environment's answer to an operation. -/
abbrev WinServerAnswer := BackedAnswer CallAnswer

/-- What the environment does on its own. -/
abbrev WinServerMove := BackedMove ThreadMove

/-- A handler's operation over the WinDbg backend. -/
def overWin : {β : Type} → ToolOp β → Prog WinServerOp β
  | _, .inr (.cont _ threadId) => racedCall (windbgCont threadId)
  | _, .inr (.step _ kind threadId gran) =>
      racedCall (windbgStep kind threadId gran)
  | _, .inr (.pause _) => overBackend windbgPause
  | _, op => Prog.perform (.tool op)

/-- What the stream may tell the pump. -/
def EngineThread.tells (w : EngineThread) : EnvMove → Bool
  | .pump _ (.terminated _) => w.pc = .gone
  | _ => true

/-- The server over its backend as a machine. -/
abbrev winMachine :
    Machine WinServerOp WinServerAnswer WinServerMove WinServer :=
  backedMachine engineMachine EngineThread.tells

/-- An event of a run over the WinDbg backend. -/
abbrev WinEvent := BackedEvent WinOp ThreadMove EngineThread

/-- The history of such a run, newest first. -/
abbrev WinHistory := List WinEvent

-- =============================================================== calls

/-- A call of an execution tool. -/
inductive ExecTool
  | resume (c : ResumeTool)
  | pause

/-- Its handler. -/
def ExecTool.prog : ExecTool → ToolProg ToolOutcome
  | resume c => c.prog
  | pause => handlePause

/-- The calls `calls` over the WinDbg backend, none of which has
started. -/
def winPool (calls : Nat → ExecTool) (w : WinServer) :
    Pool WinServerOp ToolOutcome WinServer where
  world := w
  prog i := some ((calls i).prog.interp overWin)

-- ============================================================== phases

/-- Where a handler is. It is in flight from its Running write until the
stop it wrote is cached. -/
inductive WinFlight
  /-- It is a pause. -/
  | pausing
  | before
  /-- It has read the generation. -/
  | ready (g : UInt64)
  | entering (g : UInt64)
  | sending (g : UInt64) (cmd : EngineCmd)
  | waiting (g : UInt64) (cmd : EngineCmd)
  | failed
  | got (g : UInt64) (o : StopOutcome)
  /-- The stop is written to the session, and to be cached. -/
  | caching (info : StopInfo)
  | landed
  /-- It is given up, with an error. -/
  | quit
  deriving DecidableEq

namespace WinFlight

/-- Is the handler between its Running write and the last stop? -/
def inFlight : WinFlight → Bool
  | pausing | before | ready _ | landed | quit => false
  | _ => true

/-- The generation the handler holds. -/
def generation? : WinFlight → Option UInt64
  | ready g | entering g | sending g _ | waiting g _ | got g _ => some g
  | _ => none

end WinFlight

/-- The protocol of the execution tools over the WinDbg backend. -/
inductive WinFlightNext : ⦃β : Type⦄ → WinFlight → WinServerOp β → β →
    WinFlight → Prop
  | look {β : Type} (op : ToolOp β) (h : Looks op) (x : β) :
      WinFlightNext .before (.tool op) x .before
  | watch {β : Type} (op : ToolOp β) (h : Looks op) (x : β) :
      WinFlightNext .pausing (.tool op) x .pausing
  | interrupt : WinFlightNext .pausing (.backend .interrupt) () .pausing
  | generation (g : UInt64) :
      WinFlightNext .before (.tool (.inl .generation)) g (.ready g)
  | run (g : UInt64) :
      WinFlightNext (.ready g) (.tool (.inl (.setState .running))) ()
        (.entering g)
  | lost (g : UInt64) :
      WinFlightNext (.entering g) (.race .first) false .quit
  | polled (g : UInt64) (cmd : EngineCmd) (h : cmd.runs = true)
      (hb : cmd ≠ .breakIn) :
      WinFlightNext (.entering g) (.race .first) true (.sending g cmd)
  | send (g : UInt64) (cmd : EngineCmd) :
      WinFlightNext (.sending g cmd) (.backend (.enqueue cmd))
        (some (.ok ())) (.waiting g cmd)
  | sendClosed (g : UInt64) (cmd : EngineCmd) :
      WinFlightNext (.sending g cmd) (.backend (.enqueue cmd))
        (some (.error ())) .failed
  | sendDrop (g : UInt64) (cmd : EngineCmd) :
      WinFlightNext (.sending g cmd) (.backend (.enqueue cmd)) none .quit
  | stop (g : UInt64) (cmd : EngineCmd) (v : cmd.Value) (o : StopOutcome)
      (h : cmd.outcome? v = some o) :
      WinFlightNext (.waiting g cmd) (.backend (.recv cmd))
        (some (.ok (.ok v))) (.got g o)
  | fallBack (g : UInt64) (ms : Nat) :
      WinFlightNext (.waiting g (.go ms)) (.backend (.recv (.go ms)))
        (some (.ok (.ok none))) (.sending g .breakIn)
  | fail (g : UInt64) (cmd : EngineCmd) (err : EngineError) :
      WinFlightNext (.waiting g cmd) (.backend (.recv cmd))
        (some (.ok (.error err))) .failed
  | closed (g : UInt64) (cmd : EngineCmd) :
      WinFlightNext (.waiting g cmd) (.backend (.recv cmd))
        (some (.error ())) .failed
  | drop (g : UInt64) (cmd : EngineCmd) :
      WinFlightNext (.waiting g cmd) (.backend (.recv cmd)) none .quit
  | revert :
      WinFlightNext .failed (.tool (.inl (.setState .stopped))) () .quit
  | stopped (g : UInt64) (info : StopInfo) :
      WinFlightNext (.got g (.stopped info))
        (.tool (.inl (.setStateIfGeneration g .stopped))) true
        (.caching info)
  | stale (g : UInt64) (info : StopInfo) :
      WinFlightNext (.got g (.stopped info))
        (.tool (.inl (.setStateIfGeneration g .stopped))) false .landed
  | exited (g : UInt64) (code : Option Int) (applied : Bool) :
      WinFlightNext (.got g (.exited code))
        (.tool (.inl (.terminateIfGeneration g code))) applied .landed
  | terminated (g : UInt64) (applied : Bool) :
      WinFlightNext (.got g .terminated)
        (.tool (.inl (.setStateIfGeneration g .terminated))) applied
        .landed
  | cache (info : StopInfo) :
      WinFlightNext (.caching info)
        (.tool (.inl (.setLastStopped info))) () .landed
  | drain (es : List OutputEntry) :
      WinFlightNext .landed (.tool (.inl .drainOutput)) es .landed

-- ============================================================ handlers

/-- A handler returns when it is not in flight, and no error once it has
landed. -/
structure Lands (q : WinFlight) (o : ToolOutcome) : Prop where
  inFlight : q.inFlight = false
  error : q = .landed → o.isError = false

/-- What a backend call answers: nothing when its caller was dropped. -/
abbrev StopResult := Option (Except BackendError StopOutcome)

/-- What it leaves its handler. -/
def WinFlight.after (g : UInt64) : StopResult → WinFlight
  | none => .quit
  | some (.error _) => .failed
  | some (.ok o) => .got g o

section

variable {k : StopResult → Prog WinServerOp ToolOutcome} {g : UInt64}

/-- The handler's part after the backend call. -/
private abbrev Lands.From (g : UInt64)
    (k : StopResult → Prog WinServerOp ToolOutcome) : Prop :=
  ∀ x, Obeys WinFlightNext Lands (k x) (.after g x)

/-- A command is sent, and its reply awaited: the call fails, is dropped,
or goes on with the value. -/
private theorem call_goes (cmd : EngineCmd)
    {p : Option (Except BackendError cmd.Value) →
      Prog WinServerOp ToolOutcome}
    (hnone : Obeys WinFlightNext Lands (p none) .quit)
    (herr : ∀ e, Obeys WinFlightNext Lands (p (some (.error e))) .failed)
    (hok : ∀ v, ∃ q, WinFlightNext (.waiting g cmd)
        (.backend (.recv cmd)) (some (.ok (.ok v))) q ∧
      Obeys WinFlightNext Lands (p (some (.ok v))) q) :
    Obeys WinFlightNext Lands (overBackend (call cmd) >>= p)
      (.sending g cmd) := by
  intro r
  match r with
  | none => exact ⟨_, .sendDrop g cmd, hnone⟩
  | some (.error ()) => exact ⟨_, .sendClosed g cmd, herr _⟩
  | some (.ok ()) =>
      refine ⟨_, .send g cmd, fun r => ?_⟩
      match r with
      | none => exact ⟨_, .drop g cmd, hnone⟩
      | some (.error ()) => exact ⟨_, .closed g cmd, herr _⟩
      | some (.ok (.error err)) => exact ⟨_, .fail g cmd err, herr _⟩
      | some (.ok (.ok v)) => exact hok v

/-- `step`. -/
private theorem step_goes (kind : StepKind) (hk : Lands.From g k) :
    Obeys WinFlightNext Lands (overBackend (call (.step kind)) >>= k)
      (.sending g (.step kind)) :=
  call_goes _ (hk none) (fun e => hk (some (.error e))) fun o =>
    ⟨_, .stop g (.step kind) o o rfl, hk (some (.ok o))⟩

/-- The break-in of a `go` that gave up. -/
private theorem breakIn_goes (hk : Lands.From g k) :
    Obeys WinFlightNext Lands (overBackend (call .breakIn) >>= k)
      (.sending g .breakIn) :=
  call_goes _ (hk none) (fun e => hk (some (.error e))) fun o =>
    ⟨_, .stop g .breakIn o o rfl, hk (some (.ok o))⟩

/-- `cont`. -/
private theorem cont_goes (tid : Int) (hk : Lands.From g k) :
    Obeys WinFlightNext Lands (overBackend (windbgCont tid) >>= k)
      (.sending g (.go goBudget)) := by
  unfold windbgCont overBackend
  rw [Prog.interp_bind, Prog.bind_assoc]
  refine call_goes (.go goBudget) (hk none)
    (fun e => hk (some (.error e))) fun o => ?_
  cases o with
  | some o =>
      exact ⟨_, .stop g (.go goBudget) (some o) o rfl, hk (some (.ok o))⟩
  | none => exact ⟨_, .fallBack g goBudget, breakIn_goes hk⟩

/-- The backend call of a resume handler, raced against its token. -/
private theorem runBackend_lands (b : BackendId) (kind : Resume)
    (tid : Int) (gran : Option Granularity) (hk : Lands.From g k) :
    Obeys WinFlightNext Lands
      ((runBackend b kind tid gran).interp overWin >>= k)
      (.entering g) := by
  cases kind with
  | «continue» =>
      rw [runBackend, server, Prog.interp_perform]
      intro polled
      cases polled with
      | false => exact ⟨_, .lost g, hk none⟩
      | true =>
          exact ⟨_, .polled g (.go goBudget) rfl nofun, cont_goes tid hk⟩
  | step kind =>
      rw [runBackend, server, Prog.interp_perform]
      intro polled
      cases polled with
      | false => exact ⟨_, .lost g, hk none⟩
      | true =>
          exact ⟨_, .polled g (.step kind) rfl nofun, step_goes kind hk⟩

end

/-- What is written to the session for an outcome. -/
private theorem handleStopResult_lands (o : StopOutcome) (g : UInt64) :
    Obeys WinFlightNext Lands ((handleStopResult o g).interp overWin)
      (.got g o) := by
  cases o with
  | stopped info =>
      intro applied
      cases applied with
      | true =>
          exact ⟨_, .stopped g info, fun _ => ⟨_, .cache info, fun es =>
            ⟨_, .drain es, rfl, fun _ => rfl⟩⟩⟩
      | false =>
          exact ⟨_, .stale g info, fun es =>
            ⟨_, .drain es, rfl, fun _ => rfl⟩⟩
  | exited code =>
      exact fun a => ⟨_, .exited g code a, fun es =>
        ⟨_, .drain es, rfl, fun _ => rfl⟩⟩
  | terminated => exact fun a => ⟨_, .terminated g a, rfl, fun _ => rfl⟩

/-- The thread is resolved before the flight. -/
private theorem resolveThreadId_looks (args : Args) :
    Obeys WinFlightNext (fun q _ => q = .before)
      ((resolveThreadId args).interp overWin) .before := by
  unfold resolveThreadId
  cases args.explicitPositiveThreadId with
  | error e => exact rfl
  | ok tid =>
      cases tid with
      | some tid => exact rfl
      | none => exact fun i => ⟨_, .look _ .lastStopped i, rfl⟩

/-- A resume handler over the WinDbg backend obeys its protocol. -/
private theorem resume_lands (args : Args) (kind : Resume)
    (opErr : OpError) (timeoutMsg : String) :
    Obeys WinFlightNext Lands
      ((resume args kind opErr timeoutMsg).interp overWin) .before := by
  intro r
  refine ⟨_, .look _ (.checkState _) r, ?_⟩
  cases r with
  | error e => exact ⟨rfl, nofun⟩
  | ok u =>
      refine fun d => ⟨_, .look _ .isDump d, ?_⟩
      cases d with
      | true => exact ⟨rfl, nofun⟩
      | false =>
          show Obeys _ _ (Prog.interp overWin
            (resolveThreadId args >>= fun _ => _)) _
          rw [Prog.interp_bind]
          refine (resolveThreadId_looks args).bind fun q t hq => ?_
          subst hq
          cases t with
          | error e => exact ⟨rfl, nofun⟩
          | ok tid =>
              intro b
              refine ⟨_, .look _ .currentBackend b, ?_⟩
              cases b with
              | none => exact ⟨rfl, nofun⟩
              | some b =>
                  refine fun g => ⟨_, .generation g, fun _ =>
                    ⟨_, .run g, ?_⟩⟩
                  show Obeys _ _ (Prog.interp overWin
                    (runBackend b kind tid _ >>= fun _ => _)) _
                  rw [Prog.interp_bind]
                  refine runBackend_lands b kind tid _ fun x => ?_
                  match x with
                  | none => exact ⟨rfl, nofun⟩
                  | some (.error e) =>
                      exact fun _ => ⟨_, .revert, rfl, nofun⟩
                  | some (.ok o) => exact handleStopResult_lands o g

/-- So does `pause`. -/
private theorem pause_lands :
    Obeys WinFlightNext Lands (handlePause.interp overWin) .pausing := by
  intro r
  refine ⟨_, .watch _ (.checkState _) r, ?_⟩
  cases r with
  | error e => exact ⟨rfl, nofun⟩
  | ok u =>
      intro b
      refine ⟨_, .watch _ .currentBackend b, ?_⟩
      cases b with
      | none => exact ⟨rfl, nofun⟩
      | some b => exact fun _ => ⟨_, .interrupt, rfl, nofun⟩

/-- Where an execution tool begins. -/
def ExecTool.phase₀ : ExecTool → WinFlight
  | resume _ => .before
  | pause => .pausing

theorem ExecTool.phase₀_inFlight (c : ExecTool) :
    c.phase₀.inFlight = false := by
  cases c <;> rfl

theorem ExecTool.phase₀_generation (c : ExecTool) :
    c.phase₀.generation? = none := by
  cases c <;> rfl

/-- Each execution tool obeys the protocol. -/
theorem ExecTool.obeys (c : ExecTool) :
    Obeys WinFlightNext Lands (c.prog.interp overWin) c.phase₀ := by
  cases c with
  | resume c => cases c <;> exact resume_lands _ _ _ _
  | pause => exact pause_lands

end DebugMcp
