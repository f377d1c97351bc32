/-
The breakpoint setters and the launch over the engine thread, one call at
a time.

`WinDbg/Breakpoints.lean` computes what they do to the engine and to the
table, as functions of both. `WinDbg/Marshal.lean` has their programs,
which lock the table, send a command, await its reply, and so on.
`setters_refine` is that the programs, run one after the other, do what
the functions say: every call returns the function's result and leaves
its table, and the engine thread is idle with the function's engine, or
gone when that engine is.

The engine thread carries out commands as an `EngineModel` answers them,
and ends over a command that this answers `closed`.
-/
import DebugMcp.Lib.RpcAlone
import DebugMcp.WinDbg.Marshal
import DebugMcp.WinDbg.ReplaceAll

namespace DebugMcp.Marshal

open Conc

-- ================================================================ engine

section

variable (e : EngineModel)

/-- What the engine of a model does with a command, and replies; `none`
where it ends over it, or the model does not have it. -/
def modelExec (cmd : EngineCmd) (_ : Unit) (s : DbgEng) :
    Option (cmd.Reply × DbgEng) :=
  match cmd with
  | .launch req =>
      let s := { s with conditions := ∅ }
      match e.launch req with
      | .ok outcome => some (.ok outcome, s)
      | .failed message => some (.error (.engine message), s)
      | .closed => none
  | .setBreakpoint loc condition =>
      match e.setBreakpoint s loc condition with
      | .ok id => some
          (.ok { id, verified := true, line := loc.line, message := "",
                 rejected := false },
            { s with
              live := (id, loc) :: s.live
              asked := (loc, some id) :: s.asked
              conditions := s.stored id condition })
      | .failed message => some (.error (.engine message), { s with
          live := e.left s loc condition ++ s.live
          asked := (loc, none) :: s.asked })
      | .closed => none
  | .removeBreakpoint id =>
      match e.removeBreakpoint s id with
      | .ok () => some (.ok (), { s with
          live := s.live.filter fun x => x.1 ≠ id
          conditions := s.conditions.erase id })
      | .failed message => some (.error (.engine message), s)
      | .closed => none
  | _ => none

/-- Does the engine end over the command? -/
def modelDies (cmd : EngineCmd) (s : DbgEng) : Bool :=
  (modelExec e cmd () s).isNone

/-- Its thread. -/
abbrev modelService : Service EngineCmd Unit DbgEng :=
  ⟨EngineCmd.Reply, modelExec e⟩

/-- The backend over it. -/
abbrev modelMachine :
    Machine BackendOp (RpcAnswer ⊕ LocalAnswer) (RpcMove Unit ⊕ Empty)
      (Rpc (modelService e) × BackendLocal) :=
  backendMachine (modelExec e)

/-- A call of the engine alone, by the model. -/
def callModel (cmd : EngineCmd) (s : DbgEng) :
    Except BackendError cmd.Value × DbgEng :=
  if s.gone then (.error .closed, s)
  else
    match modelExec e cmd () s with
    | none => (.error .closed, { s with gone := true })
    | some (.ok v, s') => (.ok v, s')
    | some (.error err, s') => (.error (mapEngineErr err), s')

-- ================================================================ worlds

/-- The engine a thread has, if it is there. -/
def there (s : DbgEng) : Option DbgEng := if s.gone then none else some s

/-- The thread is idle and has the backend's engine, or is gone when that
is; the backend has its table. -/
def Mirrors (s : WinDbg) (pid : Option Int)
    (w : Rpc (modelService e) × BackendLocal) : Prop :=
  Idle (modelService e) (there s.engine) w.1 ∧ w.2 = ⟨s.breakpoints, pid⟩

/-- No step of the run drops the call, or ends the thread over a command
that does not end it. -/
abbrev undisturbedStep
    (_ : List (Event BackendOp (RpcMove Unit ⊕ Empty)
      (Rpc (modelService e) × BackendLocal)))
    (ev : Event BackendOp (RpcMove Unit ⊕ Empty)
      (Rpc (modelService e) × BackendLocal)) : Prop :=
  undisturbed (modelService e) (modelDies e) ev = true

/-- Run alone from what mirrors `s`, the program returns `r.1`, and leaves
what mirrors `r.2`. -/
def Does {α : Type} (s : WinDbg) (p : BackendProg (Option α))
    (r : α × WinDbg) : Prop :=
  ∀ pid, Ensures (modelMachine e) (undisturbedStep e)
    (fun a w _ => a = some r.1 ∧ Mirrors e r.2 pid w) p
    (fun w _ => Mirrors e s pid w)

end

variable {e : EngineModel} {α β : Type} {s s' : WinDbg}

-- ================================================================= rules

/-- A thread's mirror does not look at an engine that is gone. -/
theorem Mirrors.congr {pid : Option Int}
    {w : Rpc (modelService e) × BackendLocal} (h : Mirrors e s pid w)
    (he : there s.engine = there s'.engine)
    (hb : s.breakpoints = s'.breakpoints) : Mirrors e s' pid w := by
  unfold Mirrors at h ⊢
  rw [← he, ← hb]
  exact h

/-- No step of an idle thread takes the mirror away. -/
theorem mirrors_stable (s : WinDbg) (pid : Option Int) :
    Stable (modelMachine e) (undisturbedStep e)
      (fun w _ => Mirrors e s pid w) := by
  rintro w w' h m ⟨hi, hb⟩ he hok
  exact hi.stays (J := fun u => u = ⟨s.breakpoints, pid⟩)
    (fun m => nomatch m) hb he hok

theorem Does.ret (a : α) : Does e s (.ret (some a)) (a, s) :=
  fun _ => .ret fun _ _ h => ⟨rfl, h⟩

/-- Another engine that is gone will do. -/
theorem Does.congr {p : BackendProg (Option α)} {r r' : α × WinDbg}
    (h : Does e s p r) (ha : r.1 = r'.1)
    (he : there r.2.engine = there r'.2.engine)
    (hb : r.2.breakpoints = r'.2.breakpoints) : Does e s p r' := by
  intro pid
  refine (h pid).mono ?_
  rintro a w _ ⟨rfl, hw⟩
  exact ⟨by rw [ha], hw.congr he hb⟩

/-- A part of a program, and the rest. -/
theorem Does.bind {p : BackendProg (Option α)}
    {k : Option α → BackendProg (Option β)} {a : α} {r : β × WinDbg}
    (hp : Does e s p (a, s')) (hk : Does e s' (k (some a)) r) :
    Does e s (p >>= k) r := by
  intro pid
  refine (hp pid).bind fun c => .fact ?_
  rintro rfl
  exact hk pid

/-- An operation on the backend's own state, and the rest. -/
theorem Does.own {op : LocalOp β} {k : β → BackendProg (Option α)} {b : β}
    {r : α × WinDbg} (s' : WinDbg) (he : s'.engine = s.engine)
    (hop : ∀ pid a x, BackendLocal.run op a ⟨s.breakpoints, pid⟩ = some x →
      x = (b, ⟨s'.breakpoints, pid⟩))
    (hk : Does e s' (k b) r) : Does e s (own op >>= k) r := by
  intro pid
  refine .write (fun b' w _ => b' = b ∧ Mirrors e s' pid w) ?_ ?_ ?_
  · rintro b' w w' h m ⟨hb, hw⟩ hm hok
    exact ⟨hb, mirrors_stable s' pid hw hm hok⟩
  · rintro b' a w w' h ⟨hi, hb⟩ hrun -
    cases a with
    | inl a => cases hrun
    | inr a =>
        obtain ⟨⟨b'', own'⟩, hv, hc⟩ := Option.map_eq_some_iff.mp hrun
        cases hc
        have hv : BackendLocal.run op a w.2 = some (b'', own') := hv
        rw [hb] at hv
        cases hop pid a _ hv
        exact ⟨rfl, he ▸ hi, rfl⟩
  · intro b'
    refine .fact ?_
    rintro rfl
    exact hk pid

-- ================================================================= calls

/-- A command that is carried out does not end the engine. -/
theorem modelExec_gone {cmd : EngineCmd} {u : Unit} {w w' : DbgEng}
    {v : cmd.Reply} (h : modelExec e cmd u w = some (v, w')) :
    w'.gone = w.gone := by
  unfold modelExec at h
  split at h
  · dsimp only at h
    split at h <;> cases h <;> rfl
  · split at h <;> cases h <;> rfl
  · split at h <;> cases h <;> rfl
  · cases h

/-- What the engine's thread does at once is what the model says. -/
theorem callModel_of_atOnce {cmd : EngineCmd} {w : DbgEng}
    {o : Except Unit ((modelService e).Value cmd)} {y : Option DbgEng}
    (h : AtOnce (modelService e) (modelDies e) cmd (there w) o y) :
    told o = (callModel e cmd w).1 ∧ y = there (callModel e cmd w).2 := by
  unfold callModel
  cases hg : w.gone with
  | true =>
      rw [there, if_pos hg] at h
      cases h
      rw [if_pos rfl, there, if_pos hg]
      exact ⟨rfl, rfl⟩
  | false =>
      rw [there, hg, if_neg Bool.false_ne_true] at h
      rw [if_neg Bool.false_ne_true]
      cases h with
      | dies hd =>
          rw [Option.isNone_iff_eq_none.mp hd]
          exact ⟨rfl, rfl⟩
      | @done _ s' a v hx =>
          have hx : modelExec e cmd () w = some (v, s') := hx
          rw [hx]
          have hs := (modelExec_gone hx).trans hg
          cases v with
          | ok v => exact ⟨rfl, (if_neg (by simp [hs])).symm⟩
          | error err => exact ⟨rfl, (if_neg (by simp [hs])).symm⟩

/-- A call of the engine alone. -/
theorem call_does (cmd : EngineCmd) (s : WinDbg) :
    Does e s (call cmd) ((callModel e cmd s.engine).1,
      { s with engine := (callModel e cmd s.engine).2 }) := by
  intro pid
  rw [call_eq]
  have hask : Ensures (modelMachine e) (undisturbedStep e)
      (fun r w _ => Replied (modelService e) (modelDies e)
        (fun u => u = ⟨s.breakpoints, pid⟩) cmd (there s.engine) r w)
      (ask cmd) (fun w _ => Mirrors e s pid w) :=
    ask_alone (fun m => nomatch m) cmd (there s.engine)
  refine hask.bind fun r => .ret ?_
  rintro w _ ⟨o, y, rfl, hat, hi, hb⟩
  obtain ⟨ho, hy⟩ := callModel_of_atOnce hat
  exact ⟨by rw [Option.map_some, ho], hy ▸ hi, hb⟩

-- ============================================================== commands

/-- A new breakpoint is set as the functions set it. -/
theorem setBreakpoint_does (loc : BpLoc) (condition : String)
    (s : WinDbg) :
    Does e s (call (.setBreakpoint loc condition))
      ((callSetBreakpoint e loc condition s.engine).1,
        { s with
          engine := (callSetBreakpoint e loc condition s.engine).2 }) := by
  refine (call_does _ s).congr ?_ ?_ rfl
  · simp only [callModel, callSetBreakpoint, modelExec]
    split
    · rfl
    · cases e.setBreakpoint s.engine loc condition <;> rfl
  · simp only [callModel, callSetBreakpoint, modelExec]
    split
    · rfl
    · cases e.setBreakpoint s.engine loc condition <;> rfl

/-- A breakpoint is removed as the functions remove it. -/
theorem removeBreakpoint_does (id : Int) (s : WinDbg) :
    Does e s (call (.removeBreakpoint id))
      ((callRemoveBreakpoint e id s.engine).1,
        { s with engine := (callRemoveBreakpoint e id s.engine).2 }) := by
  refine (call_does _ s).congr ?_ ?_ rfl
  · simp only [callModel, callRemoveBreakpoint, modelExec]
    split
    · rfl
    · cases e.removeBreakpoint s.engine id <;> rfl
  · simp only [callModel, callRemoveBreakpoint, modelExec]
    split
    · rfl
    · cases e.removeBreakpoint s.engine id <;> rfl

theorem removeEngineBreakpoint_does (id : Int) (s : WinDbg) :
    Does e s (removeEngineBreakpoint id)
      ((DebugMcp.removeEngineBreakpoint e id s.engine).1,
        { s with
          engine := (DebugMcp.removeEngineBreakpoint e id s.engine).2 })
    := by
  unfold removeEngineBreakpoint DebugMcp.removeEngineBreakpoint
  split
  · exact .ret _
  · refine (removeBreakpoint_does id s).bind ?_
    obtain ⟨outcome, w⟩ := callRemoveBreakpoint e id s.engine
    cases outcome with
    | ok u => exact .ret _
    | error err => cases err <;> exact .ret _

-- ================================================================= loops

section

variable {κ : Type} [DecidableEq κ]

theorem placeAll_does (locOf : κ → BpLoc) (prior : BpMap κ)
    (wants : List (Want κ)) (newMap : BpMap κ) (s : WinDbg) :
    Does e s (placeAll locOf prior wants newMap)
      ((DebugMcp.placeAll e locOf prior wants newMap s.engine).1,
        { s with engine :=
            (DebugMcp.placeAll e locOf prior wants newMap s.engine).2 })
    := by
  induction wants generalizing newMap s with
  | nil => exact .ret _
  | cons want wants ih =>
      cases want with
      | refuse result =>
          rw [DebugMcp.placeAll]
          refine (ih newMap s).bind ?_
          obtain ⟨outcome, w⟩ :=
            DebugMcp.placeAll e locOf prior wants newMap s.engine
          cases outcome <;> exact .ret _
      | place key condition unverifiedLine =>
          rw [placeAll, DebugMcp.placeAll]
          cases hkey : prior.lookup key with
          | some existing =>
              dsimp only
              refine (ih (newMap.insert key existing) s).bind ?_
              obtain ⟨outcome, w⟩ := DebugMcp.placeAll e locOf prior wants
                (newMap.insert key existing) s.engine
              cases outcome <;> exact .ret _
          | none =>
              dsimp only
              refine (setBreakpoint_does (locOf key) condition s).bind ?_
              obtain ⟨outcome, w⟩ :=
                callSetBreakpoint e (locOf key) condition s.engine
              dsimp only
              cases hres : bpResultOrContinue outcome unverifiedLine with
              | error err => exact .ret _
              | ok result =>
                  dsimp only
                  refine (ih _ { s with engine := w }).bind ?_
                  dsimp only
                  obtain ⟨outcome, w'⟩ := DebugMcp.placeAll e locOf prior
                    wants (if result.verified then newMap.insert key result
                      else newMap) w
                  cases outcome <;> exact .ret _

theorem removeStale_does (desired : List κ)
    (entries : List (Sigma fun _ : κ => BreakpointResult)) (s : WinDbg) :
    Does e s (removeStale desired entries)
      ((DebugMcp.removeStale e desired entries s.engine).1,
        { s with
          engine := (DebugMcp.removeStale e desired entries s.engine).2 })
    := by
  induction entries generalizing s with
  | nil => exact .ret _
  | cons entry rest ih =>
      obtain ⟨key, old⟩ := entry
      rw [removeStale, DebugMcp.removeStale]
      split
      · exact ih s
      · refine (removeEngineBreakpoint_does old.id s).bind ?_
        obtain ⟨outcome, w⟩ :=
          DebugMcp.removeEngineBreakpoint e old.id s.engine
        cases outcome with
        | error err => exact .ret _
        | ok u => exact ih { s with engine := w }

end

-- =============================================================== setters

theorem setSourceBreakpoints_does (file : String) (bps : List SourceBp)
    (s : WinDbg) :
    Does e s (setSourceBreakpoints file bps)
      (DebugMcp.setSourceBreakpoints e file bps s) := by
  unfold setSourceBreakpoints DebugMcp.setSourceBreakpoints
  refine .own s rfl (b := s.breakpoints.forFile file) ?_ ?_
  · rintro pid (_ | _) x hr <;> cases hr
    rfl
  dsimp only
  refine (placeAll_does _ _ _ _ s).bind ?_
  obtain ⟨outcome, w⟩ := DebugMcp.placeAll e (.fileLine file)
    (s.breakpoints.forFile file) (bps.map (sourceWant file)) ∅ s.engine
  cases outcome with
  | error err => exact .ret _
  | ok placed =>
      obtain ⟨results, newMap⟩ := placed
      refine (removeStale_does _ _ { s with engine := w }).bind ?_
      dsimp only
      obtain ⟨removed, w'⟩ := DebugMcp.removeStale e
        ((bps.map (sourceWant file)).filterMap Want.key?)
        (s.breakpoints.forFile file).entries w
      refine .own ⟨w', { s.breakpoints with
        source := if newMap.keys.isEmpty
          then s.breakpoints.source.erase file
          else s.breakpoints.source.insert file newMap }⟩ rfl
            (b := ()) ?_ ?_
      · rintro pid (_ | _) x hr <;> cases hr
        rfl
      · cases removed <;> exact .ret _

theorem setFunctionBreakpoints_does (bps : List FunctionBp) (s : WinDbg) :
    Does e s (setFunctionBreakpoints bps)
      (DebugMcp.setFunctionBreakpoints e bps s) := by
  unfold setFunctionBreakpoints DebugMcp.setFunctionBreakpoints
  refine .own s rfl (b := s.breakpoints.function) ?_ ?_
  · rintro pid (_ | _) x hr <;> cases hr
    rfl
  dsimp only
  refine (placeAll_does _ _ _ _ s).bind ?_
  obtain ⟨outcome, w⟩ := DebugMcp.placeAll e .function
    s.breakpoints.function (bps.map functionWant) ∅ s.engine
  cases outcome with
  | error err => exact .ret _
  | ok placed =>
      obtain ⟨results, newMap⟩ := placed
      refine (removeStale_does _ _ { s with engine := w }).bind ?_
      dsimp only
      obtain ⟨removed, w'⟩ := DebugMcp.removeStale e
        ((bps.map functionWant).filterMap Want.key?)
        s.breakpoints.function.entries w
      refine .own ⟨w', { s.breakpoints with function := newMap }⟩ rfl
        (b := ()) ?_ ?_
      · rintro pid (_ | _) x hr <;> cases hr
        rfl
      · cases removed <;> exact .ret _

-- ================================================================ launch

theorem flushSource_does (file : String) (bps : List SourceBp)
    (s : WinDbg) :
    Does e s (flushSource file bps)
      ((), DebugMcp.flushSource e file bps s) := by
  induction bps generalizing s with
  | nil => exact .ret _
  | cons bp bps ih =>
      rw [flushSource, DebugMcp.flushSource]
      cases tryLine bp.line with
      | none => exact ih s
      | some line =>
          dsimp only
          refine (setBreakpoint_does _ _ s).bind ?_
          obtain ⟨outcome, w⟩ := callSetBreakpoint e (.fileLine file line)
            bp.condition s.engine
          cases outcome with
          | error err => exact ih { s with engine := w }
          | ok result =>
              dsimp only
              by_cases hv : result.verified = true
              · rw [if_pos hv, if_pos hv]
                refine .own ⟨w, { s.breakpoints with
                  source := s.breakpoints.source.insert file
                    ((s.breakpoints.forFile file).insert line result) }⟩
                  rfl (b := ()) ?_ (ih _)
                rintro pid (_ | _) x hr <;> cases hr
                rfl
              · rw [if_neg hv, if_neg hv]
                exact ih { s with engine := w }

theorem flushFiles_does (files : List (String × List SourceBp))
    (s : WinDbg) :
    Does e s (flushFiles files) ((), files.foldl
      (fun s (file, bps) => DebugMcp.flushSource e file bps s) s) := by
  induction files generalizing s with
  | nil => exact .ret _
  | cons entry files ih =>
      obtain ⟨file, bps⟩ := entry
      exact (flushSource_does file bps s).bind (ih _)

theorem flushFunction_does (bps : List FunctionBp) (s : WinDbg) :
    Does e s (flushFunction bps)
      ((), DebugMcp.flushFunction e bps s) := by
  induction bps generalizing s with
  | nil => exact .ret _
  | cons bp bps ih =>
      rw [flushFunction, DebugMcp.flushFunction]
      by_cases hbare : isBareAddressName bp.name = true
      · rw [if_pos hbare, if_pos hbare]
        exact ih s
      · rw [if_neg hbare, if_neg hbare]
        refine (setBreakpoint_does _ _ s).bind ?_
        obtain ⟨outcome, w⟩ := callSetBreakpoint e (.function bp.name)
          bp.condition s.engine
        cases outcome with
        | error err => exact ih { s with engine := w }
        | ok result =>
            dsimp only
            by_cases hv : result.verified = true
            · rw [if_pos hv, if_pos hv]
              refine .own ⟨w, { s.breakpoints with
                function := s.breakpoints.function.insert bp.name result }⟩
                rfl (b := ()) ?_ (ih _)
              rintro pid (_ | _) x hr <;> cases hr
              rfl
            · rw [if_neg hv, if_neg hv]
              exact ih { s with engine := w }

theorem launch_does (spec : LaunchSpec) (s : WinDbg) :
    Does e s (launch spec) (winDbgLaunch e spec s) := by
  unfold launch winDbgLaunch
  refine (call_does _ s).bind ?_
  simp only [callModel, modelExec]
  cases hg : s.engine.gone with
  | true => exact .ret _
  | false =>
      cases hl : e.launch { program := spec.program, args := spec.args,
                            cwd := spec.cwd } with
      | closed => exact (Does.ret _).congr rfl rfl rfl
      | failed message => exact .ret _
      | ok outcome =>
          cases outcome with
          | exited code => exact .ret _
          | terminated => exact .ret _
          | stopped info =>
              refine (flushFiles_does _ _).bind ?_
              exact (flushFunction_does _ _).bind (.ret _)

-- ================================================================== runs

/-- A launch, or a call of one of the two setters. -/
inductive SetterCall
  | launch (spec : LaunchSpec)
  | setter (c : BpCall)
  deriving DecidableEq

/-- What it returns. -/
inductive SetterOutcome
  | launched (r : Except BackendError LaunchOutcome)
  | set (r : Except BackendError (List BreakpointResult))

namespace SetterCall

/-- Its program. -/
def prog : SetterCall → BackendProg (Option SetterOutcome)
  | launch spec => do
      match ← Marshal.launch spec with
      | none => return none
      | some r => return some (.launched r)
  | setter (.source file bps) => do
      match ← setSourceBreakpoints file bps with
      | none => return none
      | some r => return some (.set r)
  | setter (.function bps) => do
      match ← setFunctionBreakpoints bps with
      | none => return none
      | some r => return some (.set r)

/-- What the functions compute. -/
def run (e : EngineModel) (s : WinDbg) : SetterCall → SetterOutcome × WinDbg
  | launch spec =>
      (.launched (winDbgLaunch e spec s).1, (winDbgLaunch e spec s).2)
  | setter c => (.set (c.run e s).1, (c.run e s).2)

/-- A call over the engine thread does what the functions compute. -/
theorem does (c : SetterCall) (s : WinDbg) :
    Does e s c.prog (c.run e s) := by
  match c with
  | launch spec => exact (launch_does spec s).bind (.ret _)
  | setter (.source file bps) =>
      exact (setSourceBreakpoints_does file bps s).bind (.ret _)
  | setter (.function bps) =>
      exact (setFunctionBreakpoints_does bps s).bind (.ret _)

end SetterCall

/-- What the functions leave of a new backend, calls newest first. -/
def after (e : EngineModel) : List SetterCall → WinDbg
  | [] => .new
  | c :: cs => (c.run e (after e cs)).2

/-- What they return. -/
def outcomes (e : EngineModel) : List SetterCall → List SetterOutcome
  | [] => []
  | c :: cs => (c.run e (after e cs)).1 :: outcomes e cs

/-- A new backend, whose engine thread is idle. -/
def newBackend (e : EngineModel) (pid : Option Int) :
    Rpc (modelService e) × BackendLocal :=
  (.new (modelService e) .new, ⟨⟨∅, ∅⟩, pid⟩)

/-- A call that followed another. -/
abbrev FinishedCall (e : EngineModel) :=
  Conc.Finished BackendOp (RpcMove Unit ⊕ Empty)
    (Rpc (modelService e) × BackendLocal) (Option SetterOutcome) SetterCall

/-- Launches and setters over the engine thread, one after the other,
return what the functions compute, and leave it. -/
theorem setters_refine {fs : List (FinishedCall e)} {pid : Option Int}
    {w : Rpc (modelService e) × BackendLocal}
    (hr : SeqTrace (modelMachine e) (undisturbedStep e) SetterCall.prog
      (newBackend e pid) fs w) :
    fs.map Conc.Finished.result
        = (outcomes e (fs.map Conc.Finished.call)).map some ∧
      Mirrors e (after e (fs.map Conc.Finished.call)) pid w := by
  induction hr with
  | nil =>
      have hidle : Idle (modelService e) (some .new)
          (.new (modelService e) .new) :=
        ⟨rfl, rfl, rfl, fun _ h => Option.some.inj h, fun _ _ => rfl⟩
      exact ⟨rfl, hidle, rfl⟩
  | @call fs w h s a _ c hrun ha ih =>
      obtain ⟨hres, hm⟩ := ih
      obtain ⟨rfl, hm'⟩ := (c.does _ pid).sound (mirrors_stable _ pid) hm
        hrun ha
      refine ⟨?_, hm'⟩
      rw [List.map_cons, List.map_cons, hres]
      rfl

-- ============================================================= a session

/-- A launch and setters after it, each careful where it starts. -/
def CarefulCalls (e : EngineModel) : List SetterCall → Prop
  | [] => False
  | [.launch spec] => CarefulLaunch e spec
  | .launch _ :: _ :: _ => False
  | .setter c :: cs => CarefulCalls e cs ∧ Careful e c (after e cs)

theorem CarefulCalls.run {cs : List SetterCall} (h : CarefulCalls e cs) :
    BpRun e (CarefulLaunch e) (Careful e) (after e cs) := by
  induction cs with
  | nil => exact h.elim
  | cons c cs ih =>
      cases c with
      | launch spec =>
          cases cs with
          | nil => exact .launch spec h
          | cons c cs => exact h.elim
      | setter c => exact .call c (ih h.1) h.2

/-- After a launch and setters over the engine thread, as long as it is
there, the backend's table is what the engine has: of an engine whose new
ids are fresh, that leaves nothing of a set that fails, and removes every
breakpoint it has when it is asked to. -/
theorem table_over_thread [e.Fresh] [e.SetsWhole] [e.Removes]
    {fs : List (FinishedCall e)} {pid : Option Int}
    {w : Rpc (modelService e) × BackendLocal}
    (hr : SeqTrace (modelMachine e) (undisturbedStep e) SetterCall.prog
      (newBackend e pid) fs w)
    (hcare : CarefulCalls e (fs.map Conc.Finished.call))
    (hg : w.1.gone = false) :
    Consistent ⟨w.1.state, w.2.breakpoints⟩ := by
  obtain ⟨hi, hb⟩ := (setters_refine hr).2
  have hrun := hcare.run
  generalize after e (fs.map Conc.Finished.call) = s at hi hb hrun
  have hthere : s.engine.gone = false := by
    have hgone := hi.gone
    rw [hg, there] at hgone
    split at hgone
    · cases hgone
    · next h => exact Bool.eq_false_iff.mpr h
  have hstate : w.1.state = s.engine :=
    hi.state s.engine (by simp [there, hthere])
  rw [hstate, hb]
  exact hrun.consistent hthere

-- ================================================================ a run

/-- How one command goes: it is sent, taken, carried out and answered. -/
def oneCommand : List (Action (RpcAnswer ⊕ LocalAnswer)
    (RpcMove Unit ⊕ Empty)) :=
  [.step 0 (.inl .sync), .env (.inl .take), .env (.inl (.finish ())),
    .step 0 (.inl .sync)]

/-- How one operation on the backend's own state goes. -/
def oneLock : List (Action (RpcAnswer ⊕ LocalAnswer)
    (RpcMove Unit ⊕ Empty)) :=
  [.step 0 (.inr .sync)]

/-- A launch with a pending function breakpoint, and then two lines of a
file. -/
def launchAndSet : List (SetterCall × List (Action
    (RpcAnswer ⊕ LocalAnswer) (RpcMove Unit ⊕ Empty))) :=
  [(.launch (launchWith [] [⟨"main", ""⟩]),
      oneCommand ++ oneCommand ++ oneLock),
    (.setter (linesOf "a.c" [5, 7]),
      oneLock ++ oneCommand ++ oneCommand ++ oneLock)]

theorem launch_and_set : ∃ f fs w,
    SeqTrace (modelMachine countingEngine) (undisturbedStep countingEngine)
      SetterCall.prog (newBackend countingEngine none) (f :: fs) w ∧
    (f :: fs).map Conc.Finished.call = (launchAndSet.map Prod.fst).reverse ∧
    w.1.gone = false := by
  obtain ⟨f, fs, w, hr, hcalls, hg⟩ := trace_witness
    (modelMachine countingEngine) (undisturbedStep countingEngine)
    SetterCall.prog (newBackend countingEngine none) launchAndSet
    (fun f fs =>
      (f :: fs).map Conc.Finished.call = (launchAndSet.map Prod.fst).reverse ∧
      f.post.1.gone = false)
    (by decide +kernel)
  refine ⟨f, fs, w, hr, hcalls, ?_⟩
  cases hr
  exact hg

/-- It returns, and leaves, what the functions compute. -/
theorem launch_and_set_refine :
    ∃ (fs : List (FinishedCall countingEngine)) (w : _),
    fs.map Conc.Finished.call = (launchAndSet.map Prod.fst).reverse ∧
    fs.map Conc.Finished.result
      = (outcomes countingEngine (fs.map Conc.Finished.call)).map some ∧
    Mirrors countingEngine
      (after countingEngine (fs.map Conc.Finished.call)) none w := by
  obtain ⟨f, fs, w, hr, hcalls, -⟩ := launch_and_set
  exact ⟨f :: fs, w, hcalls, setters_refine hr⟩

/-- The table is then what the engine has. -/
theorem launch_and_set_consistent :
    ∃ w : Rpc (modelService countingEngine) × BackendLocal,
      w.1.gone = false ∧ Consistent ⟨w.1.state, w.2.breakpoints⟩ := by
  obtain ⟨f, fs, w, hr, hcalls, hg⟩ := launch_and_set
  refine ⟨w, hg, table_over_thread hr ?_ hg⟩
  rw [hcalls]
  refine ⟨?_, ?_⟩
  · show CarefulLaunch countingEngine (launchWith [] [⟨"main", ""⟩])
    decide +kernel
  · show Careful countingEngine (linesOf "a.c" [5, 7]) _
    decide +kernel

end DebugMcp.Marshal
