/-
Where a resume handler over the lldb backend is.

`FlightNext` is the protocol of the four resume tools with their backend
call carried out: the sections before the Running write, the stop
waiter, the request, its response, the outcome, and what is written to
the session for it. `SendOver` is the part of it that concerns the
client's table, in the words of `Dap/Correlation.lean`. A handler obeys
both.
-/
import DebugMcp.Dap.Correlation
import DebugMcp.Tools.LldbServer

namespace DebugMcp

open Conc

-- ============================================================= phases

/-- Where a resume handler is. It is in flight from its Running write to
its next write to the session. -/
inductive Flight
  | before
  /-- The session is set running, the backend call not begun. -/
  | entering
  | polled
  | armed
  | numbered (n : Int)
  | registered (n : Int) (c : ChanId)
  | awaiting (n : Int) (c : ChanId)
  | answered
  /-- It failed, or was dropped, and has its entry still to remove. -/
  | removing (n : Int) (failed : Bool)
  | releasing (failed : Bool)
  | failed
  | got (o : StopOutcome)
  | landed
  /-- It is given up, with an error. -/
  | quit

/-- Is the handler between its Running write and its next write? -/
def Flight.inFlight : Flight → Bool
  | before | landed | quit => false
  | _ => true

/-- Has the handler its stop waiter still to register? -/
def Flight.unarmed : Flight → Bool
  | before | entering | polled => true
  | _ => false

/-- Does it hold the receiver of its stop waiter? -/
def Flight.holds : Flight → Bool
  | armed | numbered _ | registered _ _ | awaiting _ _ | answered
  | removing _ _ | releasing _ => true
  | _ => false

/-- Has its request not reached the adapter, as far as it can tell, or
had its stop? -/
def Flight.clear : Flight → Bool
  | entering | polled | armed | numbered _ | registered _ _
  | removing _ true | releasing true | failed | got (.stopped _) => true
  | _ => false

/-- Has its request been written, with the stop still to come? -/
def Flight.waits : Flight → Bool
  | awaiting _ _ | answered => true
  | _ => false

/-- Both are in flight. -/
theorem Flight.inFlight_of_clear {f : Flight} (h : f.clear = true) :
    f.inFlight = true := by
  cases f <;> first | rfl | cases h

theorem Flight.inFlight_of_waits {f : Flight} (h : f.waits = true) :
    f.inFlight = true := by
  cases f <;> first | rfl | cases h

/-- The write a handler makes for an outcome. -/
inductive Writes : ⦃β : Type⦄ → StopOutcome → SessionOp β → Prop
  | stopped (info : StopInfo) (g : UInt64) :
      Writes (.stopped info) (.setStateIfGeneration g .stopped)
  | exited (code : Option Int) (g : UInt64) :
      Writes (.exited code) (.terminateIfGeneration g code)
  | terminated (g : UInt64) :
      Writes .terminated (.setStateIfGeneration g .terminated)

/-- The protocol of the four resume tools over the lldb backend. -/
inductive FlightNext : ⦃β : Type⦄ → Flight → LldbOp β → β → Flight →
    Prop
  | look {β : Type} (op : ToolOp β) (h : Looks op) (x : β) :
      FlightNext .before (.tool op) x .before
  | run : FlightNext .before (.tool (.inl (.setState .running))) ()
      .entering
  | lost : FlightNext .entering (.race .first) false .quit
  | polled : FlightNext .entering (.race .first) true .polled
  | arm : FlightNext .polled (.backend .registerStop) () .armed
  | number (n : Int) :
      FlightNext .armed (.backend .nextSeq) n (.numbered n)
  | register (n : Int) (c : ChanId) :
      FlightNext (.numbered n) (.backend (.registerPending n)) c
        (.registered n c)
  | write (n : Int) (c : ChanId) (q : DapRequest) :
      FlightNext (.registered n c) (.backend (.writeRequest q)) .ok
        (.awaiting n c)
  | writeFail (n : Int) (c : ChanId) (q : DapRequest) (reached : Bool)
      (err : String) :
      FlightNext (.registered n c) (.backend (.writeRequest q))
        (.failed reached err) (.removing n true)
  | writeDrop (n : Int) (c : ChanId) (q : DapRequest) (reached : Bool) :
      FlightNext (.registered n c) (.backend (.writeRequest q))
        (.cancelled reached) (.removing n false)
  | answer (n : Int) (c : ChanId) (m : DapMessage) :
      FlightNext (.awaiting n c) (.backend (.recv c)) (some (.ok (.ok m)))
        .answered
  | refuse (n : Int) (c : ChanId) (r : Except Unit PendingResult)
      (e : BackendError) (hr : pendingResult r = .error e) :
      FlightNext (.awaiting n c) (.backend (.recv c)) (some r)
        (.releasing true)
  | drop (n : Int) (c : ChanId) :
      FlightNext (.awaiting n c) (.backend (.recv c)) none
        (.removing n false)
  | remove (n : Int) (failed : Bool) :
      FlightNext (.removing n failed) (.backend (.removePending n)) ()
        (.releasing failed)
  | releaseFailed :
      FlightNext (.releasing true) (.backend .dropStop) () .failed
  | releaseDropped :
      FlightNext (.releasing false) (.backend .dropStop) () .quit
  | stop (r : Except Unit StopOutcome) :
      FlightNext .answered (.backend .recvStop) (some r)
        (.got (stopOr id .terminated r))
  | stopDrop : FlightNext .answered (.backend .recvStop) none
      (.releasing false)
  | revert : FlightNext .failed (.tool (.inl (.setState .stopped))) ()
      .quit
  | settle {β : Type} (o : StopOutcome) (op : SessionOp β)
      (h : Writes o op) (x : β) :
      FlightNext (.got o) (.tool (.inl op)) x .landed
  | cache (info : StopInfo) :
      FlightNext .landed (.tool (.inl (.setLastStopped info))) () .landed
  | drain (es : List OutputEntry) :
      FlightNext .landed (.tool (.inl .drainOutput)) es .landed

/-- The protocol of the client's table under a handler. -/
inductive SendOver : ⦃β : Type⦄ → SendPhase → LldbOp β → β → SendPhase →
    Prop
  | tool {β : Type} (q : SendPhase) (op : ToolOp β) (x : β) :
      SendOver q (.tool op) x q
  | race {β : Type} (q : SendPhase) (op : RaceOp β) (x : β) :
      SendOver q (.race op) x q
  | registerStop (q : SendPhase) :
      SendOver q (.backend .registerStop) () q
  | recvStop (q : SendPhase) (r : Option (Except Unit StopOutcome)) :
      SendOver q (.backend .recvStop) r q
  | dropStop (q : SendPhase) : SendOver q (.backend .dropStop) () q
  | send {β : Type} {q q' : SendPhase} {op : ClientOp β} {x : β}
      (h : SendNext q op x q') : SendOver q (.backend op) x q'

/-- Both protocols. -/
def ResumeNext : Protocol LldbOp (Flight × SendPhase) :=
  fun _ q op x q' => FlightNext q.1 op x q'.1 ∧ SendOver q.2 op x q'.2

theorem moves {β : Type} {f f' : Flight} {s s' : SendPhase}
    {op : LldbOp β} {x : β} (hf : FlightNext f op x f')
    (hs : SendOver s op x s') : ResumeNext (f, s) op x (f', s') := ⟨hf, hs⟩

-- ============================================================ handlers

/-- The phase of a call that asks nothing of the table and has sent
nothing. -/
abbrev unsent (f : Flight) : Flight × SendPhase := (f, .start true)

/-- A handler returns when it is not in flight, and no error once it has
landed. -/
structure FlightOver (q : Flight × SendPhase) (o : ToolOutcome) : Prop
    where
  inFlight : q.1.inFlight = false
  error : q.1 = .landed → o.isError = false

/-- What a backend call leaves its handler: nothing when it was dropped,
its error, or its outcome. -/
def leaves : OpResult StopOutcome → Flight
  | none => .quit
  | some (.error _) => .failed
  | some (.ok o) => .got o

/-- The handler's part after the backend call. -/
private abbrev Goes (k : OpResult StopOutcome → Prog LldbOp ToolOutcome) :
    Prop :=
  ∀ x s, Obeys ResumeNext FlightOver (k x) (leaves x, s)

section

variable {k : OpResult StopOutcome → Prog LldbOp ToolOutcome}

/-- The receiver is dropped, and the call is over. -/
private theorem release_goes (hk : Goes k) (x : OpResult StopOutcome)
    (failed : Bool) (s : SendPhase)
    (hx : leaves x = if failed then .failed else .quit) :
    Obeys ResumeNext FlightOver (.act (.backend .dropStop) fun _ => k x)
      (.releasing failed, s) := by
  intro u
  have h := hk x s
  rw [hx] at h
  cases failed with
  | true => exact ⟨_, moves .releaseFailed (.dropStop s), h⟩
  | false => exact ⟨_, moves .releaseDropped (.dropStop s), h⟩

/-- `resume_and_wait`, and what the handler does with its result. -/
private theorem resumeAndWait_goes (q : DapRequest) (hk : Goes k) :
    Obeys ResumeNext FlightOver (overBackend (resumeAndWait q) >>= k)
      (unsent .polled) := by
  intro u
  refine ⟨_, moves .arm (.registerStop _), fun n =>
    ⟨_, moves (.number n) (.send (.number true n)), fun c =>
    ⟨_, moves (.register n c) (.send (.register true n c)), fun x => ?_⟩⟩⟩
  have hwrite : ∀ x, SendOver (.waiting true n c)
      (.backend (.writeRequest (q.setSeq n))) x (.waiting true n c) :=
    fun x => .send (.write true n c q x)
  have hremove : SendOver (.waiting true n c) (.backend (.removePending n))
      () (.removed n) := .send (.remove true n c)
  cases x with
  | failed reached e =>
      exact ⟨_, moves (.writeFail n c _ reached e) (hwrite _), fun _ =>
        ⟨_, moves (.remove n true) hremove,
          release_goes hk (some (.error _)) true _ rfl⟩⟩
  | cancelled reached =>
      exact ⟨_, moves (.writeDrop n c _ reached) (hwrite _), fun _ =>
        ⟨_, moves (.remove n false) hremove,
          release_goes hk none false _ rfl⟩⟩
  | ok =>
      refine ⟨_, moves (.write n c _) (hwrite _), fun r => ?_⟩
      match r with
      | none =>
          exact ⟨_, moves (.drop n c) (.send (.recvDropped true n c)),
            fun _ => ⟨_, moves (.remove n false) hremove,
              release_goes hk none false _ rfl⟩⟩
      | some (.error ()) =>
          exact ⟨_, moves (.refuse n c _ _ rfl) (.send (.recv true n c _)),
            release_goes hk (some (.error _)) true _ rfl⟩
      | some (.ok (.error e)) =>
          exact ⟨_, moves (.refuse n c _ _ rfl) (.send (.recv true n c _)),
            release_goes hk (some (.error _)) true _ rfl⟩
      | some (.ok (.ok m)) =>
          refine ⟨_, moves (.answer n c m) (.send (.recv true n c _)),
            fun r => ?_⟩
          match r with
          | none =>
              exact ⟨_, moves .stopDrop (.recvStop _ _),
                release_goes hk none false _ rfl⟩
          | some (.ok o) =>
              exact ⟨_, moves (.stop (.ok o)) (.recvStop _ _),
                hk (some (.ok o)) _⟩
          | some (.error ()) =>
              exact ⟨_, moves (.stop (.error ())) (.recvStop _ _),
                hk (some (.ok .terminated)) _⟩

/-- The backend call of a resume handler, raced against its token. -/
private theorem runBackend_goes (b : BackendId) (kind : Resume)
    (tid : Int) (gran : Option Granularity) (hk : Goes k) :
    Obeys ResumeNext FlightOver
      ((runBackend b kind tid gran).interp overLldb >>= k)
      (unsent .entering) := by
  have hrace : ∀ q, Obeys ResumeNext FlightOver
      (racedCall (resumeAndWait q) >>= k) (unsent .entering) := by
    intro q p
    cases p with
    | false => exact ⟨_, moves .lost (.race _ _ _), hk none _⟩
    | true =>
        exact ⟨_, moves .polled (.race _ _ _), resumeAndWait_goes q hk⟩
  cases kind with
  | «continue» =>
      rw [runBackend, server, Prog.interp_perform]
      exact hrace _
  | step kind =>
      rw [runBackend, server, Prog.interp_perform]
      exact hrace _

end

/-- What is written to the session for an outcome. -/
private theorem handleStopResult_goes (o : StopOutcome) (g : UInt64)
    (s : SendPhase) :
    Obeys ResumeNext FlightOver ((handleStopResult o g).interp overLldb)
      (.got o, s) := by
  have htool : ∀ {β : Type} (op : ToolOp β) (x : β),
      SendOver s (.tool op) x s := fun op x => .tool s op x
  cases o with
  | stopped info =>
      intro applied
      refine ⟨_, moves (.settle _ _ (.stopped info g) _) (htool _ _), ?_⟩
      cases applied with
      | true =>
          exact fun _ => ⟨_, moves (.cache info) (htool _ _), fun es =>
            ⟨_, moves (.drain es) (htool _ _), rfl, fun _ => rfl⟩⟩
      | false =>
          exact fun es =>
            ⟨_, moves (.drain es) (htool _ _), rfl, fun _ => rfl⟩
  | exited code =>
      exact fun a =>
        ⟨_, moves (.settle _ _ (.exited code g) a) (htool _ _), fun es =>
          ⟨_, moves (.drain es) (htool _ _), rfl, fun _ => rfl⟩⟩
  | terminated =>
      exact fun a => ⟨_, moves (.settle _ _ (.terminated g) a) (htool _ _),
        rfl, fun _ => rfl⟩

/-- The thread is resolved before the flight. -/
private theorem resolveThreadId_goes (args : Args) :
    Obeys ResumeNext (fun q _ => q = unsent .before)
      ((resolveThreadId args).interp overLldb) (unsent .before) := by
  unfold resolveThreadId
  cases args.explicitPositiveThreadId with
  | error e => exact rfl
  | ok tid =>
      cases tid with
      | some tid => exact rfl
      | none =>
          exact fun i => ⟨_, moves (.look _ .lastStopped i) (.tool _ _ _),
            rfl⟩

/-- A resume handler over the lldb backend obeys its protocol. -/
theorem resumeOverLldb_obeys (args : Args) (kind : Resume)
    (opErr : OpError) (timeoutMsg : String) :
    Obeys ResumeNext FlightOver
      ((resume args kind opErr timeoutMsg).interp overLldb)
      (unsent .before) := by
  have htool : ∀ {β : Type} (op : ToolOp β) (x : β),
      SendOver (.start true) (.tool op) x (.start true) :=
    fun op x => .tool _ op x
  intro r
  refine ⟨_, moves (.look _ (.checkState _) r) (htool _ _), ?_⟩
  cases r with
  | error e => exact ⟨rfl, nofun⟩
  | ok u =>
      refine fun d => ⟨_, moves (.look _ .isDump d) (htool _ _), ?_⟩
      cases d with
      | true => exact ⟨rfl, nofun⟩
      | false =>
          show Obeys _ _ (Prog.interp overLldb
            (resolveThreadId args >>= fun _ => _)) _
          rw [Prog.interp_bind]
          refine (resolveThreadId_goes args).bind fun q t hq => ?_
          subst hq
          cases t with
          | error e => exact ⟨rfl, nofun⟩
          | ok tid =>
              intro b
              refine ⟨_, moves (.look _ .currentBackend b) (htool _ _), ?_⟩
              cases b with
              | none => exact ⟨rfl, nofun⟩
              | some b =>
                  refine fun g => ⟨_, moves (.look _ .generation g)
                    (htool _ _), fun _ => ⟨_, moves .run (htool _ _), ?_⟩⟩
                  show Obeys _ _ (Prog.interp overLldb
                    (runBackend b kind tid _ >>= fun _ => _)) _
                  rw [Prog.interp_bind]
                  refine runBackend_goes b kind tid _ fun x s => ?_
                  match x with
                  | none => exact ⟨rfl, nofun⟩
                  | some (.error e) =>
                      exact fun _ => ⟨_, moves .revert (.tool _ _ _),
                        rfl, nofun⟩
                  | some (.ok o) => exact handleStopResult_goes o g s

/-- So does each of the four. -/
theorem ResumeTool.obeys (c : ResumeTool) :
    Obeys ResumeNext FlightOver (c.prog.interp overLldb)
      (unsent .before) := by
  cases c <;> exact resumeOverLldb_obeys _ _ _ _

end DebugMcp
