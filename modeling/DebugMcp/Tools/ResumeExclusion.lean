/-
Concurrent resumes over the lldb backend.

A resume registers its stop waiter, sends its request and awaits the next
outcome; a second registration drops the first sender, and a closed
channel is taken for the end of the session.

# Result

In the runs in which every Running write finds the session stopped, no
write fails after its frame has reached the adapter, and no request is
written with its waiter resolved already or an execution event on its
way to it, at most one resume is outstanding at the adapter, and a
termination that a call reports has been read by the read loop
(`resumes_exclusive`). `resumes_overlap` is the run of two calls that
both pass the check.

# Method

Turns (`Tools/ResumeTurns.lean`) leave the waiter in use alone: another
registration would be another call's flight. So what a call's waiter is
resolved to is the first execution event since it was registered, and,
with the request written before that event was read, the event is the
request's own stop.
-/
import DebugMcp.Tools.Outstanding

namespace DebugMcp

open Conc

-- =========================================================== histories

/-- Has the read loop read an `exited` or `terminated` event, or the end
of the stream? -/
def terminationObserved : LldbHistory → Bool
  | [] => false
  | .env (.backend (.frame m)) _ _ :: h =>
      m.endsSession || terminationObserved h
  | .env (.backend .eof) _ _ :: _ => true
  | _ :: h => terminationObserved h

/-- Does a call report a termination: the outcome of its backend call, or
the state it writes? -/
def reportsTermination : LldbEvent → Bool
  | .act _ (.backend .recvStop) (some r) _ _ =>
      !(stopOr id .terminated r).isStop
  | .act _ (.tool (.inl op)) _ _ _ => op.target = some .terminated
  | _ => false

/-- Every termination that was reported had been observed. -/
def TerminationsObserved : LldbHistory → Prop :=
  Meets fun h ev =>
    reportsTermination ev = true → terminationObserved h = true

-- ======================================================= terminations

section

variable {w w' : LldbServer} {φ : Nat → Flight × SendPhase}
  {h : LldbHistory}

/-- What ends the session has been read: on its way to a waiter, in a
waiter, with a call, and reported. No waiter in use is replaced. -/
structure ObsInv (w : LldbServer) (φ : Nat → Flight × SendPhase)
    (h : LldbHistory) : Prop where
  queued : ∀ o, .takeStop o ∈ w.backend.reader → o.isStop = false →
    terminationObserved h = true
  inWaiter : ∀ j o, woken j (backendPart h) = some (.ok o) →
    o.isStop = false → terminationObserved h = true
  unreplaced : ∀ j, (φ j).1.holds = true →
    woken j (backendPart h) ≠ some (.error ())
  got : ∀ j o, (φ j).1 = .got o → o.isStop = false →
    terminationObserved h = true
  reported : TerminationsObserved h

/-- What has been observed stays so. -/
theorem terminationObserved_cons {ev : LldbEvent}
    (ho : terminationObserved h = true) :
    terminationObserved (ev :: h) = true := by
  cases ev with
  | act i op b w w' => exact ho
  | env e w w' =>
      cases e with
      | tool e => exact ho
      | backend e =>
          cases e with
          | frame m =>
              show (m.endsSession || terminationObserved h) = true
              rw [ho, Bool.or_true]
          | eof => rfl
          | reader k => exact ho

/-- A handler in flight holds its receiver, or is past it. -/
theorem Flight.inFlight_of_holds {f : Flight} (h : f.holds = true) :
    f.inFlight = true := by
  cases f <;> first | rfl | cases h

theorem obsInv_over : InductiveOver lldbMachine ResumeNext
    (fun h ev => resumesInTurn h ev = true) BaseInv ObsInv where
  act := by
    intro w w' φ h i β op a b q' hB hI hr hq hok
    have hf := hq.1
    generalize hφ : (φ i).1 = f at hf
    generalize hq' : q'.1 = f' at hf
    -- a step that leaves the waiters as they were
    have hkeep : w'.backend.reader = w.backend.reader →
        (∀ j, woken j (backendPart (.act i op b w w' :: h))
          = woken j (backendPart h)) →
        (f'.holds = true → f.holds = true) →
        (∀ o, f' = .got o → o.isStop = false →
          terminationObserved h = true) →
        (reportsTermination (.act i op b w w') = true →
          terminationObserved h = true) →
        ObsInv w' (Function.update φ i q') (.act i op b w w' :: h) := by
      intro hc hw hho hgot hrep
      refine ⟨fun o ho hs => ?_, fun j o ho hs => ?_, fun j hj => ?_,
        fun j o hj hs => ?_, hrep, hI.reported⟩
      · rw [hc] at ho
        exact terminationObserved_cons (hI.queued o ho hs)
      · rw [hw] at ho
        exact terminationObserved_cons (hI.inWaiter j o ho hs)
      · rw [hw]
        rcases phase_update (P := (·.holds = true)) hj with ⟨rfl, hp⟩ |
          ⟨-, hj⟩
        · exact hI.unreplaced j (hφ ▸ hho (hq' ▸ hp))
        · exact hI.unreplaced j hj
      · refine terminationObserved_cons ?_
        rcases phase_update (P := (· = .got o)) hj with ⟨rfl, hp⟩ | ⟨-, hj⟩
        · exact hgot o (hq' ▸ hp) hs
        · exact hI.got j o hj hs
    have htool : w'.backend = w.backend →
        w'.backend.reader = w.backend.reader := fun hc => by rw [hc]
    cases hf with
    | look op hl x =>
        obtain ⟨_, _, hc⟩ := Backed.run_tool hr
        refine hkeep (htool hc) (fun _ => rfl) nofun nofun ?_
        cases hl <;> nofun
    | run | revert | cache | drain =>
        obtain ⟨_, _, hc⟩ := Backed.run_tool hr
        exact hkeep (htool hc) (fun _ => rfl) nofun nofun nofun
    | lost | polled =>
        exact hkeep (by rw [Backed.run_race hr]) (fun _ => rfl) nofun
          nofun nofun
    | settle o op hw x =>
        obtain ⟨_, _, hc⟩ := Backed.run_tool hr
        refine hkeep (htool hc) (fun _ => rfl) nofun nofun ?_
        cases hw with
        | stopped info g => nofun
        | exited | terminated => exact fun _ => hI.got i _ hφ rfl
    | arm =>
        obtain ⟨_, hc, _⟩ := Backed.run_backend hr
        refine ⟨fun o ho hs => ?_, fun j o ho hs => ?_, fun j hj => ?_,
          fun j o hj hs => ?_, nofun, hI.reported⟩
        · rw [(DapClient.run_reader hc).reader] at ho
          exact terminationObserved_cons (hI.queued o ho hs)
        · exact terminationObserved_cons
            (hI.inWaiter j o (woken_ok_act ho) hs)
        · rcases phase_update (P := (·.holds = true)) hj with ⟨rfl, -⟩ |
            ⟨hij, hj⟩
          · rw [backendPart_backend, woken_register]
            nofun
          · have hfl : (φ i).1.inFlight = true := by rw [hφ]; rfl
            exact absurd (hB.1.1.alone (Flight.inFlight_of_holds hj) hfl)
              hij
        · refine terminationObserved_cons ?_
          rcases phase_update (P := (· = .got o)) hj with ⟨-, hp⟩ | ⟨-, hj⟩
          · cases hq'.symm.trans hp
          · exact hI.got j o hj hs
    | stop r =>
        obtain ⟨_, hc, _⟩ := Backed.run_backend hr
        obtain ⟨-, hrecv⟩ := DapClient.run_recvStop hc
        have hholds : (φ i).1.holds = true := by rw [hφ]; rfl
        have hw := (hB.2.waiters.held i (hB.2.holds i hholds)).recv
          (hrecv r rfl)
        have hobs : (stopOr id .terminated r).isStop = false →
            terminationObserved h = true := by
          cases r with
          | ok o => exact hI.inWaiter i o hw
          | error u => exact absurd hw (hI.unreplaced i hholds)
        refine hkeep (DapClient.run_reader hc).reader
          (fun j => woken_quiet rfl) nofun ?_ fun hrep =>
            hobs ((Bool.not_eq_true' _).mp hrep)
        intro o ho
        cases ho
        exact hobs
    | releaseFailed | releaseDropped =>
        obtain ⟨_, hc, _⟩ := Backed.run_backend hr
        exact hkeep (DapClient.run_reader hc).reader
          (fun j => woken_quiet rfl) nofun nofun nofun
    | _ =>
        obtain ⟨_, hc, _⟩ := Backed.run_backend hr
        exact hkeep (DapClient.run_reader hc).reader
          (fun j => woken_quiet rfl) (fun _ => rfl) nofun nofun
  env := by
    intro w w' φ h e hB hI he _
    cases e with
    | tool e =>
        obtain ⟨-, -, hc⟩ := Backed.env_tool he
        refine ⟨?_, hI.inWaiter, hI.unreplaced, hI.got, nofun, hI.reported⟩
        rw [hc]
        exact hI.queued
    | backend e =>
        obtain ⟨hc, -⟩ := Backed.env_backend he
        cases e with
        | eof =>
            exact ⟨fun _ _ _ => rfl, fun _ _ _ _ => rfl, hI.unreplaced,
              fun _ _ _ _ => rfl, nofun, hI.reported⟩
        | frame m =>
            obtain ⟨-, -, hw⟩ := DapClient.envMove_frame hc
            refine ⟨fun o ho hs => ?_, fun j o ho hs => ?_, hI.unreplaced,
              fun j o hj hs => ?_, nofun, hI.reported⟩
            · rw [hw] at ho
              show (m.endsSession || _) = true
              rw [(takeStop_dispatch ho).2 hs, Bool.true_or]
            · exact terminationObserved_cons (hI.inWaiter j o ho hs)
            · exact terminationObserved_cons (hI.got j o hj hs)
        | reader k =>
            obtain ⟨op, rest, hw, hk⟩ := DapClient.envMove_reader hc
            have hf := DapClient.readerStep_frame hw hk
            have hwoken : ∀ j, woken j (backendPart
                (.env (.backend (.reader k)) w w' :: h))
                  = woken j (backendPart h) ∨
                ∃ o, op = .takeStop o ∧ woken j (backendPart
                  (.env (.backend (.reader k)) w w' :: h))
                    = (woken j (backendPart h)).or (some (.ok o)) := by
              intro j
              rw [backendPart_move]
              by_cases hop : op.takesStop = true
              · obtain ⟨o, rfl⟩ := ReaderOp.eq_takeStop hop
                exact .inr ⟨o, rfl, woken_take hw⟩
              · exact .inl (woken_pass hw (by rintro o rfl; exact hop rfl))
            refine ⟨fun o ho hs => ?_, fun j o ho hs => ?_, fun j hj => ?_,
              hI.got, nofun, hI.reported⟩
            · rcases hf.mem ho with hsend | ho
              · cases hsend
              · exact hI.queued o ho hs
            · rcases hwoken j with he | ⟨o', rfl, he⟩ <;> rw [he] at ho
              · exact hI.inWaiter j o ho hs
              · cases hx : woken j (backendPart h) with
                | none =>
                    rw [hx] at ho
                    cases ho
                    refine hI.queued o ?_ hs
                    rw [hw]
                    exact List.mem_cons_self ..
                | some r =>
                    rw [hx] at ho
                    cases ho
                    exact hI.inWaiter j o hx hs
            · have hne := hI.unreplaced j hj
              rcases hwoken j with he | ⟨o', rfl, he⟩ <;> rw [he]
              · exact hne
              · cases hx : woken j (backendPart h) with
                | none => nofun
                | some r =>
                    rw [hx] at hne
                    exact hne

end

-- ========================================================== the result

/-- The invariants hold in every state of a run in turn. -/
theorem resumes_invariant {calls : Nat → ResumeTool} {w₀ : LldbServer}
    (hw : w₀.backend.AtRest) {h : LldbHistory}
    {s : Pool LldbOp ToolOutcome LldbServer}
    (hr : LldbResumeRun calls w₀ h s) :
    ∃ φ, OutInv s.world φ h ∧ ObsInv s.world φ h := by
  have hbase : BaseInv w₀ (fun _ => unsent .before) [] :=
    ⟨⟨.idle fun _ => rfl, hw.clientInv, hw.closedInv⟩,
      hw.waiterInv, fun _ _ => rfl, nofun⟩
  have hobs : ObsInv w₀ (fun _ => unsent .before) [] := by
    refine ⟨fun o ho => ?_, nofun, nofun, nofun, trivial⟩
    rw [hw.reader] at ho
    cases ho
  obtain ⟨φ, ⟨⟨-, hout⟩, -, hobs⟩, -⟩ := hr.invariant
    ((baseInv_inductive.over outInv_over).and
      (baseInv_inductive.over obsInv_over))
    (fun i _ hp => Option.some.inj hp ▸ (calls i).obeys)
    ⟨⟨hbase, .of_nil rfl⟩, hbase, hobs⟩
  exact ⟨φ, hout, hobs⟩

/-- Concurrent resumes, in the runs whose steps are in turn: whatever the
backend, at most one is with it; over the lldb backend at most one is
outstanding at the adapter, and a termination a call reports has been
observed. -/
theorem resumes_exclusive (calls : Nat → ResumeTool) :
    (∀ {w₀ : ToolServer} {h : History}
      {s : Pool ToolOp ToolOutcome ToolServer},
      RunIf toolMachine (fun _ => FindsStopped) (resumePool calls w₀) h s →
        (unanswered h).length ≤ 1) ∧
    ∀ {w₀ : LldbServer} {h : LldbHistory}
      {s : Pool LldbOp ToolOutcome LldbServer},
      w₀.backend.AtRest → LldbResumeRun calls w₀ h s →
        (outstanding h).length ≤ 1 ∧ TerminationsObserved h := by
  refine ⟨fun hr => unanswered_le_one hr, fun hw hr => ?_⟩
  obtain ⟨φ, hout, hobs⟩ := resumes_invariant hw hr
  exact ⟨hout.few, hobs.reported⟩

-- ============================================================== runs

/-- A stopped session on a connected backend. -/
def stoppedLldb : LldbServer where
  server := { ToolServer.new with
    session := SessionManager.new.setState .stopped
    backend := some 0 }
  backend := .new

/-- Two resumes. -/
def twoResumes : Nat → ResumeTool
  | 0 => .continue ⟨[]⟩
  | _ => .stepOver ⟨[]⟩

/-- The stop of thread 7. -/
def threadStop : DapMessage :=
  .event (.stopped
    ⟨1, "event", "stopped", ⟨"breakpoint", "", 7, "", true, []⟩⟩)

/-- Call `i` runs `n` sections of the server. -/
def serverSteps (i n : Nat) : List (Action LldbAnswer LldbMove) :=
  List.replicate n (.step i (.tool .sync))

/-- Call `i` runs `n` operations of the client. -/
def clientSteps (i n : Nat) : List (Action LldbAnswer LldbMove) :=
  List.replicate n (.step i (.backend .sync))

/-- A frame, and `n` steps of the read loop on it. -/
def loopSteps (m : DapMessage) (n : Nat) :
    List (Action LldbAnswer LldbMove) :=
  .env (.backend (.frame m))
    :: List.replicate n (.env (.backend (.reader 0)))

/-- Call `i` is polled, registers its waiter and sends its request. -/
def sendSteps (i : Nat) : List (Action LldbAnswer LldbMove) :=
  .step i (.race true) :: clientSteps i 4

/-- The first call stops and the second ends with the session. -/
def turnSteps : List (Action LldbAnswer LldbMove) :=
  serverSteps 0 6 ++ sendSteps 0 ++ loopSteps (responseTo 1) 3
    ++ clientSteps 0 1 ++ loopSteps threadStop 2 ++ clientSteps 0 1
    ++ serverSteps 0 3 ++ serverSteps 1 6 ++ sendSteps 1
    ++ loopSteps (responseTo 2) 3 ++ loopSteps (.event .terminated) 3
    ++ clientSteps 1 2 ++ serverSteps 1 1

/-- The same on a backend that answers a stop, then an exit. -/
def answeredSteps : List (Action Answer EnvMove) :=
  List.replicate 6 (.step 0 .sync)
    ++ [.step 0 (.stop (some (.ok (.stopped ⟨"step", 7, "", []⟩))))]
    ++ List.replicate 3 (.step 0 .sync)
    ++ List.replicate 6 (.step 1 .sync)
    ++ [.step 1 (.stop (some (.ok (.exited (some 3)))))]
    ++ List.replicate 2 (.step 1 .sync)

/-- Two resumes, one after the other, on either. -/
theorem resumes_in_turn :
    (∃ h s, RunIf toolMachine (fun _ => FindsStopped)
        (resumePool twoResumes stoppedLldb.server) h s ∧
      (unanswered h).length ≤ 1 ∧
      (s.returned 0).isSome ∧ (s.returned 1).isSome) ∧
    ∃ h s, LldbResumeRun twoResumes stoppedLldb h s ∧
      (outstanding h).length ≤ 1 ∧ TerminationsObserved h ∧
      (s.returned 0).isSome ∧ (s.returned 1).isSome ∧
      s.world.state = .terminated := by
  constructor
  · obtain ⟨h, s, hr, hm, h₀, h₁⟩ := exec_witness toolMachine
      (resumePool twoResumes stoppedLldb.server) answeredSteps
      (fun h s => Meets (fun _ => FindsStopped) h ∧
        (s.returned 0).isSome ∧ (s.returned 1).isSome)
      (by decide +kernel)
    exact ⟨h, s, .ofMeets hr hm,
      (resumes_exclusive twoResumes).1 (.ofMeets hr hm), h₀, h₁⟩
  · obtain ⟨h, s, hr, hm, h₀, h₁, hst⟩ := exec_witness lldbMachine
      (lldbResumePool twoResumes stoppedLldb) turnSteps
      (fun h s => Meets (fun h ev => resumesInTurn h ev = true) h ∧
        (s.returned 0).isSome ∧ (s.returned 1).isSome ∧
        s.world.state = .terminated)
      (by decide +kernel)
    have hrest : stoppedLldb.backend.AtRest :=
      ⟨rfl, rfl, rfl, fun _ _ => rfl, nofun⟩
    obtain ⟨ho, ht⟩ :=
      (resumes_exclusive twoResumes).2 hrest (.ofMeets hr hm)
    exact ⟨h, s, .ofMeets hr hm, ho, ht, h₀, h₁, hst⟩

/-- Two resumes pass the check together. -/
def overlapSteps : List (Action LldbAnswer LldbMove) :=
  serverSteps 0 5 ++ serverSteps 1 6 ++ serverSteps 0 1 ++ sendSteps 0
    ++ sendSteps 1 ++ loopSteps (responseTo 1) 3 ++ clientSteps 0 2
    ++ serverSteps 0 1

/-- Two resumes pass the check before either sets the session running:
both are outstanding, and the first reports that the session ended, which
nobody has said. -/
theorem resumes_overlap :
    ∃ h s, Run lldbMachine (lldbResumePool twoResumes stoppedLldb) h s ∧
      outstanding h = [1, 0] ∧ ¬ TerminationsObserved h ∧
      terminationObserved h = false ∧ s.world.state = .terminated := by
  obtain ⟨h, s, hr, hc⟩ := exec_witness lldbMachine
    (lldbResumePool twoResumes stoppedLldb) overlapSteps
    (fun h s => outstanding h = [1, 0] ∧
      ¬ Meets (fun h ev => reportsTermination ev = true →
        terminationObserved h = true) h ∧
      terminationObserved h = false ∧ s.world.state = .terminated)
    (by decide +kernel)
  exact ⟨h, s, hr, hc⟩

/-- A write fails with its frame at the adapter. -/
def failedSteps : List (Action LldbAnswer LldbMove) :=
  serverSteps 0 6 ++ [.step 0 (.race true)] ++ clientSteps 0 3
    ++ [.step 0 (.backend (.fail true "flush"))] ++ clientSteps 0 2
    ++ serverSteps 0 1 ++ serverSteps 1 6 ++ sendSteps 1

/-- A request is written when the read loop has read a stop already. -/
def earlySteps : List (Action LldbAnswer LldbMove) :=
  serverSteps 0 6 ++ [.step 0 (.race true)] ++ clientSteps 0 1
    ++ loopSteps threadStop 2 ++ clientSteps 0 3
    ++ loopSteps (responseTo 1) 3 ++ clientSteps 0 2 ++ serverSteps 0 3
    ++ serverSteps 1 6 ++ sendSteps 1

/-- Running writes in turn are not enough: either request stays
outstanding in a stopped session, and the next resume joins it. -/
theorem writes_out_of_turn : ∀ steps ∈ [failedSteps, earlySteps],
    ∃ h s, Run lldbMachine (lldbResumePool twoResumes stoppedLldb) h s ∧
      Meets (fun _ ev => LldbEvent.findsStopped ev = true) h ∧
      outstanding h = [1, 0] := by
  have hends : ∀ steps ∈ [failedSteps, earlySteps],
      (exec lldbMachine steps []
        (lldbResumePool twoResumes stoppedLldb)).any (fun r => decide
          (Meets (fun _ ev => LldbEvent.findsStopped ev = true) r.1 ∧
            outstanding r.1 = [1, 0])) = true := by
    simp only [List.forall_mem_cons, List.not_mem_nil, false_imp_iff,
      implies_true, and_true]
    constructor <;> decide +kernel
  exact fun steps hs => exec_witness lldbMachine _ steps _ (hends steps hs)

end DebugMcp
