/-
A resume that failed and left the session stopped.

Every error of the backend call is answered with Stopped. Over either
backend that is true of the target as long as the error does not come
after the target was set going: the step that does not land, the break-in
that is exhausted, the thread or the stream that ends
(`failed_resume_stopped`, `resume_left_running`).
-/
import DebugMcp.Tools.LldbFailure
import DebugMcp.Tools.ResumeExclusion
import DebugMcp.Tools.WinFailure
import DebugMcp.Tools.WinStops

namespace DebugMcp

open Conc

/-- Has call 0 returned an error, and is the session stopped? -/
def failedStopped {F : Type → Type} {ω : Type}
    (s : Pool (BackedOp F) ToolOutcome (Backed ω)) : Bool :=
  (s.returned 0).any (·.isError) && s.world.state = .stopped

/-- It returned one. -/
theorem returned_of_failedStopped {F : Type → Type} {ω : Type}
    {s : Pool (BackedOp F) ToolOutcome (Backed ω)}
    (hs : failedStopped s = true) :
    ∃ o, s.returned 0 = some o ∧ o.isError = true ∧
      s.world.state = .stopped := by
  obtain ⟨ho, hst⟩ := Bool.and_eq_true_iff.mp hs
  obtain ⟨o, ho, he⟩ := (Option.any_eq_true ..).mp ho
  exact ⟨o, ho, he, of_decide_eq_true hst⟩

/-- A resume that failed and leaves the session stopped has not left the
target running, in the runs whose steps meet the condition: over WinDbg
the target was not set going, or is broken in again; over lldb no resume
is with the adapter. Nor is a debugger that is known to be gone reported
as stopped. -/
theorem failed_resume_stopped (c : ResumeTool) :
    (∀ {w₀ : WinServer} {h : WinHistory}
      {s : Pool WinServerOp ToolOutcome WinServer},
      w₀.backend.busy 0 = false → WinResumeRun c w₀ h s →
        failedStopped s = true →
          (setGoing h = true → s.world.backend.target = .broken) ∧
            toldGone h = false) ∧
    ∀ {w₀ : LldbServer} {h : LldbHistory}
      {s : Pool LldbOp ToolOutcome LldbServer},
      ClosedInv w₀.backend → w₀.backend.InOrder →
        LldbFailureRun c w₀ h s → failedStopped s = true →
          outstanding h = [] ∧ stoppedAtEnd h = false := by
  refine ⟨fun hw hr hs => ?_, fun hclosed horder hr hs => ?_⟩
  · obtain ⟨o, ho, he, hst⟩ := returned_of_failedStopped hs
    exact failed_over_win c hw hr ho he hst
  · obtain ⟨o, ho, he, hst⟩ := returned_of_failedStopped hs
    exact failed_over_lldb c hclosed horder hr ho he hst

-- ============================================================== runs

/-- A step over. -/
def plainStep : ResumeTool := .stepOver ⟨[]⟩

/-- The step is answered, and the handler writes Stopped. -/
def revertSteps : List (Action WinServerAnswer WinServerMove) :=
  threadSteps 0 .sync ++ [.step 0 (.backend .sync)] ++ sectionSteps 0 1

/-- A step whose wait fails with the target broken in. -/
def brokeSteps : List (Action WinServerAnswer WinServerMove) :=
  goSteps 0 ++ threadSteps 3 (.failed (.engine "wait failed") true)
    ++ revertSteps

/-- A step whose request cannot be written. -/
def unwrittenSteps : List (Action LldbAnswer LldbMove) :=
  serverSteps 0 6 ++ [.step 0 (.race true)] ++ clientSteps 0 3
    ++ [.step 0 (.backend (.fail false "broken pipe"))]
    ++ clientSteps 0 2 ++ serverSteps 0 1

/-- Either fails, and the session is stopped over a target that is. -/
theorem step_failed :
    (∃ h s, WinResumeRun plainStep brokenIn h s ∧
      failedStopped s = true ∧ setGoing h = true ∧
      s.world.backend.target = .broken ∧ toldGone h = false) ∧
    ∃ h s, LldbFailureRun plainStep stoppedLldb h s ∧
      failedStopped s = true ∧ outstanding h = [] ∧
      stoppedAtEnd h = false := by
  constructor
  · obtain ⟨h, s, hr, hm, hs, hg⟩ := exec_witness winMachine
      (winPool (resumeAndPauses plainStep) brokenIn) brokeSteps
      (fun h s => Meets (fun h ev => keepsTarget h ev = true) h ∧
        failedStopped s = true ∧ setGoing h = true)
      (by decide +kernel)
    obtain ⟨ht, htold⟩ :=
      (failed_resume_stopped plainStep).1 rfl (.ofMeets hr hm) hs
    exact ⟨h, s, .ofMeets hr hm, hs, hg, ht hg, htold⟩
  · obtain ⟨h, s, hr, hm, hs⟩ := exec_witness lldbMachine
      (lldbResume plainStep stoppedLldb) unwrittenSteps
      (fun h s => Meets (fun h ev => keepsAdapter h ev = true) h ∧
        failedStopped s = true)
      (by decide +kernel)
    have hclosed : ClosedInv stoppedLldb.backend := ⟨nofun, nofun, nofun⟩
    have horder : stoppedLldb.backend.InOrder := ⟨fun _ _ => nofun, nofun⟩
    obtain ⟨ho, hend⟩ := (failed_resume_stopped plainStep).2 hclosed
      horder (.ofMeets hr hm) hs
    exact ⟨h, s, .ofMeets hr hm, hs, ho, hend⟩

/-- A step that does not land in time. -/
def lateSteps : List (Action WinServerAnswer WinServerMove) :=
  goSteps 0 ++ threadSteps 3 .timedOut ++ revertSteps

/-- The engine thread ends under a step. -/
def goneSteps : List (Action WinServerAnswer WinServerMove) :=
  goSteps 0 ++ [.env (.backend .die), .step 0 (.backend .sync)]
    ++ sectionSteps 0 1

/-- The stream ends before the response of a step. -/
def endedSteps : List (Action LldbAnswer LldbMove) :=
  serverSteps 0 6 ++ sendSteps 0 ++ [.env (.backend .eof)]
    ++ List.replicate 2 (.env (.backend (.reader 0)))
    ++ clientSteps 0 2 ++ serverSteps 0 1

/-- The session is stopped over a running target, and over a debugger
that is known to be gone. -/
theorem resume_left_running :
    (∃ h s, Run winMachine (winPool (resumeAndPauses plainStep) brokenIn)
      h s ∧ failedStopped s = true ∧ setGoing h = true ∧
      s.world.backend.target = .running) ∧
    (∃ h s, Run winMachine (winPool (resumeAndPauses plainStep) brokenIn)
      h s ∧ failedStopped s = true ∧ toldGone h = true) ∧
    ∃ h s, Run lldbMachine (lldbResume plainStep stoppedLldb) h s ∧
      failedStopped s = true ∧ stoppedAtEnd h = true := by
  refine ⟨?_, ?_, ?_⟩
  · exact exec_witness winMachine
      (winPool (resumeAndPauses plainStep) brokenIn) lateSteps
      (fun h s => failedStopped s = true ∧ setGoing h = true ∧
        s.world.backend.target = .running)
      (by decide +kernel)
  · exact exec_witness winMachine
      (winPool (resumeAndPauses plainStep) brokenIn) goneSteps
      (fun h s => failedStopped s = true ∧ toldGone h = true)
      (by decide +kernel)
  · exact exec_witness lldbMachine (lldbResume plainStep stoppedLldb)
      endedSteps
      (fun h s => failedStopped s = true ∧ stoppedAtEnd h = true)
      (by decide +kernel)

end DebugMcp
