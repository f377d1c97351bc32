/-
A resume that fails over the lldb backend.

A resume fails when its request cannot be written, or when the stream
ends before its response: the adapter's own refusal is not looked at. In
either case the handler writes Stopped.

`LldbFails` says what that write may rely on, by where the handler is, in
the runs in which a write that fails has not reached the adapter and the
stream does not end under a request without its response.
-/
import DebugMcp.Tools.Outstanding

namespace DebugMcp

open Conc

-- =========================================================== histories

/-- The channel of the last request. -/
def lastChan : LldbHistory → Option ChanId
  | [] => none
  | .act _ (.backend (.registerPending _)) c _ _ :: _ => some c
  | _ :: h => lastChan h

/-- Has the receiver something to receive? -/
def Oneshot.isSent {α : Type} : Oneshot α → Bool
  | sent _ => true
  | _ => false

/-- Has a resume set the session running that is not over, nor dropped,
and whose response the client `w` has not got? -/
def unresponded (w : DapClient) : LldbHistory → Bool
  | [] => false
  | .act _ (.tool (.inl (.setState st))) _ _ _ :: _ => st = .running
  | .act _ (.race .first) polled _ _ :: h => polled && unresponded w h
  | .act _ (.backend (.writeRequest _)) .ok _ _ :: h =>
      (lastChan h).all fun c => !(w.chans c).isSent
  | .act _ (.backend (.writeRequest _)) (.cancelled _) _ _ :: _ => false
  | .act _ (.backend (.recv _)) none _ _ :: _ => false
  | _ :: h => unresponded w h

/-- Has Stopped been written for an error with the stream at its end? -/
def stoppedAtEnd : LldbHistory → Bool
  | [] => false
  | .act _ (.tool (.inl (.setState .stopped))) _ w _ :: h =>
      w.backend.ended || stoppedAtEnd h
  | _ :: h => stoppedAtEnd h

-- =========================================================== condition

/-- The stream is open when the session is set running, and does not end
before the response; a write that fails has not reached the adapter. -/
def keepsAdapter (h : LldbHistory) : LldbEvent → Bool
  | .act _ (.tool (.inl (.setState .running))) _ w _ => !w.backend.ended
  | .act _ (.backend (.writeRequest _)) (.failed reached _) _ _ => !reached
  | .env (.backend .eof) w _ => !unresponded w.backend h
  | _ => true

/-- One resume over the lldb backend, which has not started. -/
def lldbResume (c : ResumeTool) (w : LldbServer) :
    Pool LldbOp ToolOutcome LldbServer where
  world := w
  prog
    | 0 => some (c.prog.interp overLldb)
    | _ => none

/-- The runs of a resume whose steps all meet the condition. -/
abbrev LldbFailureRun (c : ResumeTool) (w₀ : LldbServer) :
    LldbHistory → Pool LldbOp ToolOutcome LldbServer → Prop :=
  RunIf lldbMachine (fun h ev => keepsAdapter h ev = true)
    (lldbResume c w₀)

-- ============================================================ invariant

/-- The adapter has not got the request, and its stream is open. -/
structure Unheard (w : LldbServer) (h : LldbHistory) : Prop where
  clear : outstanding h = []
  opened : w.backend.ended = false
  unresponded : ∀ c, unresponded c h = true

/-- What holds of the resume, by where its handler is. -/
def LldbFails (w : LldbServer) (h : LldbHistory) : Flight → Prop
  | .before => outstanding h = []
  | .entering | .polled | .armed | .numbered _ =>
      Unheard w h ∧ w.state ≠ .stopped
  | .registered _ c => Unheard w h ∧ lastChan h = some c ∧
      w.backend.chans c ≠ .closed ∧ w.state ≠ .stopped
  | .awaiting _ c =>
      (∀ c', unresponded c' h = !(c'.chans c).isSent) ∧
      w.backend.chans c ≠ .closed ∧
      (w.backend.ended = true →
        ∃ m, w.backend.chans c = .sent (.ok m)) ∧ w.state ≠ .stopped
  | .removing _ true | .releasing true | .failed => Unheard w h
  | .removing _ false | .releasing false | .answered => w.state ≠ .stopped
  | .quit => w.state = .stopped → outstanding h = []
  | .got _ | .landed => True

section

variable {w w' : LldbServer} {h : LldbHistory} {f f' : Flight} {β : Type}
  {op : LldbOp β} {a : LldbAnswer} {b : β}

/-- A step that sends nothing to the adapter. -/
theorem Unheard.same {ev : LldbEvent} (hI : Unheard w h)
    (ho : outstanding h = [] → outstanding (ev :: h) = [])
    (he : w'.backend.ended = w.backend.ended)
    (hu : ∀ c, DebugMcp.unresponded c (ev :: h)
      = DebugMcp.unresponded c h) : Unheard w' (ev :: h) where
  clear := ho hI.clear
  opened := he.trans hI.opened
  unresponded c := (hu c).trans (hI.unresponded c)

/-- A step of others, the end of the stream apart. -/
theorem LldbFails.still {ev : LldbEvent} (hI : LldbFails w h f)
    (ho : outstanding h = [] → outstanding (ev :: h) = [])
    (he : w'.backend.ended = w.backend.ended)
    (hu : ∀ c, unresponded c (ev :: h) = unresponded c h)
    (hl : lastChan (ev :: h) = lastChan h)
    (hc : ∀ c, w'.backend.chans c = w.backend.chans c ∨
      w.backend.chans c = .empty ∧ ∃ r, w'.backend.chans c = .sent r)
    (hst : w'.state = .stopped → w.state = .stopped) :
    LldbFails w' (ev :: h) f := by
  have hunclosed : ∀ c, w.backend.chans c ≠ .closed →
      w'.backend.chans c ≠ .closed := by
    intro c hne hclosed
    rcases hc c with h | ⟨-, r, h⟩
    · exact hne (h ▸ hclosed)
    · cases h.symm.trans hclosed
  have hne : w.state ≠ .stopped → w'.state ≠ .stopped :=
    fun hne h => hne (hst h)
  cases f with
  | before => exact ho hI
  | entering | polled | armed | numbered =>
      exact ⟨hI.1.same ho he hu, hne hI.2⟩
  | registered n c =>
      exact ⟨hI.1.same ho he hu, hl.trans hI.2.1, hunclosed c hI.2.2.1,
        hne hI.2.2.2⟩
  | awaiting n c =>
      obtain ⟨hun, hclosed, hsent, hst⟩ := hI
      refine ⟨fun c' => (hu c').trans (hun c'), hunclosed c hclosed,
        fun hend => ?_, hne hst⟩
      obtain ⟨m, hm⟩ := hsent (he.symm.trans hend)
      rcases hc c with h | ⟨h, -⟩
      · exact ⟨m, h.trans hm⟩
      · cases h.symm.trans hm
  | removing n failed | releasing failed =>
      cases failed with
      | true => exact hI.same ho he hu
      | false => exact hne hI
  | failed => exact hI.same ho he hu
  | answered => exact hne hI
  | quit => exact fun h => ho (hI (hst h))
  | got | landed => trivial

/-- The end of the stream finds the resume over, or with its response. -/
theorem LldbFails.eof (hI : LldbFails w h f) (hC : ClosedInv w.backend)
    (hc : w.backend.envMove .eof = some w'.backend)
    (hst : w'.state = w.state)
    (hok : unresponded w.backend h = false) :
    LldbFails w' (.env (.backend .eof) w w' :: h) f := by
  obtain ⟨-, hopen, hw⟩ := DapClient.envMove_eof hc
  have hheard : ¬ Unheard w h := fun hI => by
    cases (hI.unresponded w.backend).symm.trans hok
  have hne : w.state ≠ .stopped → w'.state ≠ .stopped :=
    fun hne h => hne (hst.symm.trans h)
  cases f with
  | before => exact rfl
  | entering | polled | armed | numbered | registered =>
      exact absurd hI.1 hheard
  | awaiting n c =>
      obtain ⟨hun, hclosed, -, hstate⟩ := hI
      refine ⟨hun, by rw [hw]; exact hclosed, fun _ => ?_, hne hstate⟩
      have hsent := (hun w.backend).symm.trans hok
      rw [hw]
      show ∃ m, w.backend.chans c = _
      cases hx : w.backend.chans c with
      | sent r =>
          cases r with
          | ok m => exact ⟨m, rfl⟩
          | error e => cases hopen.symm.trans (hC.inChan hx)
      | _ =>
          rw [hx] at hsent
          cases hsent
  | removing n failed | releasing failed =>
      cases failed with
      | true => exact absurd hI hheard
      | false => exact hne hI
  | failed => exact absurd hI hheard
  | answered => exact hne hI
  | quit => exact fun _ => rfl
  | got | landed => trivial

/-- The backend stops no session. -/
theorem unstopped_backend {op : ClientOp β}
    (hr : lldbMachine.run 0 (.backend op) a w = some (b, w'))
    (hst : w.state ≠ .stopped) : w'.state ≠ .stopped := by
  rw [Backed.state_backend hr]
  exact hst

/-- A step of the resume. -/
theorem LldbFails.act (hI : LldbFails w h f) (hC : ClosedInv w.backend)
    (hO : w.backend.InOrder)
    (hr : lldbMachine.run 0 op a w = some (b, w'))
    (hq : FlightNext f op b f')
    (hok : keepsAdapter h (.act 0 op b w w') = true) :
    (stoppedAtEnd h = false →
      stoppedAtEnd (.act 0 op b w w' :: h) = false) ∧
      LldbFails w' (.act 0 op b w w' :: h) f' := by
  cases hq with
  | look op hl x =>
      cases hl <;> exact ⟨id, hI⟩
  | run =>
      obtain ⟨_, _, hb⟩ := Backed.run_tool hr
      refine ⟨id, ⟨hI, ?_, fun _ => rfl⟩, ?_⟩
      · rw [hb]
        exact (Bool.not_eq_true' _).mp hok
      · rw [Backed.state_session hr]
        nofun
  | lost =>
      cases Backed.run_race hr
      exact ⟨id, fun h => absurd h hI.2⟩
  | polled =>
      cases Backed.run_race hr
      exact ⟨id, hI.1.same id rfl fun _ => rfl, hI.2⟩
  | arm =>
      obtain ⟨_, hc, _⟩ := Backed.run_backend hr
      exact ⟨id, hI.1.same id (DapClient.run_reader hc).ended fun _ => rfl,
        unstopped_backend hr hI.2⟩
  | number n =>
      obtain ⟨_, hc, _⟩ := Backed.run_backend hr
      exact ⟨id, hI.1.same id (DapClient.run_reader hc).ended fun _ => rfl,
        unstopped_backend hr hI.2⟩
  | register n c =>
      obtain ⟨_, hc, _⟩ := Backed.run_backend hr
      exact ⟨id, hI.1.same id (DapClient.run_reader hc).ended fun _ => rfl,
        rfl, hO.registered (DapClient.run_registerPending hc),
        unstopped_backend hr hI.2⟩
  | write n c q =>
      obtain ⟨hun, hlast, hclosed, hst⟩ := hI
      obtain ⟨_, hc, _⟩ := Backed.run_backend hr
      have hw := DapClient.run_writeRequest hc
      refine ⟨id, fun c' => ?_, hw ▸ hclosed, fun hend => ?_,
        unstopped_backend hr hst⟩
      · show (lastChan h).all _ = _
        rw [hlast]
        rfl
      · rw [hw] at hend
        cases hun.opened.symm.trans hend
  | writeFail n c q reached err =>
      obtain ⟨_, hc, _⟩ := Backed.run_backend hr
      have hpast : (Written.failed reached err).reached = false ∨
          w.backend.ended = true := .inl ((Bool.not_eq_true' _).mp hok)
      exact ⟨id, hI.1.same (outstanding_past hpast).trans
        (DapClient.run_reader hc).ended fun _ => rfl⟩
  | writeDrop n c q reached =>
      exact ⟨id, unstopped_backend hr hI.2.2.2⟩
  | answer n c m => exact ⟨id, unstopped_backend hr hI.2.2.2⟩
  | refuse n c r e he =>
      obtain ⟨_, hc, _⟩ := Backed.run_backend hr
      obtain ⟨-, hrecv⟩ := DapClient.run_recv hc
      have hx := hrecv r rfl
      obtain ⟨-, hclosed, hsent, -⟩ := hI
      cases hch : w.backend.chans c with
      | closed => exact absurd hch hclosed
      | sent x =>
          rw [hch] at hx
          cases hx
          have hxe : x = .error e := he
          obtain ⟨m, hm⟩ := hsent (hC.inChan (hxe ▸ hch))
          cases hch.symm.trans hm
          cases hxe
      | _ =>
          rw [hch] at hx
          cases hx
  | drop n c => exact ⟨id, unstopped_backend hr hI.2.2.2⟩
  | remove n failed =>
      cases failed with
      | true =>
          obtain ⟨_, hc, _⟩ := Backed.run_backend hr
          exact ⟨id, Unheard.same hI id (DapClient.run_reader hc).ended
            fun _ => rfl⟩
      | false => exact ⟨id, unstopped_backend hr hI⟩
  | releaseFailed =>
      obtain ⟨_, hc, _⟩ := Backed.run_backend hr
      exact ⟨id, Unheard.same hI id (DapClient.run_reader hc).ended
        fun _ => rfl⟩
  | releaseDropped =>
      exact ⟨id, fun h => absurd h (unstopped_backend hr hI)⟩
  | stop r => exact ⟨id, trivial⟩
  | stopDrop => exact ⟨id, unstopped_backend hr hI⟩
  | revert =>
      refine ⟨fun hno => ?_, fun _ => hI.clear⟩
      show (w.backend.ended || stoppedAtEnd h) = false
      rw [hI.opened, hno]
      rfl
  | settle o op hw x =>
      cases hw <;> exact ⟨id, trivial⟩
  | cache | drain => exact ⟨id, trivial⟩

/-- The resume of call 0, on a client whose channels are in order; there
is no other call. -/
structure LldbFailInv (w : LldbServer) (φ : Nat → Flight × SendPhase)
    (h : LldbHistory) : Prop where
  closed : ClosedInv w.backend
  order : w.backend.InOrder
  atEnd : stoppedAtEnd h = false
  others : ∀ i, i ≠ 0 → (φ i).1 = .quit
  fails : LldbFails w h (φ 0).1

/-- It holds in every state of a run. -/
theorem lldbFailInv_inductive : Inductive lldbMachine ResumeNext
    (fun h ev => keepsAdapter h ev = true) LldbFailInv where
  act := by
    intro w w' φ h i β op a b q' hI hr hq hok
    obtain ⟨hf, -⟩ := hq
    by_cases hi : i = 0
    · subst hi
      obtain ⟨hopen, hfails⟩ := hI.fails.act hI.closed hI.order hr hf hok
      have hkeep : ClosedInv w'.backend ∧ w'.backend.InOrder := by
        cases op with
        | tool op =>
            obtain ⟨_, _, hb⟩ := Backed.run_tool hr
            rw [hb]
            exact ⟨hI.closed, hI.order⟩
        | backend op =>
            obtain ⟨_, hc, _⟩ := Backed.run_backend hr
            exact ⟨hI.closed.act hc, hI.order.act hc⟩
        | race op =>
            cases Backed.run_race hr
            exact ⟨hI.closed, hI.order⟩
      refine ⟨hkeep.1, hkeep.2, hopen hI.atEnd, fun j hj => ?_, ?_⟩
      · rw [Function.update_of_ne hj]
        exact hI.others j hj
      · rw [Function.update_self]
        exact hfails
    · rw [hI.others i hi] at hf
      cases hf
  env := by
    intro w w' φ h e hI he hok
    cases e with
    | tool e =>
        obtain ⟨-, hs, hb⟩ := Backed.env_tool he
        have hended : w'.backend.ended = w.backend.ended := by rw [hb]
        have hchans : ∀ c, w'.backend.chans c = w.backend.chans c :=
          fun c => by rw [hb]
        exact ⟨hb ▸ hI.closed, hb ▸ hI.order, hI.atEnd, hI.others,
          hI.fails.still id hended (fun _ => rfl) rfl
            (fun c => .inl (hchans c)) (stopped_env hs)⟩
    | backend e =>
        obtain ⟨hc, hs⟩ := Backed.env_backend he
        have hst : w'.state = w.state := by
          unfold Backed.state
          rw [hs]
        have hopen : stoppedAtEnd (.env (.backend e) w w' :: h) = false :=
          hI.atEnd
        have hchans := DapClient.envMove_chans hc
        refine ⟨hI.closed.env hc, hI.order.env hc, hopen, hI.others, ?_⟩
        cases e with
        | eof =>
            exact hI.fails.eof hI.closed hc hst
              ((Bool.not_eq_true' _).mp hok)
        | frame m =>
            obtain ⟨-, -, hw⟩ := DapClient.envMove_frame hc
            refine hI.fails.still (fun ho => ?_) (by rw [hw])
              (fun _ => rfl) rfl hchans hst.symm.trans
            show (if m.endsResume then [] else outstanding h) = []
            rw [ho]
            exact ite_self _
        | reader k =>
            obtain ⟨op, rest, hw, hk⟩ := DapClient.envMove_reader hc
            exact hI.fails.still id (DapClient.readerStep_frame hw hk).ended
              (fun _ => rfl) rfl hchans hst.symm.trans

end

-- ========================================================== the result

/-- A resume that returned an error and leaves the session stopped is not
with the adapter; and Stopped was not written over a stream at its
end. -/
theorem failed_over_lldb (c : ResumeTool) {w₀ : LldbServer}
    {h : LldbHistory} {s : Pool LldbOp ToolOutcome LldbServer}
    {o : ToolOutcome} (hclosed : ClosedInv w₀.backend)
    (horder : w₀.backend.InOrder) (hr : LldbFailureRun c w₀ h s)
    (ho : s.returned 0 = some o) (he : o.isError = true)
    (hst : s.world.state = .stopped) :
    outstanding h = [] ∧ stoppedAtEnd h = false := by
  have hstart : LldbFailInv w₀
      (fun i => unsent (if i = 0 then .before else .quit)) [] := {
    closed := hclosed
    order := horder
    atEnd := rfl
    others := fun i hi => if_neg hi
    fails := rfl }
  have hobeys : ∀ i p, (lldbResume c w₀).prog i = some p →
      Obeys ResumeNext FlightOver p
        (unsent (if i = 0 then .before else .quit)) := by
    intro i p hp
    cases i with
    | zero =>
        cases hp
        exact c.obeys
    | succ i => cases hp
  obtain ⟨φ, hI, hover⟩ := hr.invariant lldbFailInv_inductive hobeys hstart
  have hends : FlightOver (φ 0) o := hover 0 _ (Pool.prog_of_returned ho)
  refine ⟨?_, hI.atEnd⟩
  have hfails := hI.fails
  have hflight := hends.inFlight
  have herror := hends.error
  generalize (φ 0).1 = f at hfails hflight herror
  cases f with
  | before => exact hfails
  | landed =>
      rw [he] at herror
      cases herror rfl
  | quit => exact hfails hst
  | _ => cases hflight

end DebugMcp
