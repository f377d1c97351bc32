/-
The crash-dump flag, against the session it describes.

`open_crash_dump` installs its backend, sets the state stopped and sets
the flag in three lock sections; a resume checks the state, reads the
flag and reads the slot in three more. Nothing ties a section of the one
to a section of the other.

# Result

`dump_flag_matches`: in every run in which

- a dump whose backend a resume finds in the slot had its flag set when
  the resume read it, with no reset in between,
- the flag is set while no live backend is in the slot,
- a live backend is installed while the flag is not set,

no `continue` or step is invoked on a dump's backend, and no resume is
refused as one of a dump while a live backend is in the slot.
`dump_resumed` is the run in which a `continue` comes between the state
and the flag of an `open_crash_dump`; in `live_refused` the flag of one
dump is set in the session launched after it.
-/
import DebugMcp.Tools.EpochIsolation
import DebugMcp.Tools.ResumeRace

namespace DebugMcp

open Conc

-- ============================================================ histories

/-- Is the call `open_crash_dump`? -/
def Call.opensDump : Call → Bool
  | .openCrashDump _ => true
  | _ => false

/-- The backend an operation resumes. -/
def ServerOp.resumed {β : Type} : ServerOp β → Option BackendId
  | .cont b _ => some b
  | .step b _ _ _ => some b
  | _ => none

/-- The backend an event resumes. -/
def resumes : ToolEvent → Option BackendId
  | .act _ (.inr op) _ _ _ => op.resumed
  | _ => none

/-- Does the event set the dump flag? -/
def setsFlag : ToolEvent → Bool
  | .act _ (.inl (.setDump true)) _ _ _ => true
  | _ => false

/-- What an event reads the dump flag as. -/
def readsFlag : ToolEvent → Option Bool
  | .act _ (.inl .isDump) d _ _ => some d
  | _ => none

/-- The backend an event finds in the slot. -/
def findsBackend : ToolEvent → Option BackendId
  | .act _ (.inr .currentBackend) b _ _ => b
  | _ => none

/-- The backend an event installs. -/
def installs : ToolEvent → Option BackendId
  | .act _ (.inr (.setSlot b)) _ _ _ => some b
  | _ => none

/-- Has call `j` set the flag since the last reset? -/
def flagged (j : Nat) : History → Bool
  | [] => false
  | ev :: h =>
      if isReset ev then false
      else (setsFlag ev && ev.who == some j) || flagged j h

/-- Had call `j` the flag set when call `i` read it? -/
def flaggedAtRead (i j : Nat) : History → Bool
  | [] => false
  | ev :: h =>
      if ev.who = some i ∧ (readsFlag ev).isSome then flagged j h
      else flaggedAtRead i j h

/-- Was backend `b` connected by `open_crash_dump`? -/
def OfDump (calls : Nat → Call) (h : History) (b : BackendId) : Prop :=
  ∃ j ∈ connector b h, (calls j).opensDump = true

/-- Was backend `b` connected by another handler? -/
def OfLive (calls : Nat → Call) (h : History) (b : BackendId) : Prop :=
  ∃ j ∈ connector b h, (calls j).opensDump = false

instance (calls : Nat → Call) (h : History) (b : BackendId) :
    Decidable (OfDump calls h b) :=
  inferInstanceAs (Decidable (∃ j ∈ connector b h, _))

instance (calls : Nat → Call) (h : History) (b : BackendId) :
    Decidable (OfLive calls h b) :=
  inferInstanceAs (Decidable (∃ j ∈ connector b h, _))

-- ======================================================== the condition

/-- The flag is set before it is read, and where it belongs. -/
def StepsFlagged (calls : Nat → Call) (h : History) (ev : ToolEvent) :
    Prop :=
  (∀ i ∈ ev.who, (calls i).isResume = true →
    ∀ b ∈ findsBackend ev, ∀ j ∈ connector b h,
      (calls j).opensDump = true → flaggedAtRead i j h = true) ∧
  (setsFlag ev = true → ∀ b ∈ ev.pre.backend, ¬ OfLive calls h b) ∧
  (∀ b ∈ installs ev, OfLive calls h b →
    ev.pre.session.inner.isDump = false)

instance (calls : Nat → Call) (h : History) (ev : ToolEvent) :
    Decidable (StepsFlagged calls h ev) :=
  inferInstanceAs (Decidable (_ ∧ _ ∧ _))

/-- No dump's backend is resumed, and no resume is refused as a dump's
while a live backend is in the slot. -/
def FlagMatches (calls : Nat → Call) (h : History) (ev : ToolEvent) :
    Prop :=
  (∀ b ∈ resumes ev, ¬ OfDump calls h b) ∧
  (readsFlag ev = some true → ∀ b ∈ ev.pre.backend, ¬ OfLive calls h b)

instance (calls : Nat → Call) (h : History) (ev : ToolEvent) :
    Decidable (FlagMatches calls h ev) :=
  inferInstanceAs (Decidable (_ ∧ _))

-- =========================================================== protocol

/-- Where a call is, for the flag: a connect handler between being
handed a backend and installing it, or a resume before its backend
call. -/
inductive FlagPhase
  | other
  | holding (b : BackendId)
  /-- A resume that has not read the flag. -/
  | unread
  /-- A resume that read the flag as not set. -/
  | clear
  /-- A resume that found a backend in the slot. -/
  | found (b : BackendId)

/-- Is the phase one of a resume? -/
def FlagPhase.isRes : FlagPhase → Bool
  | unread | clear | found _ => true
  | _ => false

/-- Does the operation resume no backend, install none and connect
none? -/
def ServerOp.isAside {β : Type} : ServerOp β → Bool
  | .connect _ => false
  | .setSlot _ => false
  | .cont _ _ => false
  | .step _ _ _ _ => false
  | _ => true

/-- Does the section clear the flag only by a reset? -/
def SessionOp.isAside {β : Type} : SessionOp β → Bool
  | .setDump d => d
  | _ => true

/-- Is the operation one on the side of the flag's protocol? -/
def ToolOp.isAside {β : Type} : ToolOp β → Bool
  | .inl op => op.isAside
  | .inr op => op.isAside

/-- What a call may do to the flag and the slot. -/
inductive FlagNext : ⦃β : Type⦄ → FlagPhase → ToolOp β → β →
    FlagPhase → Prop
  | aside {β : Type} (op : ToolOp β) (h : op.isAside = true) (x : β) :
      FlagNext .other op x .other
  | connectOk (f : String) (b : BackendId) :
      FlagNext .other (.inr (.connect f)) (.ok b) (.holding b)
  | connectErr (f : String) (e : BackendError) :
      FlagNext .other (.inr (.connect f)) (.error e) .other
  | install (b : BackendId) :
      FlagNext (.holding b) (.inr (.setSlot b)) () .other
  | guard (allowed : List State) (r : Except String Unit) :
      FlagNext .unread (.inl (.checkState allowed)) r .unread
  | refused : FlagNext .unread (.inl .isDump) true .other
  | pass : FlagNext .unread (.inl .isDump) false .clear
  | thread (i : Option StopInfo) :
      FlagNext .clear (.inl .lastStopped) i .clear
  | find (b : BackendId) :
      FlagNext .clear (.inr .currentBackend) (some b) (.found b)
  | empty : FlagNext .clear (.inr .currentBackend) none .other
  | stamp (b : BackendId) (g : UInt64) :
      FlagNext (.found b) (.inl .generation) g (.found b)
  | running (b : BackendId) :
      FlagNext (.found b) (.inl (.setState .running)) () (.found b)
  | call {β : Type} (b : BackendId) (op : ServerOp β)
      (h : op.resumed = some b) (x : β) :
      FlagNext (.found b) (.inr op) x .other

section

variable {β : Type} {op : ToolOp β} {x : β}

/-- Where a connect handler is, for the flag. -/
def ConnPhase.flag : ConnPhase → FlagPhase
  | connected b => .holding b
  | _ => .other

/-- A connect handler installs the backend it was handed. -/
theorem ConnNext.flag {q q' : ConnPhase} (h : ConnNext q op x q') :
    FlagNext q.flag op x q'.flag := by
  cases h with
  | connectOk f b => exact .connectOk f b
  | connectErr f e => exact .connectErr f e
  | install b => exact .install b
  | handshakeOk b op h o | handshakeErr b op h o =>
      exact .aside _ (by cases h <;> rfl) _
  | handshakeCancel b op h => exact .aside _ (by cases h <;> rfl) _
  | settle op h x => exact .aside _ (by cases h <;> rfl) _
  | _ => exact .aside _ rfl _

/-- `disconnect` installs nothing and resumes nothing. -/
theorem DiscNext.flag {q q' : DiscPhase} (h : DiscNext q op x q') :
    FlagNext .other op x .other := by
  cases h <;> exact .aside _ rfl _

/-- Nor do the breakpoint handlers. -/
theorem BpNext.flag {q q' : BpPhase} (h : BpNext q op x q') :
    FlagNext .other op x .other := by
  cases h <;> exact .aside _ rfl _

end

/-- An operation on the side. -/
private theorem aside_bind {β α : Type} {op : ToolOp β}
    {k : β → ToolProg α} (h : op.isAside = true)
    (hk : ∀ x, Obeys FlagNext Any (k x) .other) :
    Obeys FlagNext Any (Prog.perform op >>= k) .other :=
  fun x => ⟨_, .aside op h x, hk x⟩

theorem handleStopResult_flag (outcome : StopOutcome) (g : UInt64) :
    Obeys FlagNext Any (handleStopResult outcome g) .other := by
  cases outcome with
  | stopped info =>
      refine aside_bind rfl fun applied => ?_
      cases applied with
      | true =>
          exact aside_bind rfl fun _ => aside_bind rfl fun _ => trivial
      | false => exact aside_bind rfl fun _ => trivial
  | exited code =>
      exact aside_bind rfl fun _ => aside_bind rfl fun _ => trivial
  | terminated => exact aside_bind rfl fun _ => trivial

/-- What follows its await is on the side. -/
theorem resumeEnd_flag (opErr : OpError) (timeoutMsg : String)
    (g : UInt64) (r : Option (Except BackendError StopOutcome)) :
    Obeys FlagNext Any (resumeEnd opErr timeoutMsg g r) .other := by
  rcases r with _ | e | outcome
  · trivial
  · exact aside_bind rfl fun _ => trivial
  · exact handleStopResult_flag outcome g

theorem resume_flag (args : Args) (kind : Resume) (opErr : OpError)
    (timeoutMsg : String) :
    Obeys FlagNext Any (resume args kind opErr timeoutMsg) .unread := by
  intro r
  refine ⟨_, .guard _ r, ?_⟩
  cases r with
  | error e => trivial
  | ok u =>
      intro d
      cases d with
      | true => exact ⟨_, .refused, trivial⟩
      | false =>
          refine ⟨_, .pass, ?_⟩
          refine (resolveThreadId_stays .thread args).bind fun q t hq => ?_
          subst hq
          cases t with
          | error e => trivial
          | ok tid =>
              intro b
              cases b with
              | none => exact ⟨_, .empty, trivial⟩
              | some b =>
                  refine ⟨_, .find b, fun g => ⟨_, .stamp b g,
                    fun _ => ⟨_, .running b, ?_⟩⟩⟩
                  have hend := resumeEnd_flag opErr timeoutMsg g
                  -- the two kinds differ only in the await
                  cases kind with
                  | «continue» => exact fun r => ⟨_, .call b _ rfl r, hend r⟩
                  | step k => exact fun r => ⟨_, .call b _ rfl r, hend r⟩

/-- The phase a call starts in, for the flag. -/
def Call.flag₀ (c : Call) : FlagPhase :=
  if c.isResume then .unread else .other

/-- Every call reads the flag, finds and installs in order. -/
theorem Call.flag (host : Host) (c : Call) :
    Obeys FlagNext Any (c.prog host) c.flag₀ := by
  have hconn : ∀ {p : ToolProg ToolOutcome},
      Obeys ConnNext Any p .start → Obeys FlagNext Any p .other :=
    fun h => Obeys.embed (f := ConnPhase.flag) (q := .start)
      ConnNext.flag (fun _ _ _ => trivial) h
  have hbp : ∀ {p : ToolProg ToolOutcome},
      Obeys BpNext Committed p .start → Obeys FlagNext Any p .other :=
    fun h => Obeys.embed (f := fun _ => FlagPhase.other) BpNext.flag
      (fun _ _ _ => trivial) h
  cases c with
  | launch args => exact hconn (handleLaunch_obeys _ _ args)
  | attach args => exact hconn (handleAttach_obeys _ args)
  | openCrashDump args => exact hconn (handleOpenCrashDump_obeys _ args)
  | attachKernel args => exact hconn (handleAttachKernel_obeys _ args)
  | disconnect args =>
      exact Obeys.embed (f := fun _ => FlagPhase.other) DiscNext.flag
        (fun _ _ _ => trivial) (handleDisconnect_obeys args)
  | «continue» args | stepOver args | stepInto args | stepOut args =>
      exact resume_flag args _ _ _
  | pause =>
      exact handlePause_stays (fun _ _ => .aside _ rfl _)
        (fun _ => .aside _ rfl _) (fun _ _ => .aside _ rfl _)
        fun _ => trivial
  | setBreakpoint args => exact hbp (handleSetBreakpoint_obeys args)
  | setFunctionBreakpoint args =>
      exact hbp (handleSetFunctionBreakpoint_obeys args)
  | removeBreakpoint args => exact hbp (handleRemoveBreakpoint_obeys args)
  | listBreakpoints =>
      exact handleListBreakpoints_stays (fun _ => .aside _ rfl _)
        fun _ => trivial
  | readOutput =>
      exact handleReadOutput_stays (fun _ _ => .aside _ rfl _)
        (fun _ => .aside _ rfl _) fun _ => trivial

-- ======================================================== the invariant

/-- A backend in the slot is known to its connector and, while the flag
is set, is no live one; a resume that read the flag as not set found it
so, and what it took is live. -/
structure FlagInv (calls : Nat → Call) (w : ToolServer)
    (φ : Nat → FlagPhase) (h : History) : Prop where
  ids : ∀ b i, connector b h = some i → b < w.nextBackend
  holding : ∀ i b, φ i = .holding b → connector b h = some i
  slot : ∀ b ∈ w.backend, ∃ i, connector b h = some i
  flag : w.session.inner.isDump = true →
    ∀ b ∈ w.backend, ¬ OfLive calls h b
  flagged : ∀ j, flagged j h = true → w.session.inner.isDump = true
  clear : ∀ i, φ i = .clear → ∀ j, flaggedAtRead i j h = false
  found : ∀ i b, φ i = .found b → OfLive calls h b
  res : ∀ i, (φ i).isRes = true → (calls i).isResume = true

section

variable {calls : Nat → Call} {β : Type} {op : ToolOp β} {a : Answer}
  {x : β} {q q' : FlagPhase} {w w' : ToolServer} {φ : Nat → FlagPhase}
  {i : Nat} {b : BackendId} {h : History} {ev : ToolEvent}

/-- What connected a backend is not forgotten. -/
theorem OfLive.cons (hb : OfLive calls h b) : OfLive calls (ev :: h) b := by
  obtain ⟨j, hj, hd⟩ := hb
  exact ⟨j, connector_cons hj, hd⟩

/-- A backend with a connector is as live as it was. -/
theorem OfLive.of_cons (hc : connector b h = some i)
    (hb : OfLive calls (ev :: h) b) : OfLive calls h b := by
  obtain ⟨j, hj, hd⟩ := hb
  have hc' : connector b (ev :: h) = some i := connector_cons hc
  cases hc'.symm.trans hj
  exact ⟨i, hc, hd⟩

/-- Another call's event is no read of call `i`. -/
theorem flaggedAtRead_other {j : Nat} (hi : ev.who ≠ some i) :
    flaggedAtRead i j (ev :: h) = flaggedAtRead i j h :=
  if_neg fun hc => hi hc.1

/-- A live backend is no dump's. -/
theorem OfLive.not_ofDump (hb : OfLive calls h b) :
    ¬ OfDump calls h b := by
  rintro ⟨j, hj, hd⟩
  obtain ⟨k, hk, hl⟩ := hb
  cases hj.symm.trans hk
  exact Bool.false_ne_true (hl.symm.trans hd)

/-- The flag is set by its setter only. -/
theorem run_isDump (hr : w.run op a = some (x, w'))
    (hd : w'.session.inner.isDump = true) :
    setsFlag (.act i op x w w') = true ∨
      w.session.inner.isDump = true := by
  cases op with
  | inr op =>
      rw [ToolServer.run_inr hr] at hd
      exact .inr hd
  | inl op =>
      rw [(ToolServer.run_inl hr).2] at hd
      have hd : (op.run w.session).2.inner.isDump = true := hd
      cases op with
      | setDump d =>
          have hd : d = true := hd
          subst hd
          exact .inl rfl
      | resetInner => cases hd
      | setStateIfGeneration g st =>
          simp only [SessionOp.run, SessionManager.setStateIfGeneration]
            at hd
          split at hd <;> exact .inr hd
      | terminateIfGeneration g code =>
          simp only [SessionOp.run, SessionManager.terminateIfGeneration]
            at hd
          split at hd <;> exact .inr hd
      | removeBreakpointById id =>
          simp only [SessionOp.run, SessionManager.removeBreakpointById]
            at hd
          split at hd
          · exact .inr hd
          · split at hd <;> exact .inr hd
      | _ => exact .inr hd

/-- A section of a call is one on the side. -/
theorem FlagNext.session_aside (hq : FlagNext q op x q')
    {sop : SessionOp β} (he : op = .inl sop) : sop.isAside = true := by
  cases hq with
  | aside op hop x =>
      subst he
      exact hop
  | _ =>
      cases he
      try rfl

/-- Short of a reset, the flag stays set. -/
theorem FlagNext.keepsFlag (hq : FlagNext q op x q')
    (hr : w.run op a = some (x, w'))
    (hres : isReset (.act i op x w w') = false)
    (hd : setsFlag (.act i op x w w') = true ∨
      w.session.inner.isDump = true) :
    w'.session.inner.isDump = true := by
  cases op with
  | inr op =>
      rw [ToolServer.run_inr hr]
      exact hd.resolve_left Bool.false_ne_true
  | inl op =>
      rw [(ToolServer.run_inl hr).2]
      show (op.run w.session).2.inner.isDump = true
      cases op with
      | setDump d => exact hq.session_aside rfl
      | resetInner => cases hres
      | setStateIfGeneration g st =>
          simp only [SessionOp.run, SessionManager.setStateIfGeneration]
          split <;> exact hd.resolve_left Bool.false_ne_true
      | terminateIfGeneration g code =>
          simp only [SessionOp.run, SessionManager.terminateIfGeneration]
          split <;> exact hd.resolve_left Bool.false_ne_true
      | removeBreakpointById id =>
          simp only [SessionOp.run, SessionManager.removeBreakpointById]
          split
          · exact hd.resolve_left Bool.false_ne_true
          · split <;> exact hd.resolve_left Bool.false_ne_true
      | _ => exact hd.resolve_left Bool.false_ne_true

/-- An install is of the backend the handler was handed. -/
theorem FlagNext.installs (hq : FlagNext q op x q')
    (hin : isInstall (.act i op x w w') = true) :
    ∃ b, q = .holding b ∧ installs (.act i op x w w') = some b := by
  cases hq with
  | install b => exact ⟨b, rfl, rfl⟩
  | aside op hop x =>
      cases op with
      | inl op => cases hin
      | inr op =>
          cases op with
          | setSlot b => cases hop
          | _ => cases hin
  | call b op hop x =>
      cases op with
      | cont | step => cases hin
      | _ => cases hop
  | _ => cases hin

/-- A resume's phases come one after the other. -/
theorem FlagNext.isRes (hq : FlagNext q op x q')
    (h' : q'.isRes = true) : q.isRes = true := by
  cases hq <;> first | rfl | cases h'

/-- The slot holds what it held, or what is installed. -/
theorem FlagInv.slotStep (hI : FlagInv calls w φ h)
    (hq : FlagNext (φ i) op x q') (hr : w.run op a = some (x, w'))
    (hb : b ∈ w'.backend) :
    b ∈ w.backend ∨
      installs (.act i op x w w') = some b ∧ connector b h = some i := by
  cases hin : isInstall (.act i op x w w') with
  | false =>
      rcases backend_step hr hin with ⟨-, hs⟩ | ⟨-, hs⟩
      · rw [hs] at hb
        cases hb
      · rw [hs] at hb
        exact .inl hb
  | true =>
      obtain ⟨c, hc, hi⟩ := hq.installs hin
      have hbc : w'.backend = some c := by
        cases op with
        | inl op => cases hin
        | inr op =>
            cases op with
            | setSlot d =>
                cases hi
                cases hr
                rfl
            | _ => cases hin
      have hcb : c = b := Option.some.inj (hbc.symm.trans hb)
      subst hcb
      exact .inr ⟨hi, hI.holding i c hc⟩

/-- What a resume finds in the slot under the condition is live. -/
theorem FlagInv.findStep {x : Option BackendId}
    (hI : FlagInv calls w φ h) (hφ : φ i = .clear)
    (hr : w.run (.inr .currentBackend) a = some (x, w'))
    (hok : StepsFlagged calls h (.act i (.inr .currentBackend) x w w'))
    (hb : b ∈ x) : OfLive calls h b := by
  have hbw : b ∈ w.backend := by
    cases hr
    exact hb
  obtain ⟨j, hj⟩ := hI.slot b hbw
  refine ⟨j, hj, Bool.eq_false_iff.mpr fun hd => ?_⟩
  have hres : (calls i).isResume = true := hI.res i (by rw [hφ]; rfl)
  have hread := hok.1 i rfl hres b hb j hj hd
  rw [hI.clear i hφ j] at hread
  cases hread

/-- Every event keeps the flag with its session. -/
theorem flagInv_inductive :
    Inductive toolMachine FlagNext (StepsFlagged calls) (FlagInv calls)
    where
  act := by
    intro w w' φ h i β op a x q' hI hr hq hok
    have hr : w.run op a = some (x, w') := hr
    refine ⟨connector_lt hI.ids hr, fun j b hj => ?_, fun b hb => ?_,
      fun hd b hb => ?_, fun j hj => ?_, fun j hj k => ?_,
      fun j b hj => ?_, fun j hj => ?_⟩
    · by_cases hij : j = i
      · subst hij
        rw [Function.update_self] at hj
        subst hj
        generalize hφ : φ j = q at hq
        cases hq with
        | connectOk f b => exact connector_connect hI.ids hr
      · rw [Function.update_of_ne hij] at hj
        exact connector_cons (hI.holding j b hj)
    · rcases hI.slotStep hq hr hb with hb | ⟨-, hc⟩
      · obtain ⟨j, hj⟩ := hI.slot b hb
        exact ⟨j, connector_cons hj⟩
      · exact ⟨i, connector_cons hc⟩
    · intro hlive
      rcases hI.slotStep hq hr hb with hb | ⟨hin, hc⟩
      · obtain ⟨j, hj⟩ := hI.slot b hb
        have hlive := hlive.of_cons hj
        rcases run_isDump (i := i) hr hd with hs | hd
        · exact hok.2.1 hs b hb hlive
        · exact hI.flag hd b hb hlive
      · have hclear := hok.2.2 b hin (hlive.of_cons hc)
        rcases run_isDump (i := i) hr hd with hs | hd
        · cases op with
          | inl op => cases hin
          | inr op => cases hs
        · rw [show w.session.inner.isDump = false from hclear] at hd
          cases hd
    · rw [DebugMcp.flagged] at hj
      split at hj
      · cases hj
      · next hres =>
          rw [Bool.or_eq_true, Bool.and_eq_true] at hj
          exact hq.keepsFlag hr (Bool.eq_false_iff.mpr hres)
            (hj.imp And.left (hI.flagged j))
    · by_cases hij : j = i
      · subst hij
        rw [Function.update_self] at hj
        subst hj
        generalize hφ : φ j = q at hq
        cases hq with
        | pass =>
            have hd : w.session.inner.isDump = false :=
              (ToolServer.run_inl (a := a) hr).1
            refine (if_pos ⟨rfl, rfl⟩).trans ?_
            rw [Bool.eq_false_iff]
            intro hk
            rw [hI.flagged k hk] at hd
            cases hd
        | thread r => exact (if_neg nofun).trans (hI.clear j hφ k)
      · rw [Function.update_of_ne hij] at hj
        have hne : (Event.act i op x w w' : ToolEvent).who ≠ some j :=
          fun hc => hij (Option.some.inj hc).symm
        rw [flaggedAtRead_other hne]
        exact hI.clear j hj k
    · refine OfLive.cons ?_
      by_cases hij : j = i
      · subst hij
        rw [Function.update_self] at hj
        subst hj
        generalize hφ : φ j = q at hq
        cases hq with
        | find b => exact hI.findStep (a := a) hφ hr hok rfl
        | stamp b g => exact hI.found j b hφ
        | running b => exact hI.found j b hφ
      · rw [Function.update_of_ne hij] at hj
        exact hI.found j b hj
    · by_cases hij : j = i
      · subst hij
        rw [Function.update_self] at hj
        exact hI.res j (hq.isRes hj)
      · rw [Function.update_of_ne hij] at hj
        exact hI.res j hj
  env := by
    intro w w' φ h e hI he _
    have hb := backend_env he
    have hd : w'.session.inner.isDump = w.session.inner.isDump := by
      cases delivers_env he <;> rfl
    refine ⟨fun c j hc => ?_, fun j c hj => ?_, fun c hc => ?_,
      fun hf c hc hl => ?_, fun j hj => ?_, hI.clear, fun j c hj => ?_,
      hI.res⟩
    · have hc : (connector c h).or none = some j := hc
      rw [Option.or_none] at hc
      rw [nextBackend_env he]
      exact hI.ids c j hc
    · exact connector_cons (hI.holding j c hj)
    · rw [hb] at hc
      obtain ⟨j, hj⟩ := hI.slot c hc
      exact ⟨j, connector_cons hj⟩
    · rw [hb] at hc
      rw [hd] at hf
      obtain ⟨j, hj⟩ := hI.slot c hc
      exact hI.flag hf c hc (hl.of_cons hj)
    · rw [hd]
      exact hI.flagged j hj
    · exact (hI.found j c hj).cons

end

-- =========================================================== the result

/-- In a run whose steps meet the condition, the flag matches the
session at every event. -/
theorem dump_flag_matches (host : Host) (calls : Nat → Call)
    {h : History} {ev : ToolEvent}
    {s : Pool ToolOp ToolOutcome ToolServer}
    (hr : ToolRunIf host calls .new (StepsFlagged calls) (ev :: h) s) :
    FlagMatches calls h ev := by
  have hinit : FlagInv calls .new (fun i => (calls i).flag₀) [] := by
    have hstart : ∀ i, (calls i).flag₀ = .unread ∧
        (calls i).isResume = true ∨ (calls i).flag₀ = .other := by
      intro i
      unfold Call.flag₀
      cases hc : (calls i).isResume with
      | true => exact .inl ⟨rfl, rfl⟩
      | false => exact .inr rfl
    refine ⟨nofun, fun i b hi => ?_, nofun, nofun, nofun, fun i hi => ?_,
      fun i b hi => ?_, fun i hi => ?_⟩
    all_goals rcases hstart i with ⟨hs, hres⟩ | hs <;> rw [hs] at hi
    all_goals first | exact hres | cases hi
  cases hr with
  | @snoc _ s₁ _ _ hr hs hok =>
      obtain ⟨φ, hI, hobey⟩ := hr.invariant flagInv_inductive
        (fun i p hp => Option.some.inj hp ▸ (calls i).flag host) hinit
      cases hs with
      | @act i β op k a x w' hp hrun =>
          obtain ⟨q', hq, -⟩ := hobey i _ hp x
          refine ⟨fun b hb => ?_, fun hread b hb => ?_⟩
          · generalize hφ : φ i = q at hq
            cases hq with
            | call c op hop x =>
                cases hop.symm.trans hb
                exact (hI.found i b hφ).not_ofDump
            | aside op hop x =>
                cases op with
                | inl op => cases hb
                | inr op =>
                    cases op with
                    | cont | step => cases hop
                    | _ => cases hb
            | _ => cases hb
          · refine hI.flag ?_ b hb
            cases op with
            | inr op => cases hread
            | inl op =>
                cases op with
                | isDump =>
                    have hx : x = true := Option.some.inj hread
                    subst hx
                    exact (ToolServer.run_inl (a := a) hrun).1
                | _ => cases hread
      | env he => exact ⟨nofun, nofun⟩

/-- A host with both backends registered. -/
def windbgHost : Host where
  registry := ⟨["lldb", "windbg"], "lldb", none⟩
  text := ⟨fun _ => .ok [], fun _ => .ok []⟩

/-- A dump, a resume of it, its disconnect, an attach, and a resume of
that. -/
def dumpCalls : Nat → Call
  | 0 => .openCrashDump ⟨[("dump_path", .str "a.dmp")]⟩
  | 1 => .continue ⟨[]⟩
  | 2 => .disconnect ⟨[]⟩
  | 3 => .attach ⟨[("pid", .num 7)]⟩
  | _ => .continue ⟨[]⟩

/-- The dump, up to and with its `set_state`. -/
def dumpSteps : List (Action Answer EnvMove) :=
  sync 0 2 ++ [.step 0 (.connect (.ok ()))] ++ sync 0 4
    ++ [.step 0 (.dump (some (.ok ⟨none, none⟩)))] ++ sync 0 1

/-- The dump's `continue` is refused, the attached session's is not. -/
theorem attached_resumed :
    ∃ h ev s, ToolRun windbgHost dumpCalls .new (ev :: h) s ∧
      ev.who = some 4 ∧ resumes ev = some 1 ∧
      FlagMatches dumpCalls h ev := by
  obtain ⟨h, s, hr, hm, ev, hev, hwho, hres⟩ := exec_witness toolMachine
    (callPool windbgHost dumpCalls .new)
    (dumpSteps ++ sync 0 1 ++ sync 1 2 ++ sync 2 8 ++ attachSteps 3
      ++ sync 4 6 ++ [.step 4 (.stop none)])
    (fun h _ => Meets (StepsFlagged dumpCalls) h ∧
      ∃ ev ∈ h.head?, ev.who = some 4 ∧ resumes ev = some 1)
    (by decide +kernel)
  obtain ⟨h', rfl⟩ : ∃ h', h = ev :: h' :=
    ⟨h.tail, (List.cons_head?_tail hev).symm⟩
  exact ⟨h', ev, s, hr, hwho, hres,
    dump_flag_matches _ _ (.ofMeets hr hm)⟩

/-- A `continue` reads the flag after the dump's `set_state` and before
its `set_dump`: it is invoked on the dump's backend. -/
theorem dump_resumed :
    ∃ h ev s, ToolRun windbgHost dumpCalls .new (ev :: h) s ∧
      resumes ev = some 0 ∧ connector 0 h = some 0 ∧
      ¬ FlagMatches dumpCalls h ev := by
  obtain ⟨h, s, hr, ev, hev, hres, hc, hnot⟩ := exec_witness toolMachine
    (callPool windbgHost dumpCalls .new)
    (dumpSteps ++ sync 1 6 ++ [.step 1 (.stop none)])
    (fun h _ => ∃ ev ∈ h.head?, resumes ev = some 0 ∧
      connector 0 h.tail = some 0 ∧ ¬ FlagMatches dumpCalls h.tail ev)
    (by decide +kernel)
  obtain ⟨h', rfl⟩ : ∃ h', h = ev :: h' :=
    ⟨h.tail, (List.cons_head?_tail hev).symm⟩
  exact ⟨h', ev, s, hr, hres, hc, hnot⟩

/-- The dump sets its flag after a disconnect, in the session attached
since: a `continue` of that session is refused as one of a dump. -/
theorem live_refused :
    ∃ h ev s, ToolRun windbgHost dumpCalls .new (ev :: h) s ∧
      readsFlag ev = some true ∧ ev.pre.backend = some 1 ∧
      connector 1 h = some 3 ∧ ¬ FlagMatches dumpCalls h ev := by
  obtain ⟨h, s, hr, ev, hev, hread, hslot, hc, hnot⟩ :=
    exec_witness toolMachine (callPool windbgHost dumpCalls .new)
    (dumpSteps ++ sync 2 8 ++ attachSteps 3 ++ sync 0 1 ++ sync 4 2)
    (fun h _ => ∃ ev ∈ h.head?, readsFlag ev = some true ∧
      ev.pre.backend = some 1 ∧ connector 1 h.tail = some 3 ∧
      ¬ FlagMatches dumpCalls h.tail ev)
    (by decide +kernel)
  obtain ⟨h', rfl⟩ : ∃ h', h = ev :: h' :=
    ⟨h.tail, (List.cons_head?_tail hev).symm⟩
  exact ⟨h', ev, s, hr, hread, hslot, hc, hnot⟩

end DebugMcp
