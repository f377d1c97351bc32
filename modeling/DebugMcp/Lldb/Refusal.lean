/-
Refusals that are waited out.

The handshakes look at the response of `launch` and `attach` only after
they have awaited the initialized signal and sent the rest of their
plan, and a resume looks at its response not at all. So a refusal is
noticed when what stands before the check has happened: for a handshake
`initialized`, for a resume an execution event. The theorem says that
this is all: at rest, with every written request settled, nothing else
keeps a refused operation waiting.
-/
import DebugMcp.Lldb.Replies

namespace DebugMcp

open Conc

-- ========================================================== refusals

/-- The command of the request an operation is about. -/
def LldbCall.principal : LldbCall → Option String
  | launch _ _ => some "launch"
  | attach _ _ => some "attach"
  | resume q => some q.command
  | _ => none

/-- Is a result a refusal? -/
def isRefusal : Option PendingResult → Bool
  | some (.ok (.response r)) => !r.success
  | _ => false

/-- Has the adapter refused call `i`, which is `c`? -/
def refused (c : LldbCall) (i : Nat) (h : ClientHistory) : Bool :=
  (writes i h).any fun q =>
    c.principal = some q.command && isRefusal (outcome q.seq h)

/-- Has what stands before call `i`'s check happened: `initialized` for a
handshake, an execution event since its registration for a resume? -/
def LldbCall.unblocked (c : LldbCall) (i : Nat) (h : ClientHistory) :
    Bool :=
  match c with
  | launch _ _ | attach _ _ => fired h
  | resume _ => (woken i h).isSome
  | _ => true

-- ======================================================== handshake plans

/-- A step of a handshake whose principal command is `cmd`: no other
request has that command, and a deferred response that passes is a
success. -/
def PlanStep.HandStep (cmd : String) : PlanStep → Prop
  | request q _ => q.command ≠ cmd
  | response check => ∀ m, (check m).isOk = true →
      ∃ r, m = .response r ∧ r.success = true
  | _ => True

/-- Does a step await a deferred response? -/
def PlanStep.isResponse : PlanStep → Bool
  | response _ => true
  | _ => false

/-- A handshake's plan awaits one deferred response, after the deferred
request. -/
structure HandPlan (cmd : String) (p : List PlanStep) : Prop where
  steps : ∀ s ∈ p, s.HandStep cmd
  once : p.countP PlanStep.isResponse ≤ 1
  after : ∀ {q rest}, .deferred q :: rest <:+ p →
    ∃ s ∈ rest, s.isResponse = true

/-- What is left of a handshake's plan is one. -/
theorem HandPlan.suffix {cmd : String} {p p' : List PlanStep}
    (hp : HandPlan cmd p) (hs : p' <:+ p) : HandPlan cmd p' :=
  ⟨fun s h => hp.steps s (hs.mem h),
    (List.Sublist.countP_le hs.sublist).trans hp.once,
    fun h => hp.after (h.trans hs)⟩

/-- A response whose body is looked at passes as a success only. -/
theorem checked_success {stderr op : String} {m : DapMessage}
    (hm : (checked stderr op m).isOk = true) :
    ∃ r, m = .response r ∧ r.success = true := by
  cases m with
  | response r =>
      refine ⟨r, rfl, ?_⟩
      unfold checked checkResponse at hm
      cases hr : r.success with
      | true => rfl
      | false =>
          dsimp only at hm
          rw [hr] at hm
          cases hm
  | event _ | other _ => cases hm

/-- The breakpoint flushes of a launch. -/
theorem flush_step {stderr : String} {spec : LaunchSpec} {s : PlanStep}
    (hs : s ∈ flushPlan stderr spec.sourceBreakpoints
      ++ functionPlan stderr spec.functionBreakpoints) :
    s.HandStep "launch" ∧ s.isResponse = false ∧
      ∀ r, s ≠ .deferred r := by
  rcases List.mem_append.mp hs with hs | hs
  · obtain ⟨f, -, rfl⟩ := List.mem_map.mp hs
    exact ⟨(by decide : "setBreakpoints" ≠ "launch"), rfl, nofun⟩
  · unfold functionPlan at hs
    split at hs
    · cases hs
    · rw [List.mem_singleton.mp hs]
      exact ⟨(by decide : "setFunctionBreakpoints" ≠ "launch"), rfl, nofun⟩

/-- A plan that defers no request. -/
theorem HandPlan.undeferred {cmd : String} {p : List PlanStep}
    (hs : ∀ s ∈ p, s.HandStep cmd)
    (ho : p.countP PlanStep.isResponse ≤ 1)
    (hd : ∀ q, .deferred q ∉ p) : HandPlan cmd p :=
  ⟨hs, ho, fun {q _} h =>
    absurd (h.mem (List.mem_cons_self ..)) (hd q)⟩

theorem launchTail_handPlan (stderr : String) (stopOnEntry : Bool) :
    HandPlan "launch" (launchTailPlan stderr stopOnEntry) := by
  have hconf : Requests.configurationDone.command ≠ "launch" := by decide
  unfold launchTailPlan
  cases stopOnEntry with
  | true =>
      refine .undeferred (fun s hs => ?_) (Nat.le_refl _)
        (by simp)
      simp only [if_true, List.mem_cons, List.not_mem_nil,
        or_false] at hs
      rcases hs with rfl | rfl | rfl | rfl
      · trivial
      · exact hconf
      · exact fun m => checked_success
      · trivial
  | false =>
      refine .undeferred (fun s hs => ?_) (Nat.le_refl _)
        (by simp)
      rcases List.mem_cons.mp hs with rfl | hs
      · exact hconf
      · rw [List.mem_singleton.mp hs]
        exact fun m => checked_success

/-- In front of a handshake's plan, other requests and awaits. -/
theorem HandPlan.cons {cmd : String} {s : PlanStep} {p : List PlanStep}
    (hs : s.HandStep cmd) (hr : s.isResponse = false)
    (hd : ∀ q, s = .deferred q → ∃ t ∈ p, t.isResponse = true)
    (hp : HandPlan cmd p) : HandPlan cmd (s :: p) := by
  refine ⟨fun t ht => ?_, ?_, fun {q rest} h => ?_⟩
  · rcases List.mem_cons.mp ht with rfl | ht
    · exact hs
    · exact hp.steps t ht
  · rw [List.countP_cons_of_neg (by rw [hr]; exact Bool.false_ne_true)]
    exact hp.once
  · rcases List.suffix_cons_iff.mp h with he | h
    · cases he
      exact hd q rfl
    · exact hp.after h

theorem HandPlan.append {cmd : String} {q p : List PlanStep}
    (hq : ∀ s ∈ q, s.HandStep cmd ∧ s.isResponse = false ∧
      ∀ r, s ≠ .deferred r) (hp : HandPlan cmd p) :
    HandPlan cmd (q ++ p) := by
  induction q with
  | nil => exact hp
  | cons s q ih =>
      obtain ⟨hs, hr, hd⟩ := hq s (List.mem_cons_self ..)
      exact .cons hs hr (fun r he => absurd he (hd r))
        (ih fun t ht => hq t (List.mem_cons_of_mem _ ht))

/-- The response a launch awaits is in its tail. -/
theorem launchTail_response (stderr : String) (stopOnEntry : Bool) :
    .response (checked stderr "launch") ∈
      launchTailPlan stderr stopOnEntry := by
  unfold launchTailPlan
  cases stopOnEntry <;> simp

theorem launch_handPlan (stderr : String) (spec : LaunchSpec) :
    HandPlan "launch" (launchPlan stderr spec) := by
  have htail : ∀ q, q = flushPlan stderr spec.sourceBreakpoints
      ++ (functionPlan stderr spec.functionBreakpoints
        ++ (.request Requests.setExceptionBreakpoints unchecked
          :: launchTailPlan stderr spec.stopOnEntry)) →
      ∃ t ∈ q, t.isResponse = true := by
    rintro q rfl
    refine ⟨_, List.mem_append_right _ (List.mem_append_right _
      (List.mem_cons_of_mem _ (launchTail_response stderr _))), rfl⟩
  obtain ⟨t, ht, hres⟩ := htail _ rfl
  refine .cons (by decide : Requests.initializeRequest.command ≠ "launch")
    rfl nofun (.cons trivial rfl (fun q _ =>
      ⟨t, List.mem_cons_of_mem _ ht, hres⟩) (.cons trivial rfl nofun ?_))
  rw [← List.append_assoc]
  refine .append (fun s hs => flush_step hs) (.cons ?_ rfl nofun
    (launchTail_handPlan stderr spec.stopOnEntry))
  exact (by decide : Requests.setExceptionBreakpoints.command ≠ "launch")

theorem attach_handPlan (stderr : String) (spec : AttachSpec) :
    HandPlan "attach" (attachPlan stderr spec) := by
  refine .cons (by decide : Requests.initializeRequest.command ≠ "attach")
    rfl nofun (.cons trivial rfl (fun q _ =>
      ⟨.response (checked stderr "attach"), by simp, rfl⟩)
      (.cons trivial rfl nofun (.cons ?_ rfl nofun
      (.cons ?_ rfl nofun ?_))))
  · exact (by decide : Requests.setExceptionBreakpoints.command ≠ "attach")
  · exact (by decide : Requests.configurationDone.command ≠ "attach")
  · refine .undeferred (fun s hs => ?_) (Nat.le_refl _) (by simp)
    rcases List.mem_cons.mp hs with rfl | hs
    · exact fun m => checked_success
    rcases List.mem_cons.mp hs with rfl | hs
    · trivial
    · rw [List.mem_singleton.mp hs]
      trivial

/-- The principal command of a handshake. -/
def LldbCall.handshake : LldbCall → Option String
  | launch _ _ => some "launch"
  | attach _ _ => some "attach"
  | _ => none

theorem LldbCall.handPlan {c : LldbCall} {cmd : String}
    (hc : c.handshake = some cmd) : HandPlan cmd c.plan := by
  cases c with
  | launch stderr spec =>
      cases hc
      exact launch_handPlan stderr spec
  | attach stderr spec =>
      cases hc
      exact attach_handPlan stderr spec
  | _ => cases hc

-- ============================================================ acceptance

/-- A handshake's principal request is its deferred one, until its
response was looked at; then it was accepted. -/
structure HandInv (calls : Nat → LldbCall) (φ : Nat → CallPhase)
    (h : ClientHistory) : Prop where
  before : ∀ {i cmd p st sv ar}, (calls i).handshake = some cmd →
    φ i = .active p st sv ar → (∃ s ∈ p, s.isResponse = true) →
    ∀ q ∈ writes i h, q.command = cmd → ∃ c, sv = some (q.seq, c)
  accepted : ∀ {i cmd p st sv ar}, (calls i).handshake = some cmd →
    φ i = .active p st sv ar → (∀ s ∈ p, s.isResponse = false) →
    ∀ q ∈ writes i h, q.command = cmd →
      ∃ r, outcome q.seq h = some (.ok (.response r)) ∧ r.success = true

/-- Before the response, the principal request is the deferred one. -/
theorem HandPlan.keeps_before {cmd : String} {p p' : List PlanStep}
    {sv sv' : Option (Int × ChanId)} {x : Option DapRequest}
    {y : Option (ChanId × Except Unit PendingResult)}
    {ws : List DapRequest} {q : DapRequest} (hp : HandPlan cmd p)
    (hm : PlanMove p sv x y p' sv') (hq : q ∈ ws ++ x.toList)
    (hcmd : q.command = cmd) (hres : ∃ s ∈ p', s.isResponse = true)
    (hI : (∃ s ∈ p, s.isResponse = true) → ∀ q ∈ ws, q.command = cmd →
      ∃ c, sv = some (q.seq, c)) :
    ∃ c, sv' = some (q.seq, c) := by
  obtain ⟨s, hs, hr⟩ := hres
  cases hm with
  | within =>
      rw [Option.toList_none, List.append_nil] at hq
      exact hI ⟨s, hs, hr⟩ q hq hcmd
  | past t =>
      rw [Option.toList_none, List.append_nil] at hq
      exact hI ⟨s, List.mem_cons_of_mem _ hs, hr⟩ q hq hcmd
  | write q₀ check p sv n =>
      rcases List.mem_append.mp hq with hq | hq
      · exact hI ⟨s, hs, hr⟩ q hq hcmd
      · rw [List.mem_singleton.mp hq] at hcmd
        exact absurd hcmd (hp.steps _ (List.mem_cons_self ..))
  | defer q₀ p n c =>
      rcases List.mem_append.mp hq with hq | hq
      · obtain ⟨d, hd⟩ := hI ⟨s, List.mem_cons_of_mem _ hs, hr⟩ q hq hcmd
        cases hd
      · rw [List.mem_singleton.mp hq]
        exact ⟨c, rfl⟩
  | collect check p n c r hpass =>
      -- There is one response only.
      have hone := hp.once
      rw [List.countP_cons_of_pos (by rfl)] at hone
      have hpos := List.countP_pos_iff.mpr ⟨s, hs, hr⟩
      omega

/-- After the response, the principal request was accepted. -/
theorem HandPlan.keeps_accepted {cmd : String} {p p' : List PlanStep}
    {sv sv' : Option (Int × ChanId)} {x : Option DapRequest}
    {y : Option (ChanId × Except Unit PendingResult)}
    {ws : List DapRequest} {q : DapRequest}
    {out : Int → Option PendingResult} (hp : HandPlan cmd p)
    (hm : PlanMove p sv x y p' sv') (hq : q ∈ ws ++ x.toList)
    (hcmd : q.command = cmd) (hres : ∀ s ∈ p', s.isResponse = false)
    (hB : (∃ s ∈ p, s.isResponse = true) → ∀ q ∈ ws, q.command = cmd →
      ∃ c, sv = some (q.seq, c))
    (hA : (∀ s ∈ p, s.isResponse = false) → ∀ q ∈ ws, q.command = cmd →
      ∃ r, out q.seq = some (.ok (.response r)) ∧ r.success = true)
    (hy : ∀ {n c r}, sv = some (n, c) → y = some (c, r) →
      ∃ x, r = .ok x ∧ out n = some x) :
    q ∈ ws ∧ ∃ r, out q.seq = some (.ok (.response r)) ∧
      r.success = true := by
  cases hm with
  | within =>
      rw [Option.toList_none, List.append_nil] at hq
      exact ⟨hq, hA hres q hq hcmd⟩
  | past t p sv y ht =>
      rw [Option.toList_none, List.append_nil] at hq
      refine ⟨hq, hA (fun s hs => ?_) q hq hcmd⟩
      rcases List.mem_cons.mp hs with rfl | hs
      · cases s with
        | response check => exact absurd rfl (ht check)
        | _ => rfl
      · exact hres s hs
  | write q₀ check p sv n =>
      rcases List.mem_append.mp hq with hq | hq
      · exact ⟨hq, hA hres q hq hcmd⟩
      · rw [List.mem_singleton.mp hq] at hcmd
        exact absurd hcmd (hp.steps _ (List.mem_cons_self ..))
  | defer q₀ p n c =>
      obtain ⟨s, hs, hr⟩ := hp.after (List.suffix_refl _)
      cases (hres s hs).symm.trans hr
  | collect check p n c r hpass =>
      rw [Option.toList_none, List.append_nil] at hq
      obtain ⟨d, hd⟩ := hB ⟨_, List.mem_cons_self .., rfl⟩ q hq hcmd
      cases hd
      obtain ⟨z, rfl, hz⟩ := hy rfl rfl
      cases z with
      | error e => cases hpass
      | ok m =>
          obtain ⟨r, rfl, hs⟩ := hp.steps _ (List.mem_cons_self ..) m hpass
          exact ⟨hq, r, hz, hs⟩

/-- Acceptance is kept by every step. -/
theorem handInv (calls : Nat → LldbCall) :
    InductiveOver clientMachine PlanNext (fun _ _ => True)
      (WireInv calls) (fun _ φ h => HandInv calls φ h) where
  act := by
    intro w w' φ h i β op a b q' hW hI hr hq _
    have hr : w.run i op a = some (b, w') := hr
    have hkept : ∀ {j q}, q ∈ writes j h →
        outcome q.seq (.act i op b w w' :: h) = outcome q.seq h :=
      fun hm => outcome_kept hW.caller.entry hW.seq hq hm
    refine ⟨fun {j cmd p st sv ar} hc hφ hres q hm hcmd => ?_,
      fun {j cmd p st sv ar} hc hφ hres q hm hcmd => ?_⟩
    all_goals rw [writes_act] at hm
    all_goals by_cases hij : i = j
    · subst hij
      rw [Function.update_self] at hφ
      rw [if_pos rfl] at hm
      obtain ⟨p₀, st₀, sv₀, ar₀, hp₀⟩ :=
        PlanNext.from_active (hφ ▸ hq)
      have hplan : HandPlan cmd p₀ := (LldbCall.handPlan hc).suffix (by
        have := hW.caller.plan i
        rw [hp₀] at this
        exact this)
      rw [hp₀, hφ] at hq
      exact hplan.keeps_before hq.move hm hcmd hres
        fun hres' q hm hcmd => hI.before hc hp₀ hres' q hm hcmd
    · rw [Function.update_of_ne fun e => hij e.symm] at hφ
      rw [if_neg hij, List.append_nil] at hm
      exact hI.before hc hφ hres q hm hcmd
    · subst hij
      rw [Function.update_self] at hφ
      rw [if_pos rfl] at hm
      obtain ⟨p₀, st₀, sv₀, ar₀, hp₀⟩ :=
        PlanNext.from_active (hφ ▸ hq)
      have hplan : HandPlan cmd p₀ := (LldbCall.handPlan hc).suffix (by
        have := hW.caller.plan i
        rw [hp₀] at this
        exact this)
      have hy : ∀ {n c r}, sv₀ = some (n, c) →
          op.received b = some (c, r) →
          ∃ x, r = .ok x ∧ outcome n h = some x := by
        rintro n c r rfl hx
        refine recv_outcome (i := i) hW.caller.entry hW.reply ?_
          (DapClient.run_received hr hx)
        rw [hp₀]
        exact List.mem_append_right _ (List.mem_singleton_self _)
      have hq₀ := hq
      rw [hp₀, hφ] at hq₀
      obtain ⟨hold, r, hout, hs⟩ := hplan.keeps_accepted hq₀.move hm hcmd
        hres (fun hres' q hm hcmd => hI.before hc hp₀ hres' q hm hcmd)
        (fun hres' q hm hcmd => hI.accepted hc hp₀ hres' q hm hcmd) hy
      exact ⟨r, (hkept hold).trans hout, hs⟩
    · rw [Function.update_of_ne fun e => hij e.symm] at hφ
      rw [if_neg hij, List.append_nil] at hm
      rw [hkept hm]
      exact hI.accepted hc hφ hres q hm hcmd
  env := by
    intro w w' φ h e hW hI he _
    refine ⟨hI.before, fun hc hφ hres q hm hcmd => ?_⟩
    obtain ⟨r, hout, hr⟩ := hI.accepted hc hφ hres q hm hcmd
    exact ⟨r, outcome_env hout, hr⟩

-- =============================================================== runs

/-- What is known of a state, acceptance included. -/
theorem wire_run (calls : Nat → LldbCall) {h : ClientHistory}
    {s : Pool ClientOp LldbResult DapClient}
    (hr : Run clientMachine (lldbPool calls) h s) :
    ∃ φ, (WireInv calls s.world φ h ∧ HandInv calls φ h) ∧
      ∀ i p, s.prog i = some p →
        Obeys PlanNext (calls i).Returns p (φ i) :=
  hr.invariant ((wireInv calls).over (handInv calls))
    (R := fun i => (calls i).Returns)
    (fun i p hp => by cases hp; exact (calls i).obeys)
    ⟨.start calls, nofun, nofun⟩

/-- A refused handshake is not past its check. -/
theorem HandInv.unrefused {calls : Nat → LldbCall}
    {φ : Nat → CallPhase} {h : ClientHistory} {i : Nat} {cmd : String}
    {p : List PlanStep} {st : Stage} {sv : Option (Int × ChanId)}
    {ar : Bool} (hH : HandInv calls φ h)
    (hc : (calls i).handshake = some cmd)
    (hprin : (calls i).principal = some cmd)
    (hφ : φ i = .active p st sv ar)
    (hp : ∀ s ∈ p, s.isResponse = false) :
    refused (calls i) i h = false := by
  refine (Bool.not_eq_true _).mp fun href => ?_
  obtain ⟨q, hq, hx⟩ := List.any_eq_true.mp href
  obtain ⟨hcmd, hx⟩ := Bool.and_eq_true_iff.mp hx
  have hcmd := of_decide_eq_true hcmd
  rw [hprin] at hcmd
  obtain ⟨r, hout, hs⟩ := hH.accepted hc hφ hp q hq
    (Option.some.inj hcmd).symm
  rw [hout] at hx
  have hx : (!r.success) = true := hx
  rw [hs] at hx
  cases hx

/-- **A refusal that is not waited out**: at rest, with every request it
has written settled, a refused operation does not wait once what stands
before its check has happened. -/
theorem refusal_noticed (calls : Nat → LldbCall) {h : ClientHistory}
    {s : Pool ClientOp LldbResult DapClient} {i : Nat}
    (hr : Run clientMachine (lldbPool calls) h s)
    (hrest : s.world.reader = [])
    (href : refused (calls i) i h = true)
    (hset : allSettled i h = true)
    (hun : (calls i).unblocked i h = true) : waiting s i = false := by
  obtain ⟨φ, ⟨hW, hH⟩, hobey⟩ := wire_run calls hr
  refine (Bool.not_eq_true _).mp fun hw => ?_
  have hfired : .initialized ∈ (φ i).plan → fired h = true := by
    intro hmem
    cases hc : calls i with
    | launch stderr spec | attach stderr spec =>
        rw [hc] at hun
        exact hun
    | resume q =>
        -- A resume does not wait for the signal.
        have hmem := (hW.caller.plan i).mem hmem
        rw [hc] at hmem
        simp [LldbCall.plan, resumePlan] at hmem
    | _ =>
        rw [hc] at href
        unfold refused at href
        simp [LldbCall.principal] at href
  obtain ⟨⟨sv, hp⟩, hnone⟩ := hW.waits_stop (hobey i) hrest hset hfired hw
  have hone : ∀ t ∈ [PlanStep.stop], t.isResponse = false := by
    intro t ht
    rw [List.mem_singleton.mp ht]
    rfl
  cases hc : calls i with
  | launch stderr spec =>
      have hhand : (calls i).handshake = some "launch" := by rw [hc]; rfl
      have hno := hH.unrefused hhand (by rw [hc]; rfl) hp hone
      cases hno.symm.trans href
  | attach stderr spec =>
      have hhand : (calls i).handshake = some "attach" := by rw [hc]; rfl
      have hno := hH.unrefused hhand (by rw [hc]; rfl) hp hone
      cases hno.symm.trans href
  | resume q =>
      rw [hc] at hun
      have hun : (woken i h).isSome = true := hun
      rw [hnone] at hun
      cases hun
  | _ =>
      rw [hc] at href
      unfold refused at href
      simp [LldbCall.principal] at href

-- ===================================================== two waits

/-- One launch alone. -/
def oneLaunch : Nat → LldbCall
  | 0 => .launch ""
      { program := "a", args := [], cwd := none, env := [],
        stopOnEntry := true, sourceBreakpoints := [],
        functionBreakpoints := [] }
  | _ => .absent

/-- One continue alone. -/
def oneContinue : Nat → LldbCall
  | 0 => .resume (Requests.cont 1)
  | _ => .absent

/-- A launch that is refused while it waits for `initialized`, which
comes: it goes on. -/
theorem initialized_after_refusal : ∃ h s,
    Run clientMachine (lldbPool oneLaunch) h s ∧
      refused (oneLaunch 0) 0 h = true ∧ waiting s 0 = false := by
  obtain ⟨h, s, hr, hrest, href, hset, hun⟩ := exec_witness clientMachine
    (lldbPool oneLaunch)
    (launching ++ answering 2 false "launch"
      ++ [.env (.frame (.event .initialized)), .env (.reader 0)])
    (fun h s => s.world.reader.isEmpty = true ∧
      refused (oneLaunch 0) 0 h = true ∧ allSettled 0 h = true ∧
      (oneLaunch 0).unblocked 0 h = true) (by decide +kernel)
  exact ⟨h, s, hr, href, refusal_noticed oneLaunch hr
    (List.isEmpty_iff.mp hrest) href hset hun⟩

/-- A launch refused before `initialized`, and a continue refused while
the target stays stopped: everything is dispatched and settled, and
both wait. -/
theorem refusals_waited_out :
    (∃ h s, Run clientMachine (lldbPool oneLaunch) h s ∧
      s.world.reader.isEmpty = true ∧ refused (oneLaunch 0) 0 h = true ∧
      allSettled 0 h = true ∧ waiting s 0 = true) ∧
    ∃ h s, Run clientMachine (lldbPool oneContinue) h s ∧
      s.world.reader.isEmpty = true ∧
      refused (oneContinue 0) 0 h = true ∧ allSettled 0 h = true ∧
      waiting s 0 = true := by
  constructor
  · exact exec_witness clientMachine (lldbPool oneLaunch)
      (launching ++ answering 2 false "launch")
      (fun h s => s.world.reader.isEmpty = true ∧
        refused (oneLaunch 0) 0 h = true ∧ allSettled 0 h = true ∧
        waiting s 0 = true) (by decide +kernel)
  · exact exec_witness clientMachine (lldbPool oneContinue)
      (steps 0 4 ++ answering 1 false "continue" ++ steps 0 1)
      (fun h s => s.world.reader.isEmpty = true ∧
        refused (oneContinue 0) 0 h = true ∧ allSettled 0 h = true ∧
        waiting s 0 = true) (by decide +kernel)

end DebugMcp
