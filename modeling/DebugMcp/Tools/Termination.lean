/-
`Terminated` is absorbing within an epoch, in the runs in which no
termination overtakes a decided state write.

A pump puts the session into `Terminated` at any moment, and only the
guarded writes of `handle_stop_result` look at anything before they
write: they look at the generation, which a termination does not move.
So a handler that is past its last refusal, or whose backend call
answered, before the termination overwrites it afterwards, and so does a
resume that finds its backend after it. `TerminatesQuietly` excludes
exactly these overtakings; a handler that has returned, or that will be
refused, overtakes nothing (`returned_owes_nothing`).
`terminated_absorbing` says that nothing else leaves the state, and
`terminated_revived` is the race.
-/
import DebugMcp.Tools.StateWrites

namespace DebugMcp

open Conc

-- =========================================================== conditions

/-- Is the event an answer of the slot, or of a backend, that decides a
state write of its handler? -/
def decidesByAnswer (host : Host) (calls : Nat → Call) (h : History) :
    ToolEvent → Bool
  | .act i (.inr op) b _ _ =>
      writePhase host calls i h != .silent && op.decides b
  | _ => false

/-- The calls that have moved. -/
def movers (h : History) : List Nat := h.filterMap Event.who

/-- The session becomes `Terminated` only while no other call has a
decided state write to make, and no call decides one while it is
`Terminated`. -/
def TerminatesQuietly (host : Host) (calls : Nat → Call) (h : History)
    (ev : ToolEvent) : Prop :=
  (ev.pre.session.inner.state ≠ .terminated →
    ev.post.session.inner.state = .terminated →
    ∀ j ∈ movers h, ev.who ≠ some j →
      writePhase host calls j h ≠ .owing) ∧
  (decidesByAnswer host calls h ev = true →
    ev.pre.session.inner.state ≠ .terminated)

instance (host : Host) (calls : Nat → Call) (h : History)
    (ev : ToolEvent) : Decidable (TerminatesQuietly host calls h ev) :=
  inferInstanceAs (Decidable ((_ → _ → ∀ j ∈ movers h, _) ∧ (_ → _)))

-- ====================================================== the write phase

section

variable {host : Host} {calls : Nat → Call} {h : History} {i j : Nat}

theorem writePhase_act_self {β : Type} (op : ToolOp β) (b : β)
    (w w' : ToolServer) :
    writePhase host calls i (.act i op b w w' :: h)
      = (writePhase host calls i h).next op b := if_pos rfl

theorem writePhase_act_other {β : Type} (op : ToolOp β) (b : β)
    (w w' : ToolServer) (hij : j ≠ i) :
    writePhase host calls j (.act i op b w w' :: h) = writePhase host calls j h :=
  if_neg fun e => hij e.symm

/-- A call owes nothing before it has moved. -/
theorem writePhase₀_ne_owing (c : Call) : c.writePhase₀ host ≠ .owing := by
  unfold Call.writePhase₀
  cases c with
  | launch _ | attach _ | openCrashDump _ | attachKernel _ =>
      dsimp only
      split <;> nofun
  | _ => nofun

/-- A call that owes a write has moved. -/
theorem mem_movers (ho : writePhase host calls j h = .owing) :
    j ∈ movers h := by
  induction h with
  | nil => exact absurd ho (writePhase₀_ne_owing _)
  | cons ev h ih =>
      unfold movers
      cases ev with
      | env e w w' => exact ih ho
      | act i op b w w' =>
          by_cases hij : j = i
          · subst hij
            exact List.mem_cons_self ..
          · rw [writePhase_act_other op b w w' hij] at ho
            exact List.mem_cons_of_mem _ (ih ho)

end

/-- The phases of a run are those read off its history. -/
theorem writePhase_inductive (host : Host) (calls : Nat → Call)
    (ok : History → ToolEvent → Prop) :
    Inductive toolMachine WriteNext ok
      (fun _ φ h => ∀ i, φ i = writePhase host calls i h) where
  act := by
    intro w w' φ h i β op a b q' hI _ hq _ j
    rw [hI i] at hq
    by_cases hij : j = i
    · subst hij
      rw [Function.update_self, writePhase_act_self]
      exact hq.2
    · rw [Function.update_of_ne hij, writePhase_act_other _ _ _ _ hij]
      exact hI j
  env hI _ _ := hI

/-- A call that has returned has no decided write to make. -/
theorem returned_owes_nothing {host : Host} {calls : Nat → Call}
    {w₀ : ToolServer} {h : History}
    {s : Pool ToolOp ToolOutcome ToolServer} {i : Nat} {o : ToolOutcome}
    (hr : ToolRun host calls w₀ h s) (ho : s.returned i = some o) :
    writePhase host calls i h ≠ .owing := by
  obtain ⟨φ, hφ, hobey⟩ := hr.invariant
    (writePhase_inductive host calls _)
    (fun i _ hp => Option.some.inj hp ▸ (calls i).writes_obeys host)
    fun _ => rfl
  rw [← hφ i]
  exact hobey i _ (Pool.prog_of_returned ho)

-- ============================================================ invariant

/-- No call owes a write to a terminated session. -/
structure TermInv (host : Host) (calls : Nat → Call) (w : ToolServer)
    (φ : Nat → WritePhase) (h : History) : Prop where
  phase : ∀ i, φ i = writePhase host calls i h
  settled : w.session.inner.state = .terminated →
    ∀ i, writePhase host calls i h ≠ .owing

section

variable {i : Nat} {β : Type} {op : ToolOp β} {a : Answer} {b : β}
  {w w' : ToolServer} {q : WritePhase}

/-- A section leaves the state alone or writes its target. -/
theorem ToolServer.run_state (hr : w.run op a = some (b, w'))
    (hres : isReset (.act i op b w w') = false) :
    w'.session.inner.state = w.session.inner.state ∨
      op.target = some w'.session.inner.state := by
  cases op with
  | inr op =>
      rw [ToolServer.run_inr hr]
      exact .inl rfl
  | inl op =>
      rw [(ToolServer.run_inl hr).2]
      exact op.run_state w.session hres

/-- A reset leaves the session idle. -/
theorem isReset_post (hr : w.run op a = some (b, w'))
    (hres : isReset (.act i op b w w') = true) :
    w'.session.inner.state = .idle := by
  cases op with
  | inr op => cases hres
  | inl op =>
      cases op with
      | resetInner =>
          rw [(ToolServer.run_inl hr).2]
          rfl
      | _ => cases hres

/-- A call that owes no write keeps a session terminated. -/
theorem stays_terminated (hr : w.run op a = some (b, w'))
    (hres : isReset (.act i op b w w') = false)
    (hq : q.allows op = true) (ho : q ≠ .owing)
    (ht : w.session.inner.state = .terminated) :
    w'.session.inner.state = .terminated := by
  rcases ToolServer.run_state hr hres with hs | hs
  · exact hs.trans ht
  · cases q with
    | owing => exact absurd rfl ho
    | silent =>
        unfold WritePhase.allows at hq
        rw [hs] at hq
        cases hq
    | quiet =>
        unfold WritePhase.allows ToolOp.revives at hq
        rw [hs] at hq
        cases hst : w'.session.inner.state with
        | terminated => rfl
        | _ =>
            rw [hst] at hq
            cases hq

/-- A guard passed by a terminated session admits it. -/
theorem admitsTerminated_of_decides {op : SessionOp β}
    (hr : w.run (.inl op) a = some (b, w')) (hd : op.decides b = true)
    (ht : w.session.inner.state = .terminated) :
    op.admitsTerminated = true := by
  cases op with
  | checkState allowed =>
      have hb : w.session.checkState allowed = b := (ToolServer.run_inl hr).1
      subst hb
      unfold SessionManager.checkState at hd
      rw [ht] at hd
      dsimp only at hd
      split at hd
      · next hm => exact decide_eq_true hm
      · cases hd
  | _ => cases hd

/-- A call whose section leaves the session terminated owes no write
after it. -/
theorem settled_after (hr : w.run op a = some (b, w'))
    (hq : q.allows op = true)
    (ho : w.session.inner.state = .terminated → q ≠ .owing)
    (hd : ∀ op', op = .inr op' → q ≠ .silent → op'.decides b = true →
      w.session.inner.state ≠ .terminated)
    (ht : w'.session.inner.state = .terminated) :
    q.next op b ≠ .owing := by
  have hres : isReset (.act 0 op b w w') = false := by
    cases hc : isReset (.act 0 op b w w') with
    | false => rfl
    | true =>
        rw [isReset_post hr hc] at ht
        cases ht
  cases q with
  | silent => nofun
  | owing =>
      -- The write that terminated the session was this call's own.
      rcases ToolServer.run_state hr hres with hs | hs
      · exact absurd rfl (ho (hs.symm.trans ht))
      · unfold WritePhase.next
        rw [hs]
        nofun
  | quiet =>
      unfold WritePhase.next
      cases hdec : op.decides b with
      | false => nofun
      | true =>
          cases op with
          | inr op =>
              rw [ToolServer.run_inr hr] at ht
              exact absurd ht (hd op rfl nofun hdec)
          | inl op =>
              have hpre : w.session.inner.state = .terminated := by
                cases op with
                | checkState allowed =>
                    rw [(ToolServer.run_inl hr).2] at ht
                    exact ht
                | _ => cases hdec
              have := admitsTerminated_of_decides hr hdec hpre
              have hq : (!ToolOp.revives (.inl op)
                && !op.admitsTerminated) = true := hq
              rw [this, Bool.not_true, Bool.and_false] at hq
              cases hq

end

theorem termInv_inductive (host : Host) (calls : Nat → Call) :
    Inductive toolMachine WriteNext (TerminatesQuietly host calls)
      (TermInv host calls) where
  act := by
    intro w w' φ h i β op a b q' hI hr hq hok
    have hr : w.run op a = some (b, w') := hr
    refine ⟨(writePhase_inductive host calls _).act hI.phase hr hq hok,
      fun ht j => ?_⟩
    rw [hI.phase i] at hq
    by_cases hij : j = i
    · subst hij
      rw [writePhase_act_self]
      refine settled_after hr hq.1 (fun h => hI.settled h j)
        (fun op' he hne hdec => ?_) ht
      subst he
      apply hok.2
      exact Bool.and_eq_true_iff.mpr ⟨bne_iff_ne.mpr hne, hdec⟩
    · rw [writePhase_act_other _ _ _ _ hij]
      by_cases hp : w.session.inner.state = .terminated
      · exact hI.settled hp j
      · intro ho
        exact hok.1 hp ht j (mem_movers ho)
          (fun e => hij (Option.some.inj e).symm) ho
  env := by
    intro w w' φ h e hI he hok
    refine ⟨hI.phase, fun ht j ho => ?_⟩
    by_cases hp : w.session.inner.state = .terminated
    · exact hI.settled hp j ho
    · exact hok.1 hp ht j (mem_movers ho) nofun ho

-- =========================================================== the result

/-- An environment move keeps a session terminated. -/
theorem terminated_env {w w' : ToolServer} {e : EnvMove}
    (he : w.envMove e = some w')
    (ht : w.session.inner.state = .terminated) :
    w'.session.inner.state = .terminated := by
  cases delivers_env he with
  | output | stale => exact ht
  | ends => rfl

/-- In a run whose terminations are quiet, a session that is
`Terminated` after some event is so as long as no reset follows. -/
theorem terminated_absorbing (host : Host) (calls : Nat → Call)
    (w₀ : ToolServer) {h₁ h₂ : History} {ev : ToolEvent}
    {s : Pool ToolOp ToolOutcome ToolServer}
    (hr : ToolRunIf host calls w₀ (TerminatesQuietly host calls)
      (h₂ ++ ev :: h₁) s)
    (ht : ev.post.session.inner.state = .terminated)
    (hres : ∀ e ∈ h₂, isReset e = false) :
    s.world.session.inner.state = .terminated := by
  have hinit : TermInv host calls w₀
      (fun i => (calls i).writePhase₀ host) [] :=
    ⟨fun _ => rfl, fun _ _ => writePhase₀_ne_owing _⟩
  induction h₂ generalizing s with
  | nil =>
      cases hr with
      | snoc _ hs _ =>
          rw [← hs.post_eq]
          exact ht
  | cons e h₂ ih =>
      cases hr with
      | snoc hr hs _ =>
          have hpre := ih hr fun e he => hres e (List.mem_cons_of_mem _ he)
          obtain ⟨φ, hI, hobey⟩ := hr.invariant
            (termInv_inductive host calls)
            (fun i _ hp => Option.some.inj hp ▸ (calls i).writes_obeys host)
            hinit
          have hnot := hres _ (List.mem_cons_self ..)
          cases hs with
          | env he => exact terminated_env he hpre
          | @act i β op k a b w' hp hrun =>
              obtain ⟨q', hq, -⟩ := hobey i _ hp b
              exact stays_terminated hrun hnot hq.1
                (hI.phase i ▸ hI.settled hpre i) hpre

/-- An attach, a `continue`, a launch without a program and a `continue`
of a thread that is none. -/
def exitCalls : Nat → Call
  | 0 => .attach ⟨[("pid", .num 7)]⟩
  | 1 => .continue ⟨[]⟩
  | 2 => .launch ⟨[]⟩
  | _ => .continue ⟨[("thread_id", .num 0)]⟩

/-- The launch and the second `continue` are refused after their guards.
The first `continue` blocks, the target exits: the pump and the backend's
answer both report it. -/
def exitSteps : List (Action Answer EnvMove) :=
  sync 2 1 ++ attachSteps 0 ++ sync 3 2 ++ sync 1 6
    ++ [.env (.pump 0 (.terminated (some 3))),
      .step 1 (.stop (some (.ok (.exited (some 3))))), .step 1 .sync]

/-- The state after the pump's report is the one the run ends in. -/
theorem exit_stays_terminated :
    ∃ h₁ ev h₂ s, ToolRun lldbHost exitCalls .new (h₂ ++ ev :: h₁) s ∧
      ev.post.session.inner.state = .terminated ∧ h₂.length = 2 ∧
      s.world.session.inner.state = .terminated := by
  obtain ⟨h, s, hr, hm, hlen, hst, hres⟩ := exec_witness toolMachine
    (callPool lldbHost exitCalls .new) exitSteps
    (fun h _ => Meets (TerminatesQuietly lldbHost exitCalls) h ∧
      2 < h.length ∧
      (∀ ev ∈ (h.drop 2).head?,
        ev.post.session.inner.state = .terminated) ∧
      ∀ e ∈ h.take 2, isReset e = false)
    (by decide +kernel)
  obtain ⟨ev, h₁, hd⟩ : ∃ ev h₁, h.drop 2 = ev :: h₁ :=
    List.exists_cons_of_ne_nil fun hn => by
      have := congrArg List.length hn
      rw [List.length_drop, List.length_nil] at this
      omega
  have hsplit : h = h.take 2 ++ ev :: h₁ := by
    rw [← hd, List.take_append_drop]
  have hev := hst ev (by rw [hd]; rfl)
  rw [hsplit] at hr hm
  exact ⟨h₁, ev, h.take 2, s, hr, hev,
    List.length_take_of_le (Nat.le_of_lt hlen),
    terminated_absorbing _ _ _ (.ofMeets hr hm) hev hres⟩

/-- The target exits between the `continue`'s check and its write: the
session leaves `Terminated` for `Running`. -/
theorem terminated_revived :
    ∃ h ev s, ToolRun lldbHost exitCalls .new (ev :: h) s ∧
      ev.pre.session.inner.state = .terminated ∧ isReset ev = false ∧
      ev.post.session.inner.generation = ev.pre.session.inner.generation ∧
      ev.post.session.inner.state = .running := by
  obtain ⟨h, s, hr, ev, hev, hst⟩ := exec_witness toolMachine
    (callPool lldbHost exitCalls .new)
    (attachSteps 0 ++ sync 1 5
      ++ [.env (.pump 0 (.terminated (some 3))), .step 1 .sync])
    (fun h _ => ∃ ev ∈ h.head?,
      ev.pre.session.inner.state = .terminated ∧ isReset ev = false ∧
      ev.post.session.inner.generation = ev.pre.session.inner.generation ∧
      ev.post.session.inner.state = .running)
    (by decide +kernel)
  obtain ⟨h', rfl⟩ : ∃ h', h = ev :: h' :=
    ⟨h.tail, (List.cons_head?_tail hev).symm⟩
  exact ⟨h', ev, s, hr, hst⟩

end DebugMcp
