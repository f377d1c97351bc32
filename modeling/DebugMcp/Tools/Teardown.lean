/-
Teardown and its session.

Six paths tear a session down: a failed select, a failed connect and a
failed or cancelled handshake of each connect handler, and `disconnect`.
None is one critical section, and none looks at the generation: each
empties the slot and resets whatever is there when it gets to it.

# Result

`teardown_scoped`: in every run in which a teardown section finds either
the epoch its call began in or nothing to tear down, no call ever
removes a backend installed, or resets a session connected, by a call
that began later. `teardown_wipes_newer` is the run of the claim's last
sentence: a launch whose adapter a disconnect killed clears the slot of
the launch that came after.
-/
import DebugMcp.Tools.History

namespace DebugMcp

open Conc

/-- A teardown section finds the epoch its call began in, or nothing to
tear down: an empty slot, an idle session. -/
def TeardownCurrent (h : History) (ev : ToolEvent) : Prop :=
  ∀ i ∈ ev.who,
    (emptiesSlot ev = true →
      beganAt i h = some (epoch h) ∨ ev.pre.backend = none) ∧
    (isReset ev = true →
      beganAt i h = some (epoch h) ∨ ev.pre.session.inner.state = .idle)

instance (h : History) (ev : ToolEvent) :
    Decidable (TeardownCurrent h ev) :=
  inferInstanceAs (Decidable (∀ i ∈ ev.who,
    (emptiesSlot ev = true →
      beganAt i h = some (epoch h) ∨ ev.pre.backend = none) ∧
    (isReset ev = true →
      beganAt i h = some (epoch h) ∨
        ev.pre.session.inner.state = .idle)))

/-- The event, coming after `h`, takes no backend out of the slot that a
call begun later installed, and resets no session that a call begun
later connected. -/
def TeardownScoped (h : History) (ev : ToolEvent) : Prop :=
  ∀ i ∈ ev.who, ∀ e ∈ beganAt i h,
    (emptiesSlot ev = true → ev.pre.backend ≠ none →
      ∀ j ∈ installer h, ∀ e' ∈ beganAt j h, e' ≤ e) ∧
    (isReset ev = true → ∀ j ∈ entered h, ∀ e' ∈ beganAt j h, e' ≤ e)

instance (h : History) (ev : ToolEvent) :
    Decidable (TeardownScoped h ev) :=
  inferInstanceAs (Decidable (∀ i ∈ ev.who, ∀ e ∈ beganAt i h,
    (emptiesSlot ev = true → ev.pre.backend ≠ none →
      ∀ j ∈ installer h, ∀ e' ∈ beganAt j h, e' ≤ e) ∧
    (isReset ev = true →
      ∀ j ∈ entered h, ∀ e' ∈ beganAt j h, e' ≤ e)))

-- ========================================================== the results

/-- In a run whose teardown sections find their own epoch or nothing to
tear down, no teardown reaches a newer session. -/
theorem teardown_scoped (host : Host) (calls : Nat → Call)
    (w₀ : ToolServer) {h : History} {ev : ToolEvent}
    {s : Pool ToolOp ToolOutcome ToolServer}
    (hr : ToolRunIf host calls w₀ TeardownCurrent (ev :: h) s) :
    TeardownScoped h ev := by
  cases hr with
  | snoc hr hs hok =>
      intro i hi e he
      obtain ⟨hslot, hreset⟩ := hok i hi
      refine ⟨fun hev hb j _ e' he' => ?_, fun hev j hj e' he' => ?_⟩
      · rcases hslot hev with hcur | hnone
        · -- The epoch is the one the call began in; no call began later.
          cases he.symm.trans hcur
          exact beganAt_le he'
        · exact absurd hnone hb
      · rcases hreset hev with hcur | hidle
        · cases he.symm.trans hcur
          exact beganAt_le he'
        · rw [hs.pre_eq] at hidle
          exact absurd hidle
            (entered_not_idle hr (List.ne_nil_of_mem hj))

/-- Two launches, then disconnects. -/
def wipeCalls : Nat → Call
  | 0 => .launch ⟨[("program", .str "a")]⟩
  | 1 => .launch ⟨[("program", .str "b")]⟩
  | _ => .disconnect ⟨[]⟩

/-- A launch and a disconnect, one after the other: the disconnect's
reset is scoped. -/
theorem disconnect_scoped :
    ∃ h ev s, ToolRun lldbHost wipeCalls .new (ev :: h) s ∧
      isReset ev = true ∧ TeardownScoped h ev := by
  obtain ⟨h, s, hr, hm, ev, hev, hres⟩ :=
    exec_witness toolMachine (callPool lldbHost wipeCalls .new)
      (launchSteps 0 ++ sync 2 7)
      (fun h _ => Meets TeardownCurrent h ∧
        ∃ ev ∈ h.head?, isReset ev = true)
      (by decide +kernel)
  obtain ⟨h', rfl⟩ : ∃ h', h = ev :: h' :=
    ⟨h.tail, (List.cons_head?_tail hev).symm⟩
  exact ⟨h', ev, s, hr, hres, teardown_scoped _ _ _ (.ofMeets hr hm)⟩

/-- A disconnect kills the adapter of a launch in its handshake; a second
launch installs its backend; the first launch's cleanup then clears the
slot of the second. -/
theorem teardown_wipes_newer :
    ∃ h ev s, ToolRun lldbHost wipeCalls .new (ev :: h) s ∧
      ev.who = some 0 ∧ beganAt 0 h = some 0 ∧
      installer h = some 1 ∧ beganAt 1 h = some 1 ∧
      ev.pre.backend = some 1 ∧ ev.post.backend = none ∧
      ¬ TeardownScoped h ev := by
  obtain ⟨h, s, hr, ev, hev, hC⟩ :=
    exec_witness toolMachine (callPool lldbHost wipeCalls .new)
      (launchSteps 0 ++ sync 2 8 ++ launchSteps 1
        ++ [.step 0 (.launch (some (.error .closed))), .step 0 .sync])
      (fun h _ => ∃ ev ∈ h.head?,
        ev.who = some 0 ∧ beganAt 0 h.tail = some 0 ∧
        installer h.tail = some 1 ∧ beganAt 1 h.tail = some 1 ∧
        ev.pre.backend = some 1 ∧ ev.post.backend = none ∧
        ¬ TeardownScoped h.tail ev)
      (by decide +kernel)
  obtain ⟨h', rfl⟩ : ∃ h', h = ev :: h' :=
    ⟨h.tail, (List.cons_head?_tail hev).symm⟩
  exact ⟨h', ev, s, hr, hC⟩

end DebugMcp
