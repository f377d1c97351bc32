/-
Mutual exclusion of connects.

A connect handler checks that the session is idle and moves it to
configuring in two lock sections. Exclusion between two resets therefore
is not the code's doing: two calls can both pass the check before either
has written.

# Result

`connects_exclude`: in every run in which each move to configuring still
finds the session idle, each connect and install happens in the epoch of
the call's own move (and an install not after a disconnect already took
the slot), and each reset ends the epoch its call entered or took the
slot in or finds the session idle, at most one call enters, is handed a
backend and installs one per epoch, and no install overwrites a
backend. `connects_overlap`
replays two launches that both enter, the second overwriting the first
one's backend.

The invariant (`ExclInv`) says that the slot is held by the one call
that entered: whoever empties an epoch's session finds it empty.
-/
import DebugMcp.Tools.Teardown

namespace DebugMcp

open Conc

-- ======================================================== the condition

/-- A connect handler enters an idle session, connects and installs in
the epoch it entered, and a reset ends its own epoch or finds the
session idle. -/
def ConnectAlone (h : History) (ev : ToolEvent) : Prop :=
  ∀ i ∈ ev.who,
    (isConfigure ev = true → ev.pre.session.inner.state = .idle) ∧
    (isConnect ev = true → i ∈ entered h) ∧
    (isInstall ev = true → i ∈ entered h ∧ taken h = []) ∧
    (isReset ev = true → i ∈ entered h ∨ i ∈ taken h ∨
      ev.pre.session.inner.state = .idle)

instance (h : History) (ev : ToolEvent) :
    Decidable (ConnectAlone h ev) :=
  inferInstanceAs (Decidable (∀ i ∈ ev.who,
    (isConfigure ev = true → ev.pre.session.inner.state = .idle) ∧
    (isConnect ev = true → i ∈ entered h) ∧
    (isInstall ev = true → i ∈ entered h ∧ taken h = []) ∧
    (isReset ev = true → i ∈ entered h ∨ i ∈ taken h ∨
      ev.pre.session.inner.state = .idle)))

-- =========================================================== the phases

/-- The handler has entered and has neither reset nor returned early. -/
def Phase.inside : Phase → Bool
  | .conn .configuring | .conn .failing | .conn (.connected _)
  | .conn (.installed _) | .conn (.stamped _ _) | .conn (.handshaking _)
  | .conn .settling | .conn .cancelling | .conn .cancelCleared => true
  | _ => false

/-- The handler was handed a backend. -/
def Phase.hasBackend : Phase → Bool
  | .conn .configuring | .conn .failing => false
  | q => q.inside

/-- The handler installed its backend. -/
def Phase.hasInstalled : Phase → Bool
  | .conn (.connected _) => false
  | q => q.hasBackend

/-- The handler installed its backend and has not cleared the slot. -/
def Phase.holdsSlot : Phase → Bool
  | .conn .cancelCleared => false
  | q => q.hasInstalled

section

variable {i : Nat} {q q' : Phase} {β : Type} {op : ToolOp β} {b : β}
  {a : Answer} {w w' : ToolServer}

/-- Short of its reset, a handler stays inside, and keeps what it was
handed and what it installed. -/
theorem ToolNext.stays (hq : ToolNext q op b q')
    (hres : isReset (.act i op b w w') = false) :
    (q.inside = true → q'.inside = true) ∧
    (q.hasBackend = true → q'.hasBackend = true) ∧
    (q.hasInstalled = true → q'.hasInstalled = true) := by
  cases hq with
  | conn hq =>
      cases hq with
      | selectFail | failReset | cancelReset => cases hres
      | _ =>
          refine ⟨fun hh => ?_, fun hh => ?_, fun hh => ?_⟩ <;>
          first
          | rfl
          | cases hh
  | _ => exact ⟨nofun, nofun, nofun⟩

/-- A handler that holds the slot gives it up only by clearing it. -/
theorem ToolNext.holds (hq : ToolNext q op b q')
    (hres : isReset (.act i op b w w') = false)
    (hh : q.holdsSlot = true) :
    q'.holdsSlot = true ∨ emptiesSlot (.act i op b w w') = true := by
  cases hq with
  | conn hq =>
      cases hq with
      | selectFail | failReset | cancelReset => cases hres
      | cancelClear => exact .inr rfl
      | _ =>
          first
          | exact .inl rfl
          | cases hh
  | _ => cases hh

/-- Nobody resets while holding the slot. -/
theorem ToolNext.reset_holds (hq : ToolNext q op b q')
    (hres : isReset (.act i op b w w') = true) :
    q.holdsSlot = false := by
  cases hq with
  | conn hq =>
      cases hq with
      | selectFail | failReset | cancelReset => rfl
      | settle op hs => cases hs <;> cases hres
      | _ => cases hres
  | _ => rfl

/-- A handler that moves to configuring is inside. -/
theorem ToolNext.configure_inside (hq : ToolNext q op b q')
    (hc : isConfigure (.act i op b w w') = true) : q'.inside = true := by
  cases hq with
  | conn hq =>
      cases hq with
      | configure => rfl
      | settle op hs => rfl
      | _ => cases hc
  | disc hq => cases hq <;> cases hc
  | res hq => cases hq <;> cases hc
  | bp hq => cases hq <;> cases hc
  | _ => cases hc

/-- A connect hands out the handler's first backend. -/
theorem ToolNext.connect_phase (hq : ToolNext q op b q')
    (hc : isConnect (.act i op b w w') = true) :
    q.hasBackend = false ∧ q'.hasBackend = true := by
  cases hq with
  | conn hq =>
      cases hq with
      | connectOk => exact ⟨rfl, rfl⟩
      | handshakeOk b op hop => cases hop <;> cases hc
      | handshakeErr b op hop => cases hop <;> cases hc
      | handshakeCancel b op hop => cases hop <;> cases hc
      | settle op hs => cases hs <;> cases hc
      | _ => cases hc
  | disc hq => cases hq <;> cases hc
  | res hq =>
      cases hq with
      | cancelled g op hop | err g op hop | stop g op hop | exit g op hop
      | terminate g op hop => cases hop <;> cases hc
      | _ => cases hc
  | bp hq => cases hq <;> cases hc
  | _ => cases hc

/-- An install is the handler's first. -/
theorem ToolNext.install_phase (hq : ToolNext q op b q')
    (hc : isInstall (.act i op b w w') = true) :
    q.hasInstalled = false ∧ q'.hasInstalled = true ∧
      q'.holdsSlot = true := by
  cases hq with
  | conn hq =>
      cases hq with
      | install => exact ⟨rfl, rfl, rfl⟩
      | handshakeOk b op hop => cases hop <;> cases hc
      | handshakeErr b op hop => cases hop <;> cases hc
      | handshakeCancel b op hop => cases hop <;> cases hc
      | settle op hs => cases hs <;> cases hc
      | _ => cases hc
  | disc hq => cases hq <;> cases hc
  | res hq =>
      cases hq with
      | cancelled g op hop | err g op hop | stop g op hop | exit g op hop
      | terminate g op hop => cases hop <;> cases hc
      | _ => cases hc
  | bp hq => cases hq <;> cases hc
  | _ => cases hc

/-- An install is no take. -/
theorem isTake_of_isInstall
    (hin : isInstall (.act i op b w w') = true) :
    isTake (.act i op b w w') = false := by
  cases op with
  | inl op => rfl
  | inr op =>
      cases op with
      | takeSlot => cases hin
      | _ => rfl

/-- What does not empty the slot is no take. -/
theorem isTake_of_not_emptiesSlot
    (hkeep : emptiesSlot (.act i op b w w') = false) :
    isTake (.act i op b w w') = false := by
  cases op with
  | inl op => rfl
  | inr op =>
      cases op with
      | takeSlot => cases hkeep
      | _ => rfl

end

-- ======================================================== the invariant

/-- The session is held by at most the one call that entered it: it
alone was handed and installed a backend, it alone holds the slot, and
nobody holds it once a disconnect took it. -/
structure ExclInv (w : ToolServer) (φ : Nat → Phase) (h : History) :
    Prop where
  state : entered h ≠ [] → w.session.inner.state ≠ .idle
  one : (entered h).length ≤ 1
  inside : ∀ i ∈ entered h, (φ i).inside = true
  conn : ∀ i ∈ connected h, i ∈ entered h ∧ (φ i).hasBackend = true
  connNodup : (connected h).Nodup
  inst : ∀ i ∈ installed h, i ∈ entered h ∧ (φ i).hasInstalled = true
  instNodup : (installed h).Nodup
  slot : w.backend ≠ none → taken h = [] ∧
    ∃ i ∈ installed h, (φ i).holdsSlot = true
  fresh : ∀ ev ∈ h, isInstall ev = true → ev.pre.backend = none

/-- Members since the last reset, after one more event of call `i`. -/
theorem mem_sinceReset_cons {p : ToolEvent → Bool} {ev : ToolEvent}
    {h : History} {i j : Nat} (hi : ev.who = some i) :
    j ∈ sinceReset p (ev :: h) ↔ isReset ev = false ∧
      ((p ev = true ∧ j = i) ∨ j ∈ sinceReset p h) := by
  cases hr : isReset ev with
  | true => simp [sinceReset_cons_reset hr]
  | false =>
      cases hp : p ev with
      | true => simp [sinceReset_cons_hit hr hp hi]
      | false => simp [sinceReset_cons_other hr hp]

/-- A property of phases that a step of call `i` keeps holds on, call
by call. -/
theorem update_phase (f : Phase → Bool) {φ : Nat → Phase} {i : Nat}
    {q' : Phase} (hP : f (φ i) = true → f q' = true) {j : Nat}
    (hj : f (φ j) = true) : f (Function.update φ i q' j) = true := by
  by_cases hij : j = i
  · subst hij
    rw [Function.update_self]
    exact hP hj
  · rw [Function.update_of_ne hij]
    exact hj

/-- Two members of a list of at most one element. -/
theorem eq_of_length_le_one {l : List Nat} (hl : l.length ≤ 1)
    {i j : Nat} (hi : i ∈ l) (hj : j ∈ l) : i = j := by
  match l, hl with
  | [], _ => cases hi
  | [k], _ => rw [List.mem_singleton.mp hi, List.mem_singleton.mp hj]

section

variable {φ : Nat → Phase} {h : History} {i : Nat} {q' : Phase}
  {β : Type} {op : ToolOp β} {b : β} {a : Answer} {w w' : ToolServer}

/-- A reset of its own epoch starts the next one with an empty slot: the
only call that could hold it is the one resetting, and it does not. Of
an idle session nobody holds it. -/
private theorem ExclInv.reset (hI : ExclInv w φ h)
    (hr : w.run op a = some (b, w')) (hq : ToolNext (φ i) op b q')
    (hok : ConnectAlone h (.act i op b w w'))
    (hres : isReset (.act i op b w w') = true) :
    ExclInv w' (Function.update φ i q') (.act i op b w w' :: h) := by
  have hin : isInstall (.act i op b w w') = false := by
    cases op with
    | inl op => rfl
    | inr op => cases hres
  have hempty : w.backend = none := by
    by_contra hne
    obtain ⟨htaken, j, hj, hholds⟩ := hI.slot hne
    rcases (hok i rfl).2.2.2 hres with hi | hi | hidle
    · cases eq_of_length_le_one hI.one hi (hI.inst j hj).1
      rw [hq.reset_holds hres] at hholds
      cases hholds
    · rw [htaken] at hi
      cases hi
    · exact hI.state (List.ne_nil_of_mem (hI.inst j hj).1) hidle
  have hslot : w'.backend = none := by
    rcases backend_step hr hin with ⟨-, h'⟩ | ⟨-, h'⟩
    · exact h'
    · exact h'.trans hempty
  have hnil : ∀ p, sinceReset p (.act i op b w w' :: h) = [] :=
    fun p => sinceReset_cons_reset hres
  refine ⟨?_, ?_, ?_, ?_, ?_, ?_, ?_, fun hne => absurd hslot hne, ?_⟩
  · exact fun hne => absurd (hnil _) hne
  · rw [entered, hnil]
    exact Nat.zero_le 1
  · intro j hj
    rw [entered, hnil] at hj
    cases hj
  · intro j hj
    rw [connected, hnil] at hj
    cases hj
  · rw [connected, hnil]
    exact List.nodup_nil
  · intro j hj
    rw [installed, hnil] at hj
    cases hj
  · rw [installed, hnil]
    exact List.nodup_nil
  · intro ev hev hinst
    rcases List.mem_cons.mp hev with rfl | hev
    · rw [hin] at hinst
      cases hinst
    · exact hI.fresh ev hev hinst

/-- An install by the call that entered finds the slot empty. -/
private theorem ExclInv.install_empty (hI : ExclInv w φ h)
    (hq : ToolNext (φ i) op b q')
    (hok : ConnectAlone h (.act i op b w w'))
    (hin : isInstall (.act i op b w w') = true) : w.backend = none := by
  by_contra hne
  obtain ⟨-, j, hj, -⟩ := hI.slot hne
  obtain ⟨hent, hinst⟩ := hI.inst j hj
  cases eq_of_length_le_one hI.one ((hok i rfl).2.2.1 hin).1 hent
  rw [(hq.install_phase hin).1] at hinst
  cases hinst

/-- Entering finds nobody inside. -/
private theorem ExclInv.configure_nil (hI : ExclInv w φ h)
    (hok : ConnectAlone h (.act i op b w w'))
    (hc : isConfigure (.act i op b w w') = true) : entered h = [] := by
  by_contra hne
  exact hI.state hne ((hok i rfl).1 hc)

/-- Any other step keeps the invariant. -/
private theorem ExclInv.other (hI : ExclInv w φ h)
    (hr : w.run op a = some (b, w')) (hq : ToolNext (φ i) op b q')
    (hok : ConnectAlone h (.act i op b w w'))
    (hres : isReset (.act i op b w w') = false) :
    ExclInv w' (Function.update φ i q') (.act i op b w w' :: h) := by
  obtain ⟨-, hconn, hinst, -⟩ := hok i rfl
  have hmem : ∀ {p j}, j ∈ sinceReset p (.act i op b w w' :: h) →
      (p (.act i op b w w') = true ∧ j = i) ∨ j ∈ sinceReset p h :=
    fun hj => ((mem_sinceReset_cons rfl).mp hj).2
  have hold : ∀ {p j}, j ∈ sinceReset p h →
      j ∈ sinceReset p (.act i op b w w' :: h) :=
    fun hj => (mem_sinceReset_cons rfl).mpr ⟨hres, .inr hj⟩
  have hcons : ∀ p, sinceReset p (.act i op b w w' :: h)
      = if p (.act i op b w w') = true then i :: sinceReset p h
        else sinceReset p h := by
    intro p
    split
    · exact sinceReset_cons_hit hres ‹_› rfl
    · exact sinceReset_cons_other hres (Bool.not_eq_true _ ▸ ‹_›)
  have hstay := hq.stays hres
  refine ⟨?_, ?_, ?_, ?_, ?_, ?_, ?_, ?_, ?_⟩
  · intro hne
    cases hc : isConfigure (.act i op b w w') with
    | true =>
        rw [isConfigure_post hr hc]
        nofun
    | false =>
        rw [entered, sinceReset_cons_other hres hc] at hne
        exact state_ne_idle_step hq hr hres (hI.state hne)
  · rw [entered, hcons]
    split
    · rw [show sinceReset isConfigure h = [] from
        hI.configure_nil hok ‹_›]
      exact Nat.le_refl 1
    · exact hI.one
  · intro j hj
    rcases hmem hj with ⟨hc, rfl⟩ | hj
    · rw [Function.update_self]
      exact hq.configure_inside hc
    · exact update_phase _ hstay.1 (hI.inside j hj)
  · intro j hj
    rcases hmem hj with ⟨hc, rfl⟩ | hj
    · rw [Function.update_self]
      exact ⟨hold (hconn hc), (hq.connect_phase hc).2⟩
    · exact ⟨hold (hI.conn j hj).1,
        update_phase _ hstay.2.1 (hI.conn j hj).2⟩
  · rw [connected, hcons]
    split
    · refine List.nodup_cons.mpr ⟨fun hi => ?_, hI.connNodup⟩
      have hb := (hI.conn i hi).2
      rw [(hq.connect_phase ‹_›).1] at hb
      cases hb
    · exact hI.connNodup
  · intro j hj
    rcases hmem hj with ⟨hc, rfl⟩ | hj
    · rw [Function.update_self]
      exact ⟨hold (hinst hc).1, (hq.install_phase hc).2.1⟩
    · exact ⟨hold (hI.inst j hj).1,
        update_phase _ hstay.2.2 (hI.inst j hj).2⟩
  · rw [installed, hcons]
    split
    · refine List.nodup_cons.mpr ⟨fun hi => ?_, hI.instNodup⟩
      have hb := (hI.inst i hi).2
      rw [(hq.install_phase ‹_›).1] at hb
      cases hb
    · exact hI.instNodup
  · intro hne
    cases hin : isInstall (.act i op b w w') with
    | true =>
        refine ⟨?_, i, (mem_sinceReset_cons rfl).mpr
          ⟨hres, .inl ⟨hin, rfl⟩⟩, ?_⟩
        · rw [taken, sinceReset_cons_other hres
            (isTake_of_isInstall hin)]
          exact (hinst hin).2
        · rw [Function.update_self]
          exact (hq.install_phase hin).2.2
    | false =>
        rcases backend_step hr hin with ⟨-, h'⟩ | ⟨hkeep, h'⟩
        · exact absurd h' hne
        · rw [h'] at hne
          obtain ⟨htaken, j, hj, hholds⟩ := hI.slot hne
          refine ⟨?_, j, hold hj, ?_⟩
          · rw [taken, sinceReset_cons_other hres
              (isTake_of_not_emptiesSlot hkeep)]
            exact htaken
          · refine update_phase _ (fun hh => ?_) hholds
            rcases hq.holds hres hh with h'' | h''
            · exact h''
            · rw [hkeep] at h''
              cases h''
  · intro ev hev hin
    rcases List.mem_cons.mp hev with rfl | hev
    · exact hI.install_empty hq hok hin
    · exact hI.fresh ev hev hin

end

/-- Nobody has entered a fresh server. -/
theorem ExclInv.new (φ : Nat → Phase) : ExclInv .new φ [] where
  state hne := (hne rfl).elim
  one := Nat.zero_le 1
  inside _ hi := by cases hi
  conn _ hi := by cases hi
  connNodup := List.nodup_nil
  inst _ hi := by cases hi
  instNodup := List.nodup_nil
  slot hne := (hne rfl).elim
  fresh _ hev := by cases hev

theorem exclInv_inductive :
    Inductive toolMachine ToolNext ConnectAlone ExclInv where
  act := by
    intro w w' φ h i β op a b q' hI hr hq hok
    cases hres : isReset (.act i op b w w') with
    | true => exact hI.reset hr hq hok hres
    | false => exact hI.other hr hq hok hres
  env := by
    intro w w' φ h e hI he _
    have hsince : ∀ p, (∀ w, p (.env e w w') = false) →
        sinceReset p (.env e w w' :: h) = sinceReset p h :=
      fun p hp => sinceReset_cons_other rfl (hp w)
    have hbackend := backend_env he
    refine ⟨?_, ?_, ?_, ?_, ?_, ?_, ?_, ?_, ?_⟩
    · intro hne
      rw [entered, hsince _ fun _ => rfl] at hne
      exact state_ne_idle_env he (hI.state hne)
    · rw [entered, hsince _ fun _ => rfl]
      exact hI.one
    · rw [entered, hsince _ fun _ => rfl]
      exact hI.inside
    · rw [connected, entered, hsince _ fun _ => rfl,
        hsince _ fun _ => rfl]
      exact hI.conn
    · rw [connected, hsince _ fun _ => rfl]
      exact hI.connNodup
    · rw [installed, entered, hsince _ fun _ => rfl,
        hsince _ fun _ => rfl]
      exact hI.inst
    · rw [installed, hsince _ fun _ => rfl]
      exact hI.instNodup
    · rw [hbackend, installed, taken, hsince _ fun _ => rfl,
        hsince _ fun _ => rfl]
      exact hI.slot
    · intro ev hev hin
      rcases List.mem_cons.mp hev with rfl | hev
      · cases hin
      · exact hI.fresh ev hev hin

-- ========================================================== the results

/-- At most one call entered, at most one was handed a backend and at
most one installed one since the last reset, and no install overwrote a
backend. -/
structure ConnectsExclude (h : History) : Prop where
  entered : (entered h).length ≤ 1
  connected : (connected h).length ≤ 1
  installed : (installed h).length ≤ 1
  fresh : ∀ ev ∈ h, isInstall ev = true → ev.pre.backend = none

/-- Distinct members of a list of at most one element are at most
one. -/
private theorem length_le_one_of_subset {l m : List Nat}
    (hl : l.length ≤ 1) (hm : m.Nodup) (hsub : ∀ i ∈ m, i ∈ l) :
    m.length ≤ 1 := by
  match m, hm with
  | [], _ => exact Nat.zero_le 1
  | [_], _ => exact Nat.le_refl 1
  | i :: j :: m, hm =>
      have hij : i = j := eq_of_length_le_one hl (hsub i (by simp))
        (hsub j (by simp))
      simp [hij] at hm

/-- In a run whose connects find the session to themselves, connects
exclude each other. -/
theorem connects_exclude (host : Host) (calls : Nat → Call)
    {h : History} {s : Pool ToolOp ToolOutcome ToolServer}
    (hr : ToolRunIf host calls .new ConnectAlone h s) :
    ConnectsExclude h := by
  obtain ⟨φ, hI, -⟩ := toolRun_invariant exclInv_inductive
    (ExclInv.new _) hr
  exact ⟨hI.one,
    length_le_one_of_subset hI.one hI.connNodup fun i hi =>
      (hI.conn i hi).1,
    length_le_one_of_subset hI.one hI.instNodup fun i hi =>
      (hI.inst i hi).1,
    hI.fresh⟩

/-- A launch after a launch that was disconnected. -/
theorem relaunch_exclude :
    ∃ h s, ToolRun lldbHost wipeCalls .new h s ∧
      s.world.backend = some 1 ∧ ConnectsExclude h := by
  obtain ⟨h, s, hr, hm, hb⟩ :=
    exec_witness toolMachine (callPool lldbHost wipeCalls .new)
      (launchSteps 0 ++ sync 2 8 ++ launchSteps 1)
      (fun h s => Meets ConnectAlone h ∧ s.world.backend = some 1)
      (by decide +kernel)
  exact ⟨h, s, hr, hb, connects_exclude _ _ (.ofMeets hr hm)⟩

/-- Two launches pass the idle check before either has moved the
session; both enter, and the second overwrites the first one's
backend. -/
theorem connects_overlap :
    ∃ h s, ToolRun lldbHost wipeCalls .new h s ∧
      entered h = [1, 0] ∧ installed h = [1, 0] ∧
      ¬ ConnectsExclude h := by
  obtain ⟨h, s, hr, he, hi⟩ :=
    exec_witness toolMachine (callPool lldbHost wipeCalls .new)
      (sync 0 1 ++ sync 1 1 ++ sync 0 2 ++ sync 1 2
        ++ [.step 0 (.connect (.ok ())), .step 1 (.connect (.ok ()))]
        ++ sync 0 1 ++ sync 1 1)
      (fun h _ => entered h = [1, 0] ∧ installed h = [1, 0])
      (by decide +kernel)
  refine ⟨h, s, hr, he, hi, fun hc => ?_⟩
  have hle := hc.entered
  rw [he] at hle
  exact absurd hle (by decide)

end DebugMcp
