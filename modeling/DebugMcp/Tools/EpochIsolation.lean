/-
Events of one session in the next.

A pump outlives the disconnect that orphans it. Its terminations are
guarded by the generation its connect handler read after installing the
backend; its output is appended unguarded. The buffer is cleared in a
lock section of its own, after the one that bumps the generation.

# Result

`events_isolated`: in every run in which

- output is delivered only by a pump with no reset between its connect
  handler's guard and the delivery,
- a termination is delivered only by a pump whose handler read the
  generation in its guard's epoch, within one turn of the counter,
- no handler drains text that a reset has yet to clear,

an event changes the session only in its backend's epoch, and a handler
drains only text of its own epoch. `output_leaks` is the run in which a
pump of the last session delivers into the next.
-/
import DebugMcp.Tools.DisconnectWins

namespace DebugMcp

open Conc

-- ========================================================== histories

/-- The call an event hands backend `b` to. -/
def hands (b : BackendId) : ToolEvent → Option Nat
  | .act i (.inr (.connect _)) (.ok b') _ _ =>
      if b' = b then some i else none
  | _ => none

/-- The call that was handed backend `b`. -/
def connector (b : BackendId) : History → Option Nat
  | [] => none
  | ev :: h => (connector b h).or (hands b ev)

/-- Does the event read the generation? -/
def isSnapshot : ToolEvent → Bool
  | .act _ (.inl .generation) _ _ _ => true
  | _ => false

/-- The epoch in which call `i` first read the generation. -/
def stampEpoch (i : Nat) : History → Option Nat
  | [] => none
  | ev :: h => (stampEpoch i h).or
      (if ev.who = some i ∧ isSnapshot ev = true then some (epoch h)
        else none)

/-- Does the event spawn backend `b`'s pump? -/
def spawnsPump (b : BackendId) : ToolEvent → Bool
  | .act _ (.inr (.spawnEventPump b' _)) _ _ _ => b' == b
  | _ => false

/-- The epoch in which backend `b`'s pump was spawned. -/
def spawnEpoch (b : BackendId) : History → Option Nat
  | [] => none
  | ev :: h => (spawnEpoch b h).or
      (if spawnsPump b ev = true then some (epoch h) else none)

/-- Is backend `b` of the current epoch: was it connected by a call that
passed its guard in it? -/
def OfEpoch (h : History) (b : BackendId) : Prop :=
  ∃ i ∈ connector b h, guardEpoch i h = some (epoch h)

instance (h : History) (b : BackendId) : Decidable (OfEpoch h b) :=
  inferInstanceAs (Decidable (∃ i ∈ connector b h, _))

/-- The output an event brings in from a backend of the current
epoch. -/
def brings (h : History) : ToolEvent → List OutputEntry
  | .env (.pump k (.output category text)) w _ =>
      match w.pumps[k]? with
      | some p => if OfEpoch h p.1 then [⟨category, text⟩] else []
      | none => []
  | _ => []

/-- The output produced by backends of the current epoch since its
reset, oldest first. -/
def produced : History → List OutputEntry
  | [] => []
  | ev :: h => if isReset ev then [] else produced h ++ brings h ev

/-- Does the event drain the buffer? -/
def isDrain : ToolEvent → Bool
  | .act _ (.inl .drainOutput) _ _ _ => true
  | _ => false

/-- Is there text in the buffer that the last reset has yet to clear? -/
def leftover : History → Bool
  | [] => false
  | ev :: h =>
      if isReset ev then !ev.pre.session.output.entries.isEmpty
      else if isDrain ev then false
      else leftover h

/-- Is call `i` between the two halves of a reset? -/
def resetting (i : Nat) : History → Bool
  | [] => false
  | ev :: h => if ev.who = some i then isReset ev else resetting i h

-- ======================================================= the condition

/-- No event is delivered, and no text drained, across a reset that does
not guard against it. -/
def StepsIsolated (h : History) : ToolEvent → Prop
  | .env (.pump k (.output _ _)) w _ => ∀ p ∈ w.pumps[k]?,
      spawnEpoch p.1 h = some (epoch h) ∧
      ∀ i ∈ connector p.1 h, guardEpoch i h = spawnEpoch p.1 h
  | .env (.pump k (.terminated _)) w _ => ∀ p ∈ w.pumps[k]?,
      ∀ i ∈ connector p.1 h, guardEpoch i h = stampEpoch i h ∧
      ∀ e ∈ stampEpoch i h, epoch h < e + 2 ^ 64
  | .act i (.inl .drainOutput) _ _ _ =>
      resetting i h = false → leftover h = false
  | _ => True

instance (h : History) (ev : ToolEvent) :
    Decidable (StepsIsolated h ev) := by
  unfold StepsIsolated
  split <;> infer_instance

/-- An event of a backend changes the session only in the epoch of the
call that connected it, and what a handler drains was produced in its
epoch, the truncation marker apart. -/
def Isolated (h : History) : ToolEvent → Prop
  | .env (.pump k _) w w' =>
      w'.session ≠ w.session → ∃ p ∈ w.pumps[k]?, OfEpoch h p.1
  | .act i (.inl .drainOutput) es _ _ =>
      resetting i h = false → es.Sublist (.marker :: produced h)
  | _ => True

instance (h : History) (ev : ToolEvent) : Decidable (Isolated h ev) := by
  unfold Isolated
  split <;> infer_instance

-- ==================================================== operation lemmas

/-- A generation is that of one epoch only, within a turn. -/
theorem GenOf.inj {g₀ g : UInt64} {e e' : Nat} (h : GenOf g₀ g e)
    (h' : GenOf g₀ g e') (hle : e' ≤ e) (hturn : e < e' + 2 ^ 64) :
    e = e' := by
  rw [GenOf] at h h'
  omega

section

variable {β : Type} {op : ToolOp β} {a : Answer} {b : β}
  {w w' : ToolServer} {i : Nat} {h : History}

/-- Only a drain changes the buffer. -/
theorem run_output_of_not_drain (hr : w.run op a = some (b, w'))
    (hd : isDrain (.act i op b w w') = false) :
    w'.session.output = w.session.output := by
  cases op with
  | inr op => rw [ToolServer.run_inr hr]
  | inl op =>
      rw [(ToolServer.run_inl hr).2]
      show (op.run w.session).2.output = w.session.output
      cases op with
      | drainOutput => cases hd
      | setStateIfGeneration g st =>
          simp only [SessionOp.run, SessionManager.setStateIfGeneration]
          split <;> rfl
      | terminateIfGeneration g code =>
          simp only [SessionOp.run, SessionManager.terminateIfGeneration]
          split <;> rfl
      | removeBreakpointById id =>
          simp only [SessionOp.run, SessionManager.removeBreakpointById]
          split
          · rfl
          · split <;> rfl
      | _ => rfl

/-- A drain answers the entries, the marker first when some were
evicted, and leaves none. -/
theorem OutputBuffer.drain_entries (b : OutputBuffer) :
    b.drain.1.Sublist (.marker :: b.entries) ∧
      b.drain.2.entries = [] := by
  rw [OutputBuffer.drain]
  split
  · next hc =>
      unfold OutputBuffer.isClear at hc
      rw [Bool.and_eq_true, List.isEmpty_iff] at hc
      exact ⟨List.nil_sublist _, hc.1⟩
  · refine ⟨?_, rfl⟩
    cases b.truncated with
    | true => exact .refl _
    | false => exact (List.Sublist.refl _).cons _

/-- Eviction only drops entries. -/
theorem OutputBuffer.evict_sublist {es : List OutputEntry} {size : Nat}
    {t : Bool} : (evict es size t).1.Sublist es := by
  induction es generalizing size t with
  | nil => exact .refl _
  | cons e es ih =>
      rw [evict]
      split
      · exact ih.cons _
      · exact .refl _

/-- An append adds the entry at the end and drops some. -/
theorem OutputBuffer.append_sublist (b : OutputBuffer)
    (category text : String) :
    (b.append category text).entries.Sublist
      (b.entries ++ [⟨category, text⟩]) :=
  evict_sublist

end

-- ======================================================= the invariant

/-- What holds of connect handler `i`: it has no snapshot before it
reads one, its backend is the one it was handed, and the snapshot it is
about to spawn a pump with is its first. -/
def ConnKnown (i : Nat) (h : History) : Phase → Prop
  | .conn .start | .conn .guarded | .conn .configuring =>
      stampEpoch i h = none
  | .conn (.connected b) | .conn (.installed b) =>
      stampEpoch i h = none ∧ connector b h = some i
  | .conn (.stamped b g) =>
      connector b h = some i ∧ ∃ e ∈ stampEpoch i h, GenOf 0 g e
  | _ => True

section

variable {h : History} {ev : ToolEvent} {b : BackendId} {i e : Nat}

/-- A backend keeps its connector. -/
theorem connector_cons (hc : connector b h = some i) :
    connector b (ev :: h) = some i := by
  rw [connector, hc]
  rfl

/-- A call keeps the epoch of its first snapshot. -/
theorem stampEpoch_cons (hs : stampEpoch i h = some e) :
    stampEpoch i (ev :: h) = some e := by
  rw [stampEpoch, hs]
  rfl

/-- No snapshot is of an epoch still to come. -/
theorem stampEpoch_le (hs : stampEpoch i h = some e) : e ≤ epoch h := by
  induction h with
  | nil => cases hs
  | cons ev h ih =>
      have hle := epoch_le_cons ev h
      rw [stampEpoch, Option.or_eq_some_iff] at hs
      rcases hs with hs | ⟨-, hs⟩
      · exact (ih hs).trans hle
      · split at hs
        · cases hs
          exact hle
        · cases hs

/-- An event that is no snapshot of its own gives a call none. -/
theorem stampEpoch_cons_quiet
    (hq : ¬ (ev.who = some i ∧ isSnapshot ev = true)) :
    stampEpoch i (ev :: h) = stampEpoch i h := by
  rw [stampEpoch, if_neg hq, Option.or_none]

/-- Other calls' events leave what is known of a handler. -/
theorem ConnKnown.cons {q : Phase} (hk : ConnKnown i h q)
    (hq : ¬ (ev.who = some i ∧ isSnapshot ev = true)) :
    ConnKnown i (ev :: h) q := by
  have hs := stampEpoch_cons_quiet (h := h) hq
  cases q with
  | conn q =>
      cases q with
      | start | guarded | configuring => exact hs.trans hk
      | connected b | installed b =>
          exact ⟨hs.trans hk.1, connector_cons hk.2⟩
      | stamped b g =>
          obtain ⟨hc, e, he, hg⟩ := hk
          exact ⟨connector_cons hc, e, hs.trans he, hg⟩
      | _ => trivial
  | _ => trivial

end

/-- Every pump is of its connector's epoch, and the buffer holds only
text of the current one, once the reset's clear is through. -/
structure IsolationInv (w : ToolServer) (φ : Nat → Phase) (h : History) :
    Prop where
  generation : GenOf 0 w.session.inner.generation (epoch h)
  ids : ∀ b i, connector b h = some i → b < w.nextBackend
  known : ∀ i, ConnKnown i h (φ i)
  pumps : ∀ p ∈ w.pumps, ∃ i ∈ connector p.1 h,
    ∃ e ∈ stampEpoch i h, GenOf 0 p.2 e
  buffer : leftover h = false →
    w.session.output.entries.Sublist (produced h)

section

variable {β : Type} {op : ToolOp β} {a : Answer} {x : β} {q' : Phase}
  {w w' : ToolServer} {φ : Nat → Phase} {i : Nat} {h : History}

/-- A connect hands out the next backend; nothing else hands out one. -/
theorem ToolServer.run_nextBackend (hr : w.run op a = some (x, w')) :
    (w'.nextBackend = w.nextBackend ∧
      ∀ b, hands b (.act i op x w w') = none) ∨
    (w'.nextBackend = w.nextBackend + 1 ∧
      ∀ b, hands b (.act i op x w w')
        = if w.nextBackend = b then some i else none) := by
  cases op with
  | inl op =>
      rw [(ToolServer.run_inl hr).2]
      exact .inl ⟨rfl, fun _ => rfl⟩
  | inr op =>
      have hr : w.runServer op a = some (x, w') := hr
      cases op with
      | connect f =>
          obtain ⟨r, -, hx⟩ := Option.map_eq_some_iff.mp hr
          cases r with
          | error e =>
              cases hx
              exact .inl ⟨rfl, fun _ => rfl⟩
          | ok u =>
              cases hx
              exact .inr ⟨rfl, fun _ => rfl⟩
      | currentBackend | setSlot | clearSlot | takeSlot | setName
      | spawnEventPump | disconnect | dropBackend =>
          cases hr
          exact .inl ⟨rfl, fun _ => rfl⟩
      | _ =>
          rw [map_pair_snd hr]
          exact .inl ⟨rfl, fun _ => rfl⟩

/-- A backend with a connector was handed out, after a step as before. -/
theorem connector_lt
    (hids : ∀ b i, connector b h = some i → b < w.nextBackend)
    (hr : w.run op a = some (x, w')) (c : BackendId) (j : Nat)
    (hc : connector c (.act i op x w w' :: h) = some j) :
    c < w'.nextBackend := by
  rw [connector, Option.or_eq_some_iff] at hc
  rcases ToolServer.run_nextBackend (i := i) hr with ⟨hn, hh⟩ | ⟨hn, hh⟩
  · rw [hh c] at hc
    rw [hn]
    exact hids c j (hc.resolve_right fun hx => nomatch hx.2)
  · rw [hn]
    rcases hc with hc | ⟨-, hc⟩
    · exact Nat.lt_succ_of_lt (hids c j hc)
    · rw [hh c] at hc
      split at hc
      · next he => exact he ▸ Nat.lt_succ_self _
      · cases hc

/-- A connect makes its call the connector of a backend that had none. -/
theorem connector_connect {f : String} {b : BackendId}
    (hids : ∀ b i, connector b h = some i → b < w.nextBackend)
    (hr : w.run (.inr (.connect f)) a = some (.ok b, w')) :
    connector b (.act i (.inr (.connect f)) (.ok b) w w' :: h)
      = some i := by
  have hb : hands b (.act i (.inr (.connect f)) (.ok b) w w') = some i :=
    if_pos rfl
  have hnone : connector b h = none := by
    rcases ToolServer.run_nextBackend (i := i) hr with ⟨-, hh⟩ | ⟨-, hh⟩
    · cases (hh b).symm.trans hb
    · rw [hh b] at hb
      split at hb
      · next he =>
          cases hc : connector b h with
          | none => rfl
          | some j =>
              exact absurd (hids b j hc) (he ▸ Nat.lt_irrefl _)
      · cases hb
  rw [connector, hnone, Option.none_or, hb]

/-- A handler's own step keeps what is known of it. -/
theorem IsolationInv.knownStep (hI : IsolationInv w φ h)
    (hq : ToolNext (φ i) op x q') (hr : w.run op a = some (x, w')) :
    ConnKnown i (.act i op x w w' :: h) q' := by
  have hk := hI.known i
  have hquiet : isSnapshot (.act i op x w w') = false →
      stampEpoch i (.act i op x w w' :: h) = stampEpoch i h := by
    intro hf
    refine stampEpoch_cons_quiet fun hc => ?_
    rw [hf] at hc
    cases hc.2
  generalize φ i = q at hk hq
  cases hq with
  | conn hq =>
      cases hq with
      | guardOk | configure | flush =>
          exact (hquiet rfl).trans hk
      | install b | name b f =>
          exact ⟨(hquiet rfl).trans hk.1, connector_cons hk.2⟩
      | connectOk f b =>
          have hs : stampEpoch i h = none := hk
          exact ⟨(hquiet rfl).trans hs, connector_connect hI.ids hr⟩
      | stamp b g =>
          obtain ⟨hs, hc⟩ := hk
          refine ⟨connector_cons hc, epoch h, ?_, ?_⟩
          · rw [stampEpoch, hs, Option.none_or]
            exact if_pos ⟨rfl, rfl⟩
          · rw [← (ToolServer.run_inl hr).1]
            exact hI.generation
      | _ => trivial
  | _ => trivial

/-- Another handler's step keeps what is known of a handler. -/
theorem IsolationInv.knownOther {ev : ToolEvent}
    (hI : IsolationInv w φ h) (hi : ev.who ≠ some i) :
    ConnKnown i (ev :: h) (φ i) :=
  (hI.known i).cons fun hc => hi hc.1

/-- A pump stays its connector's. -/
theorem IsolationInv.pump_cons {ev : ToolEvent} {p : BackendId × UInt64}
    (hI : IsolationInv w φ h) (hp : p ∈ w.pumps) :
    ∃ i ∈ connector p.1 (ev :: h),
      ∃ e ∈ stampEpoch i (ev :: h), GenOf 0 p.2 e := by
  obtain ⟨i, hc, e, he, hg⟩ := hI.pumps p hp
  exact ⟨i, connector_cons hc, e, stampEpoch_cons he, hg⟩

/-- A section keeps the buffer in its epoch. -/
theorem IsolationInv.bufferStep (hI : IsolationInv w φ h)
    (hr : w.run op a = some (x, w'))
    (hl : leftover (.act i op x w w' :: h) = false) :
    w'.session.output.entries.Sublist
      (produced (.act i op x w w' :: h)) := by
  unfold leftover at hl
  unfold produced
  cases hres : isReset (.act i op x w w') with
  | true =>
      have hnd : isDrain (.act i op x w w') = false := by
        cases op with
        | inr op => cases hres
        | inl op =>
            cases op with
            | resetInner => rfl
            | _ => cases hres
      rw [hres, if_pos rfl] at hl
      rw [run_output_of_not_drain hr hnd, if_pos rfl]
      have he := List.isEmpty_iff.mp (Bool.not_eq_eq_eq_not.mp hl)
      exact he ▸ .refl _
  | false =>
      rw [hres, if_neg Bool.false_ne_true] at hl
      rw [if_neg Bool.false_ne_true]
      show w'.session.output.entries.Sublist (produced h ++ [])
      rw [List.append_nil]
      cases hd : isDrain (.act i op x w w') with
      | false =>
          rw [hd, if_neg Bool.false_ne_true] at hl
          rw [run_output_of_not_drain hr hd]
          exact hI.buffer hl
      | true =>
          have hempty : w'.session.output.entries = [] := by
            cases op with
            | inr op => cases hd
            | inl op =>
                rw [(ToolServer.run_inl hr).2]
                cases op with
                | drainOutput =>
                    exact (w.session.output.drain_entries).2
                | _ => cases hd
          rw [hempty]
          exact List.nil_sublist _

/-- Output of the current epoch's backend. -/
theorem brings_output {c t : String} {k : Nat} {p : BackendId × UInt64}
    (hp : w.pumps[k]? = some p) (hof : OfEpoch h p.1) :
    brings h (.env (.pump k (.output c t)) w w') = [⟨c, t⟩] := by
  simp only [brings, hp]
  exact if_pos hof

/-- Under the condition, what a pump delivers is of its epoch. -/
theorem IsolationInv.ofEpoch {c t : String} {k : Nat}
    {p : BackendId × UInt64} (hI : IsolationInv w φ h)
    (hp : w.pumps[k]? = some p)
    (hok : StepsIsolated h (.env (.pump k (.output c t)) w w')) :
    OfEpoch h p.1 := by
  obtain ⟨hspawn, hguard⟩ := hok p hp
  obtain ⟨i, hc, -⟩ := hI.pumps p (List.mem_of_getElem? hp)
  exact ⟨i, hc, (hguard i hc).trans hspawn⟩

end

theorem isolationInv_inductive :
    Inductive toolMachine ToolNext StepsIsolated IsolationInv where
  act := by
    intro w w' φ h i β op a b q' hI hr hq _
    have hr : w.run op a = some (b, w') := hr
    refine ⟨generation_step hI.generation hr, fun c j hc => ?_,
      fun j => ?_, fun p hp => ?_, hI.bufferStep hr⟩
    · exact connector_lt hI.ids hr c j hc
    · by_cases hij : j = i
      · subst hij
        rw [Function.update_self]
        exact hI.knownStep hq hr
      · rw [Function.update_of_ne hij]
        exact hI.knownOther fun hc => hij (Option.some.inj hc).symm
    · rw [ToolServer.run_pumps hr, List.mem_append] at hp
      rcases hp with hp | hp
      · exact hI.pump_cons hp
      · rw [Option.mem_toList] at hp
        have hk := hI.known i
        rw [hq.spawned hp] at hk
        obtain ⟨hc, e, he, hg⟩ := hk
        exact ⟨i, connector_cons hc, e, stampEpoch_cons he, hg⟩
  env := by
    intro w w' φ h e hI he hok
    have he : w.envMove e = some w' := he
    have hpumps := pumps_env he
    have hgen := generation_env hI.generation he
    refine ⟨hgen, fun c j hc => ?_, fun j => hI.knownOther nofun,
      fun p hp => hI.pump_cons (hpumps ▸ hp), fun hl => ?_⟩
    · have hc : (connector c h).or none = some j := hc
      rw [Option.or_none] at hc
      rw [nextBackend_env he]
      exact hI.ids c j hc
    · have hb := hI.buffer hl
      cases delivers_env he with
      | output hp c t =>
          show List.Sublist _ (produced h ++ brings h _)
          rw [brings_output hp (hI.ofEpoch hp hok)]
          exact (OutputBuffer.append_sublist ..).trans
            (hb.append_right _)
      | stale | ends =>
          show List.Sublist _ (produced h ++ [])
          rw [List.append_nil]
          exact hb

-- =========================================================== the result

/-- In a run whose steps are isolated, every event is: a backend's
events change the session only in its own epoch, and a handler drains
only what its own epoch's backends produced. -/
theorem events_isolated (host : Host) (calls : Nat → Call) {h : History}
    {ev : ToolEvent} {s : Pool ToolOp ToolOutcome ToolServer}
    (hr : ToolRunIf host calls .new StepsIsolated (ev :: h) s) :
    Isolated h ev := by
  cases hr with
  | @snoc _ s₁ _ _ hr hs hok =>
      obtain ⟨φ, hI, hobey⟩ := toolRun_invariant isolationInv_inductive
        ⟨GenOf.zero 0, nofun, fun i => by cases calls i <;> first | rfl | trivial,
          fun p hp => (List.not_mem_nil hp).elim, fun _ => .refl _⟩ hr
      cases hs with
      | @act i β op k a b w' hp hrun =>
          cases op with
          | inr op => trivial
          | inl op =>
              cases op with
              | drainOutput =>
                  intro hres
                  have hb : _ = b := (ToolServer.run_inl (a := a) hrun).1
                  rw [← hb]
                  exact (OutputBuffer.drain_entries _).1.trans
                    ((hI.buffer (hok hres)).cons_cons _)
              | _ => trivial
      | @env e w' he =>
          cases e with
          | pump k ev =>
              intro hne
              obtain ⟨p, hp, hw⟩ := Option.map_eq_some_iff.mp he
              refine ⟨p, hp, ?_⟩
              cases ev with
              | output c t => exact hI.ofEpoch hp hok
              | terminated code =>
                  obtain ⟨i, hc, e, hse, hg⟩ :=
                    hI.pumps p (List.mem_of_getElem? hp)
                  obtain ⟨hguard, hturn⟩ := hok p hp i hc
                  refine ⟨i, hc, ?_⟩
                  rw [hguard, hse]
                  have hgen : s₁.world.session.inner.generation = p.2 := by
                    by_contra hg
                    rw [ToolServer.pumpEvent,
                      SessionManager.terminateIfGeneration_of_ne _ _ hg]
                      at hw
                    exact hne (congrArg ToolServer.session hw.symm)
                  rw [← hgen] at hg
                  exact congrArg some (hI.generation.inj hg
                    (stampEpoch_le hse) (hturn e hse)).symm

/-- Two sessions by attach, and a reader of the output. -/
def sessionCalls : Nat → Call
  | 0 => .attach ⟨[("pid", .num 7)]⟩
  | 1 => .disconnect ⟨[]⟩
  | 2 => .attach ⟨[("pid", .num 8)]⟩
  | _ => .readOutput

/-- The second session is attached and pump `k` delivers before the
output is read. -/
def readSteps (k : Nat) : List (Action Answer EnvMove) :=
  attachSteps 0 ++ sync 1 8 ++ attachSteps 2
    ++ [.env (.pump k (.output "stdout" "text"))] ++ sync 3 2

/-- Call 3 reads the text in the second session. -/
def ReadsText (h : History) (ev : ToolEvent) : Prop :=
  epoch h = 1 ∧ resetting 3 h = false ∧ match ev with
  | .act 3 (.inl .drainOutput) es _ _ => es = [⟨"stdout", "text"⟩]
  | _ => False

instance (h : History) (ev : ToolEvent) : Decidable (ReadsText h ev) := by
  unfold ReadsText
  split <;> infer_instance

/-- The second session reads what its own backend produced. -/
theorem output_read :
    ∃ h ev s, ToolRun lldbHost sessionCalls .new (ev :: h) s ∧
      ReadsText h ev ∧ Isolated h ev := by
  obtain ⟨h, s, hr, hm, ev, hev, hread⟩ := exec_witness toolMachine
    (callPool lldbHost sessionCalls .new) (readSteps 1)
    (fun h _ => Meets StepsIsolated h ∧ ∃ ev ∈ h.head?, ReadsText h.tail ev)
    (by decide +kernel)
  obtain ⟨h', rfl⟩ : ∃ h', h = ev :: h' :=
    ⟨h.tail, (List.cons_head?_tail hev).symm⟩
  exact ⟨h', ev, s, hr, hread, events_isolated _ _ (.ofMeets hr hm)⟩

/-- A pump of a past epoch fills the buffer. -/
def DeliversLate (h : History) : ToolEvent → Prop
  | .env (.pump k _) w w' =>
      w'.session.output.entries ≠ w.session.output.entries ∧
        ∀ p ∈ w.pumps[k]?, ¬ OfEpoch h p.1
  | _ => False

instance (h : History) : (ev : ToolEvent) → Decidable (DeliversLate h ev)
  | .env (.pump _ _) _ _ => inferInstanceAs (Decidable (_ ≠ _ ∧ _))
  | .act _ _ _ _ _ => .isFalse id

/-- A delivery that fills the buffer late is not isolated. -/
theorem DeliversLate.not_isolated {h : History} {ev : ToolEvent}
    (hd : DeliversLate h ev) : ¬ Isolated h ev := by
  intro hi
  cases ev with
  | act i op b w w' => exact hd
  | env e w w' =>
      cases e with
      | pump k ev =>
          obtain ⟨hne, hlate⟩ := hd
          obtain ⟨p, hp, hof⟩ :=
            hi fun he => hne (congrArg (·.output.entries) he)
          exact hlate p hp hof

/-- The last three events: a late delivery, a guard, and a read that
answers the text, which no backend of its epoch produced. -/
def EndsInLeak : History → Prop
  | ev :: g :: pv :: h => ReadsText (g :: pv :: h) ev ∧
      ¬ Isolated (g :: pv :: h) ev ∧ DeliversLate h pv
  | _ => False

instance : (h : History) → Decidable (EndsInLeak h)
  | _ :: _ :: _ :: _ => inferInstanceAs (Decidable (_ ∧ ¬ _ ∧ _))
  | [] | [_] | [_, _] => .isFalse id

/-- The first session's pump delivers into the second, whose reader is
given the text: neither is isolated. -/
theorem output_leaks :
    ∃ ev g pv h s,
      ToolRun lldbHost sessionCalls .new (ev :: g :: pv :: h) s ∧
      ReadsText (g :: pv :: h) ev ∧ ¬ Isolated (g :: pv :: h) ev ∧
      ¬ Isolated h pv := by
  obtain ⟨h, s, hr, hend⟩ := exec_witness toolMachine
    (callPool lldbHost sessionCalls .new) (readSteps 0)
    (fun h _ => EndsInLeak h) (by decide +kernel)
  match h, hend with
  | ev :: g :: pv :: h, ⟨hread, hiso, hlate⟩ =>
      exact ⟨ev, g, pv, h, s, hr, hread, hiso, hlate.not_isolated⟩

end DebugMcp
