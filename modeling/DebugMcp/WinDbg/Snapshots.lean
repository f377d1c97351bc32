/-
What concurrent calls of the WinDbg backend see of the engine.

Any number of calls use one engine thread, and each may be dropped at any
of its awaits. `engine_linearized` says that its commands are carried out
one after the other, each whole, in the order they were sent; that what a
call returns is what its text returns when each of its commands is
answered as it was there; and that no call ever waits in vain.
`inspections_agree` is what this gives a client: as long as only looks at
the target are carried out, every call sees one and the same state of it,
although a stack walk switches the current thread and a look at locals
sets the scope.
-/
import DebugMcp.WinDbg.Marshal

namespace DebugMcp.Marshal

open Conc

variable {τ : Type} (api : DbgApi τ)

-- =============================================================== looks

/-- What a look at an engine is answered. -/
def inspected (cmd : EngineCmd) (e : DbgEngine τ) : Option cmd.Reply :=
  (dispatch api cmd .looks e).map Prod.fst

/-- A look meets nothing outside the engine. -/
theorem dispatch_looks {cmd : EngineCmd} {a : Meets τ} {e e' : DbgEngine τ}
    {v : cmd.Reply} (hcmd : cmd.looks = true)
    (hx : dispatch api cmd a e = some (v, e')) : a = .looks := by
  cases a with
  | looks => rfl
  | lists answers =>
      cases cmd with
      | threads | stackTrace _ _ | locals _ | readMemory _ _
      | disassemble _ _ | currentSourceLocation => cases hx
      | _ => cases hcmd
  | does cmd' reply after =>
      cases cmd with
      | threads | stackTrace _ _ | locals _ | readMemory _ _
      | disassemble _ _ | currentSourceLocation => cases hx
      | _ => cases hcmd

/-- A look leaves a settled engine, and is answered from it. -/
theorem looks_looking {cmd : EngineCmd} (hcmd : cmd.looks = true) :
    Looking (engineService api) (DbgEngine.Settled api) (inspected api)
      cmd := by
  intro a e v e' he hx
  have hx : dispatch api cmd a e = some (v, e') := hx
  cases dispatch_looks api hcmd hx
  refine ⟨?_, ?_⟩
  · cases cmd with
    | threads | readMemory _ _ | currentSourceLocation =>
        cases hx
        rfl
    | stackTrace threadId max =>
        have hx : some (e.stackTrace api threadId max) = some (v, e') := hx
        exact (congrArg Prod.snd (Option.some.inj hx)).symm.trans
          (he.stackTrace threadId max)
    | locals frameIndex =>
        have hx : some (e.locals api frameIndex) = some (v, e') := hx
        exact (congrArg Prod.snd (Option.some.inj hx)).symm.trans
          (he.locals frameIndex)
    | disassemble address count =>
        obtain ⟨is, -, hv⟩ := Option.map_eq_some_iff.mp hx
        cases hv
        rfl
    | _ => cases hcmd
  · unfold inspected
    rw [hx]
    rfl

-- ================================================================ runs

/-- The calls `calls`, none of which has started, of a backend whose
engine is `e₀`. -/
def backendPool (calls : Nat → BackendCall) (e₀ : DbgEngine τ)
    (own₀ : BackendLocal) :
    Pool BackendOp (Option Returned)
      (Rpc (engineService api) × BackendLocal) where
  world := (.new (engineService api) e₀, own₀)
  prog i := some (calls i).prog

/-- The backend over the engine's commands. -/
abbrev windbgMachine : Machine BackendOp (RpcAnswer ⊕ LocalAnswer)
    (RpcMove (Meets τ) ⊕ Empty) (Rpc (engineService api) × BackendLocal) :=
  backendMachine (dispatch api)

/-- The history of a run of the backend, newest first. -/
abbrev WindbgHistory := List (Event BackendOp (RpcMove (Meets τ) ⊕ Empty)
  (Rpc (engineService api) × BackendLocal))

/-- What the engine thread did, and what the calls did to it. -/
def enginePart (h : WindbgHistory api) :
    List (RpcEvent (engineService api)) :=
  leftPart h

variable {calls : Nat → BackendCall} {e₀ : DbgEngine τ}
  {own₀ : BackendLocal} {h : WindbgHistory api}
  {s : Pool BackendOp (Option Returned)
    (Rpc (engineService api) × BackendLocal)}

/-- Only a disassembly can end the engine thread: every other command can
be answered. -/
theorem dispatch_panics {cmd : EngineCmd} {e : DbgEngine τ} :
    (∀ a, dispatch api cmd a e = none) ↔ ∃ address count,
      cmd = .disassemble address count ∧
        e.disassemble api address count = none := by
  constructor
  · intro hnone
    have hdoes := hnone (.does cmd (.error (.engine "")) e)
    cases cmd with
    | disassemble address count =>
        exact ⟨address, count, rfl,
          Option.map_eq_none_iff.mp (hnone .looks)⟩
    | threads | stackTrace _ _ | locals _ | readMemory _ _
    | currentSourceLocation => cases hnone .looks
    | modules => cases hnone (.lists (.error ""))
    | _ => simp [dispatch, EngineCmd.looks] at hdoes
  · rintro ⟨address, count, rfl, hnone⟩ a
    cases a with
    | looks => exact Option.map_eq_none_iff.mpr hnone
    | lists answers => rfl
    | does cmd' reply after => rfl

/-- What any number of concurrent calls have of one engine. -/
structure EngineServes (calls : Nat → BackendCall) (e₀ : DbgEngine τ)
    (h : WindbgHistory api)
    (s : Pool BackendOp (Option Returned)
      (Rpc (engineService api) × BackendLocal)) : Prop where
  /-- Its commands are carried out one after the other, in the order they
  were sent. -/
  commands : Linearized (engineService api) e₀ (enginePart api h)
    s.world.1
  /-- A call that was not dropped returns what its text returns when each
  command it sent is answered as it was in that order, or not at all once
  the thread is gone. -/
  returns : ∀ i r, s.returned i = some (some r) → ∃ n,
    CallComes (S := engineService api) i h s.world.1.gone (calls i).prog n
      (.ret (some r))
  /-- Steps of its own and of the thread alone lead to its return. -/
  finishes : ∀ i, s.returned i = some none ∨
    ∃ h' s' r, RunIf (windbgMachine api)
      (fun _ => Helps (S := engineService api) LocalOp.kept i) s h' s' ∧
        s'.returned i = some (some r)

/-- Whatever calls of the backend run at once, and wherever any of them is
dropped, this is what they have of the engine. -/
theorem engine_linearized
    (hr : Run (windbgMachine api) (backendPool api calls e₀ own₀) h s) :
    EngineServes api calls e₀ h s where
  commands := linearized hr.path.left
  returns i _ hret := returned_comes rfl rfl (calls i).asks hr hret
  finishes i := can_finish rfl (by decide)
    (fun op s => local_answers op i s) rfl (calls i).asks hr

/-- As long as only looks are carried out after the first `j` commands,
every call sees the engine these left, whichever calls look, and at
whatever. -/
theorem inspections_agree
    (hr : Run (windbgMachine api) (backendPool api calls e₀ own₀) h s)
    {j k : Nat} (hj : j ≤ (commandsDone (enginePart api h)).length)
    (hlook : ∀ (t : Nat) (cmd : EngineCmd), j ≤ t → t < k →
      (commandsSent (enginePart api h))[t]? = some cmd →
        cmd.looks = true) :
    ∃ e, CarriedOut (engineService api) e₀
        ((commandsDone (enginePart api h)).take j) e ∧
      (e.Settled api → ∀ {i t : Nat} {cmd : EngineCmd} {reply : cmd.Reply}
        {pre post : Rpc (engineService api)},
        .act i (.recv cmd t) (some (.ok reply)) pre post ∈ enginePart api h →
        j ≤ t → t < k → inspected api cmd e = some reply) := by
  obtain ⟨e, he, hall⟩ := (linearized hr.path.left).snapshot hj
    fun t cmd hjt htk hsent => looks_looking api (hlook t cmd hjt htk hsent)
  exact ⟨e, he, fun hsettled => hall hsettled⟩

-- ================================================================ a run

/-- A stack walk, and the locals of its second frame. -/
def walkAndLook : Nat → BackendCall
  | 0 => .stackTrace 5 0 2
  | _ => .variables 2

/-- The run: both commands are sent before the first is taken. -/
theorem walk_and_look : ∃ h s,
    Run (windbgMachine smallTarget) (backendPool smallTarget walkAndLook
      smallEngine ⟨⟨∅, ∅⟩, none⟩) h s ∧
      commandsSent (enginePart smallTarget h)
        = [.stackTrace 5 2, .locals 1] ∧
      (commandsDone (enginePart smallTarget h)).length = 2 ∧
      (s.returned 0).isSome ∧ (s.returned 1).isSome :=
  exec_witness (windbgMachine smallTarget) _
    [.step 0 (.inl .sync), .step 1 (.inl .sync), .env (.inl .take),
      .env (.inl (.finish .looks)), .step 0 (.inl .sync),
      .env (.inl .take), .env (.inl (.finish .looks)),
      .step 1 (.inl .sync)]
    (fun h s =>
      commandsSent (enginePart smallTarget h)
        = [.stackTrace 5 2, .locals 1] ∧
      (commandsDone (enginePart smallTarget h)).length = 2 ∧
      (s.returned 0).isSome ∧ (s.returned 1).isSome)
    (by decide +kernel)

/-- Its commands are carried out in the order they were sent, and both
calls return what they were answered. -/
theorem walk_and_look_linearized : ∃ (h : WindbgHistory smallTarget)
    (s : Pool BackendOp (Option Returned)
      (Rpc (engineService smallTarget) × BackendLocal)),
    commandsSent (enginePart smallTarget h) = [.stackTrace 5 2, .locals 1] ∧
      (s.returned 0).isSome ∧ (s.returned 1).isSome ∧
      EngineServes smallTarget walkAndLook smallEngine h s := by
  obtain ⟨h, s, hr, hsent, -, hret⟩ := walk_and_look
  exact ⟨h, s, hsent, hret.1, hret.2, engine_linearized smallTarget hr⟩

/-- Both see the engine as it was, although the walk switched its thread
and the look set its scope. -/
theorem walk_and_look_agree : ∃ h : WindbgHistory smallTarget,
    (commandsDone (enginePart smallTarget h)).length = 2 ∧
      ∀ {i t : Nat} {cmd : EngineCmd} {reply : cmd.Reply}
        {pre post : Rpc (engineService smallTarget)},
      .act i (.recv cmd t) (some (.ok reply)) pre post
          ∈ enginePart smallTarget h →
      0 ≤ t → t < 2 → inspected smallTarget cmd smallEngine
        = some reply := by
  obtain ⟨h, s, hr, hsent, hdone, -⟩ := walk_and_look
  refine ⟨h, hdone, ?_⟩
  have hlook (t : Nat) (cmd : EngineCmd) (_ : 0 ≤ t) (ht : t < 2)
      (hcmd : (commandsSent (enginePart smallTarget h))[t]? = some cmd) :
      cmd.looks = true := by
    rw [hsent] at hcmd
    match t, ht with
    | 0, _ => cases hcmd; rfl
    | 1, _ => cases hcmd; rfl
  obtain ⟨e, he, hall⟩ :=
    inspections_agree smallTarget hr (Nat.zero_le _) hlook
  cases he.nil_inv
  intro i t cmd reply pre post hm
  exact hall ⟨rfl, rfl, rfl, rfl⟩ hm

end DebugMcp.Marshal
