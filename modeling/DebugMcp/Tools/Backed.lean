/-
The tool server over a backend.

In `Tools/Server.lean` a backend call is one await that the environment
answers. Here a backend is a machine of its own, and a handler runs on
both: the session's lock sections and the awaits of its backend call
interleave with those of the other calls, and with the backend's own
steps, in any order. Which of the server's operations are carried out so
is the backend's to say (`Tools/LldbServer.lean`,
`Tools/WinServer.lean`).

# Cancellation

A handler races its backend call against the request's token. A token
that wins later drops the call's future at the await it is at, which is
the backend's own answer there; one that wins before the call is polled
leaves nothing behind. `RaceOp.first` is that first poll.
-/
import DebugMcp.Tools.History

namespace DebugMcp

open Conc

-- ========================================================== operations

/-- The first poll of a backend call that is raced against the token: is
the call polled, or has the token won? -/
inductive RaceOp : Type → Type
  | first : RaceOp Bool

/-- Its answer. -/
def RaceOp.answer : {β : Type} → RaceOp β → Bool → β
  | _, first, polled => polled

/-- The operations of a handler over a backend with operations `F`. -/
inductive BackedOp (F : Type → Type) (β : Type) : Type
  | tool (op : ToolOp β)
  | backend (op : F β)
  | race (op : RaceOp β)

/-- The server with its backend. -/
structure Backed (ω : Type) where
  server : ToolServer
  backend : ω

/-- The environment's answer to an operation. -/
inductive BackedAnswer (Ans : Type)
  | tool (a : Answer)
  | backend (a : Ans)
  | race (polled : Bool)

/-- What the environment does on its own. -/
inductive BackedMove (Env : Type)
  | tool (e : EnvMove)
  | backend (e : Env)

section

variable {F : Type → Type} {Ans Env ω : Type}

/-- A program of the backend, as a part of a handler. -/
def overBackend {α : Type} (p : Prog F α) : Prog (BackedOp F) α :=
  p.interp fun op => Prog.perform (.backend op)

/-- A backend call raced against cancellation. -/
def racedCall {α : Type} (p : Prog F (Option α)) :
    Prog (BackedOp F) (Option α) := do
  if ← Prog.perform (BackedOp.race .first) then overBackend p
    else return none

-- ============================================================= machine

/-- The server over the backend `m` as a machine; `tells` says when the
backend's stream may tell the pump so. -/
def backedMachine (m : Machine F Ans Env ω) (tells : ω → EnvMove → Bool) :
    Machine (BackedOp F) (BackedAnswer Ans) (BackedMove Env) (Backed ω)
    where
  run i op a w :=
    match op, a with
    | .tool op, .tool a =>
        (w.server.run op a).map fun r => (r.1, { w with server := r.2 })
    | .backend op, .backend a =>
        (m.run i op a w.backend).map fun r =>
          (r.1, { w with backend := r.2 })
    | .race op, .race polled => some (op.answer polled, w)
    | _, _ => none
  env e w :=
    match e with
    | .tool e =>
        if tells w.backend e then
          (ToolServer.envMove e w.server).map fun s =>
            { w with server := s }
        else none
    | .backend e =>
        (m.env e w.backend).map fun b => { w with backend := b }

/-- An event of a run over a backend. -/
abbrev BackedEvent (F : Type → Type) (Env ω : Type) :=
  Event (BackedOp F) (BackedMove Env) (Backed ω)

variable {m : Machine F Ans Env ω} {tells : ω → EnvMove → Bool} {i : Nat}
  {β : Type} {a : BackedAnswer Ans} {b : β} {w w' : Backed ω}

-- A step is one of its parts', and leaves the other alone.

theorem Backed.run_tool {op : ToolOp β}
    (hr : (backedMachine m tells).run i (.tool op) a w = some (b, w')) :
    ∃ a', w.server.run op a' = some (b, w'.server) ∧
      w'.backend = w.backend := by
  cases a with
  | tool a =>
      obtain ⟨r, hs, he⟩ := Option.map_eq_some_iff.mp hr
      cases he
      exact ⟨a, hs, rfl⟩
  | _ => cases hr

theorem Backed.run_backend {op : F β}
    (hr : (backedMachine m tells).run i (.backend op) a w
      = some (b, w')) :
    ∃ a', m.run i op a' w.backend = some (b, w'.backend) ∧
      w'.server = w.server := by
  cases a with
  | backend a =>
      obtain ⟨r, hs, he⟩ := Option.map_eq_some_iff.mp hr
      cases he
      exact ⟨a, hs, rfl⟩
  | _ => cases hr

theorem Backed.run_race {op : RaceOp β}
    (hr : (backedMachine m tells).run i (.race op) a w = some (b, w')) :
    w' = w := by
  cases a with
  | race p =>
      cases hr
      rfl
  | _ => cases hr

theorem Backed.env_tool {e : EnvMove}
    (he : (backedMachine m tells).env (.tool e) w = some w') :
    tells w.backend e = true ∧
      ToolServer.envMove e w.server = some w'.server ∧
      w'.backend = w.backend := by
  have he : (if tells w.backend e then
      (ToolServer.envMove e w.server).map fun s =>
        { w with server := s } else none) = some w' := he
  split at he
  · next ht =>
      obtain ⟨s, hs, he⟩ := Option.map_eq_some_iff.mp he
      cases he
      exact ⟨ht, hs, rfl⟩
  · cases he

theorem Backed.env_backend {e : Env}
    (he : (backedMachine m tells).env (.backend e) w = some w') :
    m.env e w.backend = some w'.backend ∧ w'.server = w.server := by
  obtain ⟨c, hc, he⟩ := Option.map_eq_some_iff.mp he
  cases he
  exact ⟨hc, rfl⟩

-- ==================================================== the backend's part

/-- The backend's event of an event, if it is the backend's. -/
def BackedEvent.backend? : BackedEvent F Env ω → Option (Event F Env ω)
  | .act i (.backend op) b w w' => some (.act i op b w.backend w'.backend)
  | .env (.backend e) w w' => some (.env e w.backend w'.backend)
  | _ => none

/-- The backend's history. -/
def backendPart (h : List (BackedEvent F Env ω)) : List (Event F Env ω) :=
  h.filterMap BackedEvent.backend?

variable {h : List (BackedEvent F Env ω)}

@[simp] theorem backendPart_nil :
    backendPart ([] : List (BackedEvent F Env ω)) = [] := rfl

@[simp] theorem backendPart_tool (op : ToolOp β) :
    backendPart (.act i (.tool op) b w w' :: h) = backendPart h := rfl

@[simp] theorem backendPart_race (op : RaceOp β) :
    backendPart (.act i (.race op) b w w' :: h) = backendPart h := rfl

@[simp] theorem backendPart_backend (op : F β) :
    backendPart (.act i (.backend op) b w w' :: h)
      = .act i op b w.backend w'.backend :: backendPart h := rfl

@[simp] theorem backendPart_toolMove (e : EnvMove) :
    backendPart (.env (.tool e) w w' :: h) = backendPart h := rfl

@[simp] theorem backendPart_move (e : Env) :
    backendPart (.env (.backend e) w w' :: h)
      = .env e w.backend w'.backend :: backendPart h := rfl

-- ========================================================= the session

/-- The state of the server's session. -/
abbrev Backed.state (w : Backed ω) : State := w.server.session.inner.state

/-- The backend leaves the session alone. -/
theorem Backed.state_backend {op : F β}
    (hr : (backedMachine m tells).run i (.backend op) a w
      = some (b, w')) : w'.state = w.state := by
  obtain ⟨_, _, hs⟩ := run_backend hr
  unfold state
  rw [hs]

/-- A section of the session writes what it says. -/
theorem Backed.state_session {op : SessionOp β}
    (hr : (backedMachine m tells).run i (.tool (.inl op)) a w
      = some (b, w')) :
    w'.state = (op.run w.server.session).2.inner.state := by
  obtain ⟨_, hs, _⟩ := run_tool hr
  unfold state
  rw [(ToolServer.run_inl hs).2]

/-- A pump stops no session. -/
theorem stopped_env {w w' : ToolServer} {e : EnvMove}
    (he : w.envMove e = some w')
    (hst : w'.session.inner.state = .stopped) :
    w.session.inner.state = .stopped := by
  cases delivers_env he with
  | output | stale => exact hst
  | ends => cases hst

/-- A section of the handlers that only looks. -/
inductive Looks : ⦃β : Type⦄ → ToolOp β → Prop
  | checkState (allowed : List State) : Looks (.inl (.checkState allowed))
  | isDump : Looks (.inl .isDump)
  | lastStopped : Looks (.inl .lastStopped)
  | currentBackend : Looks (.inr .currentBackend)
  | generation : Looks (.inl .generation)

/-- A look leaves the state. -/
theorem Looks.state {op : ToolOp β} (hl : Looks op)
    (hr : (backedMachine m tells).run i (.tool op) a w = some (b, w')) :
    w'.state = w.state := by
  cases hl with
  | currentBackend =>
      obtain ⟨_, hs, _⟩ := Backed.run_tool hr
      unfold Backed.state
      rw [ToolServer.run_inr hs]
  | _ => exact Backed.state_session hr

end

-- =============================================================== calls

/-- A call of one of the four resume tools. -/
inductive ResumeTool
  | continue (args : Args)
  | stepOver (args : Args)
  | stepInto (args : Args)
  | stepOut (args : Args)

/-- The handler of a resume tool. -/
def ResumeTool.prog : ResumeTool → ToolProg ToolOutcome
  | .continue args => handleContinue args
  | stepOver args => handleStepOver args
  | stepInto args => handleStepInto args
  | stepOut args => handleStepOut args

/-- The resume calls `calls`, none of which has started, on the server
`w`, whatever its backend. -/
def resumePool (calls : Nat → ResumeTool) (w : ToolServer) :
    Pool ToolOp ToolOutcome ToolServer where
  world := w
  prog i := some (calls i).prog

end DebugMcp
