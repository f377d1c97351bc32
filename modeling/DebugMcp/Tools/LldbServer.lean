/-
The tool server over the lldb backend.

The awaits of `cont` and `step` are carried out: they are the lldb
backend's programs over the DAP client, so the stop waiter's
registrations and the adapter's frames interleave with the session's lock
sections. What the other operations do is the tool server's.
-/
import DebugMcp.Lldb.StopWaiter
import DebugMcp.Tools.Backed

namespace DebugMcp

open Conc

/-- The operations of a handler over the lldb backend. -/
abbrev LldbOp := BackedOp ClientOp

/-- The server with the client of its backend. -/
abbrev LldbServer := Backed DapClient

/-- The environment's answer to an operation. -/
abbrev LldbAnswer := BackedAnswer Reply

/-- What the environment does on its own. -/
abbrev LldbMove := BackedMove ClientMove

/-- A handler's operation over the lldb backend. -/
def overLldb : {β : Type} → ToolOp β → Prog LldbOp β
  | _, .inr (.cont _ threadId) => racedCall (lldbCont threadId)
  | _, .inr (.step _ kind threadId gran) =>
      racedCall (lldbStep kind threadId gran)
  | _, op => Prog.perform (.tool op)

/-- The server over its backend as a machine. -/
abbrev lldbMachine : Machine LldbOp LldbAnswer LldbMove LldbServer :=
  backedMachine clientMachine fun _ _ => true

/-- An event of a run over the lldb backend. -/
abbrev LldbEvent := BackedEvent ClientOp ClientMove DapClient

/-- The history of such a run, newest first. -/
abbrev LldbHistory := List LldbEvent

/-- The resume calls `calls` over the lldb backend, none of which has
started. -/
def lldbResumePool (calls : Nat → ResumeTool) (w : LldbServer) :
    Pool LldbOp ToolOutcome LldbServer where
  world := w
  prog i := some ((calls i).prog.interp overLldb)

end DebugMcp
