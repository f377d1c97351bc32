/-
The DAP client: its shared state, the atomic operations its callers
perform on it, and the read loop that dispatches the adapter's frames.

One operation is one lock section or one await. A caller's future may be
dropped at any await: the await then answers that it was cancelled, and
what the destructors of the dropped locals do is written out in the
caller's text. What stays out is the receiver of a response that a
cancelled caller drops: what is sent to it later is discarded, and no
one else holds it.

# The read loop

A frame is dispatched in several steps, since the code takes a sender
under a lock and sends after releasing it. `ReaderOp` is one such step;
`reader` is what the loop still has to do for the frame it is at, and it
reads the next frame only when that is empty.
-/
import DebugMcp.Core
import DebugMcp.Dap.Wire
import DebugMcp.Lib.Pool
import Mathlib.Data.List.AList

namespace DebugMcp

open Conc

-- ============================================================ channels

/-- A one-shot channel: nothing yet, a value, a sender dropped without
sending, or a receiver dropped before anything was sent. -/
inductive Oneshot (α : Type)
  | empty
  | sent (a : α)
  | closed
  | dropped
  deriving DecidableEq

namespace Oneshot

variable {α : Type}

/-- The sender sends: a dropped receiver discards the value. -/
def send (a : α) : Oneshot α → Oneshot α
  | empty => sent a
  | o => o

/-- The sender is dropped. -/
def close : Oneshot α → Oneshot α
  | empty => closed
  | o => o

/-- The receiver is dropped. -/
def drop : Oneshot α → Oneshot α
  | _ => dropped

/-- What awaiting the receiver gives; `none` while it is suspended. -/
def recv : Oneshot α → Option (Except Unit α)
  | sent a => some (.ok a)
  | closed => some (.error ())
  | _ => none

/-- Is nothing sent, and someone still there to receive it? -/
def isEmpty : Oneshot α → Bool
  | empty => true
  | _ => false

end Oneshot

/-- A response channel: allocated in order, never reused. -/
abbrev ChanId := Nat

/-- The result delivered to a pending waiter. -/
abbrev PendingResult := Except BackendError DapMessage

-- =============================================================== world

/-- A request; the client stamps `seq`. -/
structure DapRequest where
  seq : Int
  ty : String
  command : String
  arguments : Option Json

/-- `Request::new`. -/
def DapRequest.new (command : String) (arguments : Option Json) :
    DapRequest where
  seq := 0
  ty := "request"
  command
  arguments

/-- `Request::set_seq`. -/
def DapRequest.setSeq (r : DapRequest) (seq : Int) : DapRequest :=
  { r with seq }

/-- A program-output chunk, for the backend's output sink. -/
structure OutputChunk where
  category : String
  text : String
  deriving DecidableEq

/-- One step of the read loop. -/
inductive ReaderOp
  /-- `remove_pending`, for a response. -/
  | takePending (seq : Int) (m : DapMessage)
  /-- Send `r` to each of the channels, in any order. -/
  | sendPending (cs : List ChanId) (r : PendingResult)
  /-- Drain the table, to fail every entry. -/
  | drainPending (e : BackendError)
  /-- `StopWaiter::send`: take the slot. -/
  | takeStop (o : StopOutcome)
  /-- `StopWaiter::send`, to call `i`'s receiver. -/
  | sendStop (i : Nat) (o : StopOutcome)
  | signalInitialized
  | output (c : OutputChunk)
  | recordExit (code : Int)
  | fireTerminated

/-- The client's shared state with the read loop's. A stop waiter is
named by the call that registered it, which holds its receiver; so is
the waiter of the initialized signal. -/
structure DapClient where
  /-- The last number given. The source's counter is 64 bits wide and
  wraps; that client, and up to where its runs are the same, is in
  `Counter`. -/
  seq : Int
  pending : AList fun _ : Int => ChanId
  nextChan : ChanId
  chans : ChanId → Oneshot PendingResult
  initFired : Bool
  initWaiter : Option Nat
  initRx : Nat → Oneshot Unit
  slot : Option Nat
  stopRx : Nat → Oneshot StopOutcome
  reader : List ReaderOp
  ended : Bool
  outputs : List OutputChunk
  lastExit : Option Int
  terminated : Oneshot (Option Int)

/-- `Client::new` with its read loop. -/
def DapClient.new : DapClient where
  seq := 0
  pending := ∅
  nextChan := 0
  chans _ := .empty
  initFired := false
  initWaiter := none
  initRx _ := .empty
  slot := none
  stopRx _ := .empty
  reader := []
  ended := false
  outputs := []
  lastExit := none
  terminated := .empty

-- ========================================================== operations

/-- What became of a write. Bytes of a frame whose write failed or was
cancelled may have reached the adapter all the same; the caller cannot
tell. -/
inductive Written
  | ok
  | failed (reached : Bool) (err : String)
  | cancelled (reached : Bool)
  deriving DecidableEq

/-- Did the whole frame reach the adapter? -/
def Written.reached : Written → Bool
  | ok => true
  | failed r _ => r
  | cancelled r => r

/-- What `select!` over a response and the initialized signal gives:
one of them, or a parked waiter for the second. -/
inductive Selected
  | response (r : Except Unit PendingResult)
  | initialized
  | parked

/-- The atomic operations of the client's callers. An await answers
`none` when the caller's future was dropped there. -/
inductive ClientOp : Type → Type
  | nextSeq : ClientOp Int
  | registerPending (seq : Int) : ClientOp ChanId
  | removePending (seq : Int) : ClientOp Unit
  | writeRequest (r : DapRequest) : ClientOp Written
  | recv (c : ChanId) : ClientOp (Option (Except Unit PendingResult))
  /-- The first half of `wait_initialized`: has it fired? Else a waiter
  is parked. -/
  | pollInitialized : ClientOp Bool
  /-- The second half: await the parked waiter. -/
  | recvInitialized : ClientOp (Option Unit)
  /-- `select!` over a response and the signal; `parked` says that the
  signal's future was polled before. -/
  | selectBoth (c : ChanId) (parked : Bool) : ClientOp (Option Selected)
  /-- `StopWaiter::register`. -/
  | registerStop : ClientOp Unit
  | recvStop : ClientOp (Option (Except Unit StopOutcome))
  /-- Drop the stop waiter's receiver. -/
  | dropStop : ClientOp Unit

/-- A caller of the client, or a part of one. -/
abbrev ClientProg := Prog ClientOp

/-- An operation of the client, as a program. -/
def client {β : Type} (op : ClientOp β) : ClientProg β :=
  Prog.perform op

-- ============================================================= machine

/-- The environment's part in an operation: it goes through, the write
fails, the caller is dropped; at a select, which branch is polled
first. -/
inductive Reply
  | sync
  | other
  | fail (reached : Bool) (err : String)
  | cancel (reached : Bool)

/-- What the environment does on its own: deliver a frame, end the
stream, run the read loop one step. `k` picks the channel to send to
next. -/
inductive ClientMove
  | frame (m : DapMessage)
  | eof
  | reader (k : Nat)

/-- `stop_info_from_event`. -/
def stopInfoFromEvent (e : StoppedEvent) : StopInfo where
  reason := e.body.reason
  threadId := e.body.threadId
  description := e.body.description
  hitBreakpointIds := e.body.hitBreakpointIds

/-- `dispatch_event`; the informational events are logged only. -/
def dispatchEvent : DapEvent → List ReaderOp
  | .stopped e => [.takeStop (.stopped (stopInfoFromEvent e))]
  | .initialized => [.signalInitialized]
  | .output e => [.output ⟨e.category, e.output⟩]
  | .exited e =>
      [.recordExit e.exitCode, .takeStop (.exited (some e.exitCode))]
  | .terminated => [.fireTerminated, .takeStop .terminated]
  | .thread | .breakpoint | .process | .continued | .module
  | .capabilities => []

/-- `dispatch`; any other message is logged only. -/
def dispatch : DapMessage → List ReaderOp
  | .event e => dispatchEvent e
  | .response r => [.takePending r.requestSeq (.response r)]
  | .other _ => []

/-- `recover`: fail every pending request, cancel the stop waiter, fire
the terminated signal. -/
def recover : List ReaderOp :=
  [.drainPending .closed, .takeStop .terminated, .fireTerminated]

namespace DapClient

/-- `register_pending`; a sender it replaces is dropped. -/
def registerPending (w : DapClient) (seq : Int) : ChanId × DapClient :=
  let chans := match w.pending.lookup seq with
    | some old => Function.update w.chans old (w.chans old).close
    | none => w.chans
  (w.nextChan, { w with
    pending := w.pending.insert seq w.nextChan
    nextChan := w.nextChan + 1
    chans })

/-- `remove_pending`; the sender is dropped. -/
def removePending (w : DapClient) (seq : Int) : DapClient :=
  match w.pending.lookup seq with
  | some c => { w with
      pending := w.pending.erase seq
      chans := Function.update w.chans c (w.chans c).close }
  | none => w

/-- Park call `i` for the initialized signal; a waiter it replaces is
woken by the drop of its sender. -/
def parkInitialized (w : DapClient) (i : Nat) : DapClient :=
  let initRx := match w.initWaiter with
    | some j => Function.update w.initRx j (w.initRx j).close
    | none => w.initRx
  { w with initWaiter := some i, initRx := Function.update initRx i .empty }

/-- `StopWaiter::register` for call `i`; a sender it replaces is
dropped. -/
def registerStop (w : DapClient) (i : Nat) : DapClient :=
  let stopRx := match w.slot with
    | some j => Function.update w.stopRx j (w.stopRx j).close
    | none => w.stopRx
  { w with slot := some i, stopRx := Function.update stopRx i .empty }

/-- Poll the initialized signal's future for call `i`: is it ready? -/
def pollInitialized (w : DapClient) (i : Nat) : Bool × DapClient :=
  if w.initFired then (true, w) else (false, w.parkInitialized i)

/-- One operation of call `i`. -/
def run {β : Type} (i : Nat) (op : ClientOp β) (a : Reply)
    (w : DapClient) : Option (β × DapClient) :=
  match op, a with
  | .nextSeq, .sync => some (w.seq + 1, { w with seq := w.seq + 1 })
  | .registerPending seq, .sync => some (w.registerPending seq)
  | .removePending seq, .sync => some ((), w.removePending seq)
  | .writeRequest _, .sync => some (.ok, w)
  | .writeRequest _, .fail reached err => some (.failed reached err, w)
  | .writeRequest _, .cancel reached => some (.cancelled reached, w)
  | .recv c, .sync => (w.chans c).recv.map (some ·, w)
  | .recv _, .cancel _ => some (none, w)
  | .pollInitialized, .sync => some (w.pollInitialized i)
  | .recvInitialized, .sync => (w.initRx i).recv.map fun _ => (some (), w)
  | .recvInitialized, .cancel _ => some (none, w)
  | .selectBoth c _, .sync =>
      (w.chans c).recv.map fun r => (some (.response r), w)
  | .selectBoth _ false, .other =>
      match w.pollInitialized i with
      | (true, w') => some (some .initialized, w')
      | (false, w') => some (some .parked, w')
  | .selectBoth _ true, .other =>
      (w.initRx i).recv.map fun _ => (some .initialized, w)
  | .selectBoth _ _, .cancel _ => some (none, w)
  | .registerStop, .sync => some ((), w.registerStop i)
  | .recvStop, .sync => (w.stopRx i).recv.map (some ·, w)
  | .recvStop, .cancel _ => some (none, w)
  | .dropStop, .sync => some ((), { w with
      stopRx := Function.update w.stopRx i (w.stopRx i).drop })
  | _, _ => none

/-- One step of the read loop, whose remaining steps after it are
`rest`. -/
def readerStep (w : DapClient) (k : Nat) (rest : List ReaderOp) :
    ReaderOp → Option DapClient
  | .takePending seq m =>
      match w.pending.lookup seq with
      | some c => some { w with
          pending := w.pending.erase seq
          reader := .sendPending [c] (.ok m) :: rest }
      | none => some { w with reader := rest }
  | .sendPending cs r =>
      match cs[k]? with
      | some c => some { w with
          chans := Function.update w.chans c ((w.chans c).send r)
          reader := .sendPending (cs.eraseIdx k) r :: rest }
      | none => if cs.isEmpty then some { w with reader := rest } else none
  | .drainPending e => some { w with
      pending := ∅
      reader := .sendPending (w.pending.entries.map (·.2)) (.error e)
        :: rest }
  | .takeStop o =>
      match w.slot with
      | some i => some { w with
          slot := none, reader := .sendStop i o :: rest }
      | none => some { w with reader := rest }
  | .sendStop i o => some { w with
      stopRx := Function.update w.stopRx i ((w.stopRx i).send o)
      reader := rest }
  | .signalInitialized => some { w with
      initFired := true
      initWaiter := none
      initRx := match w.initWaiter with
        | some i => Function.update w.initRx i ((w.initRx i).send ())
        | none => w.initRx
      reader := rest }
  | .output c => some { w with
      outputs := w.outputs ++ [c], reader := rest }
  | .recordExit code => some { w with
      lastExit := some code, reader := rest }
  | .fireTerminated => some { w with
      terminated := w.terminated.send w.lastExit, reader := rest }

/-- An environment move. -/
def envMove (w : DapClient) : ClientMove → Option DapClient
  | .frame m =>
      if w.reader.isEmpty && !w.ended then
        some { w with reader := dispatch m }
      else none
  | .eof =>
      if w.reader.isEmpty && !w.ended then
        some { w with reader := recover, ended := true }
      else none
  | .reader k =>
      match w.reader with
      | [] => none
      | op :: rest => w.readerStep k rest op

end DapClient

/-- The client as a machine. -/
def clientMachine : Machine ClientOp Reply ClientMove DapClient where
  run i op a w := w.run i op a
  env e w := w.envMove e

-- ============================================================= callers

/-- The error of a failed write. -/
def writeError (err : String) : BackendError := .send err

/-- `send_async_with_seq`. No guard is armed yet, so a caller dropped at
the write leaves its entry. -/
def sendAsyncWithSeq (request : DapRequest) :
    ClientProg (Option (Except BackendError (ChanId × Int))) := do
  let seq ← client .nextSeq
  let rx ← client (.registerPending seq)
  match ← client (.writeRequest (request.setSeq seq)) with
  | .ok => return some (.ok (rx, seq))
  | .failed _ err =>
      client (.removePending seq)
      return some (.error (writeError err))
  | .cancelled _ => return none

/-- `send_async`. -/
def sendAsync (request : DapRequest) :
    ClientProg (Option (Except BackendError ChanId)) := do
  match ← sendAsyncWithSeq request with
  | none => return none
  | some (.error e) => return some (.error e)
  | some (.ok (rx, _)) => return some (.ok rx)

/-- A sender dropped without sending counts as a closed transport. -/
def pendingResult : Except Unit PendingResult → PendingResult
  | .ok r => r
  | .error () => .error .closed

/-- `send`. The guard is armed before the write, so a caller dropped at
either await removes its entry; a received result disarms it. -/
def send (request : DapRequest) :
    ClientProg (Option PendingResult) := do
  let seq ← client .nextSeq
  let rx ← client (.registerPending seq)
  match ← client (.writeRequest (request.setSeq seq)) with
  | .failed _ err =>
      client (.removePending seq)
      return some (.error (writeError err))
  | .cancelled _ =>
      client (.removePending seq)
      return none
  | .ok =>
  match ← client (.recv rx) with
  | none =>
      client (.removePending seq)
      return none
  | some r => return some (pendingResult r)

/-- `wait_initialized`; a dropped sender counts as resolved. -/
def waitInitialized : ClientProg (Option Unit) := do
  if ← client .pollInitialized then return some ()
  else client .recvInitialized

/-- The loop of `send_and_await_both` once the response has come: only
the signal is awaited. -/
def awaitInitialized (parked : Bool) : ClientProg (Option Unit) :=
  if parked then client .recvInitialized else waitInitialized

/-- A turn of `send_and_await_both`'s loop with neither half in. `again`
is the turn after the signal's waiter is parked, which happens once. -/
def selectTurn (rx : ChanId) (parked : Bool)
    (again : ClientProg (Option PendingResult)) :
    ClientProg (Option PendingResult) := do
  match ← client (.selectBoth rx parked) with
  | none => return none
  | some .parked => again
  | some (.response r) =>
      match ← awaitInitialized parked with
      | none => return none
      | some () => return some (pendingResult r)
  | some .initialized =>
      match ← client (.recv rx) with
      | none => return none
      | some r => return some (pendingResult r)

/-- The loop of `send_and_await_both`. -/
def awaitBoth (rx : ChanId) : ClientProg (Option PendingResult) :=
  selectTurn rx false (selectTurn rx true (return none))

/-- `send_and_await_both`: the guard is armed after the write. -/
def sendAndAwaitBoth (request : DapRequest) :
    ClientProg (Option PendingResult) := do
  match ← sendAsyncWithSeq request with
  | none => return none
  | some (.error e) => return some (.error e)
  | some (.ok (rx, seq)) =>
  match ← awaitBoth rx with
  | none =>
      client (.removePending seq)
      return none
  | some r => return some r

end DebugMcp
