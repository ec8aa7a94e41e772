import Tgcompat.Broker.State
import Tgcompat.Library.Transition

/-!
# The broker: transitions

`dispatch_request` and `monitor_process_exits` of `broker_server.c` as transitions of the shared
state. A transition is a segment of code that holds the mutex: the arrival of a request up to its
first sleep or its return, one wake-up of a waiter up to its next sleep or its return, and one
scan of the monitor. What the code learns from the system (clock readings, errors, whether the
peer has closed, which processes have exited) is part of the event. Starting, ending and reaping
a process are events of the environment; a connection may stay open when its process has ended.

Following the `next` pointers takes fuel, one unit for each request that ever arrived.
-/

namespace Tgcompat

/-! ### Applying a request -/

/-- A dispatch of the packet reaches the commit of `tryop`: every check has passed and the store
is about to be written. -/
def commits (st : SemStore) (request : ProtocolPacket) (actor : BrokerActor) : Bool :=
  decide (0 < actor.pid) && request.isRequest && request.opcode.any Opcode.isSemop &&
    match decodeSemop request with
    | .ok (semid, operations) => (st.planTryop semid operations actor.pid).toBool
    | .error _ => false

namespace Broker

/-- The counts after a dispatch for request `r`. -/
def countApplied (b : Broker) (r : ℕ) (request : ProtocolPacket) (actor : BrokerActor) : ℕ → ℕ :=
  if commits b.store request actor then Function.update b.applied r (b.applied r + 1)
  else b.applied

/-- `tgc_broker_dispatch` on the store of the broker, for request `r`. -/
def dispatch (b : Broker) (r : ℕ) (request : ProtocolPacket) (actor : BrokerActor)
    (env : DispatchEnv) (response : ProtocolPacket) : Int32 × ProtocolPacket × Broker :=
  let (ret, response', st) := brokerDispatch b.store request actor env response
  (ret, response', { b with store := st, applied := b.countApplied r request actor })

/-! ### Leaving the wait loop -/

/-- `finish_waiter`: unlink the waiter and take it out of its counter. -/
def finishWaiter (b : Broker) (r : ℕ) (waiter : Waiter) : Option Broker := do
  let queue ← b.queue.remove b.arrivals r
  let store := if waiter.counted then
    (b.store.adjustWaitCount waiter.semid waiter.semnum.toNat (waiter.waitForZero ≠ 0) (-1)).2
    else b.store
  return { b with queue := queue, store := store }

/-- The exits of the wait loop: finish the waiter, broadcast, return. -/
def leave (b : Broker) (r : ℕ) (packet : ProtocolPacket) (actor : BrokerActor) (waiter : Waiter)
    (outcome : Outcome) : Option Broker := do
  let b' ← b.finishWaiter r waiter
  return (b'.setStatus r packet actor (.finished outcome)).broadcast

/-- `waiter_is_first_for_set`. -/
def waiterIsFirstForSet (b : Broker) (r : ℕ) (semid : Int32) : Option Bool := do
  let answer ← LinkedQueue.walk b.queue.next
    (fun current =>
      if current = r then some true
      else if b.semid? current = some semid then some false
      else none)
    b.arrivals b.queue.head
  return answer.getD false

/-! ### One iteration of the wait loop -/

/-- What an iteration learns: whether the peer has closed, the environment of a retry, and whether
reading the clock for the next wait fails. -/
structure IterationView where
  peerClosed : Bool
  env : DispatchEnv
  clockError : Option Errno

/-- Wait on `state_changed`, which first has to read the clock. -/
def sleep (b : Broker) (r : ℕ) (packet : ProtocolPacket) (actor : BrokerActor) (frame : Frame)
    (view : IterationView) : Option Broker :=
  match view.clockError with
  | some error => b.leave r packet actor frame.waiter ⟨-error.code, frame.response, .waitFailed⟩
  | none => some (b.setStatus r packet actor (.waiting { frame with asleep := true }))

/-- The body of the wait loop up to the wait. -/
def iterate (b : Broker) (r : ℕ) (packet : ProtocolPacket) (actor : BrokerActor) (frame : Frame)
    (view : IterationView) : Option Broker :=
  if view.peerClosed then
    b.leave r packet actor frame.waiter ⟨0, frame.response, .peerClosed⟩
  else do
    let first ← b.waiterIsFirstForSet r frame.waiter.semid
    if first then
      let (ret, response, b') := b.dispatch r packet actor view.env frame.response
      if ret ≠ 0 ∨ response.header.result ≠ semOpBlocked then
        b'.leave r packet actor frame.waiter ⟨ret, response, .retried⟩
      else b'.sleep r packet actor { frame with response := response } view
    else b.sleep r packet actor frame view

/-! ### Arrival -/

def prepareErrorResponse (request response : ProtocolPacket) (result : Int32) : ProtocolPacket :=
  { response with
    header := {
      version := protocolVersion
      kind := protocolResponse
      opcode := request.header.opcode
      requestId := request.header.requestId
      payloadLength := 0
      result := result } }

/-- What an arrival learns. `response` is the packet on the stack of the worker. -/
structure ArrivalView where
  lockError : Option Errno
  lookup : ProcessLookup
  env : DispatchEnv
  response : ProtocolPacket
  clock : Except Errno Timespec
  iteration : IterationView

/-- A lookup succeeds only for an existing process. -/
def lookupSound (b : Broker) (pid : Int32) : ProcessLookup → Bool
  | .failed _ => true
  | _ => decide ((b.processes pid).phase ≠ .gone)

/-- The waiter a blocked answer asks for, before its deadline is known. -/
def waiterOf (request response : ProtocolPacket) : Waiter where
  semid := wireGetI32 request.payload 0
  semnum := if response.length = 8 then wireGetU16 response.payload 0 else 0xffff
  waitForZero := if response.length = 8 then wireGetU16 response.payload 2 else 0xffff
  counted := false
  deadline := none

/-- The part of `dispatch_request` after a blocked first dispatch. -/
def enterWait (b : Broker) (r : ℕ) (packet : ProtocolPacket) (actor : BrokerActor)
    (response : ProtocolPacket) (view : ArrivalView) : Option Broker :=
  let finish (ret : Int32) (exit : Exit) : Option Broker :=
    some (b.setStatus r packet actor (.finished ⟨ret, response, exit⟩))
  let waiter := waiterOf packet response
  if response.length ≠ 8 ∨ waiter.waitForZero > 1 ∨ wireGetU32 response.payload 4 ≠ 0 then
    finish (-EPROTO) .malformed
  else
    match initializeDeadline packet view.clock with
    | .error result => finish result .noDeadline
    | .ok deadline =>
      let (result, store) :=
        b.store.adjustWaitCount waiter.semid waiter.semnum.toNat (waiter.waitForZero ≠ 0) 1
      if result ≠ 0 then finish result .uncounted
      else
        let frame : Frame :=
          ⟨response, { waiter with counted := true, deadline := deadline }, false⟩
        let b' := { b with store := store, queue := b.queue.enqueue r }
        (b'.setStatus r packet actor (.waiting frame)).iterate r packet actor frame view.iteration

/-- The part of `dispatch_request` from the first dispatch on. -/
def firstDispatch (b : Broker) (r : ℕ) (packet : ProtocolPacket) (actor : BrokerActor)
    (view : ArrivalView) : Option Broker :=
  let (ret, response, b') := b.dispatch r packet actor view.env view.response
  if ret ≠ 0 then some (b'.setStatus r packet actor (.finished ⟨ret, response, .rejected⟩))
  else if packet.opcode.any Opcode.isSemop = false ∨ response.header.result ≠ semOpBlocked then
    let b'' := if operationChangedState packet response then b'.broadcast else b'
    some (b''.setStatus r packet actor (.finished ⟨0, response, .immediate⟩))
  else b'.enterWait r packet actor response view

/-- `dispatch_request` from its call to the first sleep or the return. -/
def arrive (b : Broker) (packet : ProtocolPacket) (actor : BrokerActor) (view : ArrivalView) :
    Option Broker :=
  let r := b.arrivals
  let b := { b with arrivals := r + 1 }
  let finish (b : Broker) (ret : Int32) (response : ProtocolPacket) (exit : Exit) :=
    some (b.setStatus r packet actor (.finished ⟨ret, response, exit⟩))
  match view.lockError with
  | some error => finish b (-error.code) view.response .unlocked
  | none =>
    if requestUsesUndo packet then
      if b.lookupSound actor.pid view.lookup = false then none
      else
        let (result, b') := b.watchProcess actor.pid view.lookup
        if result ≠ 0 then
          finish b' 0 (prepareErrorResponse packet view.response result) .unwatched
        else b'.firstDispatch r packet actor view
    else b.firstDispatch r packet actor view

/-! ### Wake-up -/

/-- What a wake-up learns: an error of the wait, and the time if the waiter has a deadline. -/
structure WakeView where
  waitError : Option Errno
  clock : Except Errno Timespec
  iteration : IterationView

/-- The answer to a request whose deadline passed. -/
def timeoutResponse (response : ProtocolPacket) : ProtocolPacket :=
  { response with header := { response.header with result := -EAGAIN, payloadLength := 0 } }

/-- The wait loop from the return of the wait to the next sleep or the return. -/
def wake (b : Broker) (r : ℕ) (view : WakeView) : Option Broker :=
  match b.requests r with
  | some ⟨packet, actor, .waiting frame⟩ =>
    let leave (ret : Int32) (response : ProtocolPacket) (exit : Exit) :=
      b.leave r packet actor frame.waiter ⟨ret, response, exit⟩
    match view.waitError with
    | some error => leave (-error.code) frame.response .waitFailed
    | none =>
      match frame.waiter.deadline with
      | none => b.iterate r packet actor frame view.iteration
      | some deadline =>
        match view.clock with
        | .error error => leave (-error.code) frame.response .waitFailed
        | .ok now =>
          if now.reached deadline then leave 0 (timeoutResponse frame.response) .timedOut
          else b.iterate r packet actor frame view.iteration
  | _ => none

/-! ### The monitor -/

/-- The incarnation a watcher looks at has ended. -/
def hasExited (b : Broker) (watcher : ProcessWatcher) : Bool :=
  decide ((b.processes watcher.pid).incarnation ≠ watcher.incarnation ∨
    (b.processes watcher.pid).phase ≠ .running)

/-- One iteration of the scan, at a slot whose process was found to have exited or not. -/
def scanWatcher (exited : Fin maxUndoProcesses → Bool)
    (now : Fin maxUndoProcesses → Fin semMaxUndoEntries → Int64) (b : Broker)
    (i : Fin maxUndoProcesses) : Broker :=
  if (b.watchers i).active = false ∨ exited i = false then b
  else
    let (changed, store) := b.store.processExit (b.watchers i).pid (now i)
    let b' := { b with
      store := store
      watchers := Function.update b.watchers i ProcessWatcher.free }
    if changed > 0 then b'.broadcast else b'

/-- One scan of the monitor. Only a process that has ended is found to have exited. -/
def scan (b : Broker) (exited : Fin maxUndoProcesses → Bool)
    (now : Fin maxUndoProcesses → Fin semMaxUndoEntries → Int64) : Option Broker :=
  if (List.finRange maxUndoProcesses).all fun i =>
      !(b.watchers i).active || !exited i || b.hasExited (b.watchers i) then
    some ((List.finRange maxUndoProcesses).foldl (scanWatcher exited now) b)
  else none

/-! ### Processes -/

/-- Move a process from one phase to the next. -/
def moveProcess (b : Broker) (pid : Int32) (source target : ProcessPhase) (incarnation : ℕ) :
    Option Broker :=
  if (b.processes pid).phase = source then
    some { b with processes := Function.update b.processes pid ⟨incarnation, target⟩ }
  else none

/-- The transitions of the broker and its environment. -/
inductive Event where
  | arrive (packet : ProtocolPacket) (actor : BrokerActor) (view : ArrivalView)
  | wake (r : ℕ) (view : WakeView)
  | scan (exited : Fin maxUndoProcesses → Bool)
      (now : Fin maxUndoProcesses → Fin semMaxUndoEntries → Int64)
  | startProcess (pid : Int32)
  | endProcess (pid : Int32)
  | reapProcess (pid : Int32)

def step (b : Broker) : Event → Option Broker
  | .arrive packet actor view => b.arrive packet actor view
  | .wake r view => b.wake r view
  | .scan exited now => b.scan exited now
  | .startProcess pid => b.moveProcess pid .gone .running ((b.processes pid).incarnation + 1)
  | .endProcess pid => b.moveProcess pid .running .zombie (b.processes pid).incarnation
  | .reapProcess pid => b.moveProcess pid .zombie .gone (b.processes pid).incarnation

/-- The states of every run from a new broker. -/
def Reachable (b : Broker) : Prop :=
  ∃ events, Transition.exec step create events = some b

end Broker

end Tgcompat
