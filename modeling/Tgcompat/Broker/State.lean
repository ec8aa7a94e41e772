import Tgcompat.Broker.Dispatch
import Tgcompat.Library.LinkedQueue

/-!
# The broker: state

The data of `broker_server.c`. Each request inside `dispatch_request` is numbered in order of
arrival, and its number names the waiter on the stack of its worker. The mutex is not modelled:
every transition is a segment of code that runs while it is held. A waiter is *asleep* from the
moment it waits on `state_changed` until the next broadcast.

Processes are part of the state because watching them depends on which exist: a pid has an
incarnation, which counts how often it was handed out, and is running, a zombie or gone.
-/

namespace Tgcompat

@[irreducible] def maxUndoProcesses : ℕ := 1024

/-- A value of `errno`. -/
structure Errno where
  code : Int32
  pos : 0 < code
  deriving DecidableEq

/-- A reading of the monotonic clock. -/
structure Timespec where
  sec : ℤ
  nsec : ℤ
  deriving DecidableEq, Repr

/-! ### Processes and watchers -/

inductive ProcessPhase where
  | running | zombie | gone
  deriving DecidableEq, Repr

structure Process where
  incarnation : ℕ
  phase : ProcessPhase
  deriving DecidableEq, Repr

/-- A slot of `process_watchers`. `incarnation` stands for the descriptor or the inode: both belong
to one incarnation of the pid. -/
structure ProcessWatcher where
  pid : Int32
  active : Bool
  incarnation : ℕ
  deriving DecidableEq, Repr

/-- An unused slot. -/
def ProcessWatcher.free : ProcessWatcher where
  pid := 0
  active := false
  incarnation := 0

/-- What `watch_process` learns about a process: a descriptor from `pidfd_open`, else the inode of
its directory in `/proc`, else an error. -/
inductive ProcessLookup where
  | pidfd
  | procInode
  | failed (error : Errno)
  deriving DecidableEq

/-! ### Requests -/

/-- `struct tgc_waiter` without its link; `deadline` is absent when `has_deadline` is zero. -/
structure Waiter where
  semid : Int32
  semnum : UInt16
  waitForZero : UInt16
  counted : Bool
  deadline : Option Timespec
  deriving DecidableEq, Repr

/-- The stack frame of a request in the wait loop. -/
structure Frame where
  response : ProtocolPacket
  waiter : Waiter
  asleep : Bool

/-- The return statements of `dispatch_request`. -/
inductive Exit where
  /-- the mutex could not be locked -/
  | unlocked
  /-- `watch_process` failed -/
  | unwatched
  /-- the first dispatch returned an error -/
  | rejected
  /-- the first dispatch answered the request -/
  | immediate
  /-- the blocked answer was malformed -/
  | malformed
  /-- no deadline could be computed -/
  | noDeadline
  /-- the waiter could not be counted -/
  | uncounted
  /-- the peer was observed closed -/
  | peerClosed
  /-- a retry answered the request or failed -/
  | retried
  /-- waiting on the condition variable failed -/
  | waitFailed
  /-- the deadline passed -/
  | timedOut
  deriving DecidableEq, Repr

/-- What `dispatch_request` returned and left in the response. -/
structure Outcome where
  ret : Int32
  response : ProtocolPacket
  exit : Exit

inductive Status where
  | waiting (frame : Frame)
  | finished (outcome : Outcome)

structure Request where
  packet : ProtocolPacket
  actor : BrokerActor
  status : Status

/-! ### The broker -/

/-- The state shared by the workers and the monitor. `applied` is not part of the program: it
counts, for each request, how often it was applied to the store. -/
structure Broker where
  store : SemStore
  queue : LinkedQueue ℕ
  watchers : Fin maxUndoProcesses → ProcessWatcher
  requests : ℕ → Option Request
  arrivals : ℕ
  processes : Int32 → Process
  applied : ℕ → ℕ

namespace Broker

/-- `tgc_broker_create`, before any process was started. -/
def create : Broker where
  store := SemStore.create
  queue := LinkedQueue.empty
  watchers := fun _ => ProcessWatcher.free
  requests := fun _ => none
  arrivals := 0
  processes := fun _ => ⟨0, .gone⟩
  applied := fun _ => 0

/-- The frame of a request in the wait loop. -/
def frame? (b : Broker) (r : ℕ) : Option Frame :=
  match b.requests r with
  | some ⟨_, _, .waiting frame⟩ => some frame
  | _ => none

/-- The `semid` field of a waiter. -/
def semid? (b : Broker) (r : ℕ) : Option Int32 :=
  (b.frame? r).map fun frame => frame.waiter.semid

/-- The requests in the wait loop, in order of arrival. -/
def waiting (b : Broker) : List ℕ :=
  (List.range b.arrivals).filter fun r => (b.frame? r).isSome

def setStatus (b : Broker) (r : ℕ) (packet : ProtocolPacket) (actor : BrokerActor)
    (status : Status) : Broker :=
  { b with requests := Function.update b.requests r (some ⟨packet, actor, status⟩) }

end Broker

/-- A sleeping waiter is woken, anything else stays as it is. -/
def Request.wakeUp (q : Request) : Request :=
  match q.status with
  | .waiting frame => { q with status := .waiting { frame with asleep := false } }
  | .finished _ => q

/-- `pthread_cond_broadcast` on `state_changed`. -/
def Broker.broadcast (b : Broker) : Broker :=
  { b with requests := fun r => (b.requests r).map Request.wakeUp }

/-! ### Scans of the request and the watchers -/

/-- `request_uses_undo`. -/
def requestUsesUndo (request : ProtocolPacket) : Bool :=
  match request.opcode with
  | some .semop | some .semtimedop =>
    if request.length < opPrefixSize request then false
    else
      let count := (wireGetU32 request.payload 4).toNat
      if count = 0 ∨ count > semMaxPerSet ∨
          request.length ≠ opPrefixSize request + count * 8 then false
      else
        (List.range count).any fun i =>
          decide ((wireGetU16 request.payload (opPrefixSize request + i * 8 + 4)).toUInt32 &&&
            semUndo ≠ 0)
  | _ => false

/-- The opcodes whose success is announced to the waiters. -/
def Opcode.changesState : Opcode → Bool
  | remove | setval | setall | semop | semtimedop => true
  | _ => false

/-- `operation_changed_state`. -/
def operationChangedState (request response : ProtocolPacket) : Bool :=
  if response.header.result ≠ 0 then false else request.opcode.any Opcode.changesState

/-- Some watcher observes the pid. -/
def Broker.watched (b : Broker) (pid : Int32) : Bool :=
  (Table.firstIndex fun i => (b.watchers i).active && decide ((b.watchers i).pid = pid)).isSome

/-- `watch_process`: the result and the broker. -/
def Broker.watchProcess (b : Broker) (pid : Int32) (lookup : ProcessLookup) : Int32 × Broker :=
  if b.watched pid then (0, b)
  else
    match Table.firstIndex fun i => !(b.watchers i).active with
    | none => (-ENOSPC, b)
    | some i =>
      match lookup with
      | .pidfd | .procInode =>
        (0, Broker.broadcast { b with
          watchers := Function.update b.watchers i ⟨pid, true, (b.processes pid).incarnation⟩ })
      | .failed error => (-error.code, b)

/-! ### Deadlines -/

/-- `compare_timespec` is not negative. -/
def Timespec.reached (now deadline : Timespec) : Bool :=
  if now.sec ≠ deadline.sec then decide (deadline.sec < now.sec)
  else decide (deadline.nsec ≤ now.nsec)

/-- The last time a deadline is meant to have. -/
def lastDeadline : Timespec := ⟨2147483647, 999999999⟩

/-- The arithmetic of `initialize_deadline` on a timeout that has been split: the deadline, and the
sums and differences computed for it. -/
def addTimeout (now : Timespec) (seconds nanoseconds : ℤ) : Timespec × List ℤ :=
  if seconds > 2147483647 then (lastDeadline, [])
  else
    let room := 2147483647 - seconds
    if now.sec > room then (lastDeadline, [room])
    else
      let sec := now.sec + seconds
      let nsec := now.nsec + nanoseconds
      if nsec ≥ 1000000000 then
        let carried := sec + 1
        let rest := nsec - 1000000000
        (⟨carried, rest⟩, [room, sec, nsec, carried, rest])
      else (⟨sec, nsec⟩, [room, sec, nsec])

/-- `initialize_deadline`: the deadline of the waiter, if the request has one. -/
def initializeDeadline (request : ProtocolPacket) (clock : Except Errno Timespec) :
    Except Int32 (Option Timespec) :=
  if request.opcode ≠ some .semtimedop then .ok none
  else
    let timeoutNs := (wireGetI64 request.payload 8).toInt
    if timeoutNs < 0 then .error (-EINVAL)
    else
      match clock with
      | .error error => .error (-error.code)
      | .ok now => .ok (some (addTimeout now (timeoutNs / 1000000000) (timeoutNs % 1000000000)).1)

end Tgcompat
