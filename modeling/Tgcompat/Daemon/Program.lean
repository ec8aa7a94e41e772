import Tgcompat.Broker.Service
import Tgcompat.Exec.Elf
import Tgcompat.Library.Concurrent

/-!
# The daemon

`tgcompatd.c` and the part of `transport.c` that opens sockets, as programs that make system calls.
The daemon creates its socket, serves each connection in a thread of its own from a table of 64
workers, and takes everything down again when a signal arrives or something fails. Messages on the
standard error are left out.
-/

namespace Tgcompat

def ENOTDIR : Int32 := 20
def EADDRINUSE : Int32 := 98

def maxClients : ℕ := 64

/-- The size of `sun_path`. -/
def sunPathSize : ℕ := 108

/-! ### Calls -/

inductive FileKind where
  | directory
  | socket
  | other
  deriving DecidableEq, Repr

/-- What `lstat` tells that the code looks at. -/
structure FileStatus where
  kind : FileKind
  uid : UInt32
  mode : UInt32
  deriving DecidableEq, Repr

/-- The result of `poll` for one descriptor: `POLLIN`, and any of `POLLERR`, `POLLHUP` and
`POLLNVAL`. -/
structure Revents where
  input : Bool
  failed : Bool
  deriving DecidableEq, Repr

/-- `read` of the signal descriptor. -/
inductive SignalRead where
  | complete
  | again
  | failed
  deriving DecidableEq, Repr

/-- `struct client_worker`. All workers have the same broker. -/
structure ClientWorker where
  thread : ℕ
  expectedUid : UInt32
  socketFd : ℕ
  result : Int32
  done : Bool
  active : Bool
  deriving DecidableEq, Repr

namespace Daemon

inductive Call where
  | geteuid
  | createSignalFd
  | mkdir (path : CString) (mode : UInt32)
  | lstat (path : CString)
  | socket
  | umask (mask : UInt32)
  | bind (fd : ℕ) (path : CString)
  | chmod (path : CString) (mode : UInt32)
  | listen (fd : ℕ)
  | connect (fd : ℕ) (path : CString)
  | getPeerCredentials (fd : ℕ)
  | close (fd : ℕ)
  | unlink (path : CString)
  /-- a client uses its connection -/
  | exchange (fd : ℕ)
  | brokerCreate
  | brokerDestroy
  | attrInit
  | attrSetStackSize
  | attrDestroy
  | poll
  | readSignal (fd : ℕ)
  | accept (fd : ℕ)
  /-- `tgc_broker_serve_connection` is entered, and returns -/
  | serveBegin (fd : ℕ) (expectedUid : UInt32)
  | serveEnd (fd : ℕ)
  /-- the fields of a worker are read -/
  | load (slot : Fin maxClients)
  /-- the fields of a worker are set for a new connection -/
  | claim (slot : Fin maxClients) (fd : ℕ) (expectedUid : UInt32)
  | spawn (slot : Fin maxClients)
  | release (slot : Fin maxClients)
  | join (thread : ℕ)
  | shutdown (fd : ℕ)
  /-- a new thread gets its argument -/
  | started
  | storeResult (slot : Fin maxClients) (result : Int32)
  | storeDone (slot : Fin maxClients)
  /-- the thread returns -/
  | ended
  | exit (code : UInt32)

@[reducible] def Answer : Call → Type
  | .geteuid => UInt32
  | .createSignalFd | .socket | .accept _ => Except Errno ℕ
  | .mkdir _ _ | .bind _ _ | .chmod _ _ | .listen _ | .connect _ _ | .unlink _ => Option Errno
  | .attrInit | .attrSetStackSize | .spawn _ => Option Errno
  | .lstat _ => Except Errno FileStatus
  | .umask _ => UInt32
  | .getPeerCredentials _ => Except Errno (ℕ × Ucred)
  | .brokerCreate => Bool
  | .poll => Except Errno (Revents × Revents)
  | .readSignal _ => SignalRead
  | .serveEnd _ => Int32
  | .load _ => ClientWorker
  | .started => Fin maxClients
  | _ => Unit

abbrev Prog (α : Type) := Concurrent.Prog Call Answer α

/-- Make a call. -/
def sys (c : Call) : Prog (Answer c) := Concurrent.Prog.perform c

/-- The error of a call, unless it is one that is tolerated. -/
def except (tolerated : Int32) (result : Option Errno) : Option Errno :=
  result.filter fun error => error.code ≠ tolerated

/-! ### Sockets -/

/-- The position of the last slash. -/
def lastSlash (path : CString) : Option ℕ :=
  (List.range path.length).findRev? fun n => charAt path n == slash

def runtimeDirectory (socketPath : Option CString) : Except Int32 CString :=
  match socketPath with
  | none => .error (-EINVAL)
  | some path =>
    if charAt path 0 ≠ slash then .error (-EINVAL)
    else if path.length = 0 ∨ path.length ≥ pathMax ∨ path.length ≥ sunPathSize then
      .error (-ENAMETOOLONG)
    else
      match lastSlash path with
      | none => .error (-EINVAL)
      | some separator =>
        if separator = 0 ∨ charAt path (separator + 1) = 0 then .error (-EINVAL)
        else .ok (path.take separator)

def validateRuntimeDirectory (path : CString) (expectedUid : UInt32) : Prog Int32 := do
  match ← sys (.lstat path) with
  | .error error => return -error.code
  | .ok status =>
    if status.kind ≠ .directory then return -ENOTDIR
    else if status.uid ≠ expectedUid ∨ status.mode &&& 0o777 ≠ 0o700 then return -EPERM
    else return 0

/-- The socket was bound, and something fails. -/
def abandon (fd : ℕ) (socketPath : CString) (result : Int32) : Prog (Except Int32 ℕ) := do
  sys (.close fd)
  let _ ← sys (.unlink socketPath)
  return .error result

/-- `tgc_transport_listen` once the socket is bound. -/
def finishListener (fd : ℕ) (socketPath : CString) (expectedUid : UInt32) :
    Prog (Except Int32 ℕ) := do
  match ← sys (.chmod socketPath 0o600) with
  | some error => abandon fd socketPath (-error.code)
  | none =>
    match ← sys (.lstat socketPath) with
    | .error error => abandon fd socketPath (-error.code)
    | .ok created =>
      if created.kind ≠ .socket ∨ created.uid ≠ expectedUid ∨ created.mode &&& 0o777 ≠ 0o600 then
        abandon fd socketPath (-EPERM)
      else
        match ← sys (.listen fd) with
        | some error => abandon fd socketPath (-error.code)
        | none => return .ok fd

/-- `tgc_transport_listen` once there is a socket. -/
def bindListener (fd : ℕ) (socketPath : CString) (expectedUid : UInt32) :
    Prog (Except Int32 ℕ) := do
  let oldMask ← sys (.umask 0o077)
  let bound ← sys (.bind fd socketPath)
  let _ ← sys (.umask oldMask)
  match bound with
  | some error =>
    sys (.close fd)
    return .error (-error.code)
  | none => finishListener fd socketPath expectedUid

/-- `tgc_transport_listen` once the directory is there. -/
def listenIn (directory socketPath : CString) (expectedUid : UInt32) :
    Prog (Except Int32 ℕ) := do
  let result ← validateRuntimeDirectory directory expectedUid
  if result ≠ 0 then return .error result
  else
    match ← sys (.lstat socketPath) with
    | .ok _ => return .error (-EADDRINUSE)
    | .error error =>
      if error.code ≠ ENOENT then return .error (-error.code)
      else
        match ← sys .socket with
        | .error error => return .error (-error.code)
        | .ok fd => bindListener fd socketPath expectedUid

def transportListen (socketPath : CString) (expectedUid : UInt32) : Prog (Except Int32 ℕ) :=
  match runtimeDirectory (some socketPath) with
  | .error result => return .error result
  | .ok directory => do
    match except EEXIST (← sys (.mkdir directory 0o700)) with
    | some error => return .error (-error.code)
    | none => listenIn directory socketPath expectedUid

/-- `tgc_transport_connect` once there is a socket. -/
def connectSocket (fd : ℕ) (socketPath : CString) (expectedUid : UInt32) :
    Prog (Except Int32 ℕ) := do
  match ← sys (.connect fd socketPath) with
  | some error =>
    sys (.close fd)
    return .error (-error.code)
  | none =>
    match transportGetCredentials (← sys (.getPeerCredentials fd)) expectedUid with
    | .error result =>
      sys (.close fd)
      return .error result
    | .ok _ => return .ok fd

def transportConnect (socketPath : CString) (expectedUid : UInt32) : Prog (Except Int32 ℕ) :=
  match runtimeDirectory (some socketPath) with
  | .error result => return .error result
  | .ok directory => do
    let result ← validateRuntimeDirectory directory expectedUid
    if result ≠ 0 then return .error result
    else
      match ← sys (.lstat socketPath) with
      | .error error => return .error (-error.code)
      | .ok status =>
        if status.kind ≠ .socket ∨ status.uid ≠ expectedUid ∨ status.mode &&& 0o777 ≠ 0o600 then
          return .error (-EPERM)
        else
          match ← sys .socket with
          | .error error => return .error (-error.code)
          | .ok fd => connectSocket fd socketPath expectedUid

/-! ### Workers -/

/-- The variables of `main` that its loop uses. -/
structure Locals where
  socketPath : CString
  once : Bool
  signalFd : ℕ
  listenerFd : ℕ
  uid : UInt32
  deriving DecidableEq, Repr

/-- Where the threads of a daemon go on: at the start of the program, in its loop, and at the start
of a worker. -/
inductive Label where
  | main
  | loop (locals : Locals)
  | worker

/-- `tgc_broker_serve_connection`. -/
def serveConnection (fd : ℕ) (expectedUid : UInt32) : Prog Int32 := do
  sys (.serveBegin fd expectedUid)
  sys (.serveEnd fd)

/-- `serve_client`. -/
def serveClient : Prog (Option Label) := do
  let slot ← sys .started
  let worker ← sys (.load slot)
  let result ← serveConnection worker.socketFd worker.expectedUid
  sys (.storeResult slot result)
  let worker ← sys (.load slot)
  sys (.close worker.socketFd)
  sys (.storeDone slot)
  sys .ended
  return none

def isNormalClientDisconnect (result : Int32) : Bool :=
  result == -EPIPE || result == -ECONNRESET

def reapFinishedWorkers : List (Fin maxClients) → Prog Unit
  | [] => return
  | slot :: slots => do
    let worker ← sys (.load slot)
    if worker.active = false ∨ worker.done = false then reapFinishedWorkers slots
    else
      sys (.join worker.thread)
      sys (.release slot)
      reapFinishedWorkers slots

def firstInactive : List (Fin maxClients) → Prog (Option (Fin maxClients))
  | [] => return none
  | slot :: slots => do
    let worker ← sys (.load slot)
    if worker.active = false then return some slot else firstInactive slots

def availableWorker : Prog (Option (Fin maxClients)) := do
  reapFinishedWorkers (List.finRange maxClients)
  firstInactive (List.finRange maxClients)

/-- The first loop of `stop_and_join_workers`. -/
def stopWorkers : List (Fin maxClients) → Prog Unit
  | [] => return
  | slot :: slots => do
    let worker ← sys (.load slot)
    if worker.active then
      sys (.shutdown worker.socketFd)
      stopWorkers slots
    else stopWorkers slots

/-- The second loop of `stop_and_join_workers`. -/
def joinWorkers : List (Fin maxClients) → Prog Unit
  | [] => return
  | slot :: slots => do
    let worker ← sys (.load slot)
    if worker.active then
      sys (.join worker.thread)
      sys (.release slot)
      joinWorkers slots
    else joinWorkers slots

/-! ### `main` -/

def exitSuccess : UInt32 := 0
def exitFailure : UInt32 := 1

def exitWith (code : UInt32) : Prog (Option Label) := do
  sys (.exit code)
  return none

/-- What the arguments ask for: to leave at once, or to serve. -/
inductive Options where
  | leave (code : UInt32)
  | serve (socketPath : CString) (once : Bool)
  deriving DecidableEq, Repr

def onceOption : CString := cstr "--once"
def socketOption : CString := cstr "--socket"
def helpOption : CString := cstr "--help"

/-- The loop over the arguments behind the name of the program, and the check of the path. -/
def parseOptions (socketPath : Option CString) (once : Bool) : List CString → Options
  | [] =>
    match socketPath with
    | none | some [] => .leave exitFailure
    | some path => .serve path once
  | argument :: arguments =>
    if argument = onceOption then parseOptions socketPath true arguments
    else
      match arguments with
      | value :: arguments =>
        if argument = socketOption then parseOptions (some value) once arguments
        else .leave (if argument = helpOption then exitSuccess else exitFailure)
      | [] => .leave (if argument = helpOption then exitSuccess else exitFailure)

/-- The code behind the loop. -/
def finish (l : Locals) (failed : Bool) : Prog (Option Label) := do
  sys .attrDestroy
  sys (.close l.listenerFd)
  sys (.close l.signalFd)
  stopWorkers (List.finRange maxClients)
  joinWorkers (List.finRange maxClients)
  sys .brokerDestroy
  let removed ← sys (.unlink l.socketPath)
  exitWith (if failed = true ∨ (except ENOENT removed).isSome then exitFailure else exitSuccess)

/-- The part of the loop for a connection that a worker is to serve. -/
def serveInWorker (l : Locals) (clientFd : ℕ) : Prog (Option Label) := do
  match ← availableWorker with
  | none =>
    sys (.close clientFd)
    return some (.loop l)
  | some slot =>
    sys (.claim slot clientFd l.uid)
    match ← sys (.spawn slot) with
    | some _ =>
      sys (.release slot)
      sys (.close clientFd)
      return some (.loop l)
    | none => return some (.loop l)

/-- One turn of the loop over `poll`. -/
def pollLoop (l : Locals) : Prog (Option Label) := do
  match ← sys .poll with
  | .error error => if error.code = EINTR then return some (.loop l) else finish l true
  | .ok (signal, listener) =>
    if signal.input then
      let got ← sys (.readSignal l.signalFd)
      finish l (got = .failed)
    else if signal.failed || listener.failed then finish l true
    else if listener.input = false then return some (.loop l)
    else
      match ← sys (.accept l.listenerFd) with
      | .error error => if error.code = EINTR then return some (.loop l) else finish l true
      | .ok clientFd =>
        if l.once then
          let result ← serveConnection clientFd l.uid
          sys (.close clientFd)
          finish l (result ≠ 0 ∧ isNormalClientDisconnect result = false)
        else serveInWorker l clientFd

/-- The setup fails after the broker was created. -/
def abortSetup (l : Locals) (attributes : Bool) : Prog (Option Label) := do
  if attributes then sys .attrDestroy
  sys .brokerDestroy
  sys (.close l.listenerFd)
  sys (.close l.signalFd)
  let _ ← sys (.unlink l.socketPath)
  exitWith exitFailure

/-- The setup once the socket listens. -/
def setUp (l : Locals) : Prog (Option Label) := do
  if ← sys .brokerCreate then
    match ← sys .attrInit with
    | some _ => abortSetup l false
    | none =>
      match ← sys .attrSetStackSize with
      | some _ => abortSetup l true
      | none => return some (.loop l)
  else
    sys (.close l.listenerFd)
    sys (.close l.signalFd)
    let _ ← sys (.unlink l.socketPath)
    exitWith exitFailure

/-- `main`, with what `getenv` finds and the arguments behind the name of the program. -/
def main (socketVariable : Option CString) (arguments : List CString) : Prog (Option Label) :=
  match parseOptions socketVariable false arguments with
  | .leave code => exitWith code
  | .serve socketPath once => do
    match ← sys .createSignalFd with
    | .error _ => exitWith exitFailure
    | .ok signalFd =>
      let uid ← sys .geteuid
      match ← transportListen socketPath uid with
      | .error _ =>
        sys (.close signalFd)
        exitWith exitFailure
      | .ok listenerFd => setUp ⟨socketPath, once, signalFd, listenerFd, uid⟩

end Daemon

end Tgcompat
