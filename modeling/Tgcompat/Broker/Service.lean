import Tgcompat.Broker.Responses
import Tgcompat.Client.Connection
import Tgcompat.Client.Interrupt

/-!
# Serving connections

`tgc_broker_serve_connection` runs once for each connection, in a thread of its own. It asks the
kernel who the peer is, and then receives one request at a time, hands it to `dispatch_request` and
sends the response. All workers share one broker. A service is the broker with its workers; its
events are the steps of the workers in any order, and the events of the broker other than arrivals:
a request arrives because a worker has received it.

The stream of a connection is everything that its peer writes before the end. Receiving and sending
touch nothing but the connection, so each of them is one event.
-/

namespace Tgcompat

/-! ### Credentials -/

/-- `struct ucred`. -/
structure Ucred where
  pid : Int32
  uid : UInt32
  gid : UInt32
  deriving DecidableEq, Repr

def sizeofUcred : ℕ := 12

/-- `tgc_transport_get_credentials`. `peer` is what `getsockopt` reports: an error, or the
credentials with the length that it has filled in. -/
def transportGetCredentials (peer : Except Errno (ℕ × Ucred)) (expectedUid : UInt32) :
    Except Int32 Ucred :=
  match peer with
  | .error error => .error (-error.code)
  | .ok (length, credentials) =>
    if length ≠ sizeofUcred ∨ credentials.pid ≤ 0 ∨ credentials.uid ≠ expectedUid then
      .error (-EACCES)
    else .ok credentials

/-- The actor of the requests of a peer. Its fields are as wide as those of the credentials, so the
check for `EOVERFLOW` never fires. -/
def Ucred.actor (credentials : Ucred) : BrokerActor where
  pid := credentials.pid
  identity := ⟨credentials.uid, credentials.gid⟩

/-! ### Workers -/

/-- A request with its number in the broker and the response to it. -/
structure Exchange where
  number : ℕ
  request : ProtocolPacket
  response : ProtocolPacket

/-- Where a worker is in its loop. -/
inductive Phase where
  /-- about to receive a request -/
  | receiving
  /-- a request was received -/
  | received (request : ProtocolPacket)
  /-- inside `dispatch_request`, with the number of the request -/
  | dispatched (r : ℕ) (request : ProtocolPacket)
  /-- `dispatch_request` has returned zero -/
  | answering (exchange : Exchange)
  | returned (result : Int32)

/-- `tgc_broker_serve_connection` after the peer was accepted. `unread` is the part of the stream
that was not received yet, `sent` are the bytes handed to the kernel. `numbers` and `answered` are
not part of the program: the requests that went to the broker, and those whose responses were
sent. -/
structure Worker where
  actor : BrokerActor
  stream : List UInt8
  unread : List UInt8
  sent : List UInt8
  numbers : List ℕ
  answered : List Exchange
  phase : Phase

namespace Worker

def start (actor : BrokerActor) (stream : List UInt8) : Worker :=
  ⟨actor, stream, stream, [], [], [], .receiving⟩

/-- Where the loop goes after `tgc_transport_receive`. -/
def afterReceive (received : PacketReceipt) : Phase :=
  if received.result = transportEof then .returned 0
  else if received.result ≠ 0 then .returned received.result
  else if received.packet.header.kind ≠ protocolRequest then .returned (-EPROTO)
  else .received received.packet

/-- The call of `tgc_transport_receive`; `wireHeader` and `request` are what its variables hold. -/
def receive (w : Worker) (wireHeader : Buffer) (request : ProtocolPacket) (recvs : List Cut) :
    Option Worker :=
  match w.phase with
  | .receiving =>
    (transportReceive wireHeader request w.unread recvs).map fun received =>
      { w with unread := received.stream, phase := afterReceive received }
  | _ => none

/-- The return of `dispatch_request`. -/
def finish (w : Worker) (b : Broker) : Option Worker :=
  match w.phase with
  | .dispatched r request =>
    match b.requests r with
    | some ⟨_, _, .finished outcome⟩ =>
      some { w with
        phase := if outcome.ret ≠ 0 then .returned outcome.ret
          else .answering ⟨r, request, outcome.response⟩ }
    | _ => none
  | _ => none

/-- The call of `tgc_transport_send`; `wire` is what its variable holds. -/
def answer (w : Worker) (wire : Buffer) (sends : List Cut) : Option Worker :=
  match w.phase with
  | .answering exchange =>
    (transportSend wire exchange.response sends).map fun (receipt : SendReceipt) =>
      { w with
        sent := w.sent ++ receipt.bytes
        answered := if receipt.result = 0 then w.answered ++ [exchange] else w.answered
        phase := if receipt.result ≠ 0 then .returned receipt.result else .receiving }
  | _ => none

end Worker

/-! ### The service -/

/-- The broker and the workers, one for each connection that was accepted. -/
structure Service where
  broker : Broker
  workers : ℕ → Option Worker
  accepted : ℕ

namespace Service

def create : Service := ⟨.create, fun _ => none, 0⟩

inductive Event where
  | accept (peer : Except Errno (ℕ × Ucred)) (stream : List UInt8)
  | receive (c : ℕ) (wireHeader : Buffer) (request : ProtocolPacket) (recvs : List Cut)
  | dispatch (c : ℕ) (view : Broker.ArrivalView)
  | finish (c : ℕ)
  | answer (c : ℕ) (wire : Buffer) (sends : List Cut)
  | broker (event : Broker.Event)

def setWorker (s : Service) (c : ℕ) (w : Worker) : Service :=
  { s with workers := Function.update s.workers c (some w) }

/-- A peer that is not accepted gets no worker: the call returns the error at once. -/
def accept (s : Service) (uid : UInt32) (peer : Except Errno (ℕ × Ucred)) (stream : List UInt8) :
    Service :=
  match transportGetCredentials peer uid with
  | .error _ => { s with accepted := s.accepted + 1 }
  | .ok credentials =>
    { s.setWorker s.accepted (.start credentials.actor stream) with accepted := s.accepted + 1 }

/-- A worker enters `dispatch_request` with the request that it has received. -/
def dispatch (s : Service) (c : ℕ) (view : Broker.ArrivalView) : Option Service :=
  (s.workers c).bind fun w =>
    match w.phase with
    | .received request =>
      (s.broker.arrive request w.actor view).map fun b =>
        { s.setWorker c { w with
            numbers := w.numbers ++ [s.broker.arrivals]
            phase := .dispatched s.broker.arrivals request } with broker := b }
    | _ => none

def isArrival : Broker.Event → Bool
  | .arrive _ _ _ => true
  | _ => false

/-- A step of the service of a broker that accepts peers with the user id `uid`. -/
def step (uid : UInt32) (s : Service) : Event → Option Service
  | .accept peer stream => some (s.accept uid peer stream)
  | .receive c wireHeader request recvs =>
    (s.workers c).bind fun w => (w.receive wireHeader request recvs).map (s.setWorker c)
  | .dispatch c view => s.dispatch c view
  | .finish c => (s.workers c).bind fun w => (w.finish s.broker).map (s.setWorker c)
  | .answer c wire sends => (s.workers c).bind fun w => (w.answer wire sends).map (s.setWorker c)
  | .broker event =>
    if isArrival event then none else (s.broker.step event).map fun b => { s with broker := b }

def Reachable (uid : UInt32) (s : Service) : Prop :=
  ∃ events, Transition.exec (step uid) create events = some s

end Service

end Tgcompat
