import Tgcompat.Protocol.Wire
import Tgcompat.Store.Basic

/-!
# Requests as the client encodes them

The request packets that `client.c` builds. A packet is built on the stack: `stack` holds the bytes
found there, and only the first `payload_length` of them are written or sent.
-/

namespace Tgcompat

def requestInit (stack : Buffer) (opcode : Opcode) (payloadLength : ℕ) : ProtocolPacket where
  header := {
    version := protocolVersion
    kind := protocolRequest
    opcode := opcode.code
    requestId := 0
    payloadLength := UInt32.ofNat payloadLength
    result := 0 }
  payload := stack

/-- `request_id` is filled in right before the packet is sent. -/
def ProtocolPacket.withId (p : ProtocolPacket) (id : UInt32) : ProtocolPacket :=
  { p with header := { p.header with requestId := id } }

@[simp] lemma withId_payload (p : ProtocolPacket) (id : UInt32) :
    (p.withId id).payload = p.payload := rfl

def pingRequest (stack : Buffer) : ProtocolPacket := requestInit stack .ping 0

def semgetRequest (stack : Buffer) (key nsems flags : Int32) : ProtocolPacket :=
  let request := requestInit stack .semget 12
  let b := wirePutI32 request.payload 0 key
  let b := wirePutI32 b 4 nsems
  let b := wirePutU32 b 8 flags.toUInt32
  { request with payload := b }

def removeRequest (stack : Buffer) (semid : Int32) : ProtocolPacket :=
  let request := requestInit stack .remove 4
  { request with payload := wirePutI32 request.payload 0 semid }

/-- The packet of `semnum_call`. -/
def semnumRequest (stack : Buffer) (opcode : Opcode) (semid : Int32) (semnum : UInt32) :
    ProtocolPacket :=
  let request := requestInit stack opcode 8
  let b := wirePutI32 request.payload 0 semid
  let b := wirePutU32 b 4 semnum
  { request with payload := b }

def setvalRequest (stack : Buffer) (semid : Int32) (semnum value : UInt32) : ProtocolPacket :=
  let request := requestInit stack .setval 12
  let b := wirePutI32 request.payload 0 semid
  let b := wirePutU32 b 4 semnum
  let b := wirePutU32 b 8 value
  { request with payload := b }

def getallRequest (stack : Buffer) (semid : Int32) (count : ℕ) : ProtocolPacket :=
  let request := requestInit stack .getall 8
  let b := wirePutI32 request.payload 0 semid
  let b := wirePutU32 b 4 (UInt32.ofNat count)
  { request with payload := b }

def setallRequest (stack : Buffer) (semid : Int32) (values : List UInt16) : ProtocolPacket :=
  let request := requestInit stack .setall (8 + values.length * 2)
  let b := wirePutI32 request.payload 0 semid
  let b := wirePutU32 b 4 (UInt32.ofNat values.length)
  let b := values.zipIdx.foldl (fun b value => wirePutU16 b (8 + value.2 * 2) value.1) b
  { request with payload := b }

def statRequest (stack : Buffer) (semid : Int32) : ProtocolPacket :=
  let request := requestInit stack .stat 4
  { request with payload := wirePutI32 request.payload 0 semid }

def statIndexRequest (stack : Buffer) (index : UInt32) : ProtocolPacket :=
  let request := requestInit stack .statIndex 4
  { request with payload := wirePutU32 request.payload 0 index }

def setMetadataRequest (stack : Buffer) (semid : Int32) (uid gid mode : UInt32) :
    ProtocolPacket :=
  let request := requestInit stack .setmeta 16
  let b := wirePutI32 request.payload 0 semid
  let b := wirePutU32 b 4 uid
  let b := wirePutU32 b 8 gid
  let b := wirePutU32 b 12 mode
  { request with payload := b }

def infoRequest (stack : Buffer) (dynamic : Int32) : ProtocolPacket :=
  let request := requestInit stack .info 4
  { request with payload := wirePutU32 request.payload 0 dynamic.toUInt32 }

/-- One operation record of a request. -/
def putOp (b : Buffer) (off : ℕ) (op : SemOp) : Buffer :=
  let b := wirePutU16 b off op.semNum
  let b := wirePutI16 b (off + 2) op.semOp
  let b := wirePutU16 b (off + 4) op.semFlg
  wirePutU16 b (off + 6) 0

/-- The packet of `semop_call`; `timeout` is present for `semtimedop`. -/
def semopRequest (stack : Buffer) (semid : Int32) (operations : List SemOp)
    (timeout : Option Int64) : ProtocolPacket :=
  let prefixSize := if timeout.isSome then 16 else 8
  let opcode := if timeout.isSome then Opcode.semtimedop else Opcode.semop
  let request := requestInit stack opcode (prefixSize + operations.length * 8)
  let b := wirePutI32 request.payload 0 semid
  let b := wirePutU32 b 4 (UInt32.ofNat operations.length)
  let b := match timeout with
    | some ns => wirePutI64 b 8 ns
    | none => b
  let b := operations.zipIdx.foldl (fun b op => putOp b (prefixSize + op.2 * 8) op.1) b
  { request with payload := b }

end Tgcompat
