import Tgcompat.Client.Requests
import Tgcompat.Protocol.Transport

/-!
# The calls of the client

Each function of `client.c` that asks the broker for something checks its arguments, builds a
request, exchanges it for a response and decodes that. Here are the first and the last part of
them; a call is a value of `ClientCall`. Pointer arguments are valid, an array and its length are a
list, and what a call stores through an output pointer is part of its reply.
-/

namespace Tgcompat

def ECONNRESET : Int32 := 104

def uint32Max : ℕ := 4294967295

inductive ClientCall where
  | ping
  | semget (key nsems flags : Int32)
  | remove (semid : Int32)
  | getval (semid : Int32) (semnum : ℕ)
  | setval (semid : Int32) (semnum : ℕ) (value : UInt32)
  | getpid (semid : Int32) (semnum : ℕ)
  | getncnt (semid : Int32) (semnum : ℕ)
  | getzcnt (semid : Int32) (semnum : ℕ)
  | getall (semid : Int32) (count : ℕ)
  | setall (semid : Int32) (values : List UInt16)
  | semop (semid : Int32) (operations : List SemOp)
  | semtimedop (semid : Int32) (operations : List SemOp) (timeout : Int64)
  | stat (semid : Int32)
  | statIndex (index : ℕ)
  | setMetadata (semid : Int32) (uid gid mode : UInt32)
  | info (dynamic : Int32)
  deriving DecidableEq, Repr

/-! ### Requests -/

def semnumCall (stack : Buffer) (opcode : Opcode) (semid : Int32) (semnum : ℕ) :
    Except Int32 ProtocolPacket :=
  if semnum > uint32Max then .error (-EINVAL)
  else .ok (semnumRequest stack opcode semid (UInt32.ofNat semnum))

def semopCall (stack : Buffer) (semid : Int32) (operations : List SemOp) (timeout : Option Int64) :
    Except Int32 ProtocolPacket :=
  if operations.length = 0 ∨ operations.length > semMaxPerSet ∨ timeout.any (· < 0) then
    .error (-EINVAL)
  else .ok (semopRequest stack semid operations timeout)

/-- The request of a call, or the result of a call that does not get that far. -/
def ClientCall.request (stack : Buffer) : ClientCall → Except Int32 ProtocolPacket
  | ping => .ok (pingRequest stack)
  | semget key nsems flags => .ok (semgetRequest stack key nsems flags)
  | remove semid => .ok (removeRequest stack semid)
  | getval semid semnum => semnumCall stack .getval semid semnum
  | setval semid semnum value =>
    if semnum > uint32Max then .error (-EINVAL)
    else .ok (setvalRequest stack semid (UInt32.ofNat semnum) value)
  | getpid semid semnum => semnumCall stack .getpid semid semnum
  | getncnt semid semnum => semnumCall stack .getncnt semid semnum
  | getzcnt semid semnum => semnumCall stack .getzcnt semid semnum
  | getall semid count =>
    if count = 0 ∨ count > semMaxPerSet then .error (-EINVAL)
    else .ok (getallRequest stack semid count)
  | setall semid values =>
    if values.length = 0 ∨ values.length > semMaxPerSet then .error (-EINVAL)
    else .ok (setallRequest stack semid values)
  | semop semid operations => semopCall stack semid operations none
  | semtimedop semid operations timeout => semopCall stack semid operations (some timeout)
  | stat semid => .ok (statRequest stack semid)
  | statIndex index =>
    if index > uint32Max then .error (-EINVAL)
    else .ok (statIndexRequest stack (UInt32.ofNat index))
  | setMetadata semid uid gid mode => .ok (setMetadataRequest stack semid uid gid mode)
  | info dynamic =>
    if dynamic ≠ 0 ∧ dynamic ≠ 1 then .error (-EINVAL) else .ok (infoRequest stack dynamic)

/-- The calls that return `EINTR` when a signal arrives. -/
def ClientCall.interruptible : ClientCall → Bool
  | semop _ _ | semtimedop _ _ _ => true
  | _ => false

/-! ### Replies -/

/-- What a call stores through its output pointer. -/
inductive Output where
  | nothing
  | values (values : List ℕ)
  | metadata (metadata : SemMetadata)
  | info (info : SemInfo)
  deriving DecidableEq, Repr

/-- The end of a call: its result, its output, and whether it closes the connection. -/
structure Reply where
  result : Int32
  output : Output
  closed : Bool
  deriving DecidableEq, Repr

/-- The return with `-EPROTO` after the connection is closed. -/
def malformed : Reply := ⟨-EPROTO, .nothing, true⟩

/-- The checks of `exchange_with_interrupt` on a response. -/
def correlates (request response : ProtocolPacket) : Bool :=
  !(decide (response.header.version ≠ protocolVersion) ||
    decide (response.header.kind ≠ protocolResponse) ||
    decide (response.header.opcode ≠ request.header.opcode) ||
    decide (response.header.requestId ≠ request.header.requestId) ||
    (decide (response.header.result < 0) && decide (response.header.payloadLength ≠ 0)))

/-- The last lines of `scalar_call`. -/
def scalarReply (response : ProtocolPacket) : Reply :=
  if response.header.payloadLength ≠ 0 then malformed
  else ⟨response.header.result, .nothing, false⟩

def getallReply (count : ℕ) (response : ProtocolPacket) : Reply :=
  if response.header.result ≠ 0 then ⟨response.header.result, .nothing, false⟩
  else if response.length ≠ 4 + count * 2 ∨ (wireGetU32 response.payload 0).toNat ≠ count then
    malformed
  else
    ⟨0, .values ((List.range count).map fun i => (wireGetU16 response.payload (4 + i * 2)).toNat),
      false⟩

def decodeMetadataResponse (response : ProtocolPacket) : Reply :=
  if response.header.result < 0 then ⟨response.header.result, .nothing, false⟩
  else if response.header.payloadLength ≠ 56 ∨ wireGetU32 response.payload 28 ≠ 0 ∨
      wireGetU32 response.payload 52 ≠ 0 then malformed
  else
    ⟨response.header.result, .metadata {
        key := wireGetI32 response.payload 0
        uid := wireGetU32 response.payload 4
        gid := wireGetU32 response.payload 8
        cuid := wireGetU32 response.payload 12
        cgid := wireGetU32 response.payload 16
        mode := wireGetU32 response.payload 20
        nsems := wireGetU32 response.payload 24
        otime := wireGetI64 response.payload 32
        ctime := wireGetI64 response.payload 40
        sequence := wireGetU32 response.payload 48 }, false⟩

def statReply (response : ProtocolPacket) : Reply :=
  let reply := decodeMetadataResponse response
  { reply with result := if reply.result < 0 then reply.result else 0 }

def infoReply (response : ProtocolPacket) : Reply :=
  if response.header.result < 0 then ⟨response.header.result, .nothing, false⟩
  else if response.header.payloadLength ≠ 40 then malformed
  else
    let field (i : ℕ) := wireGetI32 response.payload (i * 4)
    ⟨response.header.result, .info {
        semmap := field 0
        semmni := field 1
        semmns := field 2
        semmnu := field 3
        semmsl := field 4
        semopm := field 5
        semume := field 6
        semusz := field 7
        semvmx := field 8
        semaem := field 9 }, false⟩

/-- The last lines of `scalar_call_interruptible` and of `semop_call`: the result, and whether the
connection is closed. -/
def semopReply (request response : ProtocolPacket) : Int32 × Bool :=
  if correlates request response = false then (-EPROTO, true)
  else if response.header.payloadLength ≠ 0 then (-EPROTO, true)
  else (if response.header.result = semOpBlocked then -EPROTO else response.header.result, false)

/-- What a call makes of the response to its request. -/
def ClientCall.reply (call : ClientCall) (request response : ProtocolPacket) : Reply :=
  match call with
  | semop _ _ | semtimedop _ _ _ =>
    ⟨(semopReply request response).1, .nothing, (semopReply request response).2⟩
  | _ =>
    if correlates request response = false then malformed
    else
      match call with
      | getall _ count => getallReply count response
      | stat _ => statReply response
      | statIndex _ => decodeMetadataResponse response
      | info _ => infoReply response
      | _ => scalarReply response

end Tgcompat
