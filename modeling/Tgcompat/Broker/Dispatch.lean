import Tgcompat.Protocol.Wire
import Tgcompat.Store.Operations
import Tgcompat.Store.Tryop

/-!
# Request dispatch

`broker_dispatch.c`: one request packet is decoded, run against the store, and answered in the
caller's response packet. A handler returns its result together with what it may have written:
the response packet, the store, or both.
-/

namespace Tgcompat

def semgetSize : ℕ := 12
def semidSize : ℕ := 4
def semnumSize : ℕ := 8
def setvalSize : ℕ := 12
def arrayPrefixSize : ℕ := 8
def opSize : ℕ := 8
def timedOpPrefixSize : ℕ := 16
def metadataSize : UInt32 := 56
def setmetaSize : ℕ := 16

/-- The authenticated peer a request is run for. -/
structure BrokerActor where
  pid : Int32
  identity : SemIdentity
  deriving DecidableEq, Repr

/-- What a dispatch obtains from the system: whether `calloc` succeeds, and the time. -/
structure DispatchEnv where
  allocated : Bool
  now : Int64
  deriving DecidableEq, Repr

def prepareResponse (request response : ProtocolPacket) : ProtocolPacket :=
  { response with
    header := {
      version := protocolVersion
      kind := protocolResponse
      opcode := request.header.opcode
      requestId := request.header.requestId
      payloadLength := 0
      result := 0 } }

/-! ### Handlers -/

def dispatchSemget (st : SemStore) (request : ProtocolPacket) (identity : SemIdentity)
    (env : DispatchEnv) : Int32 × SemStore :=
  if request.length ≠ semgetSize then (-EMSGSIZE, st)
  else
    let key := wireGetI32 request.payload 0
    let nsems := wireGetI32 request.payload 4
    let flags := wireGetU32 request.payload 8
    if flags &&& ~~~((ipcCreat ||| ipcExcl).toUInt32 ||| 0o777) ≠ 0 then (-EINVAL, st)
    else st.getAs key nsems flags.toInt32 identity env.allocated env.now

def dispatchRemove (st : SemStore) (request : ProtocolPacket) : Int32 × SemStore :=
  if request.length = semidSize then st.remove (wireGetI32 request.payload 0) else (-EMSGSIZE, st)

/-- `GETVAL`, `GETPID`, `GETNCNT` and `GETZCNT`. -/
def dispatchSemnum (st : SemStore) (request : ProtocolPacket) (opcode : Opcode) : Int32 :=
  if request.length ≠ semnumSize then -EMSGSIZE
  else
    let semid := wireGetI32 request.payload 0
    let semnum := (wireGetU32 request.payload 4).toNat
    if opcode = .getval then st.getval semid semnum
    else if opcode = .getpid then st.getpid semid semnum
    else st.getWaitCount semid semnum (opcode = .getzcnt)

def dispatchSetval (st : SemStore) (request : ProtocolPacket) (actorPid : Int32)
    (env : DispatchEnv) : Int32 × SemStore :=
  if request.length ≠ setvalSize then (-EMSGSIZE, st)
  else
    let semid := wireGetI32 request.payload 0
    let semnum := (wireGetU32 request.payload 4).toNat
    let value := wireGetU32 request.payload 8
    st.setval semid semnum value actorPid env.now

def dispatchGetall (st : SemStore) (request response : ProtocolPacket) :
    Int32 × ProtocolPacket :=
  if request.length ≠ semnumSize then (-EMSGSIZE, response)
  else
    let semid := wireGetI32 request.payload 0
    let count := (wireGetU32 request.payload 4).toNat
    if count = 0 ∨ count > semMaxPerSet then (-EINVAL, response)
    else
      match st.getall semid count with
      | (result, none) => (result, response)
      | (_, some values) =>
        let payload := wirePutU32 response.payload 0 (UInt32.ofNat count)
        let payload := (List.range count).foldl
          (fun b i => wirePutU16 b (4 + i * 2) (UInt16.ofNat (values.getD i 0))) payload
        (0, { header := { response.header with payloadLength := UInt32.ofNat (4 + count * 2) }
              payload := payload })

def dispatchSetall (st : SemStore) (request : ProtocolPacket) (actorPid : Int32)
    (env : DispatchEnv) : Int32 × SemStore :=
  if request.length < arrayPrefixSize then (-EMSGSIZE, st)
  else
    let semid := wireGetI32 request.payload 0
    let count := (wireGetU32 request.payload 4).toNat
    if count = 0 ∨ count > semMaxPerSet ∨ request.length ≠ arrayPrefixSize + count * 2 then
      (-EMSGSIZE, st)
    else
      let values := (List.range count).map fun i => wireGetU16 request.payload (8 + i * 2)
      st.setall semid values actorPid env.now

/-- Bytes before the operation records of a `SEMOP` or `SEMTIMEDOP` request. -/
def opPrefixSize (request : ProtocolPacket) : ℕ :=
  if request.opcode = some .semtimedop then timedOpPrefixSize else arrayPrefixSize

/-- One operation record; its reserved field has to be zero. -/
def decodeOp (payload : Buffer) (off : ℕ) : Except Int32 SemOp :=
  if wireGetU16 payload (off + 6) ≠ 0 then .error (-EPROTO)
  else
    .ok {
      semNum := wireGetU16 payload off
      semOp := wireGetI16 payload (off + 2)
      semFlg := wireGetU16 payload (off + 4) }

/-- The part of `dispatch_semop` that decodes the request: the set and the operations. -/
def decodeSemop (request : ProtocolPacket) : Except Int32 (Int32 × List SemOp) :=
  if request.length < opPrefixSize request then .error (-EMSGSIZE)
  else
    let semid := wireGetI32 request.payload 0
    let count := (wireGetU32 request.payload 4).toNat
    if count = 0 ∨ count > semMaxPerSet ∨
        request.length ≠ opPrefixSize request + count * opSize then .error (-EMSGSIZE)
    else if request.opcode = some .semtimedop ∧ wireGetI64 request.payload 8 < 0 then
      .error (-EINVAL)
    else do
      let operations ← (List.range count).mapM fun i =>
        decodeOp request.payload (opPrefixSize request + i * opSize)
      return (semid, operations)

/-- The payload of a blocked answer: where the request waits. -/
def putWaitReason (response : ProtocolPacket) (reason : SemWaitReason) : ProtocolPacket where
  header := { response.header with payloadLength := 8 }
  payload := wirePutU32 (wirePutU16 (wirePutU16 response.payload 0 reason.semNum) 2
    reason.waitForZero) 4 0

def dispatchSemop (st : SemStore) (request : ProtocolPacket) (actorPid : Int32)
    (env : DispatchEnv) (response : ProtocolPacket) : Int32 × ProtocolPacket × SemStore :=
  match decodeSemop request with
  | .error result => (result, response, st)
  | .ok (semid, operations) =>
    let (result, reason, st') := st.tryopDetail semid operations actorPid env.now
    if result = semOpBlocked then
      (result, putWaitReason response (reason.getD ⟨0, 0⟩), st')
    else (result, response, st')

def encodeMetadata (response : ProtocolPacket) (metadata : SemMetadata) : ProtocolPacket :=
  let b := wirePutI32 response.payload 0 metadata.key
  let b := wirePutU32 b 4 metadata.uid
  let b := wirePutU32 b 8 metadata.gid
  let b := wirePutU32 b 12 metadata.cuid
  let b := wirePutU32 b 16 metadata.cgid
  let b := wirePutU32 b 20 metadata.mode
  let b := wirePutU32 b 24 metadata.nsems
  let b := wirePutU32 b 28 0
  let b := wirePutI64 b 32 metadata.otime
  let b := wirePutI64 b 40 metadata.ctime
  let b := wirePutU32 b 48 metadata.sequence
  let b := wirePutU32 b 52 0
  { header := { response.header with payloadLength := metadataSize }, payload := b }

/-- The answer of `STAT` and `STAT_INDEX`: the metadata when the lookup found a set. -/
def answerMetadata (lookup : Int32 × Option SemMetadata) (response : ProtocolPacket) :
    Int32 × ProtocolPacket :=
  match lookup with
  | (result, none) => (result, response)
  | (result, some metadata) => (result, encodeMetadata response metadata)

def dispatchStat (st : SemStore) (request response : ProtocolPacket) : Int32 × ProtocolPacket :=
  if request.length ≠ semidSize then (-EMSGSIZE, response)
  else answerMetadata (st.getMetadata (wireGetI32 request.payload 0)) response

def dispatchStatIndex (st : SemStore) (request response : ProtocolPacket) :
    Int32 × ProtocolPacket :=
  if request.length ≠ semidSize then (-EMSGSIZE, response)
  else answerMetadata (st.statIndex (wireGetU32 request.payload 0).toNat) response

def dispatchSetmeta (st : SemStore) (request : ProtocolPacket) (actor : SemIdentity)
    (env : DispatchEnv) : Int32 × SemStore :=
  if request.length ≠ setmetaSize then (-EMSGSIZE, st)
  else
    st.setMetadata (wireGetI32 request.payload 0) (wireGetU32 request.payload 4)
      (wireGetU32 request.payload 8) (wireGetU32 request.payload 12) actor env.now

/-- The fields of an `INFO` answer in wire order. -/
def SemInfo.fields (info : SemInfo) : List Int32 :=
  [info.semmap, info.semmni, info.semmns, info.semmnu, info.semmsl, info.semopm, info.semume,
    info.semusz, info.semvmx, info.semaem]

def dispatchInfo (st : SemStore) (request response : ProtocolPacket) : Int32 × ProtocolPacket :=
  if request.length ≠ 4 then (-EMSGSIZE, response)
  else
    let dynamic := wireGetU32 request.payload 0
    if dynamic > 1 then (-EINVAL, response)
    else
      let (result, info) := st.info (dynamic = 1)
      if result < 0 then (result, response)
      else
        let payload := info.fields.zipIdx.foldl (fun b field => wirePutI32 b (field.2 * 4) field.1)
          response.payload
        (result, { header := { response.header with payloadLength := 40 }, payload := payload })

/-! ### The dispatcher -/

/-- Attach the unchanged response to the outcome of a handler that only changes the store. -/
def withResponse (response : ProtocolPacket) (outcome : Int32 × SemStore) :
    Int32 × ProtocolPacket × SemStore :=
  (outcome.1, response, outcome.2)

/-- Attach the unchanged store to the outcome of a handler that only writes the response. -/
def withStore (st : SemStore) (outcome : Int32 × ProtocolPacket) :
    Int32 × ProtocolPacket × SemStore :=
  (outcome.1, outcome.2, st)

/-- The `switch` over the opcode. -/
def dispatchOpcode (st : SemStore) (request : ProtocolPacket) (actor : BrokerActor)
    (env : DispatchEnv) (response : ProtocolPacket) : Int32 × ProtocolPacket × SemStore :=
  match request.opcode with
  | some .ping => (if request.length = 0 then 0 else -EMSGSIZE, response, st)
  | some .semget => withResponse response (dispatchSemget st request actor.identity env)
  | some .remove => withResponse response (dispatchRemove st request)
  | some .getval => (dispatchSemnum st request .getval, response, st)
  | some .getpid => (dispatchSemnum st request .getpid, response, st)
  | some .getncnt => (dispatchSemnum st request .getncnt, response, st)
  | some .getzcnt => (dispatchSemnum st request .getzcnt, response, st)
  | some .setval => withResponse response (dispatchSetval st request actor.pid env)
  | some .getall => withStore st (dispatchGetall st request response)
  | some .setall => withResponse response (dispatchSetall st request actor.pid env)
  | some .semop => dispatchSemop st request actor.pid env response
  | some .semtimedop => dispatchSemop st request actor.pid env response
  | some .stat => withStore st (dispatchStat st request response)
  | some .statIndex => withStore st (dispatchStatIndex st request response)
  | some .setmeta => withResponse response (dispatchSetmeta st request actor.identity env)
  | some .info => withStore st (dispatchInfo st request response)
  | none => (-ENOSYS, response, st)

/-- The header checks of `tgc_broker_dispatch`. -/
def ProtocolPacket.isRequest (request : ProtocolPacket) : Bool :=
  decide (request.header.version = protocolVersion) &&
    decide (request.header.kind = protocolRequest) && decide (request.header.result = 0) &&
    decide (request.length ≤ protocolMaxPayload)

/-- The last lines of `tgc_broker_dispatch`: the result goes into the header, and an error has no
payload. -/
def sealResponse (response : ProtocolPacket) (result : Int32) : ProtocolPacket :=
  { response with
    header := { response.header with
      result := result
      payloadLength := if result < 0 then 0 else response.header.payloadLength } }

/-- `tgc_broker_dispatch`: the return value, the response packet and the store. -/
def brokerDispatch (st : SemStore) (request : ProtocolPacket) (actor : BrokerActor)
    (env : DispatchEnv) (response : ProtocolPacket) : Int32 × ProtocolPacket × SemStore :=
  if actor.pid ≤ 0 then (-EINVAL, response, st)
  else if request.isRequest = false then (-EPROTO, response, st)
  else
    let (result, response', st') :=
      dispatchOpcode st request actor env (prepareResponse request response)
    (0, sealResponse response' result, st')

end Tgcompat
