import Tgcompat.Broker.Dispatch
import Tgcompat.Client.Calls
import Tgcompat.Library.Fold
import Tgcompat.Store.Enumeration

/-!
# Client and broker agree

A call made through the broker against the same call made on the store: the client encodes it, the
broker decodes it, runs it and encodes the answer, and the client decodes that.
-/

namespace Tgcompat

open Layout

/-- A call through the broker. When the dispatcher returns an error the server closes the
connection, and the client sees the end of the stream. -/
def ClientCall.roundTrip (call : ClientCall) (st : SemStore) (actor : BrokerActor)
    (env : DispatchEnv) (id : UInt32) (stack : Buffer) (response : ProtocolPacket) :
    Reply × SemStore :=
  match call.request stack with
  | .error result => (⟨result, .nothing, false⟩, st)
  | .ok request =>
    let request := request.withId id
    let (result, response, st') := brokerDispatch st request actor env response
    if result ≠ 0 then (⟨-ECONNRESET, .nothing, true⟩, st')
    else (call.reply request response, st')

/-- Attach the output of a call that only reads the store. -/
def outputOr {α : Type} (output : α → Output) : Option α → Output
  | some a => output a
  | none => .nothing

/-- The call on the store itself: result, output and store. -/
def ClientCall.direct (call : ClientCall) (st : SemStore) (actor : BrokerActor)
    (env : DispatchEnv) : Int32 × Output × SemStore :=
  let writes (outcome : Int32 × SemStore) := (outcome.1, Output.nothing, outcome.2)
  match call with
  | ping => (0, .nothing, st)
  | semget key nsems flags =>
    writes (st.getAs key nsems flags actor.identity env.allocated env.now)
  | remove semid => writes (st.remove semid)
  | getval semid semnum => (st.getval semid semnum, .nothing, st)
  | setval semid semnum value => writes (st.setval semid semnum value actor.pid env.now)
  | getpid semid semnum => (st.getpid semid semnum, .nothing, st)
  | getncnt semid semnum => (st.getWaitCount semid semnum false, .nothing, st)
  | getzcnt semid semnum => (st.getWaitCount semid semnum true, .nothing, st)
  | getall semid count =>
    ((st.getall semid count).1, outputOr .values (st.getall semid count).2, st)
  | setall semid values => writes (st.setall semid values actor.pid env.now)
  | semop semid operations | semtimedop semid operations _ =>
    let outcome := st.tryopDetail semid operations actor.pid env.now
    (outcome.1, .nothing, outcome.2.2)
  | stat semid => ((st.getMetadata semid).1, outputOr .metadata (st.getMetadata semid).2, st)
  | statIndex index => ((st.statIndex index).1, outputOr .metadata (st.statIndex index).2, st)
  | setMetadata semid uid gid mode =>
    writes (st.setMetadata semid uid gid mode actor.identity env.now)
  | info dynamic => ((st.info (dynamic = 1)).1, .info (st.info (dynamic = 1)).2, st)

/-- The operations of a call can be sent and do not have to wait. -/
def Unblocked (st : SemStore) (actor : BrokerActor) (env : DispatchEnv) (semid : Int32)
    (operations : List SemOp) : Prop :=
  1 ≤ operations.length ∧ operations.length ≤ semMaxPerSet ∧
    (st.tryopDetail semid operations actor.pid env.now).1 ≠ semOpBlocked

/-- The calls compared: `semget` with the flags the protocol knows, `semop` and `semtimedop` that
do not block, `info` of one of its two kinds, and all others with any arguments. -/
def ClientCall.Admitted (st : SemStore) (actor : BrokerActor) (env : DispatchEnv) :
    ClientCall → Prop
  | semget _ _ flags => flags.toUInt32 &&& ~~~((ipcCreat ||| ipcExcl).toUInt32 ||| 0o777) = 0
  | semop semid operations => Unblocked st actor env semid operations
  | semtimedop semid operations timeout => Unblocked st actor env semid operations ∧ 0 ≤ timeout
  | info dynamic => dynamic = 0 ∨ dynamic = 1
  | _ => True

variable {st : SemStore} {actor : BrokerActor} {env : DispatchEnv} {id : UInt32}
  {stack : Buffer} {request scratch : ProtocolPacket} {call : ClientCall}

/-! ### The envelope -/

@[simp] lemma requestInit_payload (stack : Buffer) (opcode : Opcode) (n : ℕ) :
    (requestInit stack opcode n).payload = stack := rfl

/-- A packet that arrives at the handler of its opcode. -/
structure Carries (request : ProtocolPacket) (opcode : Opcode) (n : ℕ) : Prop where
  isRequest : request.isRequest = true
  opcode : request.opcode = some opcode
  length : request.length = n

lemma carries_requestInit (opcode : Opcode) {n : ℕ} (hn : n ≤ protocolMaxPayload) (b : Buffer) :
    Carries (ProtocolPacket.withId ⟨(requestInit stack opcode n).header, b⟩ id) opcode n := by
  have hlength :
      (ProtocolPacket.withId ⟨(requestInit stack opcode n).header, b⟩ id).length = n := by
    have : n < 2 ^ 32 := lt_of_le_of_lt hn (by decide)
    simpa [ProtocolPacket.length, ProtocolPacket.withId, requestInit] using this
  refine ⟨?_, Opcode.ofCode_code opcode, hlength⟩
  simp only [ProtocolPacket.isRequest, hlength, hn]
  rfl

/-- The packet that goes back when a handler has written `length` bytes of `payload`. -/
def answer (request : ProtocolPacket) (length : UInt32) (payload : Buffer) (result : Int32) :
    ProtocolPacket :=
  sealResponse ⟨{ (prepareResponse request request).header with payloadLength := length }, payload⟩
    result

/-- A call whose request reaches a handler that answers with `result`. -/
lemma roundTrip_of_handler (hpid : 0 < actor.pid) {opcode : Opcode} {n : ℕ}
    (hrequest : call.request stack = .ok request) (hcarries : Carries (request.withId id) opcode n)
    (length : UInt32) (payload : Buffer) {result : Int32} {st' : SemStore}
    (hhandler : dispatchOpcode st (request.withId id) actor env
      (prepareResponse (request.withId id) scratch) =
        (result, ⟨{ (prepareResponse (request.withId id) scratch).header with
          payloadLength := length }, payload⟩, st')) :
    call.roundTrip st actor env id stack scratch =
      (call.reply (request.withId id) (answer (request.withId id) length payload result), st') := by
  have hdispatch : brokerDispatch st (request.withId id) actor env scratch =
      (0, answer (request.withId id) length payload result, st') := by
    rw [brokerDispatch, if_neg (Int32.not_le.mpr hpid), if_neg (by rw [hcarries.isRequest]; decide)]
    simp only [hhandler]
    rfl
  simp [ClientCall.roundTrip, hrequest, hdispatch]

lemma correlates_answer (request : ProtocolPacket) (length : UInt32) (payload : Buffer)
    (result : Int32) : correlates request (answer request length payload result) = true := by
  by_cases hneg : result < 0
  · simp [correlates, answer, sealResponse, prepareResponse, hneg]
  · simp [correlates, answer, sealResponse, prepareResponse, hneg]

lemma scalarReply_answer (request : ProtocolPacket) (payload : Buffer) (result : Int32) :
    scalarReply (answer request 0 payload result) = ⟨result, .nothing, false⟩ := by
  simp [scalarReply, answer, sealResponse, prepareResponse]

/-! ### Scalar calls -/

/-- The call through the broker gives what the call on the store gives, and keeps the connection. -/
def ClientCall.Agrees (call : ClientCall) (st : SemStore) (actor : BrokerActor)
    (env : DispatchEnv) : Prop :=
  ∀ id stack scratch, call.roundTrip st actor env id stack scratch =
    (⟨(call.direct st actor env).1, (call.direct st actor env).2.1, false⟩,
      (call.direct st actor env).2.2)

/-- A call that returns the scalar of an empty response. -/
lemma agrees_scalar (hpid : 0 < actor.pid) {packet : Buffer → ProtocolPacket} {opcode : Opcode}
    {n : ℕ} (outcome : Int32 × SemStore)
    (hrequest : ∀ stack, call.request stack = .ok (packet stack))
    (hcarries : ∀ stack id, Carries ((packet stack).withId id) opcode n)
    (hreply : ∀ request response, call.reply request response =
      if correlates request response = false then malformed else scalarReply response)
    (hdirect : call.direct st actor env = (outcome.1, .nothing, outcome.2))
    (hhandler : ∀ stack id response, dispatchOpcode st ((packet stack).withId id) actor env
      response = (outcome.1, response, outcome.2)) : call.Agrees st actor env := by
  intro id stack scratch
  rw [roundTrip_of_handler hpid (hrequest stack) (hcarries stack id) 0 scratch.payload
    (hhandler stack id _), hreply, correlates_answer, if_neg (by simp), scalarReply_answer, hdirect]

lemma agrees_ping (hpid : 0 < actor.pid) : ClientCall.ping.Agrees st actor env := by
  have h : ∀ stack id, Carries ((pingRequest stack).withId id) .ping 0 :=
    fun stack id => @carries_requestInit id stack .ping 0 (by decide) stack
  refine agrees_scalar hpid (0, st) (fun _ => rfl) h (fun _ _ => rfl) rfl ?_
  intro stack id response
  simp [dispatchOpcode, (h stack id).opcode, (h stack id).length]

lemma agrees_semget (hpid : 0 < actor.pid) {key nsems flags : Int32}
    (hflags : (ClientCall.semget key nsems flags).Admitted st actor env) :
    (ClientCall.semget key nsems flags).Agrees st actor env := by
  have h : ∀ stack id, Carries ((semgetRequest stack key nsems flags).withId id) .semget 12 :=
    fun _ _ => carries_requestInit .semget (by decide) _
  have hhandler : ∀ stack id, dispatchSemget st ((semgetRequest stack key nsems flags).withId id)
      actor.identity env = st.getAs key nsems flags actor.identity env.allocated env.now := by
    intro stack id
    have hallowed : flags.toUInt32 &&& ~~~((ipcCreat ||| ipcExcl).toUInt32 ||| 0o777) = 0 := hflags
    rw [dispatchSemget, if_neg (by rw [(h stack id).length]; decide)]
    simp [semgetRequest, -Int32.toUInt32_or, hallowed]
  refine agrees_scalar hpid _ (fun _ => rfl) h (fun _ _ => rfl) rfl ?_
  intro stack id response
  simp only [dispatchOpcode, (h stack id).opcode, hhandler]
  rfl

lemma agrees_remove (hpid : 0 < actor.pid) (semid : Int32) :
    (ClientCall.remove semid).Agrees st actor env := by
  have h : ∀ stack id, Carries ((removeRequest stack semid).withId id) .remove 4 :=
    fun _ _ => carries_requestInit .remove (by decide) _
  have hhandler : ∀ stack id,
      dispatchRemove st ((removeRequest stack semid).withId id) = st.remove semid := by
    intro stack id
    rw [dispatchRemove, if_pos (by rw [(h stack id).length]; rfl)]
    simp [removeRequest]
  refine agrees_scalar hpid _ (fun _ => rfl) h (fun _ _ => rfl) rfl ?_
  intro stack id response
  simp only [dispatchOpcode, (h stack id).opcode, hhandler]
  rfl

lemma agrees_setMetadata (hpid : 0 < actor.pid) (semid : Int32) (uid gid mode : UInt32) :
    (ClientCall.setMetadata semid uid gid mode).Agrees st actor env := by
  have h : ∀ stack id,
      Carries ((setMetadataRequest stack semid uid gid mode).withId id) .setmeta 16 :=
    fun _ _ => carries_requestInit .setmeta (by decide) _
  have hhandler : ∀ stack id,
      dispatchSetmeta st ((setMetadataRequest stack semid uid gid mode).withId id) actor.identity
        env = st.setMetadata semid uid gid mode actor.identity env.now := by
    intro stack id
    rw [dispatchSetmeta, if_neg (by rw [(h stack id).length]; decide)]
    simp [setMetadataRequest]
  refine agrees_scalar hpid _ (fun _ => rfl) h (fun _ _ => rfl) rfl ?_
  intro stack id response
  simp only [dispatchOpcode, (h stack id).opcode, hhandler]
  rfl

/-- The cast to `uint32_t` after the range check. -/
lemma toNat_ofNat_of_le {n : ℕ} (h : n ≤ uint32Max) : (UInt32.ofNat n).toNat = n := by
  rw [UInt32.toNat_ofNat']
  exact Nat.mod_eq_of_lt (Nat.lt_succ_of_le h)

/-- A call that is refused before anything is sent. -/
lemma agrees_of_refused {e : Int32} (hrequest : ∀ stack, call.request stack = .error e)
    (hdirect : call.direct st actor env = (e, .nothing, st)) : call.Agrees st actor env := by
  intro id stack scratch
  simp [ClientCall.roundTrip, hrequest, hdirect]

/-- A semaphore number beyond the range of the wire names no semaphore of a set. -/
lemma SemStore.Inv.nsems_le_of_gt (hst : st.Inv) {semid : Int32} {i : Fin semMaxSets}
    (hf : st.findSet semid = some i) {semnum : ℕ} (hlarge : semnum > uint32Max) :
    semnum ≥ (st.sets i).nsems := by
  have hle := (hst.valid_of_findSet hf).nsems_le
  have hmax : semMaxPerSet < uint32Max := by decide
  omega

/-- The argument of `GETVAL` and the like beyond the range of the wire: the store refuses it too. -/
lemma SemStore.Inv.readSem_of_gt (hst : st.Inv) {semnum : ℕ} (hlarge : semnum > uint32Max)
    (semid : Int32) (read : SemSet → Int32) : st.readSem semid semnum read = -EINVAL := by
  rw [SemStore.readSem]
  cases hf : st.findSet semid with
  | none => rfl
  | some i => exact if_pos (hst.nsems_le_of_gt hf hlarge)

/-- The calls that go through `semnum_call`, with their opcode and what they read. -/
inductive Reads : ClientCall → Opcode → Int32 → ℕ → (SemSet → Int32) → Prop where
  | getval (semid : Int32) (semnum : ℕ) : Reads (.getval semid semnum) .getval semid semnum
      fun set => Int32.ofNat (set.values.getD semnum 0)
  | getpid (semid : Int32) (semnum : ℕ) : Reads (.getpid semid semnum) .getpid semid semnum
      fun set => set.lastPids.getD semnum 0
  | getncnt (semid : Int32) (semnum : ℕ) : Reads (.getncnt semid semnum) .getncnt semid semnum
      fun set => if (set.waitCounts false).getD semnum 0 > 2147483647 then Int32.maxValue
        else Int32.ofNat ((set.waitCounts false).getD semnum 0)
  | getzcnt (semid : Int32) (semnum : ℕ) : Reads (.getzcnt semid semnum) .getzcnt semid semnum
      fun set => if (set.waitCounts true).getD semnum 0 > 2147483647 then Int32.maxValue
        else Int32.ofNat ((set.waitCounts true).getD semnum 0)

lemma Reads.dispatch {opcode : Opcode} {semid : Int32} {semnum : ℕ} {read : SemSet → Int32}
    (hcall : Reads call opcode semid semnum read) (hopcode : request.opcode = some opcode)
    (hlength : request.length = 8) (hsemid : wireGetI32 request.payload 0 = semid)
    (hsemnum : (wireGetU32 request.payload 4).toNat = semnum) (response : ProtocolPacket) :
    dispatchOpcode st request actor env response =
      (st.readSem semid semnum read, response, st) := by
  have hsize : ¬ request.length ≠ semnumSize := by
    rw [hlength]
    decide
  have hread : dispatchSemnum st request opcode = st.readSem semid semnum read := by
    simp only [dispatchSemnum, if_neg hsize, hsemid, hsemnum]
    cases hcall <;> rfl
  cases hcall <;> simp only [dispatchOpcode, hopcode, hread]

lemma Reads.agrees {opcode : Opcode} {semid : Int32} {semnum : ℕ} {read : SemSet → Int32}
    (hcall : Reads call opcode semid semnum read) (hpid : 0 < actor.pid) (hst : st.Inv) :
    call.Agrees st actor env := by
  have hrequest : ∀ stack, call.request stack = semnumCall stack opcode semid semnum := by
    intro stack
    cases hcall <;> rfl
  have hdirect : call.direct st actor env = (st.readSem semid semnum read, .nothing, st) := by
    cases hcall <;> rfl
  by_cases hlarge : semnum > uint32Max
  · refine agrees_of_refused (e := -EINVAL) ?_ ?_
    · intro stack
      rw [hrequest, semnumCall, if_pos hlarge]
    · rw [hdirect, hst.readSem_of_gt hlarge]
  · have h : ∀ stack id, Carries
        ((semnumRequest stack opcode semid (UInt32.ofNat semnum)).withId id) opcode 8 :=
      fun _ _ => carries_requestInit opcode (by decide) _
    refine agrees_scalar hpid (st.readSem semid semnum read, st)
      (fun stack => (hrequest stack).trans (if_neg hlarge)) h ?_ hdirect ?_
    · intro request response
      cases hcall <;> rfl
    · intro stack id response
      apply hcall.dispatch (h stack id).opcode (h stack id).length
      · simp [semnumRequest]
      · have hsemnum := toNat_ofNat_of_le (not_lt.mp hlarge)
        simpa [semnumRequest] using hsemnum

lemma agrees_setval (hpid : 0 < actor.pid) (hst : st.Inv) (semid : Int32) (semnum : ℕ)
    (value : UInt32) : (ClientCall.setval semid semnum value).Agrees st actor env := by
  by_cases hlarge : semnum > uint32Max
  · refine agrees_of_refused (e := -EINVAL) (fun stack => if_pos hlarge) ?_
    have hrefused : st.setval semid semnum value actor.pid env.now = (-EINVAL, st) := by
      rw [SemStore.setval]
      cases hf : st.findSet semid with
      | none => rfl
      | some i => exact if_pos (hst.nsems_le_of_gt hf hlarge)
    simp only [ClientCall.direct, hrefused]
  · have h : ∀ stack id, Carries
        ((setvalRequest stack semid (UInt32.ofNat semnum) value).withId id) .setval 12 :=
      fun _ _ => carries_requestInit .setval (by decide) _
    have hhandler : ∀ stack id, dispatchSetval st
        ((setvalRequest stack semid (UInt32.ofNat semnum) value).withId id) actor.pid env =
          st.setval semid semnum value actor.pid env.now := by
      intro stack id
      have hsemnum := toNat_ofNat_of_le (not_lt.mp hlarge)
      rw [dispatchSetval, if_neg (by rw [(h stack id).length]; decide)]
      simp [setvalRequest, -UInt32.toNat_ofNat', hsemnum]
    refine agrees_scalar hpid _ (fun _ => if_neg hlarge) h (fun _ _ => rfl) rfl ?_
    intro stack id response
    simp only [dispatchOpcode, (h stack id).opcode, hhandler]
    rfl

/-! ### Arrays -/

/-- A length outside `1..512` fits no set. -/
lemma SemStore.Inv.nsems_ne (hst : st.Inv) {semid : Int32} {i : Fin semMaxSets}
    (hf : st.findSet semid = some i) {count : ℕ} (hcount : count = 0 ∨ count > semMaxPerSet) :
    count ≠ (st.sets i).nsems := by
  have hpos := (hst.valid_of_findSet hf).nsems_pos
  have hle := (hst.valid_of_findSet hf).nsems_le
  omega

lemma carries_setallRequest (stack : Buffer) (id : UInt32) (semid : Int32) {values : List UInt16}
    (hle : values.length ≤ semMaxPerSet) :
    Carries ((setallRequest stack semid values).withId id) .setall (8 + values.length * 2) := by
  apply carries_requestInit .setall
  have hmax : semMaxPerSet = 512 := rfl
  have hpayload : protocolMaxPayload = 8192 := rfl
  omega

/-- The broker reads the values the client wrote. -/
lemma dispatchSetall_setallRequest (stack : Buffer) (id : UInt32) (semid : Int32)
    {values : List UInt16} (hpos : values.length ≠ 0) (hle : values.length ≤ semMaxPerSet) :
    dispatchSetall st ((setallRequest stack semid values).withId id) actor.pid env =
      st.setall semid values actor.pid env.now := by
  have h := carries_setallRequest stack id semid hle
  set request := (setallRequest stack semid values).withId id with hrequest
  have hsemid : wireGetI32 request.payload 0 = semid := by
    refine (Wire.u16.get_foldl_zipIdx_of_le Wire.i32 8 2 (by decide) values
      (fun v => v) _).trans ?_
    simp
  have hlength : (wireGetU32 request.payload 4).toNat = values.length := by
    have hmax : semMaxPerSet ≤ uint32Max := by decide
    rw [← toNat_ofNat_of_le (n := values.length) (by omega)]
    refine congrArg UInt32.toNat ((Wire.u16.get_foldl_zipIdx_of_le Wire.u32 8 2
      (by decide) values (fun v => v) _).trans ?_)
    simp
  have hvalues : (List.range values.length).map (fun i =>
      wireGetU16 request.payload (8 + i * 2)) = values := by
    have := Wire.u16.map_get_foldl_zipIdx 8 (le_refl 2) values (fun v => v)
      (wirePutU32 (wirePutI32 stack 0 semid) 4 (UInt32.ofNat values.length))
    rwa [List.map_id'] at this
  rw [dispatchSetall, if_neg (by rw [h.length]; simp only [arrayPrefixSize]; omega)]
  simp only [hsemid, hlength, hvalues]
  rw [if_neg]
  rw [h.length]
  simp only [arrayPrefixSize]
  omega

lemma agrees_setall (hpid : 0 < actor.pid) (hst : st.Inv) (semid : Int32) (values : List UInt16) :
    (ClientCall.setall semid values).Agrees st actor env := by
  by_cases hcount : values.length = 0 ∨ values.length > semMaxPerSet
  · refine agrees_of_refused (e := -EINVAL) (fun stack => if_pos hcount) ?_
    have hrefused : st.setall semid values actor.pid env.now = (-EINVAL, st) := by
      rw [SemStore.setall]
      cases hf : st.findSet semid with
      | none => rfl
      | some i => exact if_pos (hst.nsems_ne hf hcount)
    simp only [ClientCall.direct, hrefused]
  · have hrequest : ∀ stack, (ClientCall.setall semid values).request stack =
        .ok (setallRequest stack semid values) := fun _ => if_neg hcount
    rw [not_or, not_lt] at hcount
    have h := fun stack id => carries_setallRequest stack id semid hcount.2
    refine agrees_scalar hpid _ hrequest h (fun _ _ => rfl) rfl ?_
    intro stack id response
    simp only [dispatchOpcode, (h stack id).opcode,
      dispatchSetall_setallRequest stack id semid hcount.1 hcount.2]
    rfl

/-! ### Operations -/

/-- An operation record and its reserved field. -/
def Wire.op : Field UInt8 (SemOp × UInt16) :=
  (Wire.u16.seq (Wire.i16.seq (Wire.u16.seq Wire.u16))).map
    ⟨fun x => (⟨x.1, x.2.1, x.2.2.1⟩, x.2.2.2), fun x => (x.1.semNum, x.1.semOp, x.1.semFlg, x.2),
      fun _ => rfl, fun _ => rfl⟩

lemma decodeOp_eq (b : Buffer) (off : ℕ) : decodeOp b off =
    if (Wire.op.get b off).2 ≠ 0 then .error (-EPROTO) else .ok (Wire.op.get b off).1 := rfl

/-- The bytes before the operation records. -/
def semopPrefix (timeout : Option Int64) : ℕ := if timeout.isSome then 16 else 8

lemma carries_semopRequest (stack : Buffer) (id : UInt32) (semid : Int32)
    {operations : List SemOp} (timeout : Option Int64) (hle : operations.length ≤ semMaxPerSet) :
    Carries ((semopRequest stack semid operations timeout).withId id)
      (if timeout.isSome then .semtimedop else .semop)
      (semopPrefix timeout + operations.length * 8) := by
  have hsmall : semopPrefix timeout ≤ 16 := by cases timeout <;> simp [semopPrefix]
  have hmax : semMaxPerSet = 512 := rfl
  have hpayload : protocolMaxPayload = 8192 := rfl
  exact carries_requestInit (n := semopPrefix timeout + operations.length * 8) _ (by omega) _

/-- A call with operations and a timeout that is not negative becomes a request. -/
lemma semopCall_eq_ok (stack : Buffer) (semid : Int32) {operations : List SemOp}
    {timeout : Option Int64} (hpos : 1 ≤ operations.length)
    (hle : operations.length ≤ semMaxPerSet) (htimeout : ∀ ns ∈ timeout, 0 ≤ ns) :
    semopCall stack semid operations timeout =
      .ok (semopRequest stack semid operations timeout) := by
  refine if_neg ?_
  rintro (hzero | hlarge | hneg)
  · omega
  · omega
  · obtain ⟨ns, hns, hlt⟩ := (Option.any_eq_true _ _).mp hneg
    exact Int64.not_lt.mpr (htimeout ns hns) (decide_eq_true_eq.mp hlt)

/-- The broker reads the timeout the client wrote. -/
lemma wireGetI64_semopRequest (stack : Buffer) (id : UInt32) (semid : Int32)
    (operations : List SemOp) (ns : Int64) :
    wireGetI64 ((semopRequest stack semid operations (some ns)).withId id).payload 8 = ns := by
  refine (Wire.op.get_foldl_zipIdx_of_le Wire.i64 16 8 le_rfl operations
    (fun op => (op, 0)) _).trans ?_
  simp

/-- The broker reads the operations the client wrote. -/
lemma decodeSemop_semopRequest (stack : Buffer) (id : UInt32) (semid : Int32)
    {operations : List SemOp} {timeout : Option Int64} (hpos : 1 ≤ operations.length)
    (hle : operations.length ≤ semMaxPerSet) (htimeout : ∀ ns ∈ timeout, 0 ≤ ns) :
    decodeSemop ((semopRequest stack semid operations timeout).withId id) =
      .ok (semid, operations) := by
  have h := carries_semopRequest stack id semid timeout hle
  set request := (semopRequest stack semid operations timeout).withId id with hrequest
  have hstart : opPrefixSize request = semopPrefix timeout := by
    rw [opPrefixSize, h.opcode, semopPrefix]
    cases timeout <;> rfl
  have hhead : 8 ≤ semopPrefix timeout := by cases timeout <;> simp [semopPrefix]
  have hsemid : wireGetI32 request.payload 0 = semid := by
    refine (Wire.op.get_foldl_zipIdx_of_le Wire.i32 (semopPrefix timeout) 8
      (le_trans (by decide) hhead) operations (fun op => (op, 0)) _).trans ?_
    cases timeout <;> simp
  have hcount : (wireGetU32 request.payload 4).toNat = operations.length := by
    have hmax : semMaxPerSet ≤ uint32Max := by decide
    rw [← toNat_ofNat_of_le (n := operations.length) (by omega)]
    refine congrArg UInt32.toNat ((Wire.op.get_foldl_zipIdx_of_le Wire.u32
      (semopPrefix timeout) 8 hhead operations (fun op => (op, 0)) _).trans ?_)
    cases timeout <;> simp
  have hnonneg : ¬ (request.opcode = some .semtimedop ∧ wireGetI64 request.payload 8 < 0) := by
    rw [h.opcode]
    cases timeout with
    | none => simp
    | some ns =>
      rw [hrequest, wireGetI64_semopRequest]
      exact fun hneg => Int64.not_lt.mpr (htimeout ns rfl) hneg.2
  have hget : ∀ i (hi : i < operations.length),
      Wire.op.get request.payload (semopPrefix timeout + i * 8) = (operations[i], 0) :=
    fun i hi => Wire.op.get_foldl_zipIdx le_rfl operations (fun op => (op, 0)) _ hi
  have hoperations : (List.range operations.length).mapM (fun i =>
      decodeOp request.payload (opPrefixSize request + i * opSize)) = .ok operations := by
    rw [Fold.mapM_eq_ok (h := fun i =>
      (Wire.op.get request.payload (semopPrefix timeout + i * 8)).1)]
    · congr 1
      apply List.ext_getElem
      · simp
      · intro i hi hi'
        simp [hget i hi']
    · intro i hi
      rw [hstart, opSize, decodeOp_eq, if_neg]
      simp [hget i (List.mem_range.mp hi)]
  rw [decodeSemop, if_neg (by rw [h.length, hstart]; omega)]
  simp only [hsemid, hcount]
  rw [if_neg, if_neg hnonneg, hoperations]
  · rfl
  · rw [h.length, hstart]
    simp only [opSize]
    omega

lemma semopReply_answer (request : ProtocolPacket) (payload : Buffer) {result : Int32}
    (h : result ≠ semOpBlocked) :
    semopReply request (answer request 0 payload result) = (result, false) := by
  simp [semopReply, correlates, answer, sealResponse, prepareResponse, h]

/-- `semop` and `semtimedop`. -/
lemma agrees_operations (hpid : 0 < actor.pid) {semid : Int32} {operations : List SemOp}
    (timeout : Option Int64) (htimeout : ∀ ns ∈ timeout, 0 ≤ ns)
    (h : Unblocked st actor env semid operations)
    (hrequest : ∀ stack, call.request stack = semopCall stack semid operations timeout)
    (hreply : ∀ request response, call.reply request response =
      ⟨(semopReply request response).1, .nothing, (semopReply request response).2⟩)
    (hdirect : call.direct st actor env =
      ((st.tryopDetail semid operations actor.pid env.now).1, .nothing,
        (st.tryopDetail semid operations actor.pid env.now).2.2)) :
    call.Agrees st actor env := by
  intro id stack scratch
  obtain ⟨hpos, hle, hblocked⟩ := h
  have hcarries := carries_semopRequest stack id semid timeout hle
  have hdecoded := decodeSemop_semopRequest stack id semid hpos hle htimeout
  have hhandler : ∀ response, dispatchOpcode st
      ((semopRequest stack semid operations timeout).withId id) actor env response =
        ((st.tryopDetail semid operations actor.pid env.now).1, response,
          (st.tryopDetail semid operations actor.pid env.now).2.2) := by
    intro response
    have hsemop : dispatchOpcode st ((semopRequest stack semid operations timeout).withId id) actor
        env response = dispatchSemop st
          ((semopRequest stack semid operations timeout).withId id) actor.pid env response := by
      cases timeout <;> simp only [dispatchOpcode, hcarries.opcode] <;> rfl
    rw [hsemop, dispatchSemop, hdecoded]
    simp only [if_neg hblocked]
  have hbuilt := (hrequest stack).trans (semopCall_eq_ok stack semid hpos hle htimeout)
  rw [roundTrip_of_handler hpid hbuilt hcarries 0 scratch.payload (hhandler _), hreply,
    semopReply_answer _ _ hblocked, hdirect]

lemma agrees_semop (hpid : 0 < actor.pid) {semid : Int32} {operations : List SemOp}
    (h : (ClientCall.semop semid operations).Admitted st actor env) :
    (ClientCall.semop semid operations).Agrees st actor env :=
  agrees_operations hpid none (by simp) h (fun _ => rfl) (fun _ _ => rfl) rfl

lemma agrees_semtimedop (hpid : 0 < actor.pid) {semid : Int32} {operations : List SemOp}
    {timeout : Int64} (h : (ClientCall.semtimedop semid operations timeout).Admitted st actor env) :
    (ClientCall.semtimedop semid operations timeout).Agrees st actor env :=
  agrees_operations hpid (some timeout) (by simpa using h.2) h.1 (fun _ => rfl)
    (fun _ _ => rfl) rfl

/-! ### Replies with a payload -/

lemma answer_of_nonneg {result : Int32} (h : 0 ≤ result) (request : ProtocolPacket)
    (length : UInt32) (payload : Buffer) :
    answer request length payload result =
      ⟨{ (prepareResponse request request).header with
          payloadLength := length, result := result }, payload⟩ := by
  simp [answer, sealResponse, Int32.not_lt.mpr h]

lemma SemStore.getall_cases (st : SemStore) (semid : Int32) (count : ℕ) :
    st.getall semid count = (-EINVAL, none) ∨
      ∃ i, st.findSet semid = some i ∧ count = (st.sets i).nsems ∧
        st.getall semid count = (0, some ((st.sets i).values.take count)) := by
  unfold SemStore.getall
  cases hf : st.findSet semid with
  | none => exact Or.inl rfl
  | some i =>
    by_cases hcount : count = (st.sets i).nsems
    · exact Or.inr ⟨i, rfl, hcount, if_neg (not_not.mpr hcount)⟩
    · exact Or.inl (if_pos hcount)

/-- The loop of `dispatch_getall`. -/
def putValues (b : Buffer) (values : List ℕ) : Buffer :=
  (List.range values.length).foldl
    (fun b i => wirePutU16 b (4 + i * 2) (UInt16.ofNat (values.getD i 0))) b

/-- The client reads the values the broker wrote. -/
lemma getallReply_putValues {values : List ℕ}
    (hle : values.length ≤ semMaxPerSet) (hvalues : ∀ v ∈ values, v ≤ semMaxValue)
    (request : ProtocolPacket) (b : Buffer) :
    getallReply values.length (answer request (UInt32.ofNat (4 + values.length * 2))
      (putValues (wirePutU32 b 0 (UInt32.ofNat values.length)) values) 0) =
        ⟨0, .values values, false⟩ := by
  have hmax : semMaxPerSet = 512 := rfl
  have hlarge : uint32Max = 4294967295 := rfl
  set payload := putValues (wirePutU32 b 0 (UInt32.ofNat values.length)) values with hpayload
  have hlength : (answer request (UInt32.ofNat (4 + values.length * 2)) payload 0).length =
      4 + values.length * 2 := by
    rw [answer_of_nonneg (Int32.le_refl 0)]
    exact toNat_ofNat_of_le (by omega)
  have hcount : (wireGetU32 payload 0).toNat = values.length := by
    rw [← toNat_ofNat_of_le (n := values.length) (by omega)]
    refine congrArg UInt32.toNat ((Wire.u16.get_foldl_put_of_disjoint Wire.u32
      (fun i => 4 + i * 2) fun i _ => Or.inl (Nat.le_add_right _ _)).trans ?_)
    simp
  have helements : (List.range values.length).map (fun i =>
      (wireGetU16 payload (4 + i * 2)).toNat) = values := by
    have hpairs : (List.range values.length).Pairwise fun i j => 4 + i * 2 + 2 ≤ 4 + j * 2 :=
      List.pairwise_lt_range.imp fun hij => by omega
    apply List.ext_getElem
    · simp
    · intro i hi hi'
      rw [List.getElem_map, List.getElem_range, hpayload, putValues]
      have hget := Wire.u16.get_foldl_put (m := wirePutU32 b 0 (UInt32.ofNat values.length))
        (fun i => 4 + i * 2) (fun i => UInt16.ofNat (values.getD i 0)) hpairs
        (List.mem_range.mpr hi')
      refine (congrArg UInt16.toNat hget).trans ?_
      have hv := hvalues values[i] (List.getElem_mem hi')
      have hmaxValue : semMaxValue = 32767 := rfl
      rw [UInt16.toNat_ofNat', List.getD_eq_getElem _ _ hi', Nat.mod_eq_of_lt (by omega)]
  have hresult : (answer request (UInt32.ofNat (4 + values.length * 2)) payload 0).header.result =
      0 := rfl
  have hbuffer : (answer request (UInt32.ofNat (4 + values.length * 2)) payload 0).payload =
      payload := rfl
  rw [getallReply, if_neg (by rw [hresult]; simp), hlength, hbuffer, hcount, if_neg (by simp),
    helements]

lemma agrees_getall (hpid : 0 < actor.pid) (hst : st.Inv) (semid : Int32) (count : ℕ) :
    (ClientCall.getall semid count).Agrees st actor env := by
  by_cases hcount : count = 0 ∨ count > semMaxPerSet
  · refine agrees_of_refused (e := -EINVAL) (fun stack => if_pos hcount) ?_
    have hrefused : st.getall semid count = (-EINVAL, none) := by
      rw [SemStore.getall]
      cases hf : st.findSet semid with
      | none => rfl
      | some i => exact if_pos (hst.nsems_ne hf hcount)
    simp only [ClientCall.direct, hrefused, outputOr]
  · intro id stack scratch
    have hmax : semMaxPerSet < uint32Max := by decide
    have hn : (UInt32.ofNat count).toNat = count := toNat_ofNat_of_le (by omega)
    have h : Carries ((getallRequest stack semid count).withId id) .getall 8 :=
      carries_requestInit .getall (by decide) _
    have hsemid : wireGetI32 ((getallRequest stack semid count).withId id).payload 0 = semid := by
      simp [getallRequest]
    have hlength : (wireGetU32 ((getallRequest stack semid count).withId id).payload 4).toNat =
        count := by
      simpa [getallRequest] using hn
    have hrequest : (ClientCall.getall semid count).request stack =
        .ok (getallRequest stack semid count) := if_neg hcount
    have hsize : ¬ ((getallRequest stack semid count).withId id).length ≠ semnumSize := by
      rw [h.length]
      decide
    have hreply : ∀ response, correlates ((getallRequest stack semid count).withId id) response =
        true → (ClientCall.getall semid count).reply ((getallRequest stack semid count).withId id)
          response = getallReply count response := by
      intro response hc
      simp [ClientCall.reply, hc]
    rcases st.getall_cases semid count with hall | ⟨i, hf, rfl, hall⟩
    · have hhandler : ∀ response, dispatchOpcode st ((getallRequest stack semid count).withId id)
          actor env response = (-EINVAL, response, st) := by
        intro response
        simp only [dispatchOpcode, h.opcode, dispatchGetall, if_neg hsize, hsemid, hlength,
          if_neg hcount, hall]
        rfl
      rw [roundTrip_of_handler hpid hrequest h 0 scratch.payload (hhandler _),
        hreply _ (correlates_answer _ _ _ _)]
      simp only [ClientCall.direct, hall, outputOr]
      rfl
    · have hvalid := hst.valid_of_findSet hf
      have hvalues : (st.sets i).values.length = (st.sets i).nsems := hvalid.values_length
      have htake : (st.sets i).values.take (st.sets i).nsems = (st.sets i).values :=
        List.take_of_length_le hvalues.le
      rw [htake] at hall
      set response := prepareResponse ((getallRequest stack semid (st.sets i).nsems).withId id)
        scratch with hresponse
      set payload := putValues (wirePutU32 scratch.payload 0 (UInt32.ofNat (st.sets i).nsems))
        (st.sets i).values with hpayload
      have hhandler : dispatchOpcode st ((getallRequest stack semid (st.sets i).nsems).withId id)
          actor env response = (0, ⟨{ response.header with
            payloadLength := UInt32.ofNat (4 + (st.sets i).nsems * 2) }, payload⟩, st) := by
        simp only [dispatchOpcode, h.opcode, dispatchGetall, if_neg hsize, hsemid, hlength,
          if_neg hcount, hall, withStore, hpayload, putValues, hvalues]
        rfl
      rw [roundTrip_of_handler hpid hrequest h _ _ hhandler, hreply _ (correlates_answer _ _ _ _)]
      simp only [ClientCall.direct, hall, outputOr]
      rw [hpayload, ← hvalues, getallReply_putValues (hvalues ▸ hvalid.nsems_le) hvalid.values_le]

/-- A lookup of metadata: nothing and an error, or something and a non-negative result. -/
def FindsMetadata (lookup : Int32 × Option SemMetadata) : Prop :=
  lookup = (-EINVAL, none) ∨ ∃ result metadata, 0 ≤ result ∧ lookup = (result, some metadata)

lemma SemStore.getMetadata_cases (st : SemStore) (semid : Int32) :
    st.getMetadata semid = (-EINVAL, none) ∨
      0 < semid ∧ ∃ metadata, st.getMetadata semid = (0, some metadata) := by
  rw [SemStore.getMetadata]
  split
  next i index generation _ hdecoded =>
    refine Or.inr ⟨?_, _, rfl⟩
    by_contra hneg
    rw [decodeId, if_pos (Int32.not_lt.mp hneg)] at hdecoded
    cases hdecoded
  · exact Or.inl rfl

lemma findsMetadata_getMetadata (st : SemStore) (semid : Int32) :
    FindsMetadata (st.getMetadata semid) := by
  rcases st.getMetadata_cases semid with h | ⟨-, metadata, h⟩
  · exact Or.inl h
  · exact Or.inr ⟨0, metadata, Int32.le_refl 0, h⟩

lemma findsMetadata_statIndex (st : SemStore) (index : ℕ) :
    FindsMetadata (st.statIndex index) := by
  rw [SemStore.statIndex]
  by_cases hindex : index < semMaxSets
  · rw [dif_pos hindex]
    by_cases hactive : (st.sets ⟨index, hindex⟩).active = true
    · rw [if_pos hactive]
      rcases st.getMetadata_cases (makeId index (st.sets ⟨index, hindex⟩).generation) with
        hm | ⟨hpos, metadata, hm⟩
      · simp only [hm]
        exact Or.inl rfl
      · simp only [hm, if_true]
        exact Or.inr ⟨_, metadata, Int32.le_of_lt hpos, rfl⟩
    · rw [if_neg hactive]
      exact Or.inl rfl
  · rw [dif_neg hindex]
    exact Or.inl rfl

/-- The client reads the metadata the broker wrote. -/
lemma decodeMetadataResponse_encodeMetadata {result : Int32} (h : 0 ≤ result)
    (request response : ProtocolPacket) (metadata : SemMetadata) :
    decodeMetadataResponse (answer request metadataSize
      (encodeMetadata response metadata).payload result) = ⟨result, .metadata metadata, false⟩ := by
  rw [answer_of_nonneg h, decodeMetadataResponse, if_neg (Int32.not_lt.mpr h), if_neg]
  · simp [encodeMetadata]
  · simp [encodeMetadata, metadataSize]

/-- The answer to a call that asks for metadata. -/
lemma roundTrip_metadata (hpid : 0 < actor.pid) {opcode : Opcode} {n : ℕ}
    (hrequest : call.request stack = .ok request) (hcarries : Carries (request.withId id) opcode n)
    {lookup : Int32 × Option SemMetadata} (hlookup : FindsMetadata lookup)
    (hhandler : ∀ response, dispatchOpcode st (request.withId id) actor env response =
      withStore st (answerMetadata lookup response)) :
    ∃ response, correlates (request.withId id) response = true ∧
      decodeMetadataResponse response = ⟨lookup.1, outputOr .metadata lookup.2, false⟩ ∧
      call.roundTrip st actor env id stack scratch =
        (call.reply (request.withId id) response, st) := by
  rcases hlookup with rfl | ⟨result, metadata, hresult, rfl⟩
  · exact ⟨_, correlates_answer _ _ _ _, rfl, roundTrip_of_handler hpid hrequest
      hcarries 0 scratch.payload (hhandler _)⟩
  · exact ⟨_, correlates_answer _ _ _ _, decodeMetadataResponse_encodeMetadata hresult _ _ _,
      roundTrip_of_handler hpid hrequest hcarries _ _ (hhandler _)⟩

lemma agrees_stat (hpid : 0 < actor.pid) (semid : Int32) :
    (ClientCall.stat semid).Agrees st actor env := by
  intro id stack scratch
  have h : Carries ((statRequest stack semid).withId id) .stat 4 :=
    carries_requestInit .stat (by decide) _
  have hhandler : ∀ response, dispatchOpcode st ((statRequest stack semid).withId id) actor env
      response = withStore st (answerMetadata (st.getMetadata semid) response) := by
    intro response
    have hsize : ¬ ((statRequest stack semid).withId id).length ≠ semidSize := by
      rw [h.length]
      decide
    have hsemid : wireGetI32 ((statRequest stack semid).withId id).payload 0 = semid := by
      simp [statRequest]
    simp only [dispatchOpcode, h.opcode, dispatchStat, if_neg hsize, hsemid]
  have hrequest : (ClientCall.stat semid).request stack = .ok (statRequest stack semid) := rfl
  obtain ⟨response, hc, hdecode, hround⟩ :=
    roundTrip_metadata hpid hrequest h (findsMetadata_getMetadata st semid) hhandler
  rw [hround]
  simp only [ClientCall.reply, hc, Bool.true_eq_false, if_false, statReply, hdecode,
    ClientCall.direct]
  rcases st.getMetadata_cases semid with hm | ⟨-, metadata, hm⟩
  · simp only [hm]
    rfl
  · simp only [hm]
    rfl

lemma agrees_statIndex (hpid : 0 < actor.pid) (index : ℕ) :
    (ClientCall.statIndex index).Agrees st actor env := by
  by_cases hlarge : index > uint32Max
  · refine agrees_of_refused (e := -EINVAL) (fun stack => if_pos hlarge) ?_
    have hmax : semMaxSets < uint32Max := by decide
    have hrefused : st.statIndex index = (-EINVAL, none) := dif_neg (by omega)
    simp only [ClientCall.direct, hrefused, outputOr]
  · intro id stack scratch
    have h : Carries ((statIndexRequest stack (UInt32.ofNat index)).withId id) .statIndex 4 :=
      carries_requestInit .statIndex (by decide) _
    have hhandler : ∀ response, dispatchOpcode st
        ((statIndexRequest stack (UInt32.ofNat index)).withId id) actor env response =
          withStore st (answerMetadata (st.statIndex index) response) := by
      intro response
      have hsize :
          ¬ ((statIndexRequest stack (UInt32.ofNat index)).withId id).length ≠ semidSize := by
        rw [h.length]
        decide
      have hindex : (wireGetU32 ((statIndexRequest stack
          (UInt32.ofNat index)).withId id).payload 0).toNat = index := by
        have hn := toNat_ofNat_of_le (not_lt.mp hlarge)
        simpa [statIndexRequest] using hn
      simp only [dispatchOpcode, h.opcode, dispatchStatIndex, if_neg hsize, hindex]
    have hrequest : (ClientCall.statIndex index).request stack =
        .ok (statIndexRequest stack (UInt32.ofNat index)) := if_neg hlarge
    obtain ⟨response, hc, hdecode, hround⟩ :=
      roundTrip_metadata hpid hrequest h (findsMetadata_statIndex st index) hhandler
    rw [hround]
    simp only [ClientCall.reply, hc, Bool.true_eq_false, if_false, hdecode, ClientCall.direct]

/-- The client reads the fields the broker wrote. -/
lemma infoReply_fields {result : Int32} (h : 0 ≤ result) (request : ProtocolPacket) (b : Buffer)
    (info : SemInfo) :
    infoReply (answer request 40
      (info.fields.zipIdx.foldl (fun b field => wirePutI32 b (field.2 * 4) field.1) b) result) =
        ⟨result, .info info, false⟩ := by
  rw [answer_of_nonneg h, infoReply, if_neg (Int32.not_lt.mpr h), if_neg (by simp)]
  simp [SemInfo.fields]

lemma agrees_info (hpid : 0 < actor.pid) {dynamic : Int32}
    (hdynamic : (ClientCall.info dynamic).Admitted st actor env) :
    (ClientCall.info dynamic).Agrees st actor env := by
  intro id stack scratch
  have hchecks : ¬ (dynamic ≠ 0 ∧ dynamic ≠ 1) := by
    rintro ⟨h0, h1⟩
    exact hdynamic.elim h0 h1
  have h : Carries ((infoRequest stack dynamic).withId id) .info 4 :=
    carries_requestInit .info (by decide) _
  have hresult : 0 ≤ (st.info (dynamic = 1)).1 := st.info_nonneg _
  have hhandler : dispatchOpcode st ((infoRequest stack dynamic).withId id) actor env
      (prepareResponse ((infoRequest stack dynamic).withId id) scratch) =
        ((st.info (dynamic = 1)).1,
          ⟨{ (prepareResponse ((infoRequest stack dynamic).withId id) scratch).header with
              payloadLength := 40 },
            (st.info (dynamic = 1)).2.fields.zipIdx.foldl
              (fun b field => wirePutI32 b (field.2 * 4) field.1) scratch.payload⟩, st) := by
    have hsize : ¬ ((infoRequest stack dynamic).withId id).length ≠ 4 := by
      rw [h.length]
      decide
    have hword :
        wireGetU32 ((infoRequest stack dynamic).withId id).payload 0 = dynamic.toUInt32 := by
      simp [infoRequest]
    have hkind : ¬ dynamic.toUInt32 > 1 ∧ (dynamic.toUInt32 = 1 ↔ dynamic = 1) := by
      rcases hdynamic with rfl | rfl
      · decide
      · decide
    simp only [dispatchOpcode, h.opcode, dispatchInfo, if_neg hsize, hword, if_neg hkind.1,
      hkind.2, if_neg (Int32.not_lt.mpr hresult)]
    rfl
  have hrequest : (ClientCall.info dynamic).request stack = .ok (infoRequest stack dynamic) :=
    if_neg hchecks
  rw [roundTrip_of_handler hpid hrequest h _ _ hhandler]
  simp only [ClientCall.reply, correlates_answer, Bool.true_eq_false, if_false,
    infoReply_fields hresult, ClientCall.direct]

/-! ### All calls -/

theorem ClientCall.Admitted.agrees (h : call.Admitted st actor env) (hst : st.Inv)
    (hpid : 0 < actor.pid) : call.Agrees st actor env := by
  cases call with
  | ping => exact agrees_ping hpid
  | semget key nsems flags => exact agrees_semget hpid h
  | remove semid => exact agrees_remove hpid semid
  | getval semid semnum => exact (Reads.getval semid semnum).agrees hpid hst
  | setval semid semnum value => exact agrees_setval hpid hst semid semnum value
  | getpid semid semnum => exact (Reads.getpid semid semnum).agrees hpid hst
  | getncnt semid semnum => exact (Reads.getncnt semid semnum).agrees hpid hst
  | getzcnt semid semnum => exact (Reads.getzcnt semid semnum).agrees hpid hst
  | getall semid count => exact agrees_getall hpid hst semid count
  | setall semid values => exact agrees_setall hpid hst semid values
  | semop semid operations => exact agrees_semop hpid h
  | semtimedop semid operations timeout => exact agrees_semtimedop hpid h
  | stat semid => exact agrees_stat hpid semid
  | statIndex index => exact agrees_statIndex hpid index
  | setMetadata semid uid gid mode => exact agrees_setMetadata hpid semid uid gid mode
  | info dynamic => exact agrees_info hpid h

lemma FindsMetadata.resultOk {lookup : Int32 × Option SemMetadata} (h : FindsMetadata lookup) :
    SemStore.ResultOk lookup.1 := by
  rcases h with rfl | ⟨result, metadata, hresult, rfl⟩
  · exact SemStore.resultOk_error (e := -EINVAL) (by decide)
  · exact Or.inl hresult

/-- A call on the store returns no error of the protocol. `GETPID` returns a pid the store was
given. -/
lemma ClientCall.direct_resultOk (hst : st.Inv)
    (hpids : (∃ semid semnum, call = .getpid semid semnum) →
      ∀ i, ∀ pid ∈ (st.sets i).lastPids, 0 ≤ pid) :
    SemStore.ResultOk (call.direct st actor env).1 := by
  cases call with
  | ping => exact SemStore.resultOk_zero
  | semget key nsems flags => exact SemStore.getAs_result hst _ _ _ _ _ _
  | remove semid => exact SemStore.remove_result _ _
  | getval semid semnum => exact SemStore.getval_result hst _ _
  | setval semid semnum value => exact SemStore.setval_result _ _ _ _ _ _
  | getpid semid semnum => exact SemStore.getpid_result (hpids ⟨semid, semnum, rfl⟩) _ _
  | getncnt semid semnum => exact SemStore.getWaitCount_result _ _ _ _
  | getzcnt semid semnum => exact SemStore.getWaitCount_result _ _ _ _
  | getall semid count =>
    simp only [direct]
    rcases st.getall_cases semid count with h | ⟨i, -, -, h⟩
    · rw [h]
      exact SemStore.resultOk_error (e := -EINVAL) (by decide)
    · rw [h]
      exact SemStore.resultOk_zero
  | setall semid values => exact SemStore.setall_result _ _ _ _ _
  | semop semid operations => exact SemStore.tryopDetail_result hst _ _ _ _
  | semtimedop semid operations timeout => exact SemStore.tryopDetail_result hst _ _ _ _
  | stat semid => exact (findsMetadata_getMetadata st semid).resultOk
  | statIndex index => exact (findsMetadata_statIndex st index).resultOk
  | setMetadata semid uid gid mode => exact SemStore.setMetadata_result _ _ _ _ _ _ _
  | info dynamic => exact Or.inl (st.info_nonneg (decide (dynamic = 1)))

/-- For every reachable store and every authenticated actor, a call through the broker has the
result, the output and the effect of the call on the store, and keeps the connection open. Neither
`-EPROTO` nor `-EMSGSIZE` arises; a result of `GETPID` is one of the pids the store was given. -/
theorem client_agrees_with_store (calls : List StoreOp) {actor : BrokerActor}
    (hpid : 0 < actor.pid) (env : DispatchEnv) {call : ClientCall}
    (h : call.Admitted (SemStore.create.run calls) actor env) :
    let st := SemStore.create.run calls
    (∀ id stack scratch, call.roundTrip st actor env id stack scratch =
      (⟨(call.direct st actor env).1, (call.direct st actor env).2.1, false⟩,
        (call.direct st actor env).2.2)) ∧
    (((∃ semid semnum, call = .getpid semid semnum) →
        ∀ i, ∀ pid ∈ (st.sets i).lastPids, 0 ≤ pid) →
      (call.direct st actor env).1 ≠ -EPROTO ∧ (call.direct st actor env).1 ≠ -EMSGSIZE) := by
  intro st
  have hst : st.Inv := SemStore.inv_run calls
  refine ⟨h.agrees hst hpid, ?_⟩
  intro hpids
  have hresult : SemStore.ResultOk (call.direct st actor env).1 :=
    ClientCall.direct_resultOk hst hpids
  exact ⟨hresult.ne (by decide) (by decide), hresult.ne (by decide) (by decide)⟩

/-- `SETALL` on a set with two semaphores. -/
theorem client_agrees_with_store_setall :
    let st := SemStore.create.run [.getAs 5 2 ipcCreat ⟨1000, 1000⟩ true 0]
    let call := ClientCall.setall 65537 [3, 70]
    let actor : BrokerActor := ⟨42, ⟨1000, 1000⟩⟩
    ∀ id stack scratch, call.roundTrip st actor ⟨true, 0⟩ id stack scratch =
      (⟨(call.direct st actor ⟨true, 0⟩).1, .nothing, false⟩,
        (call.direct st actor ⟨true, 0⟩).2.2) := by
  intro st call actor
  have hcall : call.Admitted st actor ⟨true, 0⟩ := trivial
  exact (client_agrees_with_store [.getAs 5 2 ipcCreat ⟨1000, 1000⟩ true 0] (by decide) ⟨true, 0⟩
    hcall).1

/-- The dispatcher refuses an actor without a pid, which the store does not ask for. A pid that
was recorded by a call on the store comes back from `GETPID`, also one that reads as `-EPROTO`. -/
theorem client_disagrees_without_pid :
    let call := ClientCall.semget 5 1 ipcCreat
    let actor : BrokerActor := ⟨0, ⟨1000, 1000⟩⟩
    let env : DispatchEnv := ⟨true, 0⟩
    let st := SemStore.create.run
      [.getAs 5 1 ipcCreat ⟨1000, 1000⟩ true 0, .setval 65537 0 1 (-EPROTO) 0]
    (call.Admitted SemStore.create actor env ∧
      (call.roundTrip SemStore.create actor env 1 (fun _ => 0)
        (pingRequest fun _ => 0)).1.result = -ECONNRESET ∧
      (call.direct SemStore.create actor env).1 = 65537) ∧
    ((ClientCall.getpid 65537 0).roundTrip st ⟨42, ⟨1000, 1000⟩⟩ env 1 (fun _ => 0)
      (pingRequest fun _ => 0)).1.result = -EPROTO := by
  refine ⟨⟨?_, ?_, ?_⟩, ?_⟩
  · exact (by decide : ipcCreat.toUInt32 &&& ~~~((ipcCreat ||| ipcExcl).toUInt32 ||| 0o777) = 0)
  · decide +kernel
  · decide +kernel
  · decide +kernel

end Tgcompat
