import Tgcompat.Broker.Ownership
import Tgcompat.Client.Agreement
import Tgcompat.Library.Writers

/-!
# From the caller to the store and back

What holds of the client, of the connection, of the broker and of the store comes together here. A
call is encoded on the client's stack, travels as bytes, is served among the requests of others, and
its answer travels back as bytes. What the caller gets is what the operation of the store returns at
the place of the request in the log of the broker.
-/

namespace Tgcompat

open Layout

variable {call : ClientCall} {stack : Buffer} {id : UInt32} {n : ℕ} {opcode : Opcode}
  {build : Buffer → ProtocolPacket} {p q request got response : ProtocolPacket}

/-! ### Bytes determine a packet -/

/-- Two packets with the same header and the same bytes. -/
structure SameBytes (p q : ProtocolPacket) : Prop where
  header : p.header = q.header
  payload : ∀ n < q.length, p.payload n = q.payload n

lemma headerBytes_injective {header header' : ProtocolHeader} (h : headerIsValid header = 0)
    (h' : headerIsValid header' = 0) (heq : headerBytes header = headerBytes header') :
    header = header' := by
  have hdecode := @decodeHeader_headerBytes header header (fun _ => 0) h
  rw [heq, decodeHeader_headerBytes h'] at hdecode
  exact (congrArg Prod.snd hdecode).symm

lemma sameBytes_of_frame (hp : headerIsValid p.header = 0) (hq : headerIsValid q.header = 0)
    (h : p.frame = q.frame) : SameBytes p q := by
  have hlength : (headerBytes p.header).length = (headerBytes q.header).length := by simp
  obtain ⟨hbytes, hpayload⟩ := List.append_inj h hlength
  have hheader := headerBytes_injective hp hq hbytes
  refine ⟨hheader, fun n hn => ?_⟩
  have hn' : n < p.length := by rwa [ProtocolPacket.length, hheader]
  have hget : (readBytes p.payload 0 p.length)[n]? = (readBytes q.payload 0 q.length)[n]? := by
    rw [hpayload]
  simpa [readBytes, hn, hn'] using hget

lemma SameBytes.get {α : Type} (h : SameBytes p q) (f : Field UInt8 α) {off : ℕ}
    (hoff : off + f.width ≤ q.length) : f.get p.payload off = f.get q.payload off :=
  f.get_congr fun n _ hn => h.payload n (by omega)

/-! ### Requests -/

/-- A packet that is written on the stack and fills its payload. -/
structure Builds (build : Buffer → ProtocolPacket) (opcode : Opcode) (n : ℕ) : Prop where
  header : ∀ stack, (build stack).header = (requestInit stack opcode n).header
  payload : Fills (fun stack => (build stack).payload) 0 n
  fits : n ≤ protocolMaxPayload

lemma Builds.length (h : Builds build opcode n) (stack : Buffer) :
    ((build stack).withId id).length = n := by
  have hlt : n < 2 ^ 32 := lt_of_le_of_lt h.fits (by decide)
  simpa [ProtocolPacket.length, ProtocolPacket.withId, h.header, requestInit] using hlt

lemma Builds.headerIsValid (h : Builds build opcode n) (stack : Buffer) (id : UInt32) :
    headerIsValid ((build stack).withId id).header = 0 := by
  have hlength : ((build stack).withId id).header.payloadLength.toNat ≤ protocolMaxPayload :=
    (h.length stack).le.trans h.fits
  have hopcode : ¬ (opcode.code < Opcode.ping.code ∨ opcode.code > Opcode.statIndex.code) := by
    cases opcode <;> decide
  rw [Tgcompat.headerIsValid, if_neg, if_neg, if_neg, if_neg (not_lt.mpr hlength), if_neg]
  · simp [ProtocolPacket.withId, h.header, requestInit]
  · simpa [ProtocolPacket.withId, h.header, requestInit] using hopcode
  · simp [ProtocolPacket.withId, h.header, requestInit]
  · simp [ProtocolPacket.withId, h.header, requestInit]

/-- Whoever receives the bytes of a request holds the request as it would have been built on their
own buffer. -/
lemma Builds.received (h : Builds build opcode n)
    (hsame : SameBytes got ((build stack).withId id)) :
    (build got.payload).withId id = got := by
  have hpayload : (build got.payload).payload = got.payload := by
    have hbytes : ∀ k, 0 ≤ k → k < n → got.payload k = (build stack).payload k :=
      fun k _ hk => hsame.payload k (by rwa [h.length])
    exact h.payload.eq_self hbytes
  refine ProtocolPacket.ext ?_ hpayload
  rw [hsame.header]
  simp [ProtocolPacket.withId, h.header, requestInit]

lemma builds_semnum (opcode : Opcode) (semid : Int32) (semnum : UInt32) :
    Builds (semnumRequest · opcode semid semnum) opcode 8 where
  header _ := rfl
  payload := (Wire.i32.fills 0 semid).comp (Wire.u32.fills 4 semnum) (by decide) (by decide)
  fits := by decide

lemma builds_semget (key nsems flags : Int32) :
    Builds (semgetRequest · key nsems flags) .semget 12 where
  header _ := rfl
  payload := ((Wire.i32.fills 0 key).comp (Wire.i32.fills 4 nsems) (by decide) (by decide)).comp
    (Wire.u32.fills 8 flags.toUInt32) (by decide) (by decide)
  fits := by decide

lemma builds_setval (semid : Int32) (semnum value : UInt32) :
    Builds (setvalRequest · semid semnum value) .setval 12 where
  header _ := rfl
  payload := ((Wire.i32.fills 0 semid).comp (Wire.u32.fills 4 semnum) (by decide) (by decide)).comp
    (Wire.u32.fills 8 value) (by decide) (by decide)
  fits := by decide

lemma builds_setMetadata (semid : Int32) (uid gid mode : UInt32) :
    Builds (setMetadataRequest · semid uid gid mode) .setmeta 16 where
  header _ := rfl
  payload := (((Wire.i32.fills 0 semid).comp (Wire.u32.fills 4 uid) (by decide) (by decide)).comp
    (Wire.u32.fills 8 gid) (by decide) (by decide)).comp (Wire.u32.fills 12 mode) (by decide)
    (by decide)
  fits := by decide

/-- The array of values stands behind the identifier and the count. -/
lemma builds_setall (semid : Int32) {values : List UInt16} (h : values.length ≤ semMaxPerSet) :
    Builds (setallRequest · semid values) .setall (8 + values.length * 2) where
  header _ := rfl
  payload := ((Wire.i32.fills 0 semid).comp
    (Wire.u32.fills 4 (UInt32.ofNat values.length)) (by decide) (by decide)).comp
    (Wire.u16.fills_foldl_zipIdx 8 values fun value => value) (by decide) (Nat.le_add_right _ _)
  fits := by
    have hmax : semMaxPerSet = 512 := rfl
    have hpayload : protocolMaxPayload = 8192 := rfl
    omega

/-- The operation records stand behind the identifier, the count and the timeout. -/
lemma builds_semop (semid : Int32) {operations : List SemOp} (timeout : Option Int64)
    (h : operations.length ≤ semMaxPerSet) :
    Builds (semopRequest · semid operations timeout)
      (if timeout.isSome then .semtimedop else .semop)
      (semopPrefix timeout + operations.length * 8) where
  header _ := rfl
  payload := by
    have hhead : Fills (fun b => wirePutU32 (wirePutI32 b 0 semid) 4
        (UInt32.ofNat operations.length)) 0 8 :=
      (Wire.i32.fills 0 semid).comp (Wire.u32.fills 4 _) (by decide) (by decide)
    have hrecords := Wire.op.fills_foldl_zipIdx (semopPrefix timeout) operations
      fun op => (op, (0 : UInt16))
    cases timeout with
    | none => exact hhead.comp hrecords (by decide) (Nat.le_add_right _ _)
    | some ns =>
      exact (hhead.comp (Wire.i64.fills 8 ns) (by decide) (by decide)).comp hrecords (by decide)
        (Nat.le_add_right _ _)
  fits := by
    have hsmall : semopPrefix timeout ≤ 16 := by
      cases timeout with
      | none => decide
      | some ns => exact le_rfl
    have hmax : semMaxPerSet = 512 := rfl
    have hpayload : protocolMaxPayload = 8192 := rfl
    omega

/-- What a call sends does not depend on what was on the stack. -/
structure ClientCall.Sends (call : ClientCall) (stack : Buffer) (request : ProtocolPacket)
    (build : Buffer → ProtocolPacket) (opcode : Opcode) (n : ℕ) : Prop where
  builds : Builds build opcode n
  built : request = build stack
  anywhere : ∀ stack', call.request stack' = .ok (build stack')

lemma ClientCall.sends_semnum {semid : Int32} {semnum : ℕ}
    (hcall : ∀ stack, call.request stack = semnumCall stack opcode semid semnum)
    (h : call.request stack = .ok request) :
    ∃ build opcode n, call.Sends stack request build opcode n := by
  rw [hcall, semnumCall] at h
  split_ifs at h with hlarge
  cases h
  exact ⟨_, _, _, builds_semnum opcode semid _, rfl, fun stack' =>
    (hcall stack').trans (if_neg hlarge)⟩

lemma ClientCall.sends_operations {semid : Int32} {operations : List SemOp}
    {timeout : Option Int64}
    (hcall : ∀ stack, call.request stack = semopCall stack semid operations timeout)
    (h : call.request stack = .ok request) :
    ∃ build opcode n, call.Sends stack request build opcode n := by
  rw [hcall, semopCall] at h
  split_ifs at h with hrefused
  cases h
  refine ⟨_, _, _, builds_semop semid timeout ?_, rfl, fun stack' =>
    (hcall stack').trans (if_neg hrefused)⟩
  simp only [not_or, not_lt] at hrefused
  exact hrefused.2.1

lemma ClientCall.sends (h : call.request stack = .ok request) :
    ∃ build opcode n, call.Sends stack request build opcode n := by
  cases call with
  | ping =>
    cases h
    exact ⟨_, _, _, ⟨fun _ => rfl, fills_id 0, by decide⟩, rfl, fun _ => rfl⟩
  | semget key nsems flags =>
    cases h
    exact ⟨_, _, _, builds_semget key nsems flags, rfl, fun _ => rfl⟩
  | remove semid =>
    cases h
    exact ⟨(removeRequest · semid), .remove, 4,
      ⟨fun _ => rfl, Wire.i32.fills 0 semid, by decide⟩, rfl, fun _ => rfl⟩
  | getval semid semnum => exact sends_semnum (fun _ => rfl) h
  | setval semid semnum value =>
    simp only [ClientCall.request] at h
    split_ifs at h with hlarge
    cases h
    exact ⟨_, _, _, builds_setval semid _ value, rfl, fun _ => if_neg hlarge⟩
  | getpid semid semnum => exact sends_semnum (fun _ => rfl) h
  | getncnt semid semnum => exact sends_semnum (fun _ => rfl) h
  | getzcnt semid semnum => exact sends_semnum (fun _ => rfl) h
  | getall semid count =>
    simp only [ClientCall.request] at h
    split_ifs at h with hcount
    cases h
    exact ⟨_, _, _, builds_semnum .getall semid _, rfl, fun _ => if_neg hcount⟩
  | setall semid values =>
    simp only [ClientCall.request] at h
    split_ifs at h with hcount
    cases h
    exact ⟨_, _, _, builds_setall semid (not_lt.mp fun hlarge => hcount (Or.inr hlarge)), rfl,
      fun _ => if_neg hcount⟩
  | semop semid operations => exact sends_operations (fun _ => rfl) h
  | semtimedop semid operations timeout => exact sends_operations (fun _ => rfl) h
  | stat semid =>
    cases h
    exact ⟨(statRequest · semid), .stat, 4,
      ⟨fun _ => rfl, Wire.i32.fills 0 semid, by decide⟩, rfl, fun _ => rfl⟩
  | statIndex index =>
    simp only [ClientCall.request] at h
    split_ifs at h with hlarge
    cases h
    exact ⟨(statIndexRequest · (UInt32.ofNat index)), .statIndex, 4,
      ⟨fun _ => rfl, Wire.u32.fills 0 _, by decide⟩, rfl, fun _ => if_neg hlarge⟩
  | setMetadata semid uid gid mode =>
    cases h
    exact ⟨_, _, _, builds_setMetadata semid uid gid mode, rfl, fun _ => rfl⟩
  | info dynamic =>
    simp only [ClientCall.request] at h
    split_ifs at h with hdynamic
    cases h
    exact ⟨(infoRequest · dynamic), .info, 4, ⟨fun _ => rfl, Wire.u32.fills 0 _, by decide⟩, rfl,
      fun _ => if_neg hdynamic⟩

/-! ### Replies -/

lemma SameBytes.length (h : SameBytes p q) : p.length = q.length := by
  rw [ProtocolPacket.length, h.header]
  rfl

lemma SameBytes.getallReply (h : SameBytes got response) (count : ℕ) :
    getallReply count got = getallReply count response := by
  by_cases hlength : response.length = 4 + count * 2
  · have hcount : Wire.u32.get got.payload 0 = Wire.u32.get response.payload 0 :=
      h.get Wire.u32 (by rw [hlength, Wire.u32_width]; omega)
    have hvalues : (List.range count).map (fun i => (Wire.u16.get got.payload (4 + i * 2)).toNat) =
        (List.range count).map fun i => (Wire.u16.get response.payload (4 + i * 2)).toNat := by
      refine List.map_congr_left fun i hi => ?_
      have hlt := List.mem_range.mp hi
      rw [h.get Wire.u16 (by rw [hlength, Wire.u16_width]; omega)]
    simp only [Tgcompat.getallReply, Wire.get_u32, Wire.get_u16, h.header, h.length, hcount,
      hvalues]
    exact if_congr Iff.rfl rfl (if_congr Iff.rfl rfl rfl)
  · simp only [Tgcompat.getallReply, h.header, h.length, hlength, ne_eq, not_false_eq_true, true_or,
      if_true]

lemma SameBytes.decodeMetadataResponse (h : SameBytes got response) :
    decodeMetadataResponse got = decodeMetadataResponse response := by
  by_cases hlength : response.header.payloadLength = 56
  · have hbound : response.length = 56 := by rw [ProtocolPacket.length, hlength]; rfl
    have hu32 : ∀ off, off + 4 ≤ 56 →
        Wire.u32.get got.payload off = Wire.u32.get response.payload off :=
      fun off hoff => h.get Wire.u32 (hbound ▸ hoff)
    have hi64 : ∀ off, off + 8 ≤ 56 →
        Wire.i64.get got.payload off = Wire.i64.get response.payload off :=
      fun off hoff => h.get Wire.i64 (hbound ▸ hoff)
    have hkey : Wire.i32.get got.payload 0 = Wire.i32.get response.payload 0 :=
      h.get Wire.i32 (hbound ▸ (by decide : 0 + 4 ≤ 56))
    simp only [Tgcompat.decodeMetadataResponse, Wire.get_u32, Wire.get_i32, Wire.get_i64, h.header,
      hkey, hu32 4 (by decide), hu32 8 (by decide), hu32 12 (by decide), hu32 16 (by decide),
      hu32 20 (by decide), hu32 24 (by decide), hu32 28 (by decide), hu32 48 (by decide),
      hu32 52 (by decide), hi64 32 (by decide), hi64 40 (by decide)]
    exact if_congr Iff.rfl rfl (if_congr Iff.rfl rfl rfl)
  · simp only [Tgcompat.decodeMetadataResponse, h.header, hlength, ne_eq, not_false_eq_true,
      true_or, if_true]

lemma SameBytes.infoReply (h : SameBytes got response) : infoReply got = infoReply response := by
  by_cases hlength : response.header.payloadLength = 40
  · have hbound : response.length = 40 := by rw [ProtocolPacket.length, hlength]; rfl
    have hi32 : ∀ i < 10,
        Wire.i32.get got.payload (i * 4) = Wire.i32.get response.payload (i * 4) :=
      fun i hi => h.get Wire.i32 (by rw [hbound, Wire.i32_width]; omega)
    simp only [Tgcompat.infoReply, Wire.get_i32, h.header, hi32 0 (by decide), hi32 1 (by decide),
      hi32 2 (by decide), hi32 3 (by decide), hi32 4 (by decide), hi32 5 (by decide),
      hi32 6 (by decide), hi32 7 (by decide), hi32 8 (by decide), hi32 9 (by decide)]
  · simp only [Tgcompat.infoReply, h.header, hlength, ne_eq, not_false_eq_true, if_true]

/-- What a call makes of a response depends on the bytes that were sent. -/
lemma ClientCall.reply_congr (hrequest : p.header = q.header) (h : SameBytes got response) :
    call.reply p got = call.reply q response := by
  have hcorrelates : correlates p got = correlates q response := by
    simp only [correlates, h.header, hrequest]
  have hsemop : semopReply p got = semopReply q response := by
    simp only [semopReply, hcorrelates, h.header]
  have hscalar : scalarReply got = scalarReply response := by
    simp only [scalarReply, h.header]
  cases call with
  | getall semid count => simp only [reply, hcorrelates, h.getallReply]
  | semop semid operations => simp only [reply, hsemop]
  | semtimedop semid operations timeout => simp only [reply, hsemop]
  | stat semid => simp only [reply, hcorrelates, statReply, h.decodeMetadataResponse]
  | statIndex index => simp only [reply, hcorrelates, h.decodeMetadataResponse]
  | info dynamic => simp only [reply, hcorrelates, h.infoReply]
  | _ => simp only [reply, hcorrelates, hscalar]

/-! ### Calls that were answered -/

/-- The broker hands the arguments to the store. A `semget` with any flag but `IPC_CREAT`,
`IPC_EXCL` and the mode bits is refused by the broker, and would not be by the store. -/
def ClientCall.Carried : ClientCall → Prop
  | semget _ _ flags => flags.toUInt32 &&& ~~~((ipcCreat ||| ipcExcl).toUInt32 ||| 0o777) = 0
  | _ => True

variable {st : SemStore} {actor : BrokerActor} {env : DispatchEnv} {scratch : ProtocolPacket}

/-- Operations that were not told to wait do not have to wait. -/
lemma unblocked_of_answer (hpid : 0 < actor.pid) {semid : Int32} {operations : List SemOp}
    {timeout : Option Int64} (hrequest : semopCall stack semid operations timeout = .ok request)
    (hresult : (request.withId id).opcode.any Opcode.isSemop = true →
      (brokerDispatch st (request.withId id) actor env scratch).2.1.header.result ≠ semOpBlocked) :
    Unblocked st actor env semid operations ∧ ∀ ns ∈ timeout, 0 ≤ ns := by
  rw [semopCall] at hrequest
  split_ifs at hrequest with hrefused
  cases hrequest
  simp only [not_or, not_lt] at hrefused
  obtain ⟨hpos, hle, hnonneg⟩ := hrefused
  have htimeout : ∀ ns ∈ timeout, 0 ≤ ns := by
    intro ns hns
    rw [Option.mem_def] at hns
    subst hns
    simpa using hnonneg
  refine ⟨⟨Nat.one_le_iff_ne_zero.mpr hpos, hle, fun hblocked => ?_⟩, htimeout⟩
  have hcarries := carries_semopRequest stack id semid timeout hle
  have hdecoded := decodeSemop_semopRequest stack id semid (Nat.one_le_iff_ne_zero.mpr hpos) hle
    htimeout
  have hsemop : ((semopRequest stack semid operations timeout).withId id).opcode.any
      Opcode.isSemop = true := by
    rw [hcarries.opcode]
    cases timeout with
    | none => rfl
    | some ns => rfl
  refine hresult hsemop ?_
  rw [brokerDispatch_semop hpid hcarries.isRequest hsemop, dispatchSemop, hdecoded]
  simp only [if_pos hblocked]
  exact hblocked

lemma ClientCall.Carried.admitted (h : call.Carried) (hpid : 0 < actor.pid)
    (hrequest : call.request stack = .ok request)
    (hresult : (request.withId id).opcode.any Opcode.isSemop = true →
      (brokerDispatch st (request.withId id) actor env scratch).2.1.header.result ≠ semOpBlocked) :
    call.Admitted st actor env := by
  cases call with
  | semget key nsems flags => exact h
  | semop semid operations => exact (unblocked_of_answer hpid hrequest hresult).1
  | semtimedop semid operations timeout =>
    obtain ⟨hunblocked, htimeout⟩ := unblocked_of_answer hpid hrequest hresult
    exact ⟨hunblocked, htimeout timeout rfl⟩
  | info dynamic =>
    simp only [ClientCall.request] at hrequest
    split_ifs at hrequest with hdynamic
    rcases not_and_or.mp hdynamic with hzero | hone
    · exact Or.inl (not_not.mp hzero)
    · exact Or.inr (not_not.mp hone)
  | _ => trivial

lemma LogEntry.inv_apply (h : st.Inv) (entry : LogEntry) : (entry.apply st).Inv := by
  cases entry with
  | answer r packet actor env response =>
    rcases brokerDispatch_store st packet actor env response with heq | ⟨op, heq, -⟩
    · rw [LogEntry.apply, heq]
      exact h
    · rw [LogEntry.apply, heq]
      exact h.next op
  | count semid semnum waitForZero adjustment =>
    exact h.next (.adjustWaitCount semid semnum waitForZero adjustment)
  | exit pid now => exact h.processExit pid now

/-- The entry of a request, with the store that it was served on. -/
lemma Broker.Linearizes.entry {b : Broker} {log : List LogEntry} (h : Broker.Linearizes log b)
    {r : ℕ} (hr : r ∈ numbers log) {packet : ProtocolPacket} {outcome : Outcome}
    (hfinished : b.requests r = some ⟨packet, actor, .finished outcome⟩) :
    ∃ st st' env scratch, st.Inv ∧
      (st, LogEntry.answer r packet actor env scratch) ∈
        Transition.history LogEntry.apply SemStore.create log ∧
      brokerDispatch st packet actor env scratch = (0, outcome.response, st') := by
  obtain ⟨entry, hentry, hnumber⟩ := List.mem_filterMap.mp hr
  obtain ⟨st, hst⟩ := Transition.exists_mem_history SemStore.create hentry
  have hinv : st.Inv := Transition.history_invariant (I := SemStore.Inv)
    (fun _ entry hs => entry.inv_apply hs) SemStore.inv_create hst
  have hanswers := h.answers _ hst
  cases entry with
  | answer c packet' actor' env scratch =>
    cases hnumber
    obtain ⟨response, exit, hrequest, -, hzero, hresponse⟩ := hanswers
    cases hfinished.symm.trans hrequest
    exact ⟨st, _, env, scratch, hinv, hst, Prod.ext hzero (Prod.ext hresponse rfl)⟩
  | count semid semnum waitForZero adjustment => cases hnumber
  | exit pid now => cases hnumber

/-- In every run of the service there is a log that explains the broker, such that every call that a
worker has answered from the log, a `semget` with flags that the broker refuses excepted, returns to
its caller what the same call on the store returns at the place of the request in the log, and does
to the store what that call does. The request and the response travel as bytes: `got` is any packet
that the client may have received. -/
theorem served_calls_return_direct {uid : UInt32} {s : Service} (h : s.Reachable uid) :
    ∃ log, Broker.Linearizes log s.broker ∧
      ∀ (c : ℕ) (w : Worker) (e : Exchange), s.workers c = some w → e ∈ w.answered →
        e.number ∈ numbers log →
      ∀ (call : ClientCall) (stack : Buffer) (id : UInt32) (request got : ProtocolPacket),
        call.Carried → call.request stack = .ok request →
        e.request.frame = (request.withId id).frame →
        headerIsValid got.header = 0 → got.frame = e.response.frame →
        ∃ st env scratch,
          (st, LogEntry.answer e.number e.request w.actor env scratch) ∈
            Transition.history LogEntry.apply SemStore.create log ∧
          call.reply (request.withId id) got =
            ⟨(call.direct st w.actor env).1, (call.direct st w.actor env).2.1, false⟩ ∧
          (LogEntry.answer e.number e.request w.actor env scratch).apply st =
            (call.direct st w.actor env).2.2 := by
  have hok := h.ok
  obtain ⟨events, hexec⟩ := h.broker
  obtain ⟨hinv, log, hlog⟩ := Broker.linearizes_create.exec Broker.inv_create hexec
  refine ⟨log, hlog, ?_⟩
  intro c w e hc he hnumber call stack id request got hcarried hrequest hframe hgot hresponse
  have hpid := (hok.authentic c w hc).1
  have hsettled := (hok.workers c w hc).answered e he
  obtain ⟨exit, hfinished⟩ := hsettled.finished
  obtain ⟨st, st', env, scratch, hst, hentry, hdispatch⟩ := hlog.entry hnumber hfinished
  -- the broker holds the request as if it had been built in its own buffer
  obtain ⟨build, opcode, n, hsends⟩ := ClientCall.sends hrequest
  have hbuilt := hsends.anywhere e.request.payload
  have hsame : SameBytes e.request ((build stack).withId id) :=
    sameBytes_of_frame hsettled.received (hsends.builds.headerIsValid stack id)
      (hsends.built ▸ hframe)
  have hown := hsends.builds.received hsame
  have hwaits : ((build e.request.payload).withId id).opcode.any Opcode.isSemop = true →
      (brokerDispatch st ((build e.request.payload).withId id) w.actor env
        scratch).2.1.header.result ≠ semOpBlocked := by
    rw [hown, hdispatch]
    intro hsemop hblocked
    obtain ⟨packet, actor, outcome, hlogged, -, hexit⟩ := hlog.finished hnumber
    cases hfinished.symm.trans hlogged
    rw [(hinv.core.outcomes _ _ _ _ hfinished).blocked hsemop rfl hblocked] at hexit
    cases hexit
  have hagrees := (hcarried.admitted hpid hbuilt hwaits).agrees hst hpid id e.request.payload
    scratch
  simp only [ClientCall.roundTrip, hbuilt, hown, hdispatch, ne_eq, not_true_eq_false, if_false,
    Prod.mk.injEq] at hagrees
  refine ⟨st, env, scratch, hentry, ?_, by rw [LogEntry.apply, hdispatch, ← hagrees.2]⟩
  have hheader : (request.withId id).header = e.request.header := by rw [hsends.built, hsame.header]
  rw [ClientCall.reply_congr hheader (sameBytes_of_frame hgot hsettled.valid hresponse), hagrees.1]

/-- The `semget` that is served while another peer pings. -/
theorem served_calls_return_direct_interleaved :
    let call := ClientCall.semget 1234 1 0o1600
    let request := semgetRequest (fun _ => 0) 1234 1 0o1600
    ∃ s w e st env,
      Transition.exec (Service.step 1000) Service.create Service.interleaved = some s ∧
      s.workers 0 = some w ∧ e ∈ w.answered ∧
      call.reply (request.withId 0) e.response =
        ⟨(call.direct st w.actor env).1, (call.direct st w.actor env).2.1, false⟩ := by
  intro call request
  have hrun : (Transition.exec (Service.step 1000) Service.create Service.interleaved).any
      (fun s => s.broker.isAnswered 1 && (s.workers 0).any fun w => w.answered.any fun e =>
        decide (e.number = 1 ∧ e.request.frame = (request.withId 0).frame ∧
          headerIsValid e.response.header = 0)) = true := by
    decide +kernel
  obtain ⟨s, hs, hanswered⟩ := (Option.any_eq_true _ _).mp hrun
  rw [Bool.and_eq_true] at hanswered
  obtain ⟨w, hc, hw⟩ := (Option.any_eq_true _ _).mp hanswered.2
  obtain ⟨e, he, hexchange⟩ := List.any_eq_true.mp hw
  obtain ⟨hnumber, hframe, hvalid⟩ := of_decide_eq_true hexchange
  obtain ⟨log, hlog, hcalls⟩ := served_calls_return_direct ⟨Service.interleaved, hs⟩
  have hmem : e.number ∈ numbers log := by
    rw [hnumber]
    exact hlog.isAnswered_iff.mpr hanswered.1
  have hcarried : call.Carried :=
    (by decide : (0o1600 : Int32).toUInt32 &&& ~~~((ipcCreat ||| ipcExcl).toUInt32 ||| 0o777) = 0)
  obtain ⟨st, env, scratch, -, hreply, -⟩ := hcalls 0 w e hc he hmem call (fun _ => 0) 0 request
    e.response hcarried rfl hframe hvalid rfl
  exact ⟨s, w, e, st, env, hs, hc, he, hreply⟩

end Tgcompat
