import Tgcompat.Broker.Monitor
import Tgcompat.Client.Calls
import Tgcompat.Protocol.Header

/-!
# Responses fit their requests

Whatever the bytes of a request, the packet with which `dispatch_request` leaves the broker is a
response that the transport accepts and that the client takes for the answer to that request: it
repeats opcode and id, a failure has no payload, and no payload is longer than a packet may carry.
A waiter carries the answer of its last retry through the loop, so this holds of the answers in the
frames of waiters too.
-/

namespace Tgcompat

variable {st st' : SemStore} {request response response' : ProtocolPacket} {actor : BrokerActor}
  {env : DispatchEnv}

/-! ### One dispatch -/

/-- The header of a response to the request, whatever the result. -/
structure Echoes (request response : ProtocolPacket) : Prop where
  version : response.header.version = protocolVersion
  kind : response.header.kind = protocolResponse
  opcode : response.header.opcode = request.header.opcode
  requestId : response.header.requestId = request.header.requestId
  length : response.length ≤ protocolMaxPayload

/-- A response that answers the request. -/
structure Responds (request response : ProtocolPacket) : Prop extends
    Echoes request response where
  failure : response.header.result < 0 → response.header.payloadLength = 0

lemma Responds.correlates (h : Responds request response) :
    correlates request response = true := by
  have hfailure : 0 ≤ response.header.result ∨ response.header.payloadLength = 0 := by
    by_cases hneg : response.header.result < 0
    · exact Or.inr (h.failure hneg)
    · exact Or.inl (Int32.not_lt.mp hneg)
  simpa [Tgcompat.correlates, h.version, h.kind, h.opcode, h.requestId] using hfailure

/-- The response to a request whose header is valid can be sent. -/
lemma Echoes.headerIsValid (h : Echoes request response)
    (hrequest : headerIsValid request.header = 0) : headerIsValid response.header = 0 := by
  have hkind : ¬ (response.header.kind ≠ protocolRequest ∧
      response.header.kind ≠ protocolResponse) := fun hne => hne.2 h.kind
  have hanswer : ¬ (response.header.kind = protocolRequest ∧ response.header.result ≠ 0) := by
    rw [h.kind]
    exact fun hr => absurd hr.1 (by decide)
  have hlength : ¬ response.header.payloadLength.toNat > protocolMaxPayload := not_lt.mpr h.length
  simp only [Tgcompat.headerIsValid] at hrequest
  split_ifs at hrequest with h₁ h₂ h₃ h₄ h₅
  · exact absurd hrequest (by decide)
  · exact absurd hrequest (by decide)
  · exact absurd hrequest (by decide)
  · exact absurd hrequest (by decide)
  · exact absurd hrequest (by decide)
  · rw [Tgcompat.headerIsValid, if_neg (not_not.mpr h.version), if_neg hkind, h.opcode, if_neg h₃,
      if_neg hlength, if_neg hanswer]

lemma echoes_prepareResponse (request response : ProtocolPacket) :
    Echoes request (prepareResponse request response) :=
  ⟨rfl, rfl, rfl, rfl, Nat.zero_le _⟩

/-- A handler that writes a payload. -/
lemma Echoes.withPayload (h : Echoes request response) {n : ℕ} (hn : n ≤ protocolMaxPayload)
    (payload : Buffer) : Echoes request
      ⟨{ response.header with payloadLength := UInt32.ofNat n }, payload⟩ where
  version := h.version
  kind := h.kind
  opcode := h.opcode
  requestId := h.requestId
  length := by
    have hlt : n < 2 ^ 32 := lt_of_le_of_lt hn (by decide)
    simp only [ProtocolPacket.length, UInt32.toNat_ofNat', Nat.mod_eq_of_lt hlt]
    exact hn

lemma Echoes.answerMetadata (h : Echoes request response)
    (lookup : Int32 × Option SemMetadata) :
    Echoes request (answerMetadata lookup response).2 := by
  obtain ⟨result, metadata⟩ := lookup
  cases metadata with
  | none => exact h
  | some metadata => exact h.withPayload (n := 56) (by decide) _

lemma Echoes.dispatchGetall (h : Echoes request response) (st : SemStore) :
    Echoes request (dispatchGetall st request response).2 := by
  rw [Tgcompat.dispatchGetall]
  split_ifs with hlength
  · exact h
  · simp only
    split_ifs with hcount
    · exact h
    · split
      · exact h
      · refine h.withPayload ?_ _
        have hmax : semMaxPerSet = 512 := rfl
        have hpayload : protocolMaxPayload = 8192 := rfl
        omega

lemma Echoes.dispatchInfo (h : Echoes request response) (st : SemStore) :
    Echoes request (dispatchInfo st request response).2 := by
  rw [Tgcompat.dispatchInfo]
  split_ifs with hlength
  · exact h
  · simp only
    split_ifs with hdynamic hresult
    · exact h
    · exact h
    · exact h.withPayload (n := 40) (by decide) _

lemma Echoes.dispatchSemop (h : Echoes request response) (st : SemStore) (pid : Int32)
    (env : DispatchEnv) : Echoes request (dispatchSemop st request pid env response).2.1 := by
  rw [Tgcompat.dispatchSemop]
  split
  · exact h
  · simp only
    split_ifs with hblocked
    · exact h.withPayload (n := 8) (by decide) _
    · exact h

lemma Echoes.dispatchOpcode (h : Echoes request response) (st : SemStore)
    (actor : BrokerActor) (env : DispatchEnv) :
    Echoes request (dispatchOpcode st request actor env response).2.1 := by
  rw [Tgcompat.dispatchOpcode]
  split
  case _ => exact h
  case _ => exact h
  case _ => exact h
  case _ => exact h
  case _ => exact h
  case _ => exact h
  case _ => exact h
  case _ => exact h
  case _ => exact h.dispatchGetall st
  case _ => exact h
  case _ => exact h.dispatchSemop st actor.pid env
  case _ => exact h.dispatchSemop st actor.pid env
  case _ =>
    rw [withStore, dispatchStat]
    split_ifs
    · exact h
    · exact h.answerMetadata _
  case _ =>
    rw [withStore, dispatchStatIndex]
    split_ifs
    · exact h
    · exact h.answerMetadata _
  case _ => exact h
  case _ => exact h.dispatchInfo st
  case _ => exact h

/-- Whatever the dispatcher decided, its response answers the request. -/
theorem brokerDispatch_responds
    (h : brokerDispatch st request actor env response = (0, response', st')) :
    Responds request response' := by
  rw [brokerDispatch] at h
  split_ifs at h with hpid hrequest
  · cases h
  · cases h
  · simp only [Prod.mk.injEq, true_and] at h
    obtain ⟨rfl, -⟩ := h
    have hechoes := (echoes_prepareResponse request response).dispatchOpcode st actor env
    refine ⟨⟨hechoes.version, hechoes.kind, hechoes.opcode, hechoes.requestId, ?_⟩, ?_⟩
    · have hlength := hechoes.length
      simp only [ProtocolPacket.length, sealResponse] at hlength ⊢
      split_ifs
      · exact Nat.zero_le _
      · exact hlength
    · intro hneg
      simp only [sealResponse] at hneg ⊢
      rw [if_pos hneg]

lemma responds_prepareErrorResponse (request response : ProtocolPacket) (result : Int32) :
    Responds request (Broker.prepareErrorResponse request response result) :=
  ⟨⟨rfl, rfl, rfl, rfl, Nat.zero_le _⟩, fun _ => rfl⟩

lemma Responds.timeoutResponse (h : Responds request response) :
    Responds request (Broker.timeoutResponse response) :=
  ⟨⟨h.version, h.kind, h.opcode, h.requestId, Nat.zero_le _⟩, fun _ => rfl⟩

/-! ### The answers in the broker -/

/-- The answer that a request carries through the wait loop, or leaves with, answers it. -/
def Status.Responsive (packet : ProtocolPacket) : Status → Prop
  | .waiting frame => Responds packet frame.response
  | .finished outcome => outcome.ret = 0 → Responds packet outcome.response

namespace Broker

variable {b b' : Broker} {r : ℕ} {packet : ProtocolPacket}

def Responsive (b : Broker) : Prop :=
  ∀ r packet actor status, b.requests r = some ⟨packet, actor, status⟩ → status.Responsive packet

lemma Responsive.congr (h : b.Responsive) (hrequests : b'.requests = b.requests) :
    b'.Responsive := by
  intro r packet actor status hr
  rw [hrequests] at hr
  exact h r packet actor status hr

lemma Responsive.broadcast (h : b.Responsive) : b.broadcast.Responsive := by
  intro r packet actor status hr
  cases status with
  | waiting frame =>
    obtain ⟨-, frame', hr', rfl⟩ := requests_broadcast_waiting hr
    exact h r packet actor (.waiting frame') hr'
  | finished outcome => exact h r packet actor _ (requests_broadcast_finished.mp hr)

lemma Responsive.setStatus (h : b.Responsive) (r : ℕ) (actor : BrokerActor) {status : Status}
    (hstatus : status.Responsive packet) : (b.setStatus r packet actor status).Responsive := by
  intro c p a s hc
  by_cases hcr : c = r
  · subst hcr
    simp only [Broker.setStatus, Function.update_self, Option.some.injEq, Request.mk.injEq] at hc
    obtain ⟨rfl, rfl, rfl⟩ := hc
    exact hstatus
  · rw [requests_setStatus_of_ne _ hcr] at hc
    exact h c p a s hc

lemma Responsive.leave (h : b.Responsive) {waiter : Waiter} {outcome : Outcome}
    (houtcome : outcome.ret = 0 → Responds packet outcome.response)
    (heq : b.leave r packet actor waiter outcome = some b') : b'.Responsive := by
  obtain ⟨b₁, hfinish, heq⟩ := Option.bind_eq_some_iff.mp heq
  obtain ⟨queue, -, hb₁⟩ := Option.bind_eq_some_iff.mp hfinish
  cases hb₁
  cases heq
  have hstatus : (Status.finished outcome).Responsive packet := houtcome
  exact (Responsive.setStatus (h.congr rfl) r actor hstatus).broadcast

lemma Responsive.sleep (h : b.Responsive) {frame : Frame}
    (hframe : Responds packet frame.response) {view : IterationView}
    (heq : b.sleep r packet actor frame view = some b') : b'.Responsive := by
  rw [Broker.sleep] at heq
  cases hclock : view.clockError with
  | some error =>
    rw [hclock] at heq
    exact h.leave (fun _ => hframe) heq
  | none =>
    rw [hclock] at heq
    cases heq
    exact h.setStatus r actor hframe

lemma Responsive.dispatch (h : b.Responsive) {ret : Int32}
    (heq : b.dispatch r packet actor env response = (ret, response', b')) :
    b'.Responsive ∧ (ret = 0 → Responds packet response') := by
  rcases hd : brokerDispatch b.store packet actor env response with ⟨ret', answer, store⟩
  simp only [Broker.dispatch, hd, Prod.mk.injEq] at heq
  obtain ⟨rfl, rfl, rfl⟩ := heq
  refine ⟨h.congr rfl, ?_⟩
  rintro rfl
  exact brokerDispatch_responds hd

/-- One turn of the wait loop. -/
lemma Responsive.iterate (h : b.Responsive) {frame : Frame}
    (hframe : Responds packet frame.response) {view : IterationView}
    (heq : b.iterate r packet actor frame view = some b') : b'.Responsive := by
  rw [Broker.iterate] at heq
  split_ifs at heq with hclosed
  · exact h.leave (fun _ => hframe) heq
  · obtain ⟨first, -, heq⟩ := Option.bind_eq_some_iff.mp heq
    cases first with
    | false => exact h.sleep hframe heq
    | true =>
      rcases hd : b.dispatch r packet actor view.env frame.response with ⟨ret, response, b₁⟩
      obtain ⟨h₁, hresponds⟩ := h.dispatch hd
      simp only [if_true, hd] at heq
      split_ifs at heq with hquit
      · exact h₁.leave hresponds heq
      · rw [not_or, not_not] at hquit
        exact h₁.sleep (hresponds hquit.1) heq

lemma Responsive.enterWait (h : b.Responsive) (hresponds : Responds packet response)
    {view : ArrivalView} (heq : b.enterWait r packet actor response view = some b') :
    b'.Responsive := by
  have hfinished : ∀ ret exit, (Status.finished ⟨ret, response, exit⟩).Responsive packet :=
    fun _ _ _ => hresponds
  rw [Broker.enterWait] at heq
  simp only at heq
  split at heq
  · cases heq
    exact h.setStatus r actor (hfinished _ _)
  · split at heq
    · cases heq
      exact h.setStatus r actor (hfinished _ _)
    · split at heq
      · cases heq
        exact h.setStatus r actor (hfinished _ _)
      · refine Responsive.iterate ?_ ?_ heq
        · exact Responsive.setStatus (h.congr rfl) r actor hresponds
        · exact hresponds

lemma Responsive.firstDispatch (h : b.Responsive) {view : ArrivalView}
    (heq : b.firstDispatch r packet actor view = some b') : b'.Responsive := by
  rcases hd : b.dispatch r packet actor view.env view.response with ⟨ret, response, b₁⟩
  obtain ⟨h₁, hresponds⟩ := h.dispatch hd
  simp only [Broker.firstDispatch, hd] at heq
  split_ifs at heq with hret hquit hchanged
  · cases heq
    exact h₁.setStatus r actor hresponds
  · cases heq
    exact h₁.broadcast.setStatus r actor (hresponds ∘ fun _ => not_not.mp hret)
  · cases heq
    exact h₁.setStatus r actor (hresponds ∘ fun _ => not_not.mp hret)
  · exact h₁.enterWait (hresponds (not_not.mp hret)) heq

lemma Responsive.watchProcess (h : b.Responsive) (pid : Int32) (lookup : ProcessLookup) :
    (b.watchProcess pid lookup).2.Responsive := by
  rcases watchProcess_broker b pid lookup with heq | ⟨i, watcher, heq⟩
  · rw [heq]
    exact h
  · rw [heq]
    exact Responsive.broadcast (h.congr rfl)

lemma Responsive.arrive (h : b.Responsive) {view : ArrivalView}
    (heq : b.arrive packet actor view = some b') : b'.Responsive := by
  have hnumbered : ({ b with arrivals := b.arrivals + 1 } : Broker).Responsive := h.congr rfl
  rw [Broker.arrive] at heq
  simp only at heq
  split at heq
  · next error hlock =>
    cases heq
    refine hnumbered.setStatus _ actor fun hret => ?_
    exact absurd hret (neg_errno_ne_zero error)
  · split_ifs at heq with hundo hsound hwatch
    · cases heq
      exact (hnumbered.watchProcess _ _).setStatus _ actor fun _ =>
        responds_prepareErrorResponse _ _ _
    · exact (hnumbered.watchProcess _ _).firstDispatch heq
    · exact hnumbered.firstDispatch heq

lemma Responsive.wake (h : b.Responsive) {view : WakeView} (heq : b.wake r view = some b') :
    b'.Responsive := by
  rw [Broker.wake] at heq
  split at heq
  · next packet actor frame hr =>
    have hframe : Responds packet frame.response := h r packet actor _ hr
    simp only at heq
    split at heq
    · exact h.leave (fun _ => hframe) heq
    · split at heq
      · exact h.iterate hframe heq
      · split at heq
        · exact h.leave (fun _ => hframe) heq
        · split_ifs at heq with hreached
          · exact h.leave (fun _ => hframe.timeoutResponse) heq
          · exact h.iterate hframe heq
  · cases heq

lemma Responsive.scansSlot (h : b.Responsive) {i : Fin maxUndoProcesses} (hs : b.ScansSlot i b') :
    b'.Responsive := by
  cases hs with
  | skipped => exact h
  | announced now hactive => exact Responsive.broadcast (h.congr rfl)
  | silent now hactive hsets => exact h.congr rfl

/-- Every event leaves each request with an answer to it. -/
theorem Responsive.step (h : b.Responsive) {event : Event} (heq : b.step event = some b') :
    b'.Responsive := by
  cases event with
  | arrive packet actor view => exact h.arrive heq
  | wake r view => exact h.wake heq
  | scan exited now => exact scan_invariant (fun _ _ _ hb hs => hb.scansSlot hs) h heq
  | startProcess pid | endProcess pid | reapProcess pid =>
    obtain ⟨processes, rfl⟩ := moveProcess_eq heq
    exact h.congr rfl

lemma responsive_create : create.Responsive := by
  intro r packet actor status hr
  cases hr

end Broker

end Tgcompat
