import Tgcompat.Client.Calls
import Tgcompat.Library.Transition
import Tgcompat.Protocol.Framing

/-!
# Connections of a client

A process and the processes it forks share one `struct tgc_client` by copy. Each copy may hold the
descriptor of a connection that another process has opened; `connection_pid` tells whose it is. A
call connects if it has to, sends one request and receives one response, and closes the connection
on every way out on which the response was not received as a whole or is not the one it waits for.

A call runs to its end between two events. What the system makes of its `connect`, `send` and
`recv` calls, and what the broker answers, is part of the event. The broker answers a request that
was sent as a whole with at most one response, which may end early or have a header that no
receiver accepts.
-/

namespace Tgcompat

/-! ### Sockets -/

/-- A connection to the broker and its history: who opened it and who has written to it, the bytes
written, the requests among them that are complete with the answers of the broker, and how many
bytes of the answers have been read. `exchanges` are the calls that have received a response, with
their requests. -/
structure Socket where
  opener : ℕ
  writers : List ℕ
  written : List UInt8
  requests : List ProtocolPacket
  answers : List (List UInt8)
  consumed : ℕ
  exchanges : List (ProtocolPacket × ProtocolPacket)

namespace Socket

def opened (pid : ℕ) : Socket := ⟨pid, [], [], [], [], 0, []⟩

/-- The bytes of the answers that have not been read. -/
def pending (s : Socket) : List UInt8 := s.answers.flatten.drop s.consumed

/-- The process has sent a request, or a part of it. -/
def sent (s : Socket) (pid : ℕ) (request : ProtocolPacket) (receipt : SendReceipt)
    (answer : List UInt8) : Socket :=
  { s with
    writers := s.writers ++ [pid]
    written := s.written ++ receipt.bytes
    requests := if receipt.result = 0 then s.requests ++ [request] else s.requests
    answers := if receipt.result = 0 then s.answers ++ [answer] else s.answers }

/-- The call that sent the request has received a response, or a part of it. -/
def received (s : Socket) (request : ProtocolPacket) (receipt : PacketReceipt) : Socket :=
  { s with
    consumed := s.consumed + (s.pending.length - receipt.stream.length)
    exchanges := if receipt.result = 0 then s.exchanges ++ [(request, receipt.packet)]
      else s.exchanges }

end Socket

/-- An answer has no bytes behind the frame that its header announces. -/
def isOneResponse (answer : List UInt8) : Bool :=
  let wireHeader := writeBytes (fun _ => 0) 0 (answer.take protocolHeaderSize)
  let (result, header) := decodeHeader wireHeader ⟨0, 0, 0, 0, 0, 0⟩
  decide (result ≠ 0 ∨ answer.length ≤ protocolHeaderSize + header.payloadLength.toNat)

/-! ### The client -/

/-- `struct tgc_client` without its path; `socketFd` is absent when `socket_fd` is negative. -/
structure Client where
  socketFd : Option ℕ
  connectionPid : ℕ
  nextRequestId : UInt32
  deriving DecidableEq

/-- `tgc_client_init`. -/
def Client.init : Client := ⟨none, 0, 0⟩

/-- `tgc_client_close`. -/
def Client.close (client : Client) : Client :=
  { client with socketFd := none, connectionPid := 0 }

/-- The processes with their copies of the client, and the connections opened so far. -/
structure Family where
  clients : ℕ → Option Client
  sockets : ℕ → Socket
  opened : ℕ

/-- What a call learns from the system: the result of `tgc_transport_connect`, the outcomes of the
`send` and `recv` calls and the answer of the broker; and what its variables on the stack hold. -/
structure CallView where
  connect : Int32
  sends : List Cut
  answer : List UInt8
  recvs : List Cut
  request : Buffer
  wire : Buffer
  wireHeader : Buffer
  response : ProtocolPacket

namespace Family

/-- A process that has initialised its client. -/
def start (pid : ℕ) : Family where
  clients := Function.update (fun _ => none) pid (some .init)
  sockets := fun _ => .opened 0
  opened := 0

def setClient (F : Family) (pid : ℕ) (client : Client) : Family :=
  { F with clients := Function.update F.clients pid (some client) }

def setSocket (F : Family) (c : ℕ) (s : Socket) : Family :=
  { F with sockets := Function.update F.sockets c s }

/-- A new connection of the process. -/
def connected (F : Family) (pid : ℕ) : Family :=
  { F.setSocket F.opened (.opened pid) with opened := F.opened + 1 }

/-- `ensure_connection`: the descriptor or the result, the client and the connections. -/
def ensureConnection (F : Family) (pid : ℕ) (client : Client) (connect : Int32) :
    Except Int32 ℕ × Client × Family :=
  let reconnect : Except Int32 ℕ × Client × Family :=
    if connect < 0 then (.error connect, client.close, F)
    else
      (.ok F.opened, { client.close with socketFd := some F.opened, connectionPid := pid },
        F.connected pid)
  match client.socketFd with
  | some c => if client.connectionPid = pid then (.ok c, client, F) else reconnect
  | none => reconnect

def nextId (id : UInt32) : UInt32 := if id + 1 = 0 then 1 else id + 1

/-- The result of an exchange that failed. -/
def failure (result : Int32) : Int32 := if result = transportEof then -ECONNRESET else result

/-- `exchange_with_interrupt` up to the checks on the response, which are part of the reply: the
result, or the request as it was sent with the response to it. -/
def exchangeWithInterrupt (F : Family) (pid : ℕ) (client : Client) (request : ProtocolPacket)
    (interruptible : Bool) (view : CallView) :
    Option (Except Int32 (ProtocolPacket × ProtocolPacket) × Client × Family) :=
  match F.ensureConnection pid client view.connect with
  | (.error result, client, F) => some (.error result, client, F)
  | (.ok c, client, F) =>
    let client := { client with nextRequestId := nextId client.nextRequestId }
    let request := request.withId client.nextRequestId
    (transportSend view.wire request view.sends).bind fun sent =>
      let s := (F.sockets c).sent pid request sent view.answer
      if sent.result ≠ 0 then some (.error (failure sent.result), client.close, F.setSocket c s)
      else
        let receive := if interruptible then transportReceiveInterruptible else transportReceive
        (receive view.wireHeader view.response s.pending view.recvs).map fun received =>
          let F := F.setSocket c (s.received request received)
          if received.result ≠ 0 then (.error (failure received.result), client.close, F)
          else (.ok (request, received.packet), client, F)

/-- A call of the client: what it returns and stores, and the processes and connections after it. -/
def perform (F : Family) (pid : ℕ) (call : ClientCall) (view : CallView) :
    Option (Int32 × Output × Family) :=
  (F.clients pid).bind fun client =>
    match call.request view.request with
    | .error result => some (result, .nothing, F)
    | .ok request =>
      (F.exchangeWithInterrupt pid client request call.interruptible view).map fun
        | (.error result, client, F) => (result, .nothing, F.setClient pid client)
        | (.ok (request, response), client, F) =>
          let reply := call.reply request response
          (reply.result, reply.output,
            F.setClient pid (if reply.closed then client.close else client))

/-- What the processes do. A forked process gets a pid that no process of the family has had. -/
inductive Event where
  | call (pid : ℕ) (call : ClientCall) (view : CallView)
  | init (pid : ℕ)
  | close (pid : ℕ)
  | fork (parent child : ℕ)

def step (F : Family) : Event → Option Family
  | .call pid call view =>
    if isOneResponse view.answer = false then none
    else (F.perform pid call view).map fun outcome => outcome.2.2
  | .init pid => (F.clients pid).map fun _ => F.setClient pid .init
  | .close pid => (F.clients pid).map fun client => F.setClient pid client.close
  | .fork parent child =>
    match F.clients parent, F.clients child with
    | some client, none => some (F.setClient child client)
    | _, _ => none

end Family

/-! ### One exchange on a socket -/

/-- Nothing follows the packet in an answer that is one response. -/
lemma eq_nil_of_isOneResponse {packet : ProtocolPacket} {rest : List UInt8}
    (hvalid : headerIsValid packet.header = 0) (h : isOneResponse (packet.frame ++ rest) = true) :
    rest = [] := by
  have htake : (packet.frame ++ rest).take protocolHeaderSize = headerBytes packet.header := by
    rw [ProtocolPacket.frame, List.append_assoc, List.take_left' (length_headerBytes _)]
  simp only [isOneResponse, htake, decodeHeader_headerBytes hvalid, decide_eq_true_eq] at h
  have hlength := h.resolve_left (not_not.mpr rfl)
  simp only [List.length_append, length_frame, ProtocolPacket.length] at hlength
  exact List.eq_nil_of_length_eq_zero (by omega)

namespace Socket

variable {s : Socket} {pid : ℕ} {request q : ProtocolPacket} {answer : List UInt8}
  {receipt : SendReceipt} {got : PacketReceipt} {wire : Buffer} {sends recvs : List Cut}

/-- The calls that received a response have received the answers to their own requests. -/
structure Ordered (s : Socket) : Prop where
  requests : s.exchanges.map Prod.fst <+: s.requests
  answers : s.exchanges.map (fun exchange => exchange.2.frame) <+: s.answers

/-- The socket is between two calls: what was written are the requests, each of them was answered
with the packet that its call has received, and these are all the bytes of the answers. -/
structure Drained (s : Socket) : Prop where
  written : s.written = (s.requests.map ProtocolPacket.frame).flatten
  requests : s.exchanges.map Prod.fst = s.requests
  answers : s.exchanges.map (fun exchange => exchange.2.frame) = s.answers
  consumed : s.consumed = s.answers.flatten.length

/-- The socket is between two calls, and the packets were accepted as responses. -/
structure InStep (s : Socket) : Prop extends Drained s where
  matched : ∀ exchange ∈ s.exchanges, correlates exchange.1 exchange.2 = true

lemma inStep_opened (pid : ℕ) : (opened pid).InStep where
  written := rfl
  requests := rfl
  answers := rfl
  consumed := rfl
  matched := by simp [opened]

lemma Drained.pending (h : s.Drained) : s.pending = [] := by
  rw [Socket.pending, h.consumed, List.drop_length]

lemma Drained.ordered (h : s.Drained) : s.Ordered where
  requests := by rw [h.requests]
  answers := by rw [h.answers]

lemma Drained.ordered_sent (h : s.Drained) : (s.sent pid request receipt answer).Ordered where
  requests := by
    simp only [sent]
    rw [h.requests]
    split_ifs
    · exact List.prefix_append _ _
    · exact List.prefix_rfl
  answers := by
    simp only [sent]
    rw [h.answers]
    split_ifs
    · exact List.prefix_append _ _
    · exact List.prefix_rfl

/-- The bytes a call receives are those of the answer to its request. -/
lemma Drained.pending_sent (h : s.Drained) (pid : ℕ) (request : ProtocolPacket)
    (answer : List UInt8) (hr : receipt.result = 0) :
    (s.sent pid request receipt answer).pending = answer := by
  simp only [Socket.pending, sent, if_pos hr, h.consumed, List.flatten_append,
    List.flatten_singleton, List.drop_left]

lemma Ordered.received_failed (h : s.Ordered) (hr : got.result ≠ 0) :
    (s.received request got).Ordered where
  requests := by
    simp only [received, if_neg hr]
    exact h.requests
  answers := by
    simp only [received, if_neg hr]
    exact h.answers

/-- A whole exchange leaves the socket between two calls. -/
lemma Drained.received (h : s.Drained) (hone : isOneResponse answer = true)
    (hsend : transportSend wire request sends = some receipt) (hr : receipt.result = 0)
    {restart : Bool} {header : Buffer}
    (hrecv : receivePacket restart header q (s.sent pid request receipt answer).pending recvs =
      some got) (hgot : got.result = 0) :
    ((s.sent pid request receipt answer).received request got).Drained := by
  have hpending := h.pending_sent pid request answer hr
  rw [hpending] at hrecv
  obtain ⟨hvalid, hanswer⟩ := receivePacket_ok hrecv hgot
  rw [hanswer] at hone
  have hrest : got.stream = [] := eq_nil_of_isOneResponse hvalid hone
  rw [hrest, List.append_nil] at hanswer
  refine ⟨?_, ?_, ?_, ?_⟩
  · simp [Socket.received, sent, hr, h.written, (transportSend_ok hsend hr).2]
  · simp [Socket.received, sent, hr, hgot, h.requests]
  · simp [Socket.received, sent, hr, hgot, h.answers, hanswer]
  · rw [Socket.received, hpending]
    simp [sent, hr, h.consumed, hrest]

lemma InStep.matched_received (h : s.InStep) (hmatch : correlates request got.packet = true) :
    ∀ exchange ∈ ((s.sent pid request receipt answer).received request got).exchanges,
      correlates exchange.1 exchange.2 = true := by
  intro exchange hexchange
  simp only [Socket.received, sent] at hexchange
  split_ifs at hexchange
  · rcases List.mem_append.mp hexchange with hold | hnew
    · exact h.matched exchange hold
    · rw [List.mem_singleton.mp hnew]
      exact hmatch
  · exact h.matched exchange hexchange

end Socket

/-- A call that keeps the connection open has accepted the response. -/
lemma correlates_of_reply {call : ClientCall} {request response : ProtocolPacket}
    (h : (call.reply request response).closed = false) : correlates request response = true := by
  by_contra hne
  rw [Bool.not_eq_true] at hne
  have hmalformed : (call.reply request response).closed = true := by
    cases call with
    | semop semid operations => simp only [ClientCall.reply, semopReply, if_pos hne]
    | semtimedop semid operations timeout => simp only [ClientCall.reply, semopReply, if_pos hne]
    | _ => simp only [ClientCall.reply, if_pos hne, malformed]
  rw [h] at hmalformed
  cases hmalformed

/-! ### The invariant -/

namespace Family

variable {F F' : Family} {pid : ℕ} {client client' : Client} {c : ℕ} {s : Socket}

/-- A client holds a connection that the process it names has opened, and in step if it is the
process itself. Only the process that has opened a connection writes to it. -/
structure Ok (F : Family) : Prop where
  opened : ∀ pid client c, F.clients pid = some client → client.socketFd = some c → c < F.opened
  opener : ∀ pid client c, F.clients pid = some client → client.socketFd = some c →
    (F.sockets c).opener = client.connectionPid
  known : ∀ c < F.opened, F.clients (F.sockets c).opener ≠ none
  writers : ∀ c < F.opened, ∀ writer ∈ (F.sockets c).writers, writer = (F.sockets c).opener
  ordered : ∀ c < F.opened, (F.sockets c).Ordered
  inStep : ∀ pid client c, F.clients pid = some client → client.socketFd = some c →
    client.connectionPid = pid → (F.sockets c).InStep

lemma ok_start (pid : ℕ) : (start pid).Ok := by
  have hnone : ∀ pid' client c, (start pid).clients pid' = some client →
      client.socketFd ≠ some c := by
    intro pid' client c hclient hfd
    by_cases heq : pid' = pid
    · subst heq
      simp only [start, Function.update_self, Option.some.injEq] at hclient
      subst hclient
      cases hfd
    · simp [start, heq] at hclient
  refine ⟨?_, ?_, ?_, ?_, ?_, ?_⟩
  · intro pid' client c hclient hfd
    exact absurd hfd (hnone _ _ _ hclient)
  · intro pid' client c hclient hfd
    exact absurd hfd (hnone _ _ _ hclient)
  · intro c hc
    exact absurd hc (Nat.not_lt_zero c)
  · intro c hc
    exact absurd hc (Nat.not_lt_zero c)
  · intro c hc
    exact absurd hc (Nat.not_lt_zero c)
  · intro pid' client c hclient hfd
    exact absurd hfd (hnone _ _ _ hclient)

/-- A process stays known. -/
lemma known_setClient (h : F.clients pid ≠ none) (pid' : ℕ) (client : Client) :
    (F.setClient pid' client).clients pid ≠ none := by
  by_cases heq : pid = pid'
  · simp [setClient, heq]
  · simpa [setClient, heq] using h

/-- A process replaces its client, whose connection if any is its own and in step. -/
lemma Ok.setClient (h : F.Ok)
    (hclient : ∀ c, client.socketFd = some c → c < F.opened ∧
      (F.sockets c).opener = client.connectionPid ∧
      (client.connectionPid = pid → (F.sockets c).InStep)) : (F.setClient pid client).Ok := by
  have hclients : ∀ pid' client', (F.setClient pid client).clients pid' = some client' →
      pid' = pid ∧ client' = client ∨ F.clients pid' = some client' := by
    intro pid' client' heq
    by_cases hpid : pid' = pid
    · subst hpid
      simp only [Family.setClient, Function.update_self, Option.some.injEq] at heq
      exact Or.inl ⟨rfl, heq.symm⟩
    · right
      simpa [Family.setClient, hpid] using heq
  refine ⟨?_, ?_, ?_, h.writers, h.ordered, ?_⟩
  · intro pid' client' c heq hfd
    rcases hclients pid' client' heq with ⟨rfl, rfl⟩ | hold
    · exact (hclient c hfd).1
    · exact h.opened pid' client' c hold hfd
  · intro pid' client' c heq hfd
    rcases hclients pid' client' heq with ⟨rfl, rfl⟩ | hold
    · exact (hclient c hfd).2.1
    · exact h.opener pid' client' c hold hfd
  · intro c hc
    exact known_setClient (h.known c hc) pid client
  · intro pid' client' c heq hfd hpid
    rcases hclients pid' client' heq with ⟨rfl, rfl⟩ | hold
    · exact (hclient c hfd).2.2 hpid
    · exact h.inStep pid' client' c hold hfd hpid

lemma Ok.setClient_closed (h : F.Ok) (pid : ℕ) (hclosed : client.socketFd = none) :
    (F.setClient pid client).Ok := by
  refine h.setClient fun c hfd => ?_
  rw [hclosed] at hfd
  cases hfd

/-- A connection changes that its opener does not hold. -/
lemma Ok.setSocket (h : F.Ok) (hopener : s.opener = (F.sockets c).opener)
    (hwriters : ∀ writer ∈ s.writers, writer = s.opener) (hordered : s.Ordered)
    (hidle : ∀ client, F.clients s.opener = some client → client.socketFd ≠ some c) :
    (F.setSocket c s).Ok := by
  have hopeners : ∀ c', ((F.setSocket c s).sockets c').opener = (F.sockets c').opener := by
    intro c'
    by_cases heq : c' = c
    · simp [Family.setSocket, heq, hopener]
    · simp [Family.setSocket, heq]
  refine ⟨h.opened, ?_, ?_, ?_, ?_, ?_⟩
  · intro pid client c' hclient hfd
    rw [hopeners]
    exact h.opener pid client c' hclient hfd
  · intro c' hc'
    rw [hopeners]
    exact h.known c' hc'
  · intro c' hc'
    by_cases heq : c' = c
    · simpa [Family.setSocket, heq] using hwriters
    · simpa [Family.setSocket, heq] using h.writers c' hc'
  · intro c' hc'
    by_cases heq : c' = c
    · simpa [Family.setSocket, heq] using hordered
    · simpa [Family.setSocket, heq] using h.ordered c' hc'
  · intro pid client c' hclient hfd hpid
    by_cases heq : c' = c
    · subst heq
      -- the process is the opener, and that does not hold the connection
      have howner : s.opener = pid :=
        hopener.trans ((h.opener pid client c' hclient hfd).trans hpid)
      rw [← howner] at hclient
      exact absurd hfd (hidle client hclient)
    · simpa [Family.setSocket, heq] using h.inStep pid client c' hclient hfd hpid

lemma Ok.connected (h : F.Ok) (hpid : F.clients pid ≠ none) : (F.connected pid).Ok := by
  have hsockets : ∀ c < F.opened, (F.connected pid).sockets c = F.sockets c := by
    intro c hc
    simp [Family.connected, Family.setSocket, hc.ne]
  have hnew : (F.connected pid).sockets F.opened = .opened pid := by
    simp [Family.connected, Family.setSocket]
  have hcases : ∀ c < (F.connected pid).opened, c < F.opened ∨ c = F.opened := by
    intro c hc
    exact Nat.lt_succ_iff_lt_or_eq.mp hc
  refine ⟨?_, ?_, ?_, ?_, ?_, ?_⟩
  · intro pid' client c hclient hfd
    exact Nat.lt_succ_of_lt (h.opened pid' client c hclient hfd)
  · intro pid' client c hclient hfd
    rw [hsockets c (h.opened pid' client c hclient hfd)]
    exact h.opener pid' client c hclient hfd
  · intro c hc
    rcases hcases c hc with hold | rfl
    · rw [hsockets c hold]
      exact h.known c hold
    · rw [hnew]
      exact hpid
  · intro c hc
    rcases hcases c hc with hold | rfl
    · rw [hsockets c hold]
      exact h.writers c hold
    · simp [hnew, Socket.opened]
  · intro c hc
    rcases hcases c hc with hold | rfl
    · rw [hsockets c hold]
      exact h.ordered c hold
    · rw [hnew]
      exact (Socket.inStep_opened pid).ordered
  · intro pid' client c hclient hfd hpid'
    rw [hsockets c (h.opened pid' client c hclient hfd)]
    exact h.inStep pid' client c hclient hfd hpid'

/-! ### Steps of the family -/

/-- The process holds a connection that it has opened and that is in step. -/
structure Holds (F : Family) (pid : ℕ) (client : Client) (c : ℕ) : Prop where
  socketFd : client.socketFd = some c
  connectionPid : client.connectionPid = pid
  opened : c < F.opened
  opener : (F.sockets c).opener = pid
  inStep : (F.sockets c).InStep

/-- The process has used its connection, and keeps it only if it is in step. -/
lemma Holds.used (hholds : F.Holds pid client c) (h : F.Ok)
    (hs : s.opener = (F.sockets c).opener) (hwriters : s.writers = (F.sockets c).writers ++ [pid])
    (hordered : s.Ordered)
    (hclient : client'.socketFd = none ∨
      client'.socketFd = some c ∧ client'.connectionPid = pid ∧ s.InStep) :
    ((F.setSocket c s).setClient pid client').Ok := by
  have howner : s.opener = pid := hs.trans hholds.opener
  have hclosed : (F.setClient pid .init).Ok := h.setClient_closed pid rfl
  have hwriters' : ∀ writer ∈ s.writers, writer = s.opener := by
    intro writer hwriter
    rw [hwriters] at hwriter
    rcases List.mem_append.mp hwriter with hold | hnew
    · exact (h.writers c hholds.opened writer hold).trans hs.symm
    · exact (List.mem_singleton.mp hnew).trans howner.symm
  have hidle : ∀ client, (F.setClient pid .init).clients s.opener = some client →
      client.socketFd ≠ some c := by
    intro client hclient hfd
    simp only [howner, setClient, Function.update_self, Option.some.injEq] at hclient
    subst hclient
    cases hfd
  have hset := hclosed.setSocket hs hwriters' hordered hidle
  have hok : (((F.setClient pid .init).setSocket c s).setClient pid client').Ok := by
    refine hset.setClient fun c' hfd => ?_
    rcases hclient with hnone | ⟨hsome, hpid, hstep⟩
    · rw [hnone] at hfd
      cases hfd
    · rw [hsome] at hfd
      cases hfd
      simp [setSocket, setClient, hpid, howner, hstep, hholds.opened]
  simpa [setClient, setSocket] using hok

/-- After `ensure_connection` there is no connection, or one that is in step. -/
lemma Ok.ensureConnection (h : F.Ok) (hclient : F.clients pid = some client) {connect : Int32}
    {fd : Except Int32 ℕ} (heq : F.ensureConnection pid client connect = (fd, client', F')) :
    F'.Ok ∧ ((∃ result, fd = .error result ∧ client'.socketFd = none) ∨
      ∃ c, fd = .ok c ∧ F'.Holds pid client' c) := by
  have hreconnect : (if connect < 0 then (Except.error connect, client.close, F)
      else (.ok F.opened, { client.close with socketFd := some F.opened, connectionPid := pid },
        F.connected pid)) = (fd, client', F') → F'.Ok ∧
      ((∃ result, fd = .error result ∧ client'.socketFd = none) ∨
        ∃ c, fd = .ok c ∧ F'.Holds pid client' c) := by
    intro heq
    split_ifs at heq
    · cases heq
      exact ⟨h, Or.inl ⟨_, rfl, rfl⟩⟩
    · cases heq
      have hnew : (F.connected pid).sockets F.opened = .opened pid := by
        simp [Family.connected, Family.setSocket]
      refine ⟨h.connected (by simp [hclient]), Or.inr ⟨_, rfl, ?_⟩⟩
      refine ⟨rfl, rfl, Nat.lt_succ_self _, ?_, ?_⟩
      · rw [hnew]
        rfl
      · rw [hnew]
        exact Socket.inStep_opened pid
  simp only [Family.ensureConnection] at heq
  split at heq
  · next c hfd =>
    by_cases hpid : client.connectionPid = pid
    · rw [if_pos hpid] at heq
      cases heq
      exact ⟨h, Or.inr ⟨c, rfl, hfd, hpid, h.opened _ _ _ hclient hfd,
        (h.opener _ _ _ hclient hfd).trans hpid, h.inStep _ _ _ hclient hfd hpid⟩⟩
    · rw [if_neg hpid] at heq
      exact hreconnect heq
  · exact hreconnect heq

lemma receive_eq_receivePacket (interruptible : Bool) :
    (if interruptible then transportReceiveInterruptible else transportReceive) =
      receivePacket (!interruptible) := by
  cases interruptible <;> rfl

/-- An exchange closes the connection on an error, and leaves it in step if the response is
accepted. The connection may be closed after it in any case. -/
lemma Ok.exchangeWithInterrupt (h : F.Ok) (hclient : F.clients pid = some client)
    {request : ProtocolPacket} {interruptible : Bool} {view : CallView}
    (hone : isOneResponse view.answer = true)
    {outcome : Except Int32 (ProtocolPacket × ProtocolPacket)}
    (heq : F.exchangeWithInterrupt pid client request interruptible view =
      some (outcome, client', F')) :
    (∀ closed : Client, closed.socketFd = none → (F'.setClient pid closed).Ok) ∧
      (∀ result, outcome = .error result → client'.socketFd = none) ∧
      ∀ request response, outcome = .ok (request, response) →
        correlates request response = true → (F'.setClient pid client').Ok := by
  rw [Family.exchangeWithInterrupt] at heq
  rcases hensure : F.ensureConnection pid client view.connect with ⟨fd, client₁, F₁⟩
  obtain ⟨hok, hfd⟩ := h.ensureConnection hclient hensure
  rw [hensure] at heq
  rcases hfd with ⟨result, rfl, hnone⟩ | ⟨c, rfl, hholds⟩
  · cases heq
    refine ⟨fun _ hclosed => hok.setClient_closed pid hclosed, fun _ _ => hnone, ?_⟩
    intro _ _ hout
    cases hout
  · obtain ⟨sent, hsend, heq⟩ := Option.bind_eq_some_iff.mp heq
    have hdrained := hholds.inStep.toDrained
    by_cases hsent : sent.result = 0
    · rw [if_neg (not_not.mpr hsent)] at heq
      obtain ⟨got, hrecv, heq⟩ := Option.map_eq_some_iff.mp heq
      by_cases hgot : got.result = 0
      · rw [if_neg (not_not.mpr hgot)] at heq
        cases heq
        rw [receive_eq_receivePacket] at hrecv
        have hafter := hdrained.received hone hsend hsent hrecv hgot
        refine ⟨?_, ?_, ?_⟩
        · intro _ hclosed
          exact hholds.used hok rfl rfl hafter.ordered (Or.inl hclosed)
        · intro _ hout
          cases hout
        · intro _ _ hout hmatch
          cases hout
          exact hholds.used hok rfl rfl hafter.ordered (Or.inr ⟨hholds.socketFd,
            hholds.connectionPid, hafter, hholds.inStep.matched_received hmatch⟩)
      · rw [if_pos hgot] at heq
        cases heq
        refine ⟨?_, fun _ _ => rfl, ?_⟩
        · intro _ hclosed
          exact hholds.used hok rfl rfl (hdrained.ordered_sent.received_failed hgot)
            (Or.inl hclosed)
        · intro _ _ hout
          cases hout
    · rw [if_pos hsent] at heq
      cases heq
      refine ⟨?_, fun _ _ => rfl, ?_⟩
      · intro _ hclosed
        exact hholds.used hok rfl rfl hdrained.ordered_sent (Or.inl hclosed)
      · intro _ _ hout
        cases hout

lemma Ok.perform (h : F.Ok) {call : ClientCall} {view : CallView}
    (hone : isOneResponse view.answer = true) {result : Int32} {output : Output}
    (heq : F.perform pid call view = some (result, output, F')) : F'.Ok := by
  obtain ⟨client, hclient, heq⟩ := Option.bind_eq_some_iff.mp heq
  split at heq
  · cases heq
    exact h
  · next request _ =>
    obtain ⟨⟨outcome, client', F₁⟩, hexchange, heq⟩ := Option.map_eq_some_iff.mp heq
    obtain ⟨hclosed, herror, haccepted⟩ := h.exchangeWithInterrupt hclient hone hexchange
    cases outcome with
    | error result =>
      cases heq
      exact hclosed client' (herror result rfl)
    | ok exchanged =>
      obtain ⟨request, response⟩ := exchanged
      cases heq
      cases hreply : (call.reply request response).closed with
      | true => exact hclosed _ rfl
      | false => exact haccepted request response rfl (correlates_of_reply hreply)

theorem Ok.step (h : F.Ok) {event : Event} (hstep : F.step event = some F') : F'.Ok := by
  cases event with
  | call pid call view =>
    simp only [Family.step] at hstep
    split_ifs at hstep with hone
    obtain ⟨⟨result, output, F₁⟩, hperform, rfl⟩ := Option.map_eq_some_iff.mp hstep
    exact h.perform (eq_true_of_ne_false hone) hperform
  | init pid =>
    obtain ⟨client, hclient, rfl⟩ := Option.map_eq_some_iff.mp hstep
    exact h.setClient_closed pid rfl
  | close pid =>
    obtain ⟨client, hclient, rfl⟩ := Option.map_eq_some_iff.mp hstep
    exact h.setClient_closed pid rfl
  | fork parent child =>
    simp only [Family.step] at hstep
    split at hstep
    · next client hparent hchild =>
      cases hstep
      refine h.setClient fun c hfd => ?_
      have hopener := h.opener parent client c hparent hfd
      refine ⟨h.opened parent client c hparent hfd, hopener, fun hpid => ?_⟩
      -- the child has opened no connection
      exact absurd (hopener.trans hpid ▸ hchild) (h.known c (h.opened parent client c hparent hfd))
    · cases hstep

/-- After any calls and forks, with any outcomes of the system calls: a connection that a process
may use was opened by it, every request sent over it has been answered with the response that its
call has received, and no byte of an answer is left. Over every connection, the calls have received
the answers to their own requests, and only the process that has opened it has written to it. -/
theorem connection_in_step {first : ℕ} {events : List Event}
    (hexec : Transition.exec step (start first) events = some F) :
    (∀ pid client c, F.clients pid = some client → client.socketFd = some c →
      client.connectionPid = pid →
        (F.sockets c).opener = pid ∧ (F.sockets c).InStep ∧ (F.sockets c).pending = []) ∧
    ∀ c < F.opened, (F.sockets c).Ordered ∧
      ∀ writer ∈ (F.sockets c).writers, writer = (F.sockets c).opener := by
  have hok : F.Ok :=
    Transition.exec_invariant (fun _ _ _ hok hstep => hok.step hstep) (ok_start first) hexec
  refine ⟨?_, fun c hc => ⟨hok.ordered c hc, hok.writers c hc⟩⟩
  intro pid client c hclient hfd hpid
  have hstep := hok.inStep pid client c hclient hfd hpid
  exact ⟨(hok.opener pid client c hclient hfd).trans hpid, hstep, hstep.pending⟩

def pong (id : UInt32) : ProtocolPacket where
  header := ⟨protocolVersion, protocolResponse, Opcode.ping.code, id, 0, 0⟩
  payload := fun _ => 0

/-- The request is sent in two parts and answered, and a signal arrives meanwhile. -/
def answered (id : UInt32) : CallView where
  connect := 3
  sends := [.moved 9, .moved 13]
  answer := (pong id).frame
  recvs := [.moved 3, .interrupted, .moved 19]
  request := fun _ => 0
  wire := fun _ => 0
  wireHeader := fun _ => 0
  response := pong 0

/-- A process and the process that it forks use the client in turn. -/
def pingBoth : List Event :=
  [.call 1 .ping (answered 1), .fork 1 2, .call 2 .ping (answered 2), .call 1 .ping (answered 2)]

theorem connection_in_step_forked :
    ∃ F, Transition.exec step (start 1) pingBoth = some F ∧
      F.clients 1 = some ⟨some 0, 1, 2⟩ ∧ (F.sockets 0).InStep ∧
      (F.sockets 0).exchanges.length = 2 ∧
      F.clients 2 = some ⟨some 1, 2, 2⟩ ∧ (F.sockets 1).InStep := by
  have hrun : (Transition.exec step (start 1) pingBoth).any (fun F =>
      decide (F.clients 1 = some ⟨some 0, 1, 2⟩ ∧ (F.sockets 0).exchanges.length = 2 ∧
        F.clients 2 = some ⟨some 1, 2, 2⟩)) = true := by
    decide +kernel
  obtain ⟨F, hexec, hF⟩ := (Option.any_eq_true _ _).mp hrun
  rw [decide_eq_true_eq] at hF
  obtain ⟨hparent, hlength, hchild⟩ := hF
  obtain ⟨hheld, -⟩ := connection_in_step hexec
  exact ⟨F, hexec, hparent, (hheld 1 _ 0 hparent rfl rfl).2.1, hlength, hchild,
    (hheld 2 _ 1 hchild rfl rfl).2.1⟩

end Family

end Tgcompat
