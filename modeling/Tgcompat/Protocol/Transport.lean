import Mathlib.Data.List.GetD
import Tgcompat.Protocol.Header

/-!
# Sending and receiving packets

The loops of `transport.c` that move packets over a stream socket. What the kernel does with a
`send` or `recv` call is an argument: a list of outcomes, one for each call in order. A loop that
has used up the list has not returned yet. The stream of a receiver is the bytes its peer has sent;
after them comes the end of the stream.
-/

namespace Tgcompat

def EINTR : Int32 := 4
def EPIPE : Int32 := 32
def transportEof : Int32 := 1

/-! ### Bytes in a buffer -/

def readBytes (b : Buffer) (off length : ℕ) : List UInt8 :=
  (List.range length).map fun i => b (off + i)

def writeBytes (b : Buffer) (off : ℕ) (data : List UInt8) : Buffer :=
  fun n => if off ≤ n ∧ n < off + data.length then data.getD (n - off) 0 else b n

@[simp] lemma length_readBytes (b : Buffer) (off length : ℕ) :
    (readBytes b off length).length = length := by
  simp [readBytes]

lemma readBytes_add (b : Buffer) (off k l : ℕ) :
    readBytes b off (k + l) = readBytes b off k ++ readBytes b (off + k) l := by
  simp [readBytes, List.range_add, add_assoc, Function.comp_def]

lemma readBytes_congr {b b' : Buffer} {off off' length : ℕ}
    (h : ∀ i < length, b (off + i) = b' (off' + i)) :
    readBytes b off length = readBytes b' off' length := by
  apply List.map_congr_left
  intro i hi
  exact h i (List.mem_range.mp hi)

@[simp] lemma writeBytes_nil (b : Buffer) (off : ℕ) : writeBytes b off [] = b := by
  funext n
  simp only [writeBytes, List.length_nil]
  rw [if_neg (by omega)]

/-- A second write that continues the first. -/
lemma writeBytes_append (b : Buffer) (off : ℕ) (data data' : List UInt8) :
    writeBytes (writeBytes b off data) (off + data.length) data' =
      writeBytes b off (data ++ data') := by
  funext n
  simp only [writeBytes, List.length_append]
  by_cases h : off ≤ n ∧ n < off + data.length
  · rw [if_neg (by omega), if_pos h, if_pos (by omega), List.getD_append _ _ _ _ (by omega)]
  · by_cases h' : off + data.length ≤ n ∧ n < off + data.length + data'.length
    · rw [if_pos h', if_pos (by omega), List.getD_append_right _ _ _ _ (by omega)]
      congr 1
      omega
    · rw [if_neg h', if_neg h, if_neg (by omega)]

lemma writeBytes_readBytes (b b' : Buffer) {off off' n length : ℕ} (hn : n < length) :
    writeBytes b' off (readBytes b off' length) (off + n) = b (off' + n) := by
  simp [writeBytes, readBytes, hn]

/-- What was written at the start of a buffer is read back. -/
lemma readBytes_writeBytes_take (b : Buffer) (data : List UInt8) {length : ℕ}
    (h : length ≤ data.length) :
    readBytes (writeBytes b 0 (data.take length)) 0 length = data.take length := by
  refine List.ext_getElem (by simp [h]) fun i hi hi' => ?_
  have hlt : i < length := by simpa using hi
  simp [readBytes, writeBytes, hlt, h, List.getD_eq_getElem?_getD]

/-! ### System calls -/

/-- The outcome of one `send` or `recv` call. -/
inductive Cut where
  /-- at least one byte is moved if there is one, and at most `extra + 1` -/
  | moved (extra : ℕ)
  /-- `-1` with `EINTR` -/
  | interrupted
  /-- `0` -/
  | nothing
  /-- `-1` with another error -/
  | failed (errno : Int32) (positive : 0 < errno)

/-- What `recv` hands over, or its `errno`. No byte is the end of the stream. -/
def recv (cut : Cut) (stream : List UInt8) (length : ℕ) : Except Int32 (List UInt8) :=
  match cut with
  | .moved extra => .ok (stream.take (min (extra + 1) length))
  | .interrupted => .error EINTR
  | .nothing => .ok []
  | .failed errno _ => .error errno

/-- How many bytes `send` takes, or its `errno`. -/
def send (cut : Cut) (length : ℕ) : Except Int32 ℕ :=
  match cut with
  | .moved extra => .ok (min (extra + 1) length)
  | .interrupted => .error EINTR
  | .nothing => .ok 0
  | .failed errno _ => .error errno

/-! ### Receiving -/

/-- A return of `receive_exact`: the buffer, the bytes left in the stream and the calls to come. -/
structure Receipt where
  result : Int32
  output : Buffer
  stream : List UInt8
  cuts : List Cut

def receiveExact (length : ℕ) (cleanEofAllowed restartOnEintr : Bool) :
    Buffer → ℕ → List UInt8 → List Cut → Option Receipt
  | output, offset, stream, [] => if offset < length then none else some ⟨0, output, stream, []⟩
  | output, offset, stream, cut :: cuts =>
    if offset < length then
      match recv cut stream (length - offset) with
      | .ok [] =>
        let result := if cleanEofAllowed ∧ offset = 0 then transportEof else -EPROTO
        some ⟨result, output, stream, cuts⟩
      | .ok (byte :: data) =>
        receiveExact length cleanEofAllowed restartOnEintr
          (writeBytes output offset (byte :: data)) (offset + (data.length + 1))
          (stream.drop (data.length + 1)) cuts
      | .error errno =>
        if errno = EINTR then
          if restartOnEintr then
            receiveExact length cleanEofAllowed restartOnEintr output offset stream cuts
          else some ⟨-EINTR, output, stream, cuts⟩
        else some ⟨-errno, output, stream, cuts⟩
    else some ⟨0, output, stream, cut :: cuts⟩

/-- A return of `receive_packet`. -/
structure PacketReceipt where
  result : Int32
  packet : ProtocolPacket
  stream : List UInt8
  cuts : List Cut

/-- `stack` is what the local `wire_header` holds before the call. -/
def receivePacket (restartOnEintr : Bool) (stack : Buffer) (packet : ProtocolPacket)
    (stream : List UInt8) (cuts : List Cut) : Option PacketReceipt :=
  (receiveExact protocolHeaderSize true restartOnEintr stack 0 stream cuts).bind fun head =>
    if head.result ≠ 0 then some ⟨head.result, packet, head.stream, head.cuts⟩
    else
      let (result, header) := decodeHeader head.output packet.header
      if result ≠ 0 then some ⟨result, { packet with header := header }, head.stream, head.cuts⟩
      else
        (receiveExact header.payloadLength.toNat false restartOnEintr packet.payload 0 head.stream
          head.cuts).map fun body =>
            ⟨body.result, ⟨header, body.output⟩, body.stream, body.cuts⟩

def transportReceive := receivePacket true

def transportReceiveInterruptible := receivePacket false

/-! ### Sending -/

/-- A return of a send: the bytes handed to the kernel and the calls to come. -/
structure SendReceipt where
  result : Int32
  bytes : List UInt8
  cuts : List Cut

def sendExact (input : Buffer) (length : ℕ) : ℕ → List UInt8 → List Cut → Option SendReceipt
  | offset, bytes, [] => if offset < length then none else some ⟨0, bytes, []⟩
  | offset, bytes, cut :: cuts =>
    if offset < length then
      match send cut (length - offset) with
      | .ok 0 => some ⟨-EPIPE, bytes, cuts⟩
      | .ok (sent + 1) =>
        sendExact input length (offset + (sent + 1)) (bytes ++ readBytes input offset (sent + 1))
          cuts
      | .error errno =>
        if errno ≠ EINTR then some ⟨-errno, bytes, cuts⟩
        else sendExact input length offset bytes cuts
    else some ⟨0, bytes, cut :: cuts⟩

/-- `stack` is what the local `wire` holds before the call. -/
def transportSend (stack : Buffer) (packet : ProtocolPacket) (cuts : List Cut) :
    Option SendReceipt :=
  let (result, wire) := encodeHeader stack packet.header
  if result ≠ 0 then some ⟨result, [], cuts⟩
  else
    let length := packet.header.payloadLength.toNat
    let wire := writeBytes wire protocolHeaderSize (readBytes packet.payload 0 length)
    sendExact wire (protocolHeaderSize + length) 0 [] cuts

/-! ### Smooth schedules -/

namespace Cut

/-- A call that moves bytes or is interrupted, and does not fail. -/
def isSmooth : Cut → Bool
  | moved _ | interrupted => true
  | _ => false

def isMove : Cut → Bool
  | moved _ => true
  | _ => false

/-- The calls of a schedule that move bytes. -/
def moves (cuts : List Cut) : ℕ := cuts.countP isMove

lemma smooth_cases {cut : Cut} (h : cut.isSmooth = true) :
    cut = .interrupted ∨ ∃ extra, cut = .moved extra := by
  cases cut with
  | moved extra => exact Or.inr ⟨extra, rfl⟩
  | interrupted => exact Or.inl rfl
  | nothing => cases h
  | failed errno positive => cases h

@[simp] lemma moves_interrupted (cuts : List Cut) : moves (.interrupted :: cuts) = moves cuts := by
  simp [moves, isMove]

@[simp] lemma moves_moved (extra : ℕ) (cuts : List Cut) :
    moves (.moved extra :: cuts) = moves cuts + 1 :=
  List.countP_cons_of_pos rfl

end Cut

open Cut

variable {cuts cuts' : List Cut} {stream : List UInt8} {length offset : ℕ}

/-- What is left of a smooth schedule after at most `n` moves. -/
structure Leaves (cuts cuts' : List Cut) (n : ℕ) : Prop where
  smooth : ∀ cut ∈ cuts', cut.isSmooth = true
  moves_le : moves cuts ≤ moves cuts' + n

lemma Leaves.interrupted {n : ℕ} (h : Leaves cuts cuts' n) :
    Leaves (.interrupted :: cuts) cuts' n where
  smooth := h.smooth
  moves_le := by simpa using h.moves_le

lemma Leaves.moved {n k extra : ℕ} (h : Leaves cuts cuts' n) (hk : n + 1 ≤ k) :
    Leaves (.moved extra :: cuts) cuts' k where
  smooth := h.smooth
  moves_le := by
    have := h.moves_le
    rw [moves_moved]
    omega

/-! ### Returns without an error -/

lemma neg_ne_zero_of_pos {errno : Int32} (h : 0 < errno) : -errno ≠ 0 := by
  intro heq
  have hzero : errno = 0 := by
    rw [← Int32.neg_neg (a := errno), heq]
    rfl
  rw [hzero] at h
  exact Int32.lt_irrefl h

/-- `recv` hands over the front of the stream. -/
lemma recv_ok {cut : Cut} {data : List UInt8} (h : recv cut stream length = .ok data) :
    ∃ k ≤ length, data = stream.take k := by
  cases cut with
  | moved extra =>
    cases h
    exact ⟨_, min_le_right _ _, rfl⟩
  | nothing =>
    cases h
    exact ⟨0, Nat.zero_le _, rfl⟩
  | interrupted => cases h
  | failed errno positive => cases h

lemma recv_error {cut : Cut} {errno : Int32} (h : recv cut stream length = .error errno) :
    0 < errno := by
  cases cut with
  | moved extra => cases h
  | nothing => cases h
  | interrupted =>
    cases h
    decide
  | failed errno positive =>
    cases h
    exact positive

/-- A receive without an error has taken the bytes it was asked for from the front of the stream. -/
lemma receiveExact_ok {clean restart : Bool} {output : Buffer} {r : Receipt}
    (h : receiveExact length clean restart output offset stream cuts = some r)
    (hr : r.result = 0) (hle : offset ≤ length) :
    length - offset ≤ stream.length ∧
      r.output = writeBytes output offset (stream.take (length - offset)) ∧
      r.stream = stream.drop (length - offset) := by
  induction cuts generalizing output offset stream with
  | nil =>
    rw [receiveExact] at h
    split_ifs at h with hlt
    cases h
    simp [Nat.sub_eq_zero_of_le (not_lt.mp hlt)]
  | cons cut cuts ih =>
    rw [receiveExact] at h
    by_cases hlt : offset < length
    · rw [if_pos hlt] at h
      cases hrecv : recv cut stream (length - offset) with
      | error errno =>
        have hpos := recv_error hrecv
        simp only [hrecv] at h
        split_ifs at h with hintr hrestart
        · exact ih h hle
        · cases h
          exact absurd hr (neg_ne_zero_of_pos (hintr ▸ hpos))
        · cases h
          exact absurd hr (neg_ne_zero_of_pos hpos)
      | ok data =>
        obtain ⟨k, hk, hdata⟩ := recv_ok hrecv
        cases data with
        | nil =>
          simp only [hrecv] at h
          cases h
          simp only at hr
          split_ifs at hr
          · exact absurd hr (by decide)
          · exact absurd hr (by decide)
        | cons byte data =>
          simp only [hrecv] at h
          obtain ⟨tail, rfl⟩ : ∃ tail, stream = (byte :: data) ++ tail :=
            ⟨_, by rw [hdata]; exact (List.take_append_drop _ stream).symm⟩
          have hlen : (byte :: data).length ≤ length - offset := by
            rw [hdata]
            exact le_trans (List.length_take_le _ _) hk
          rw [List.length_cons] at hlen
          have hdrop : ((byte :: data) ++ tail).drop (data.length + 1) = tail := List.drop_left
          rw [hdrop] at h
          obtain ⟨hfull, houtput, hstream⟩ := ih h (by omega)
          have hrest : length - offset = (byte :: data).length +
              (length - (offset + (data.length + 1))) := by
            rw [List.length_cons]
            omega
          rw [hrest, List.take_length_add_append, List.drop_length_add_append, List.length_append,
            ← writeBytes_append]
          exact ⟨Nat.add_le_add_left hfull _, houtput, hstream⟩
    · rw [if_neg hlt] at h
      cases h
      simp [Nat.sub_eq_zero_of_le (not_lt.mp hlt)]

/-- A send without an error has handed over all the bytes. -/
lemma sendExact_ok {input : Buffer} {bytes : List UInt8} {r : SendReceipt}
    (h : sendExact input length offset bytes cuts = some r) (hr : r.result = 0)
    (hle : offset ≤ length) : r.bytes = bytes ++ readBytes input offset (length - offset) := by
  induction cuts generalizing offset bytes with
  | nil =>
    rw [sendExact] at h
    split_ifs at h with hlt
    cases h
    simp [Nat.sub_eq_zero_of_le (not_lt.mp hlt), readBytes]
  | cons cut cuts ih =>
    rw [sendExact] at h
    by_cases hlt : offset < length
    · rw [if_pos hlt] at h
      cases cut with
      | moved extra =>
        obtain ⟨sent, hsent⟩ : ∃ sent, min (extra + 1) (length - offset) = sent + 1 :=
          ⟨min (extra + 1) (length - offset) - 1, by omega⟩
        simp only [send, hsent] at h
        rw [ih h (by omega), List.append_assoc, ← readBytes_add]
        congr 2
        omega
      | interrupted => exact ih h hle
      | nothing =>
        cases h
        exact absurd hr (neg_ne_zero_of_pos (show 0 < EPIPE by decide))
      | failed errno positive =>
        simp only [send] at h
        split_ifs at h
        · cases h
          exact absurd hr (neg_ne_zero_of_pos positive)
        · exact ih h hle
    · rw [if_neg hlt] at h
      cases h
      simp [Nat.sub_eq_zero_of_le (not_lt.mp hlt), readBytes]

/-! ### Enough moves -/

/-- Enough moves carry a send to its end: the bytes go out in order. -/
lemma sendExact_smooth (input : Buffer) (length offset : ℕ) (bytes : List UInt8)
    (hs : ∀ cut ∈ cuts, cut.isSmooth = true) (hle : offset ≤ length)
    (hd : length - offset ≤ moves cuts) :
    ∃ cuts', Leaves cuts cuts' (length - offset) ∧
      sendExact input length offset bytes cuts =
        some ⟨0, bytes ++ readBytes input offset (length - offset), cuts'⟩ := by
  induction cuts generalizing offset bytes with
  | nil =>
    have hdone : length - offset = 0 := by simpa [moves] using hd
    refine ⟨[], ⟨by simp, by simp⟩, ?_⟩
    rw [sendExact, if_neg (by omega), hdone]
    simp [readBytes]
  | cons cut cuts ih =>
    have hcuts : ∀ cut ∈ cuts, cut.isSmooth = true := fun c hc => hs c (List.mem_cons_of_mem _ hc)
    rw [sendExact]
    by_cases hlt : offset < length
    · rw [if_pos hlt]
      rcases smooth_cases (hs cut List.mem_cons_self) with rfl | ⟨extra, rfl⟩
      · obtain ⟨cuts', hleaves, hsend⟩ := ih offset bytes hcuts hle (by simpa using hd)
        exact ⟨cuts', hleaves.interrupted, hsend⟩
      · rw [moves_moved] at hd
        obtain ⟨sent, hsent⟩ : ∃ sent, min (extra + 1) (length - offset) = sent + 1 :=
          ⟨min (extra + 1) (length - offset) - 1, by omega⟩
        obtain ⟨cuts', hleaves, hsend⟩ := ih (offset + (sent + 1))
          (bytes ++ readBytes input offset (sent + 1)) hcuts (by omega) (by omega)
        refine ⟨cuts', hleaves.moved (by omega), ?_⟩
        simp only [send, hsent, hsend]
        rw [List.append_assoc, ← readBytes_add]
        congr 4
        omega
    · rw [if_neg hlt, Nat.sub_eq_zero_of_le (by omega)]
      refine ⟨cut :: cuts, ⟨hs, le_rfl⟩, ?_⟩
      simp [readBytes]

/-- Enough moves carry a receive to its end: the bytes asked for arrive in order, or the stream ends
before them. -/
lemma receiveExact_smooth (length : ℕ) (clean : Bool) (output : Buffer) (offset : ℕ)
    (stream : List UInt8) (hs : ∀ cut ∈ cuts, cut.isSmooth = true) (hle : offset ≤ length)
    (hd : min (length - offset) (stream.length + 1) ≤ moves cuts) :
    ∃ cuts', Leaves cuts cuts' (min (length - offset) (stream.length + 1)) ∧
      receiveExact length clean true output offset stream cuts =
        some (if length - offset ≤ stream.length then
          ⟨0, writeBytes output offset (stream.take (length - offset)),
            stream.drop (length - offset), cuts'⟩
        else ⟨if clean ∧ offset = 0 ∧ stream = [] then transportEof else -EPROTO,
          writeBytes output offset stream, [], cuts'⟩) := by
  induction cuts generalizing output offset stream with
  | nil =>
    have hdone : length - offset = 0 := by
      simp only [moves, List.countP_nil] at hd
      omega
    refine ⟨[], ⟨by simp, by simp⟩, ?_⟩
    rw [receiveExact, if_neg (by omega), hdone]
    simp
  | cons cut cuts ih =>
    have hcuts : ∀ cut ∈ cuts, cut.isSmooth = true := fun c hc => hs c (List.mem_cons_of_mem _ hc)
    rw [receiveExact]
    by_cases hlt : offset < length
    · rw [if_pos hlt]
      rcases smooth_cases (hs cut List.mem_cons_self) with rfl | ⟨extra, rfl⟩
      · obtain ⟨cuts', hleaves, hreceive⟩ := ih output offset stream hcuts hle (by simpa using hd)
        exact ⟨cuts', hleaves.interrupted, hreceive⟩
      · rw [moves_moved] at hd
        have hlen : (stream.take (min (extra + 1) (length - offset))).length =
            min (min (extra + 1) (length - offset)) stream.length := List.length_take
        cases hdata : stream.take (min (extra + 1) (length - offset)) with
        | nil =>
          -- the end of the stream
          rw [hdata, List.length_nil] at hlen
          have hnil : stream = [] := List.length_eq_zero_iff.mp (by omega)
          subst hnil
          refine ⟨cuts, ⟨hcuts, by simp; omega⟩, ?_⟩
          have hshort : ¬ length - offset ≤ 0 := by omega
          simp [recv, hshort]
        | cons byte data =>
          obtain ⟨tail, rfl⟩ : ∃ tail, stream = (byte :: data) ++ tail :=
            ⟨_, by rw [← hdata]; exact (List.take_append_drop _ stream).symm⟩
          simp only [hdata, List.length_append, List.length_cons] at hlen hd
          have hdrop : ((byte :: data) ++ tail).drop (data.length + 1) = tail := List.drop_left
          obtain ⟨cuts', hleaves, hreceive⟩ := ih (writeBytes output offset (byte :: data))
            (offset + (data.length + 1)) tail hcuts (by omega) (by omega)
          refine ⟨cuts', hleaves.moved (by simp; omega), ?_⟩
          have hrest : length - offset = (byte :: data).length +
              (length - (offset + (data.length + 1))) := by
            rw [List.length_cons]
            omega
          have hcond : length - offset ≤ ((byte :: data) ++ tail).length ↔
              length - (offset + (data.length + 1)) ≤ tail.length := by
            rw [List.length_append, hrest, add_le_add_iff_left]
          simp only [recv, hdata, hdrop, hreceive, hcond]
          rw [hrest, List.take_length_add_append, List.drop_length_add_append, ← writeBytes_append,
            ← writeBytes_append]
          simp
    · rw [if_neg hlt]
      have hdone : length - offset = 0 := by omega
      refine ⟨cut :: cuts, ⟨hs, Nat.le_add_right _ _⟩, ?_⟩
      simp [hdone]

end Tgcompat
