import Tgcompat.Protocol.Transport

/-!
# Packets over a stream

A packet is sent as its 24 header bytes followed by the first `payload_length` bytes of its payload.
However the kernel cuts the stream into calls, a receiver gets the packets back one by one, sees the
end of the stream only between two of them, and reports a stream that ends inside one.
-/

namespace Tgcompat

open Cut

/-- The bytes of a header on the wire. -/
def headerBytes (header : ProtocolHeader) : List UInt8 :=
  readBytes (encodeHeader (fun _ => 0) header).2 0 protocolHeaderSize

/-- The bytes of a packet on the wire. -/
def ProtocolPacket.frame (p : ProtocolPacket) : List UInt8 :=
  headerBytes p.header ++ readBytes p.payload 0 p.length

variable {p q : ProtocolPacket} {header stale : ProtocolHeader} {stack : Buffer}
  {cuts : List Cut} {rest : List UInt8}

@[simp] lemma length_headerBytes (header : ProtocolHeader) :
    (headerBytes header).length = protocolHeaderSize := by
  simp [headerBytes]

@[simp] lemma length_frame (p : ProtocolPacket) :
    p.frame.length = protocolHeaderSize + p.length := by
  simp [ProtocolPacket.frame]

/-- The bytes of a valid header do not depend on the buffer they are written to. -/
lemma readBytes_encodeHeader (h : headerIsValid header = 0) (output : Buffer) :
    readBytes (encodeHeader output header).2 0 protocolHeaderSize = headerBytes header := by
  apply readBytes_congr
  intro i hi
  rw [encodeHeader_of_valid h, encodeHeader_of_valid h]
  exact Wire.header.put_congr (by omega) (by rw [Wire.header_width]; omega)

lemma decodeHeader_headerBytes (h : headerIsValid header = 0) :
    decodeHeader (writeBytes stack 0 (headerBytes header)) stale = (0, header) := by
  rw [decodeHeader_eq_ok]
  refine ⟨h, ?_⟩
  rw [← Wire.header.get_put (fun _ => 0) 0 header.wireFields]
  apply Wire.header.get_congr
  intro n _ hn
  rw [Wire.header_width, zero_add] at hn
  have hbyte : writeBytes stack 0 (headerBytes header) (0 + n) =
      (encodeHeader (fun _ => 0) header).2 (0 + n) := writeBytes_readBytes _ _ hn
  rw [zero_add] at hbyte
  rw [hbyte, encodeHeader_of_valid h]

/-! ### One packet -/

/-- What `tgc_transport_send` hands to the kernel. -/
lemma readBytes_wire (stack : Buffer) (hp : headerIsValid p.header = 0) :
    readBytes (writeBytes (encodeHeader stack p.header).2 protocolHeaderSize
      (readBytes p.payload 0 p.length)) 0 (protocolHeaderSize + p.length) = p.frame := by
  rw [readBytes_add, ProtocolPacket.frame, ← readBytes_encodeHeader hp stack]
  refine congrArg₂ (· ++ ·) (readBytes_congr ?_) (readBytes_congr ?_)
  · intro i hi
    simp only [writeBytes]
    rw [if_neg (by omega)]
  · intro i hi
    rw [zero_add, writeBytes_readBytes _ _ hi]

/-- A send without an error has handed over the frame of the packet. -/
lemma transportSend_ok {r : SendReceipt} (h : transportSend stack p cuts = some r)
    (hr : r.result = 0) : headerIsValid p.header = 0 ∧ r.bytes = p.frame := by
  rw [transportSend] at h
  simp only at h
  split_ifs at h with hresult
  · cases h
    exact absurd hr hresult
  · rw [not_not, encodeHeader_fst] at hresult
    have hbytes := sendExact_ok h hr (Nat.zero_le _)
    rw [Nat.sub_zero, List.nil_append] at hbytes
    exact ⟨hresult, hbytes.trans (readBytes_wire stack hresult)⟩

/-- A receive without an error has taken one frame from the front of the stream. -/
lemma receivePacket_ok {restart : Bool} {stream : List UInt8} {r : PacketReceipt}
    (h : receivePacket restart stack q stream cuts = some r) (hr : r.result = 0) :
    headerIsValid r.packet.header = 0 ∧ stream = r.packet.frame ++ r.stream := by
  rw [receivePacket] at h
  obtain ⟨head, hhead, h⟩ := Option.bind_eq_some_iff.mp h
  by_cases hok : head.result = 0
  · rw [if_neg (not_not.mpr hok)] at h
    obtain ⟨hfull, houtput, hrest⟩ := receiveExact_ok hhead hok (Nat.zero_le _)
    rw [Nat.sub_zero] at hfull houtput hrest
    rcases hdecode : decodeHeader head.output q.header with ⟨result, header⟩
    simp only [hdecode] at h
    by_cases hresult : result = 0
    · subst hresult
      rw [if_neg (not_not.mpr rfl)] at h
      obtain ⟨body, hbody, rfl⟩ := Option.map_eq_some_iff.mp h
      obtain ⟨hbodyFull, hbodyOutput, hbodyRest⟩ := receiveExact_ok hbody hr (Nat.zero_le _)
      rw [Nat.sub_zero] at hbodyFull hbodyOutput hbodyRest
      obtain ⟨hvalid, hbytes⟩ := encodeHeader_decodeHeader hdecode
      refine ⟨hvalid, ?_⟩
      have hheader : headerBytes header = stream.take protocolHeaderSize := by
        rw [← readBytes_writeBytes_take stack stream hfull, ← houtput]
        exact readBytes_congr fun i hi => by rw [zero_add]; exact hbytes _ i hi
      have hpayload : readBytes body.output 0 header.payloadLength.toNat =
          head.stream.take header.payloadLength.toNat := by
        rw [hbodyOutput]
        exact readBytes_writeBytes_take _ _ hbodyFull
      rw [ProtocolPacket.frame, hheader, ProtocolPacket.length, hpayload, hbodyRest,
        List.append_assoc, List.take_append_drop, hrest, List.take_append_drop]
    · rw [if_pos hresult] at h
      cases h
      exact absurd hr hresult
  · rw [if_pos hok] at h
    cases h
    exact absurd hr hok

lemma transportSend_smooth (stack : Buffer) (p : ProtocolPacket) (hp : headerIsValid p.header = 0)
    (hs : ∀ cut ∈ cuts, cut.isSmooth = true) (hd : p.frame.length ≤ moves cuts) :
    ∃ cuts', Leaves cuts cuts' p.frame.length ∧
      transportSend stack p cuts = some ⟨0, p.frame, cuts'⟩ := by
  rw [length_frame] at hd ⊢
  obtain ⟨cuts', hleaves, hsend⟩ := sendExact_smooth
    (writeBytes (encodeHeader stack p.header).2 protocolHeaderSize
      (readBytes p.payload 0 p.length)) (protocolHeaderSize + p.length) 0 [] hs (Nat.zero_le _) hd
  refine ⟨cuts', hleaves, ?_⟩
  rw [Nat.sub_zero, readBytes_wire stack hp, List.nil_append] at hsend
  have hresult : (encodeHeader stack p.header).1 = 0 := by rw [encodeHeader_fst, hp]
  simp only [transportSend, hresult]
  exact hsend

lemma transportReceive_frame (stack : Buffer) (q : ProtocolPacket) (rest : List UInt8)
    (hp : headerIsValid p.header = 0) (hs : ∀ cut ∈ cuts, cut.isSmooth = true)
    (hd : p.frame.length ≤ moves cuts) :
    ∃ cuts', Leaves cuts cuts' p.frame.length ∧
      transportReceive stack q (p.frame ++ rest) cuts =
        some ⟨0, ⟨p.header, writeBytes q.payload 0 (readBytes p.payload 0 p.length)⟩, rest,
          cuts'⟩ := by
  rw [length_frame] at hd ⊢
  set payload := readBytes p.payload 0 p.length with hpayload
  obtain ⟨cuts₁, hleaves₁, hheader⟩ := receiveExact_smooth protocolHeaderSize true stack 0
    (headerBytes p.header ++ (payload ++ rest)) hs (Nat.zero_le _) (by omega)
  obtain ⟨cuts₂, hleaves₂, hbody⟩ := receiveExact_smooth p.length false q.payload 0
    (payload ++ rest) hleaves₁.smooth (Nat.zero_le _)
    (by have := hleaves₁.moves_le; omega)
  have hlen : payload.length = p.length := by simp [hpayload]
  have hfull : p.length ≤ payload.length + rest.length := by omega
  simp only [Nat.sub_zero, List.length_append, length_headerBytes, Nat.le_add_right, if_true]
    at hheader
  simp only [Nat.sub_zero, List.length_append, hfull, if_true] at hbody
  rw [List.take_left' (length_headerBytes _), List.drop_left' (length_headerBytes _)] at hheader
  rw [List.take_left' hlen, List.drop_left' hlen] at hbody
  refine ⟨cuts₂, ⟨hleaves₂.smooth, ?_⟩, ?_⟩
  · have h₁ := hleaves₁.moves_le
    have h₂ := hleaves₂.moves_le
    omega
  · rw [ProtocolPacket.frame, List.append_assoc]
    rw [transportReceive, receivePacket, hheader, Option.bind_some, if_neg (by simp)]
    simp only [decodeHeader_headerBytes hp, ne_eq, not_true_eq_false, if_false]
    rw [← ProtocolPacket.length, hbody, Option.map_some]

lemma transportReceive_nil (hs : ∀ cut ∈ cuts, cut.isSmooth = true) (hd : 1 ≤ moves cuts) :
    ∃ cuts', transportReceive stack q [] cuts = some ⟨transportEof, q, [], cuts'⟩ := by
  obtain ⟨cuts', -, hheader⟩ := receiveExact_smooth protocolHeaderSize true stack 0 [] hs
    (Nat.zero_le _) (by simp only [List.length_nil]; omega)
  refine ⟨cuts', ?_⟩
  rw [if_neg (by decide), if_pos (by simp)] at hheader
  rw [transportReceive, receivePacket, hheader, Option.bind_some,
    if_pos (show transportEof ≠ 0 by decide)]

/-- A stream that ends inside a packet is reported. -/
lemma transportReceive_part {part : List UInt8} (hp : headerIsValid p.header = 0)
    (hpart : part <+: p.frame) (hne : part ≠ []) (hcut : part ≠ p.frame)
    (hs : ∀ cut ∈ cuts, cut.isSmooth = true) (hd : part.length + 1 ≤ moves cuts) :
    ∃ q' cuts', transportReceive stack q part cuts = some ⟨-EPROTO, q', [], cuts'⟩ := by
  have hlt : part.length < protocolHeaderSize + p.length := by
    rw [← length_frame]
    exact lt_of_le_of_ne hpart.length_le fun h => hcut (hpart.eq_of_length h)
  obtain ⟨cuts₁, hleaves, hheader⟩ := receiveExact_smooth protocolHeaderSize true stack 0 part
    hs (Nat.zero_le _) (by omega)
  rw [Nat.sub_zero] at hheader hleaves
  by_cases hfull : protocolHeaderSize ≤ part.length
  · -- the header is complete, the payload is not
    obtain ⟨body, rfl⟩ : ∃ body, part = headerBytes p.header ++ body := by
      obtain ⟨tail, htail⟩ := hpart
      refine ⟨part.drop protocolHeaderSize, ?_⟩
      have htake := congrArg (List.take protocolHeaderSize) htail
      rw [List.take_append_of_le_length hfull, ProtocolPacket.frame,
        List.take_left' (length_headerBytes _)] at htake
      rw [← htake, List.take_append_drop]
    rw [List.length_append, length_headerBytes] at hlt hd
    rw [if_pos hfull, List.take_left' (length_headerBytes _),
      List.drop_left' (length_headerBytes _)] at hheader
    obtain ⟨cuts₂, -, hbody⟩ := receiveExact_smooth p.length false q.payload 0 body
      hleaves.smooth (Nat.zero_le _) (by have := hleaves.moves_le; omega)
    rw [Nat.sub_zero, if_neg (by omega), if_neg (by simp)] at hbody
    refine ⟨⟨p.header, writeBytes q.payload 0 body⟩, cuts₂, ?_⟩
    rw [transportReceive, receivePacket, hheader, Option.bind_some, if_neg (by simp)]
    simp only [decodeHeader_headerBytes hp, ne_eq, not_true_eq_false, if_false]
    rw [← ProtocolPacket.length, hbody, Option.map_some]
  · rw [if_neg hfull, if_neg (by simp [hne])] at hheader
    refine ⟨q, cuts₁, ?_⟩
    rw [transportReceive, receivePacket, hheader, Option.bind_some,
      if_pos (show -EPROTO ≠ 0 by decide)]

/-! ### Streams -/

/-- Calls of `tgc_transport_send`, one for each packet: the results and the bytes that went out. -/
def sendEach : List (Buffer × ProtocolPacket) → List Cut →
    Option (List Int32 × List UInt8 × List Cut)
  | [], cuts => some ([], [], cuts)
  | (stack, packet) :: calls, cuts =>
    (transportSend stack packet cuts).bind fun sent =>
      (sendEach calls sent.cuts).map fun (results, bytes, cuts) =>
        (sent.result :: results, sent.bytes ++ bytes, cuts)

/-- Calls of `tgc_transport_receive`, one for each packet of the caller: the results, the packets
and what is left of the stream. -/
def receiveEach : List (Buffer × ProtocolPacket) → List UInt8 → List Cut →
    Option (List (Int32 × ProtocolPacket) × List UInt8 × List Cut)
  | [], stream, cuts => some ([], stream, cuts)
  | (stack, packet) :: calls, stream, cuts =>
    (transportReceive stack packet stream cuts).bind fun received =>
      (receiveEach calls received.stream received.cuts).map fun (rest, stream, cuts) =>
        ((received.result, received.packet) :: rest, stream, cuts)

/-- A call that returned a packet: its header, and its payload as far as it is long. -/
def Delivers (received : Int32 × ProtocolPacket) (p : ProtocolPacket) : Prop :=
  received.1 = 0 ∧ received.2.header = p.header ∧ ∀ n < p.length, received.2.payload n = p.payload n

variable {packets : List ProtocolPacket} {calls : List (Buffer × ProtocolPacket)}

lemma sendEach_smooth (hvalid : ∀ call ∈ calls, headerIsValid call.2.header = 0)
    (hs : ∀ cut ∈ cuts, cut.isSmooth = true)
    (hd : ((calls.map Prod.snd).flatMap ProtocolPacket.frame).length ≤ moves cuts) :
    ∃ cuts', sendEach calls cuts = some (List.replicate calls.length 0,
      (calls.map Prod.snd).flatMap ProtocolPacket.frame, cuts') := by
  induction calls generalizing cuts with
  | nil => exact ⟨cuts, rfl⟩
  | cons call calls ih =>
    obtain ⟨stack, p⟩ := call
    simp only [List.map_cons, List.flatMap_cons, List.length_append] at hd ⊢
    obtain ⟨cuts₁, hleaves, hsend⟩ := transportSend_smooth stack p
      (hvalid _ List.mem_cons_self) hs (by omega)
    obtain ⟨cuts₂, hrest⟩ := ih (fun call hcall => hvalid call (List.mem_cons_of_mem _ hcall))
      hleaves.smooth (by have := hleaves.moves_le; omega)
    refine ⟨cuts₂, ?_⟩
    rw [sendEach, hsend, Option.bind_some, hrest, Option.map_some, List.length_cons,
      List.replicate_succ]

/-- The packets of a stream are received one by one, and then what follows them. -/
lemma receiveEach_packets (hvalid : ∀ p ∈ packets, headerIsValid p.header = 0)
    {tail : List UInt8} {result : Int32}
    (htail : ∀ stack q cuts, (∀ cut ∈ cuts, cut.isSmooth = true) → tail.length + 1 ≤ moves cuts →
      ∃ q' cuts', transportReceive stack q tail cuts = some ⟨result, q', [], cuts'⟩)
    (hcalls : calls.length = packets.length + 1) (hs : ∀ cut ∈ cuts, cut.isSmooth = true)
    (hd : (packets.flatMap ProtocolPacket.frame ++ tail).length + 1 ≤ moves cuts) :
    ∃ received last cuts',
      receiveEach calls (packets.flatMap ProtocolPacket.frame ++ tail) cuts =
        some (received ++ [last], [], cuts') ∧
      List.Forall₂ Delivers received packets ∧ last.1 = result := by
  induction packets generalizing calls cuts with
  | nil =>
    obtain ⟨⟨stack, q⟩, rfl⟩ := List.length_eq_one_iff.mp hcalls
    obtain ⟨q', cuts', hreceive⟩ := htail stack q cuts hs hd
    refine ⟨[], (result, q'), cuts', ?_, .nil, rfl⟩
    rw [List.flatMap_nil, List.nil_append, receiveEach, hreceive, Option.bind_some, receiveEach,
      Option.map_some, List.nil_append]
  | cons p packets ih =>
    cases calls with
    | nil => cases hcalls
    | cons call calls =>
      obtain ⟨stack, q⟩ := call
      rw [List.flatMap_cons, List.append_assoc] at hd ⊢
      rw [List.length_append] at hd
      obtain ⟨cuts₁, hleaves, hreceive⟩ := transportReceive_frame stack q
        (packets.flatMap ProtocolPacket.frame ++ tail) (hvalid p List.mem_cons_self) hs (by omega)
      obtain ⟨received, last, cuts₂, hrest, hdelivers, hlast⟩ :=
        ih (fun p hp => hvalid p (List.mem_cons_of_mem _ hp)) (Nat.succ_inj.mp hcalls)
          hleaves.smooth (by have := hleaves.moves_le; omega)
      refine ⟨(0, ⟨p.header, writeBytes q.payload 0 (readBytes p.payload 0 p.length)⟩) :: received,
        last, cuts₂, ?_, .cons ⟨rfl, rfl, ?_⟩ hdelivers, hlast⟩
      · rw [receiveEach, hreceive, Option.bind_some, hrest, Option.map_some, List.cons_append]
      · intro n hn
        have hbyte : writeBytes q.payload 0 (readBytes p.payload 0 p.length) (0 + n) =
            p.payload (0 + n) := writeBytes_readBytes _ _ hn
        rwa [zero_add] at hbyte

/-- Framing does not depend on how the kernel cuts the stream. Packets with valid headers go out as
their frames, come back as they were, and are followed by the end of the stream; a stream that ends
inside a packet gives the packets before it and then an error. -/
theorem framing_independent_of_cuts (packets : List ProtocolPacket)
    (hvalid : ∀ p ∈ packets, headerIsValid p.header = 0) :
    (∀ calls cuts, calls.map Prod.snd = packets → (∀ cut ∈ cuts, cut.isSmooth = true) →
      (packets.flatMap ProtocolPacket.frame).length ≤ moves cuts →
      ∃ cuts', sendEach calls cuts = some (List.replicate packets.length 0,
        packets.flatMap ProtocolPacket.frame, cuts')) ∧
    (∀ calls cuts, calls.length = packets.length + 1 → (∀ cut ∈ cuts, cut.isSmooth = true) →
      (packets.flatMap ProtocolPacket.frame).length + 1 ≤ moves cuts →
      ∃ received last cuts',
        receiveEach calls (packets.flatMap ProtocolPacket.frame) cuts =
          some (received ++ [last], [], cuts') ∧
        List.Forall₂ Delivers received packets ∧ last.1 = transportEof) ∧
    ∀ (p : ProtocolPacket) part calls cuts, headerIsValid p.header = 0 → part <+: p.frame →
      part ≠ [] → part ≠ p.frame → calls.length = packets.length + 1 →
      (∀ cut ∈ cuts, cut.isSmooth = true) →
      (packets.flatMap ProtocolPacket.frame ++ part).length + 1 ≤ moves cuts →
      ∃ received last cuts',
        receiveEach calls (packets.flatMap ProtocolPacket.frame ++ part) cuts =
          some (received ++ [last], [], cuts') ∧
        List.Forall₂ Delivers received packets ∧ last.1 = -EPROTO := by
  refine ⟨?_, ?_, ?_⟩
  · rintro calls cuts rfl hs hd
    have hcalls : ∀ call ∈ calls, headerIsValid call.2.header = 0 :=
      fun call hcall => hvalid _ (List.mem_map_of_mem hcall)
    rw [List.length_map]
    exact sendEach_smooth hcalls hs hd
  · intro calls cuts hcalls hs hd
    have hend : ∀ stack q cuts, (∀ cut ∈ cuts, cut.isSmooth = true) →
        ([] : List UInt8).length + 1 ≤ moves cuts →
          ∃ q' cuts', transportReceive stack q [] cuts = some ⟨transportEof, q', [], cuts'⟩ :=
      fun stack q cuts hs hd => ⟨q, transportReceive_nil hs hd⟩
    have hreceive := receiveEach_packets hvalid hend hcalls hs (by rwa [List.append_nil])
    rwa [List.append_nil] at hreceive
  · intro p part calls cuts hp hpart hne hcut hcalls hs hd
    exact receiveEach_packets hvalid
      (fun stack q cuts hs hd => transportReceive_part hp hpart hne hcut hs hd) hcalls hs hd

/-- A request with two bytes of payload. -/
def shortRequest : ProtocolPacket where
  header := ⟨protocolVersion, protocolRequest, Opcode.ping.code, 7, 2, 0⟩
  payload := fun n => UInt8.ofNat n

/-- Two such requests, sent and received with a signal before every byte. -/
theorem framing_independent_of_cuts_bytewise :
    let stack : Buffer := fun _ => 0
    let cuts := (List.replicate 60 [Cut.interrupted, Cut.moved 0]).flatten
    let stream := shortRequest.frame ++ shortRequest.frame
    (∃ cuts', sendEach [(stack, shortRequest), (stack, shortRequest)] cuts =
      some ([0, 0], stream, cuts')) ∧
    ∃ received last cuts',
      receiveEach (List.replicate 3 (stack, ⟨shortRequest.header, stack⟩)) stream cuts =
        some (received ++ [last], [], cuts') ∧
      List.Forall₂ Delivers received [shortRequest, shortRequest] ∧ last.1 = transportEof := by
  intro stack cuts stream
  have hsmooth : ∀ cut ∈ cuts, cut.isSmooth = true := by
    intro cut hcut
    simp only [cuts, List.mem_flatten, List.mem_replicate] at hcut
    obtain ⟨l, ⟨-, rfl⟩, hcut⟩ := hcut
    simp only [List.mem_cons, List.not_mem_nil, or_false] at hcut
    rcases hcut with rfl | rfl <;> rfl
  have hmoves : moves cuts = 60 := by decide
  have hlen : shortRequest.frame.length = 26 := by
    rw [length_frame]
    decide
  have h := framing_independent_of_cuts [shortRequest, shortRequest] (by simp; decide)
  simp only [List.flatMap_cons, List.flatMap_nil, List.append_nil, List.length_append, hlen] at h
  exact ⟨h.1 _ cuts rfl hsmooth (by omega), h.2.1 _ cuts rfl hsmooth (by omega)⟩

end Tgcompat
