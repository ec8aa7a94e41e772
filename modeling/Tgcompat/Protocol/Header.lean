import Tgcompat.Protocol.Wire

/-!
# The packet header

`tgc_protocol_encode_header` and `tgc_protocol_decode_header`. Both go through `header_is_valid`,
so one rejects exactly the headers the other cannot produce. The 24 bytes are one field of a memory
layout, from which both directions of the codec follow.
-/

namespace Tgcompat

def protocolMagic : UInt32 := 0x43534754
def protocolHeaderSize : ℕ := 24

def headerIsValid (header : ProtocolHeader) : Int32 :=
  if header.version ≠ protocolVersion then -EPROTO
  else if header.kind ≠ protocolRequest ∧ header.kind ≠ protocolResponse then -EPROTO
  else if header.opcode < Opcode.ping.code ∨ header.opcode > Opcode.statIndex.code then -EPROTO
  else if header.payloadLength.toNat > protocolMaxPayload then -EMSGSIZE
  else if header.kind = protocolRequest ∧ header.result ≠ 0 then -EPROTO
  else 0

/-- The result and the output buffer. -/
def encodeHeader (output : Buffer) (header : ProtocolHeader) : Int32 × Buffer :=
  let result := headerIsValid header
  if result ≠ 0 then (result, output)
  else
    let output := wirePutU32 output 0 protocolMagic
    let output := wirePutU16 output 4 header.version
    let output := wirePutU16 output 6 header.kind
    let output := wirePutU16 output 8 header.opcode
    let output := wirePutU16 output 10 0
    let output := wirePutU32 output 12 header.requestId
    let output := wirePutU32 output 16 header.payloadLength
    let output := wirePutI32 output 20 header.result
    (0, output)

/-- The result and the caller's header, which is only assigned on success. -/
def decodeHeader (input : Buffer) (header : ProtocolHeader) : Int32 × ProtocolHeader :=
  if wireGetU32 input 0 ≠ protocolMagic ∨ wireGetU16 input 10 ≠ 0 then (-EPROTO, header)
  else
    let decoded : ProtocolHeader := {
      version := wireGetU16 input 4
      kind := wireGetU16 input 6
      opcode := wireGetU16 input 8
      requestId := wireGetU32 input 12
      payloadLength := wireGetU32 input 16
      result := wireGetI32 input 20 }
    let result := headerIsValid decoded
    if result ≠ 0 then (result, header) else (0, decoded)

/-! ### The layout -/

namespace Wire

open Layout

/-- Magic, version, kind, opcode, reserved, request id, payload length, result. -/
def header : Field UInt8
    (UInt32 × UInt16 × UInt16 × UInt16 × UInt16 × UInt32 × UInt32 × Int32) :=
  u32.seq (u16.seq (u16.seq (u16.seq (u16.seq (u32.seq (u32.seq i32))))))

lemma header_width : header.width = protocolHeaderSize := rfl

end Wire

/-- The header as it stands on the wire. -/
def ProtocolHeader.wireFields (header : ProtocolHeader) :
    UInt32 × UInt16 × UInt16 × UInt16 × UInt16 × UInt32 × UInt32 × Int32 :=
  (protocolMagic, header.version, header.kind, header.opcode, 0, header.requestId,
    header.payloadLength, header.result)

lemma ProtocolHeader.wireFields_injective : Function.Injective ProtocolHeader.wireFields := by
  intro h h' heq
  simp only [wireFields, Prod.mk.injEq] at heq
  obtain ⟨-, hversion, hkind, hopcode, -, hid, hlength, hresult⟩ := heq
  cases h
  cases h'
  simp_all

variable {input output : Buffer} {header stale : ProtocolHeader}

/-- Encoding writes the fields of a valid header and nothing else. -/
lemma encodeHeader_of_valid (h : headerIsValid header = 0) :
    encodeHeader output header = (0, Wire.header.put output 0 header.wireFields) := by
  rw [encodeHeader, if_neg (not_not.mpr h)]
  rfl

lemma encodeHeader_fst : (encodeHeader output header).1 = headerIsValid header := by
  by_cases h : headerIsValid header = 0
  · rw [encodeHeader_of_valid h, h]
  · rw [encodeHeader, if_pos h]

/-- Decoding accepts the bytes of a valid header and nothing else. -/
lemma decodeHeader_eq_ok : decodeHeader input stale = (0, header) ↔
    headerIsValid header = 0 ∧ Wire.header.get input 0 = header.wireFields := by
  simp only [decodeHeader]
  constructor
  · intro h
    split_ifs at h with hpinned hvalid
    · cases h
    · simp only [Prod.mk.injEq] at h
      exact absurd h.1 hvalid
    · simp only [Prod.mk.injEq, true_and] at h
      simp only [not_or, not_not] at hpinned hvalid
      subst h
      refine ⟨hvalid, ?_⟩
      rw [ProtocolHeader.wireFields, ← hpinned.1, ← hpinned.2]
      rfl
  · rintro ⟨hvalid, hget⟩
    have hmagic : wireGetU32 input 0 = protocolMagic := congrArg Prod.fst hget
    have hreserved : wireGetU16 input 10 = 0 := congrArg (·.2.2.2.2.1) hget
    have hdecoded : ({
        version := wireGetU16 input 4
        kind := wireGetU16 input 6
        opcode := wireGetU16 input 8
        requestId := wireGetU32 input 12
        payloadLength := wireGetU32 input 16
        result := wireGetI32 input 20 } : ProtocolHeader) = header := by
      apply ProtocolHeader.wireFields_injective
      rw [← hget, ProtocolHeader.wireFields, ← hmagic, ← hreserved]
      rfl
    simp only [hmagic, hreserved, ne_eq, not_true_eq_false, or_self, if_false, hdecoded, hvalid]

/-- Encoding a header that was decoded gives its bytes back. -/
lemma encodeHeader_decodeHeader (h : decodeHeader input stale = (0, header)) :
    headerIsValid header = 0 ∧ ∀ output, ∀ n < protocolHeaderSize,
      (encodeHeader output header).2 n = input n := by
  obtain ⟨hvalid, hget⟩ := decodeHeader_eq_ok.mp h
  refine ⟨hvalid, ?_⟩
  intro output n hn
  rw [encodeHeader_of_valid hvalid, ← hget]
  exact Wire.header.put_get input output (Nat.zero_le n) (by rwa [Wire.header_width, zero_add])

lemma decodeHeader_of_ne (h : (decodeHeader input stale).1 ≠ 0) :
    (decodeHeader input stale).2 = stale := by
  simp only [decodeHeader] at h ⊢
  split_ifs with hpinned hvalid
  · rfl
  · rfl
  · rw [if_neg hpinned, if_neg hvalid] at h
    exact absurd rfl h

/-! ### The codec -/

/-- The codec is a bijection between valid headers and the byte strings it accepts: decoding
undoes encoding, encoding undoes decoding, the accepted strings are the encodings of valid headers,
and a rejected string leaves the caller's header alone. -/
theorem headerCodec_bijective :
    (∀ output header stale, (encodeHeader output header).1 = 0 →
      decodeHeader (encodeHeader output header).2 stale = (0, header)) ∧
    (∀ input stale, (decodeHeader input stale).1 = 0 → ∀ output,
      (encodeHeader output (decodeHeader input stale).2).1 = 0 ∧
      ∀ n < protocolHeaderSize,
        (encodeHeader output (decodeHeader input stale).2).2 n = input n) ∧
    (∀ input stale, (decodeHeader input stale).1 = 0 ↔
      ∃ header, headerIsValid header = 0 ∧ ∀ output, ∀ n < protocolHeaderSize,
        (encodeHeader output header).2 n = input n) ∧
    ∀ input stale, (decodeHeader input stale).1 ≠ 0 → (decodeHeader input stale).2 = stale := by
  refine ⟨?_, ?_, ?_, ?_⟩
  · intro output header stale h
    rw [encodeHeader_fst] at h
    rw [encodeHeader_of_valid h]
    exact decodeHeader_eq_ok.mpr ⟨h, Wire.header.get_put _ _ _⟩
  · intro input stale h output
    rw [encodeHeader_fst]
    obtain ⟨hvalid, hbytes⟩ := encodeHeader_decodeHeader (Prod.ext h rfl)
    exact ⟨hvalid, hbytes output⟩
  · intro input stale
    constructor
    · intro h
      exact ⟨_, encodeHeader_decodeHeader (Prod.ext h rfl)⟩
    · rintro ⟨header, hvalid, hbytes⟩
      have hget : Wire.header.get input 0 = header.wireFields := by
        rw [← Wire.header.get_put input 0 header.wireFields]
        apply Wire.header.get_congr
        intro n _ hn
        rw [Wire.header_width, zero_add] at hn
        rw [← hbytes input n hn, encodeHeader_of_valid hvalid]
      rw [decodeHeader_eq_ok.mpr ⟨hvalid, hget⟩]
  · intro input stale h
    exact decodeHeader_of_ne h

end Tgcompat
