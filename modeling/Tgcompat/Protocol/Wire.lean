import Mathlib.Tactic
import Tgcompat.Library.Layout

/-!
# The wire format

The packets of `protocol.h` and the little-endian accessors of `protocol.c`. A buffer is a
function from offsets to bytes; `payload + n` is the offset `n`. The 16 opcodes are an
enumeration with the codes of `enum tgc_protocol_opcode`.

An accessor pair is a field of a memory layout: a word is its bytes in little-endian order, and the
signed accessors read and write the same words.
-/

namespace Tgcompat

def EPROTO : Int32 := 71
def EMSGSIZE : Int32 := 90

def protocolVersion : UInt16 := 1
def protocolRequest : UInt16 := 1
def protocolResponse : UInt16 := 2
def protocolMaxPayload : ℕ := 8192

/-! ### Packets -/

structure ProtocolHeader where
  version : UInt16
  kind : UInt16
  opcode : UInt16
  requestId : UInt32
  payloadLength : UInt32
  result : Int32
  deriving DecidableEq, Repr

/-- The bytes of a payload array, by offset. -/
abbrev Buffer := ℕ → UInt8

@[ext] structure ProtocolPacket where
  header : ProtocolHeader
  payload : Buffer

inductive Opcode where
  | ping | semget | remove | getval | setval | getpid | getall | setall | semop | getncnt
  | getzcnt | stat | setmeta | semtimedop | info | statIndex
  deriving DecidableEq, Repr

namespace Opcode

def code : Opcode → UInt16
  | ping => 1
  | semget => 2
  | remove => 3
  | getval => 4
  | setval => 5
  | getpid => 6
  | getall => 7
  | setall => 8
  | semop => 9
  | getncnt => 10
  | getzcnt => 11
  | stat => 12
  | setmeta => 13
  | semtimedop => 14
  | info => 15
  | statIndex => 16

/-- The opcodes in the order of their codes. -/
def all : List Opcode :=
  [ping, semget, remove, getval, setval, getpid, getall, setall, semop, getncnt, getzcnt, stat,
    setmeta, semtimedop, info, statIndex]

/-- The opcode a `switch` on the header field selects; `none` is its default branch. -/
def ofCode (c : UInt16) : Option Opcode :=
  all.find? fun op => op.code == c

/-- `SEMOP` and `SEMTIMEDOP` are handled by one function. -/
def isSemop : Opcode → Bool
  | semop | semtimedop => true
  | _ => false

lemma ofCode_code (op : Opcode) : ofCode op.code = some op := by
  cases op <;> decide

end Opcode

namespace ProtocolPacket

/-- The length field of a packet as an offset. -/
def length (p : ProtocolPacket) : ℕ := p.header.payloadLength.toNat

def opcode (p : ProtocolPacket) : Option Opcode := Opcode.ofCode p.header.opcode

end ProtocolPacket

/-! ### Accessors -/

def wireGetU16 (b : Buffer) (off : ℕ) : UInt16 :=
  (b off).toUInt16 ||| ((b (off + 1)).toUInt16 <<< 8)

def wireGetU32 (b : Buffer) (off : ℕ) : UInt32 :=
  (b off).toUInt32 ||| ((b (off + 1)).toUInt32 <<< 8) ||| ((b (off + 2)).toUInt32 <<< 16) |||
    ((b (off + 3)).toUInt32 <<< 24)

def wireGetU64 (b : Buffer) (off : ℕ) : UInt64 :=
  (wireGetU32 b off).toUInt64 ||| ((wireGetU32 b (off + 4)).toUInt64 <<< 32)

def wireGetI16 (b : Buffer) (off : ℕ) : Int16 := (wireGetU16 b off).toInt16

def wireGetI32 (b : Buffer) (off : ℕ) : Int32 := (wireGetU32 b off).toInt32

def wireGetI64 (b : Buffer) (off : ℕ) : Int64 := (wireGetU64 b off).toInt64

def wirePutU16 (b : Buffer) (off : ℕ) (value : UInt16) : Buffer :=
  let b := Function.update b off (value &&& 0xff).toUInt8
  Function.update b (off + 1) (value >>> 8).toUInt8

def wirePutU32 (b : Buffer) (off : ℕ) (value : UInt32) : Buffer :=
  let b := Function.update b off (value &&& 0xff).toUInt8
  let b := Function.update b (off + 1) ((value >>> 8) &&& 0xff).toUInt8
  let b := Function.update b (off + 2) ((value >>> 16) &&& 0xff).toUInt8
  Function.update b (off + 3) (value >>> 24).toUInt8

def wirePutU64 (b : Buffer) (off : ℕ) (value : UInt64) : Buffer :=
  wirePutU32 (wirePutU32 b off value.toUInt32) (off + 4) (value >>> 32).toUInt32

def wirePutI16 (b : Buffer) (off : ℕ) (value : Int16) : Buffer := wirePutU16 b off value.toUInt16

def wirePutI32 (b : Buffer) (off : ℕ) (value : Int32) : Buffer := wirePutU32 b off value.toUInt32

def wirePutI64 (b : Buffer) (off : ℕ) (value : Int64) : Buffer := wirePutU64 b off value.toUInt64

/-! ### Words and their bytes -/

/-- Setting bits above `lo` adds them. -/
lemma or_shiftLeft_mod {lo hi k w : ℕ} (hlo : lo < 2 ^ k) (hfit : hi * 2 ^ k < w) :
    lo ||| (hi <<< k) % w = lo + hi * 2 ^ k := by
  rw [Nat.shiftLeft_eq, Nat.mod_eq_of_lt hfit, ← Nat.shiftLeft_eq, Nat.or_comm,
    ← Nat.shiftLeft_add_eq_or_of_lt hlo, Nat.shiftLeft_eq, Nat.add_comm]

lemma join_bytes {a b c d : ℕ} (ha : a < 2 ^ 8) (hb : b < 2 ^ 8) (hc : c < 2 ^ 8)
    (hd : d < 2 ^ 8) :
    ((a ||| (b <<< 8) % 2 ^ 32) ||| (c <<< 16) % 2 ^ 32) ||| (d <<< 24) % 2 ^ 32 =
      a + b * 2 ^ 8 + c * 2 ^ 16 + d * 2 ^ 24 := by
  have h1 : a ||| (b <<< 8) % 2 ^ 32 = a + b * 2 ^ 8 := or_shiftLeft_mod ha (by omega)
  have h2 : (a + b * 2 ^ 8) ||| (c <<< 16) % 2 ^ 32 = a + b * 2 ^ 8 + c * 2 ^ 16 :=
    or_shiftLeft_mod (by omega) (by omega)
  rw [h1, h2]
  exact or_shiftLeft_mod (by omega) (by omega)

lemma and_byteMask (n : ℕ) : n &&& 255 = n % 256 := Nat.and_two_pow_sub_one_eq_mod n 8

def joinU16 (b : UInt8 × UInt8) : UInt16 := b.1.toUInt16 ||| (b.2.toUInt16 <<< 8)

def joinU32 (b : UInt8 × UInt8 × UInt8 × UInt8) : UInt32 :=
  b.1.toUInt32 ||| (b.2.1.toUInt32 <<< 8) ||| (b.2.2.1.toUInt32 <<< 16) |||
    (b.2.2.2.toUInt32 <<< 24)

def joinU64 (w : UInt32 × UInt32) : UInt64 := w.1.toUInt64 ||| (w.2.toUInt64 <<< 32)

lemma joinU16_toNat (b : UInt8 × UInt8) :
    (joinU16 b).toNat = b.1.toNat + b.2.toNat * 2 ^ 8 := by
  have h1 := b.1.toNat_lt
  have h2 := b.2.toNat_lt
  simp only [joinU16, UInt16.toNat_or, UInt8.toNat_toUInt16, UInt16.toNat_shiftLeft,
    UInt16.reduceToNat, Nat.reduceMod]
  exact or_shiftLeft_mod (by omega) (by omega)

lemma joinU32_toNat (b : UInt8 × UInt8 × UInt8 × UInt8) :
    (joinU32 b).toNat =
      b.1.toNat + b.2.1.toNat * 2 ^ 8 + b.2.2.1.toNat * 2 ^ 16 + b.2.2.2.toNat * 2 ^ 24 := by
  simp only [joinU32, UInt32.toNat_or, UInt8.toNat_toUInt32, UInt32.toNat_shiftLeft,
    UInt32.reduceToNat, Nat.reduceMod]
  exact join_bytes b.1.toNat_lt b.2.1.toNat_lt b.2.2.1.toNat_lt b.2.2.2.toNat_lt

lemma joinU64_toNat (w : UInt32 × UInt32) :
    (joinU64 w).toNat = w.1.toNat + w.2.toNat * 2 ^ 32 := by
  have h1 := w.1.toNat_lt
  have h2 := w.2.toNat_lt
  simp only [joinU64, UInt64.toNat_or, UInt32.toNat_toUInt64, UInt64.toNat_shiftLeft,
    UInt64.reduceToNat, Nat.reduceMod]
  exact or_shiftLeft_mod (by omega) (by omega)

/-- The bytes `wirePutU16` writes are those `wireGetU16` joins. -/
def bytesU16 : UInt8 × UInt8 ≃ UInt16 where
  toFun := joinU16
  invFun value := ((value &&& 0xff).toUInt8, (value >>> 8).toUInt8)
  left_inv b := by
    have h1 := b.1.toNat_lt
    have h2 := b.2.toNat_lt
    refine Prod.ext ?_ ?_ <;> apply UInt8.toNat_inj.mp <;>
      simp only [UInt16.toNat_toUInt8, UInt16.toNat_and, UInt16.toNat_shiftRight, joinU16_toNat,
        UInt16.reduceToNat, and_byteMask, Nat.shiftRight_eq_div_pow, Nat.reduceMod] <;>
      omega
  right_inv value := by
    have h := value.toNat_lt
    apply UInt16.toNat_inj.mp
    simp only [joinU16_toNat, UInt16.toNat_toUInt8, UInt16.toNat_and, UInt16.toNat_shiftRight,
      UInt16.reduceToNat, and_byteMask, Nat.shiftRight_eq_div_pow, Nat.reduceMod]
    omega

def bytesU32 : UInt8 × UInt8 × UInt8 × UInt8 ≃ UInt32 where
  toFun := joinU32
  invFun value := ((value &&& 0xff).toUInt8, ((value >>> 8) &&& 0xff).toUInt8,
    ((value >>> 16) &&& 0xff).toUInt8, (value >>> 24).toUInt8)
  left_inv b := by
    have h1 := b.1.toNat_lt
    have h2 := b.2.1.toNat_lt
    have h3 := b.2.2.1.toNat_lt
    have h4 := b.2.2.2.toNat_lt
    refine Prod.ext ?_ (Prod.ext ?_ (Prod.ext ?_ ?_)) <;> apply UInt8.toNat_inj.mp <;>
      simp only [UInt32.toNat_toUInt8, UInt32.toNat_and, UInt32.toNat_shiftRight, joinU32_toNat,
        UInt32.reduceToNat, and_byteMask, Nat.shiftRight_eq_div_pow, Nat.reduceMod] <;>
      omega
  right_inv value := by
    have h := value.toNat_lt
    apply UInt32.toNat_inj.mp
    simp only [joinU32_toNat, UInt32.toNat_toUInt8, UInt32.toNat_and, UInt32.toNat_shiftRight,
      UInt32.reduceToNat, and_byteMask, Nat.shiftRight_eq_div_pow, Nat.reduceMod]
    omega

def wordsU64 : UInt32 × UInt32 ≃ UInt64 where
  toFun := joinU64
  invFun value := (value.toUInt32, (value >>> 32).toUInt32)
  left_inv w := by
    have h1 := w.1.toNat_lt
    have h2 := w.2.toNat_lt
    refine Prod.ext ?_ ?_ <;> apply UInt32.toNat_inj.mp <;>
      simp only [UInt64.toNat_toUInt32, UInt64.toNat_shiftRight, joinU64_toNat,
        UInt64.reduceToNat, Nat.shiftRight_eq_div_pow, Nat.reduceMod] <;>
      omega
  right_inv value := by
    have h := value.toNat_lt
    apply UInt64.toNat_inj.mp
    simp only [joinU64_toNat, UInt64.toNat_toUInt32, UInt64.toNat_shiftRight, UInt64.reduceToNat,
      Nat.shiftRight_eq_div_pow, Nat.reduceMod]
    omega

/-! ### The accessors as fields -/

namespace Wire

open Layout

def u8 : Field UInt8 UInt8 where
  width := 1
  get b off := b off
  put b off value := Function.update b off value
  get_congr {_ _ off} h := h off le_rfl (Nat.lt_succ_self off)
  get_put b off value := Function.update_self off value b
  put_outside b _ _ value h := Function.update_of_ne (by omega) value b
  put_get b b' off n hlo hhi := by
    have hn : n = off := by omega
    rw [hn, Function.update_self]

def u16 : Field UInt8 UInt16 := (u8.seq u8).map bytesU16

def u32 : Field UInt8 UInt32 := (u8.seq (u8.seq (u8.seq u8))).map bytesU32

def u64 : Field UInt8 UInt64 := (u32.seq u32).map wordsU64

def i16 : Field UInt8 Int16 :=
  u16.map ⟨UInt16.toInt16, Int16.toUInt16, UInt16.toUInt16_toInt16, Int16.toInt16_toUInt16⟩

def i32 : Field UInt8 Int32 :=
  u32.map ⟨UInt32.toInt32, Int32.toUInt32, UInt32.toUInt32_toInt32, Int32.toInt32_toUInt32⟩

def i64 : Field UInt8 Int64 :=
  u64.map ⟨UInt64.toInt64, Int64.toUInt64, UInt64.toUInt64_toInt64, Int64.toInt64_toUInt64⟩

@[simp] lemma u16_width : u16.width = 2 := rfl
@[simp] lemma u32_width : u32.width = 4 := rfl
@[simp] lemma i16_width : i16.width = 2 := rfl
@[simp] lemma i32_width : i32.width = 4 := rfl
@[simp] lemma i64_width : i64.width = 8 := rfl

@[simp] lemma get_u16 : wireGetU16 = u16.get := rfl
@[simp] lemma get_u32 : wireGetU32 = u32.get := rfl
@[simp] lemma get_i16 : wireGetI16 = i16.get := rfl
@[simp] lemma get_i32 : wireGetI32 = i32.get := rfl
@[simp] lemma get_i64 : wireGetI64 = i64.get := rfl

@[simp] lemma put_u16 : wirePutU16 = u16.put := rfl
@[simp] lemma put_u32 : wirePutU32 = u32.put := rfl
@[simp] lemma put_i16 : wirePutI16 = i16.put := rfl
@[simp] lemma put_i32 : wirePutI32 = i32.put := rfl
@[simp] lemma put_i64 : wirePutI64 = i64.put := rfl

end Wire

end Tgcompat
