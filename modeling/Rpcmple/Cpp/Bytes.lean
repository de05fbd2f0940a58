import Rpcmple.Data.Bytes

namespace Rpcmple.Cpp

open Data

abbrev WString := List UInt32

/-- What the program takes from the machine and the standard library: the byte
order of the host, and `std::wstring_convert`, whose two directions throw on
input they cannot convert. -/
structure Platform where
  isMachineLittleEndian : Bool
  toBytes : WString → Option Bytes
  fromBytes : Bytes → Option WString

def plainPlatform : Platform where
  isMachineLittleEndian := true
  toBytes wstr :=
    if wstr.all fun char => char < 128 then some (wstr.map UInt32.toUInt8) else none
  fromBytes bytes :=
    if bytes.all fun byte => byte < 128 then some (bytes.map UInt8.toUInt32) else none

/-- The bytes `memcpy` copies out of a `width`-byte integer. -/
def Platform.layout (host : Platform) (width value : Nat) : Bytes :=
  if host.isMachineLittleEndian then leBytes width value
  else (leBytes width value).reverse

def Platform.load (host : Platform) (bytes : Bytes) : Nat :=
  if host.isMachineLittleEndian then leValue bytes else leValue bytes.reverse

def swapEndian64 (val : UInt64) : UInt64 :=
  let val := (val &&& 0x00000000FFFFFFFF) <<< 32 ||| (val &&& 0xFFFFFFFF00000000) >>> 32
  let val := (val &&& 0x0000FFFF0000FFFF) <<< 16 ||| (val &&& 0xFFFF0000FFFF0000) >>> 16
  (val &&& 0x00FF00FF00FF00FF) <<< 8 ||| (val &&& 0xFF00FF00FF00FF00) >>> 8

def swapEndian32 (val : UInt32) : UInt32 :=
  let val := ((val <<< (8 : UInt32)) &&& 0xFF00FF00) ||| ((val >>> (8 : UInt32)) &&& 0xFF00FF)
  (val <<< 16) ||| (val >>> 16)

def swapEndian16 (val : UInt16) : UInt16 :=
  (val <<< 8) ||| (val >>> 8)

def uint64ToBytes (host : Platform) (number : UInt64) (isLittleEndian : Bool) : Bytes :=
  let val :=
    if isLittleEndian != host.isMachineLittleEndian then swapEndian64 number else number
  host.layout 8 val.toNat

def doubleToBytes (host : Platform) (dbl : UInt64) (isLittleEndian : Bool) : Bytes :=
  uint64ToBytes host dbl isLittleEndian

def int64ToBytes (host : Platform) (longint : Int64) (isLittleEndian : Bool) : Bytes :=
  uint64ToBytes host longint.toUInt64 isLittleEndian

def uint32ToBytes (host : Platform) (number : UInt32) (isLittleEndian : Bool) : Bytes :=
  let val :=
    if isLittleEndian != host.isMachineLittleEndian then swapEndian32 number else number
  host.layout 4 val.toNat

def uint16ToBytes (host : Platform) (number : UInt16) (isLittleEndian : Bool) : Bytes :=
  let val :=
    if isLittleEndian != host.isMachineLittleEndian then swapEndian16 number else number
  host.layout 2 val.toNat

def bytesToUint64 (host : Platform) (bytes : Bytes) (isLittleEndian : Bool) : UInt64 :=
  let val := UInt64.ofNat (host.load bytes)
  if isLittleEndian != host.isMachineLittleEndian then swapEndian64 val else val

def bytesToDouble (host : Platform) (bytes : Bytes) (isLittleEndian : Bool) : UInt64 :=
  bytesToUint64 host bytes isLittleEndian

def bytesToInt64 (host : Platform) (bytes : Bytes) (isLittleEndian : Bool) : Int64 :=
  (bytesToUint64 host bytes isLittleEndian).toInt64

def bytesToUint32 (host : Platform) (bytes : Bytes) (isLittleEndian : Bool) : UInt32 :=
  let val := UInt32.ofNat (host.load bytes)
  if isLittleEndian != host.isMachineLittleEndian then swapEndian32 val else val

def bytesToUint16 (host : Platform) (bytes : Bytes) (isLittleEndian : Bool) : UInt16 :=
  let val := UInt16.ofNat (host.load bytes)
  if isLittleEndian != host.isMachineLittleEndian then swapEndian16 val else val

private theorem swapEndian64_bit (val : UInt64) :
    ∀ bit, bit < 64 → (swapEndian64 val).toBitVec.getLsbD bit =
      val.toBitVec.getLsbD (8 * (7 - bit / 8) + bit % 8) := by
  intro bit hbit
  interval_cases bit <;> simp [swapEndian64]

private theorem swapEndian32_bit (val : UInt32) :
    ∀ bit, bit < 32 → (swapEndian32 val).toBitVec.getLsbD bit =
      val.toBitVec.getLsbD (8 * (3 - bit / 8) + bit % 8) := by
  intro bit hbit
  interval_cases bit <;> simp [swapEndian32]

private theorem swapEndian16_bit (val : UInt16) :
    ∀ bit, bit < 16 → (swapEndian16 val).toBitVec.getLsbD bit =
      val.toBitVec.getLsbD (8 * (1 - bit / 8) + bit % 8) := by
  intro bit hbit
  interval_cases bit <;> simp [swapEndian16]

theorem leBytes_swapEndian64 (val : UInt64) :
    leBytes 8 (swapEndian64 val).toNat = (leBytes 8 val.toNat).reverse :=
  leBytes_eq_reverse (swapEndian64_bit val)

theorem leBytes_swapEndian32 (val : UInt32) :
    leBytes 4 (swapEndian32 val).toNat = (leBytes 4 val.toNat).reverse :=
  leBytes_eq_reverse (swapEndian32_bit val)

theorem leBytes_swapEndian16 (val : UInt16) :
    leBytes 2 (swapEndian16 val).toNat = (leBytes 2 val.toNat).reverse :=
  leBytes_eq_reverse (swapEndian16_bit val)

variable (host : Platform)

@[simp] theorem uint64ToBytes_true (number : UInt64) :
    uint64ToBytes host number true = leBytes 8 number.toNat := by
  unfold uint64ToBytes Platform.layout
  cases host.isMachineLittleEndian <;> simp [leBytes_swapEndian64]

@[simp] theorem doubleToBytes_true (dbl : UInt64) :
    doubleToBytes host dbl true = leBytes 8 dbl.toNat :=
  uint64ToBytes_true host dbl

@[simp] theorem int64ToBytes_true (longint : Int64) :
    int64ToBytes host longint true = leBytes 8 longint.toUInt64.toNat :=
  uint64ToBytes_true host longint.toUInt64

@[simp] theorem uint32ToBytes_true (number : UInt32) :
    uint32ToBytes host number true = leBytes 4 number.toNat := by
  unfold uint32ToBytes Platform.layout
  cases host.isMachineLittleEndian <;> simp [leBytes_swapEndian32]

@[simp] theorem uint16ToBytes_true (number : UInt16) :
    uint16ToBytes host number true = leBytes 2 number.toNat := by
  unfold uint16ToBytes Platform.layout
  cases host.isMachineLittleEndian <;> simp [leBytes_swapEndian16]

private theorem eq_leValue {width value : Nat} {bytes : Bytes}
    (hbound : value < 256 ^ width) (hbytes : leBytes width value = bytes) :
    value = leValue bytes := by
  rw [← hbytes, leValue_leBytes hbound]

theorem bytesToUint64_true {bytes : Bytes} (hlength : bytes.length = 8) :
    bytesToUint64 host bytes true = UInt64.ofNat (leValue bytes) := by
  unfold bytesToUint64 Platform.load
  cases host.isMachineLittleEndian with
  | true => simp
  | false =>
      have hreverse : bytes.reverse.length = 8 := by simpa using hlength
      have hbound : leValue bytes.reverse < UInt64.size :=
        leValue_lt_of_length hreverse
      have hbytes : leBytes 8 (swapEndian64 (UInt64.ofNat (leValue bytes.reverse))).toNat =
          bytes := by
        rw [leBytes_swapEndian64, UInt64.toNat_ofNat_of_lt' hbound,
          leBytes_leValue_of_length hreverse, List.reverse_reverse]
      have hvalue := eq_leValue (UInt64.toNat_lt _) hbytes
      simp only [Bool.true_bne, Bool.not_false, if_true, Bool.false_eq_true, if_false]
      rw [← hvalue, UInt64.ofNat_toNat]

theorem bytesToUint32_true {bytes : Bytes} (hlength : bytes.length = 4) :
    bytesToUint32 host bytes true = UInt32.ofNat (leValue bytes) := by
  unfold bytesToUint32 Platform.load
  cases host.isMachineLittleEndian with
  | true => simp
  | false =>
      have hreverse : bytes.reverse.length = 4 := by simpa using hlength
      have hbound : leValue bytes.reverse < UInt32.size :=
        leValue_lt_of_length hreverse
      have hbytes : leBytes 4 (swapEndian32 (UInt32.ofNat (leValue bytes.reverse))).toNat =
          bytes := by
        rw [leBytes_swapEndian32, UInt32.toNat_ofNat_of_lt' hbound,
          leBytes_leValue_of_length hreverse, List.reverse_reverse]
      have hvalue := eq_leValue (UInt32.toNat_lt _) hbytes
      simp only [Bool.true_bne, Bool.not_false, if_true, Bool.false_eq_true, if_false]
      rw [← hvalue, UInt32.ofNat_toNat]

theorem bytesToUint16_true {bytes : Bytes} (hlength : bytes.length = 2) :
    bytesToUint16 host bytes true = UInt16.ofNat (leValue bytes) := by
  unfold bytesToUint16 Platform.load
  cases host.isMachineLittleEndian with
  | true => simp
  | false =>
      have hreverse : bytes.reverse.length = 2 := by simpa using hlength
      have hbound : leValue bytes.reverse < UInt16.size :=
        leValue_lt_of_length hreverse
      have hbytes : leBytes 2 (swapEndian16 (UInt16.ofNat (leValue bytes.reverse))).toNat =
          bytes := by
        rw [leBytes_swapEndian16, UInt16.toNat_ofNat_of_lt' hbound,
          leBytes_leValue_of_length hreverse, List.reverse_reverse]
      have hvalue := eq_leValue (UInt16.toNat_lt _) hbytes
      simp only [Bool.true_bne, Bool.not_false, if_true, Bool.false_eq_true, if_false]
      rw [← hvalue, UInt16.ofNat_toNat]

theorem bytesToDouble_true {bytes : Bytes} (hlength : bytes.length = 8) :
    bytesToDouble host bytes true = UInt64.ofNat (leValue bytes) :=
  bytesToUint64_true host hlength

theorem bytesToInt64_true {bytes : Bytes} (hlength : bytes.length = 8) :
    bytesToInt64 host bytes true = (UInt64.ofNat (leValue bytes)).toInt64 :=
  congrArg UInt64.toInt64 (bytesToUint64_true host hlength)

structure Stores (width pattern : Nat) (bytes : Bytes) : Prop where
  length_eq : bytes.length = width
  testBit_eq : ∀ (index : Nat) (hindex : index < bytes.length) (bit : Nat), bit < 8 →
    bytes[index].toNat.testBit bit = pattern.testBit (8 * index + bit)

theorem stores_leBytes (width pattern : Nat) :
    Stores width pattern (leBytes width pattern) where
  length_eq := length_leBytes width pattern
  testBit_eq := by
    intro index hindex bit hbit
    have hpower : 256 ^ index = 2 ^ (8 * index) := Nat.pow_mul 2 8 index |>.symm
    rw [getElem_leBytes, UInt8.toNat_ofNat', Nat.testBit_mod_two_pow, hpower,
      Nat.testBit_div_two_pow, Nat.add_comm bit]
    simp [hbit]

theorem bytesToUint64_leBytes (number : UInt64) :
    bytesToUint64 host (leBytes 8 number.toNat) true = number := by
  rw [bytesToUint64_true host (length_leBytes 8 _), leValue_leBytes number.toNat_lt,
    UInt64.ofNat_toNat]

theorem bytesToInt64_leBytes (longint : Int64) :
    bytesToInt64 host (leBytes 8 longint.toUInt64.toNat) true = longint := by
  rw [bytesToInt64, bytesToUint64_leBytes]
  rfl

theorem bytesToUint32_leBytes (number : UInt32) :
    bytesToUint32 host (leBytes 4 number.toNat) true = number := by
  rw [bytesToUint32_true host (length_leBytes 4 _), leValue_leBytes number.toNat_lt,
    UInt32.ofNat_toNat]

theorem bytesToUint16_leBytes (number : UInt16) :
    bytesToUint16 host (leBytes 2 number.toNat) true = number := by
  rw [bytesToUint16_true host (length_leBytes 2 _), leValue_leBytes number.toNat_lt,
    UInt16.ofNat_toNat]

theorem layout_eq_reverse {width swapped value : Nat}
    (hswap : leBytes width swapped = (leBytes width value).reverse) :
    host.layout width swapped = (host.layout width value).reverse := by
  unfold Platform.layout
  cases host.isMachineLittleEndian <;> simp [hswap]

theorem wire_order (sender receiver : Platform) :
    (∀ number : UInt64, Stores 8 number.toNat (uint64ToBytes sender number true) ∧
      bytesToUint64 receiver (uint64ToBytes sender number true) true = number) ∧
    (∀ longint : Int64, Stores 8 longint.toUInt64.toNat (int64ToBytes sender longint true) ∧
      bytesToInt64 receiver (int64ToBytes sender longint true) true = longint) ∧
    (∀ dbl : UInt64, Stores 8 dbl.toNat (doubleToBytes sender dbl true) ∧
      bytesToDouble receiver (doubleToBytes sender dbl true) true = dbl) ∧
    (∀ number : UInt32, Stores 4 number.toNat (uint32ToBytes sender number true) ∧
      bytesToUint32 receiver (uint32ToBytes sender number true) true = number) ∧
    (∀ number : UInt16, Stores 2 number.toNat (uint16ToBytes sender number true) ∧
      bytesToUint16 receiver (uint16ToBytes sender number true) true = number) ∧
    (∀ val : UInt64, sender.layout 8 (swapEndian64 val).toNat =
      (sender.layout 8 val.toNat).reverse) ∧
    (∀ val : UInt32, sender.layout 4 (swapEndian32 val).toNat =
      (sender.layout 4 val.toNat).reverse) ∧
    (∀ val : UInt16, sender.layout 2 (swapEndian16 val).toNat =
      (sender.layout 2 val.toNat).reverse) := by
  refine ⟨fun number => ?_, fun longint => ?_, fun dbl => ?_, fun number => ?_,
    fun number => ?_, fun val => ?_, fun val => ?_, fun val => ?_⟩
  · rw [uint64ToBytes_true]
    exact ⟨stores_leBytes 8 _, bytesToUint64_leBytes receiver number⟩
  · rw [int64ToBytes_true]
    exact ⟨stores_leBytes 8 _, bytesToInt64_leBytes receiver longint⟩
  · rw [doubleToBytes_true]
    exact ⟨stores_leBytes 8 _, bytesToUint64_leBytes receiver dbl⟩
  · rw [uint32ToBytes_true]
    exact ⟨stores_leBytes 4 _, bytesToUint32_leBytes receiver number⟩
  · rw [uint16ToBytes_true]
    exact ⟨stores_leBytes 2 _, bytesToUint16_leBytes receiver number⟩
  · exact layout_eq_reverse sender (leBytes_swapEndian64 val)
  · exact layout_eq_reverse sender (leBytes_swapEndian32 val)
  · exact layout_eq_reverse sender (leBytes_swapEndian16 val)

end Rpcmple.Cpp
