import Mathlib

namespace Rpcmple.Data

abbrev Bytes := List UInt8

/-- The low `8 * width` bits of `value`, least significant byte first. -/
def leBytes : Nat → Nat → Bytes
  | 0, _ => []
  | width + 1, value => UInt8.ofNat value :: leBytes width (value / 256)

def leValue : Bytes → Nat
  | [] => 0
  | byte :: rest => byte.toNat + 256 * leValue rest

@[simp] theorem leBytes_zero (value : Nat) : leBytes 0 value = [] := rfl

@[simp] theorem leValue_nil : leValue [] = 0 := rfl

@[simp] theorem length_leBytes (width value : Nat) :
    (leBytes width value).length = width := by
  induction width generalizing value with
  | zero => rfl
  | succ width ih => simp [leBytes, ih]

theorem leValue_lt (bytes : Bytes) : leValue bytes < 256 ^ bytes.length := by
  induction bytes with
  | nil => simp
  | cons byte rest ih =>
      have hbyte := byte.toNat_lt
      simp only [leValue, List.length_cons, Nat.pow_succ]
      omega

theorem leValue_lt_of_length {bytes : Bytes} {width : Nat}
    (hlength : bytes.length = width) : leValue bytes < 256 ^ width := by
  subst hlength
  exact leValue_lt bytes

theorem leValue_leBytes_mod (width value : Nat) :
    leValue (leBytes width value) = value % 256 ^ width := by
  induction width generalizing value with
  | zero => simp [Nat.mod_one]
  | succ width ih =>
      have hbyte : (UInt8.ofNat value).toNat = value % 256 :=
        UInt8.toNat_ofNat'
      have hpower : 256 ^ (width + 1) = 256 * 256 ^ width := Nat.pow_succ'
      rw [leBytes, leValue, ih, hbyte, hpower, Nat.mod_mul]

theorem leValue_leBytes {width value : Nat} (hbound : value < 256 ^ width) :
    leValue (leBytes width value) = value := by
  rw [leValue_leBytes_mod, Nat.mod_eq_of_lt hbound]

theorem leBytes_leValue (bytes : Bytes) :
    leBytes bytes.length (leValue bytes) = bytes := by
  induction bytes with
  | nil => rfl
  | cons byte rest ih =>
      have hbyte := byte.toNat_lt
      have hhead : UInt8.ofNat (byte.toNat + 256 * leValue rest) = byte := by
        apply UInt8.toNat_inj.mp
        rw [UInt8.toNat_ofNat']
        omega
      have htail : (byte.toNat + 256 * leValue rest) / 256 = leValue rest := by
        omega
      simp only [List.length_cons, leBytes, leValue, hhead, htail, ih]

theorem leBytes_leValue_of_length {bytes : Bytes} {width : Nat}
    (hlength : bytes.length = width) :
    leBytes width (leValue bytes) = bytes := by
  subst hlength
  exact leBytes_leValue bytes

theorem leBytes_mod (width value : Nat) :
    leBytes width (value % 256 ^ width) = leBytes width value := by
  rw [← leValue_leBytes_mod]
  exact leBytes_leValue_of_length (length_leBytes width value)

theorem getElem_leBytes {width value index : Nat}
    (hindex : index < (leBytes width value).length) :
    (leBytes width value)[index] = UInt8.ofNat (value / 256 ^ index) := by
  induction width generalizing value index with
  | zero => simp at hindex
  | succ width ih =>
      cases index with
      | zero => simp [leBytes]
      | succ index =>
          simp only [leBytes, List.getElem_cons_succ, ih]
          rw [Nat.div_div_eq_div_mul, Nat.pow_succ']

theorem leBytes_eq_reverse {width first second : Nat}
    (hbits : ∀ bit, bit < 8 * width →
      first.testBit bit = second.testBit (8 * (width - 1 - bit / 8) + bit % 8)) :
    leBytes width first = (leBytes width second).reverse := by
  apply List.ext_getElem (by simp)
  intro index hfirst hsecond
  simp only [length_leBytes] at hfirst
  rw [List.getElem_reverse, getElem_leBytes, getElem_leBytes,
    ← UInt8.toNat_inj, UInt8.toNat_ofNat', UInt8.toNat_ofNat', length_leBytes]
  apply Nat.eq_of_testBit_eq
  intro bit
  have hpower : ∀ exponent, 256 ^ exponent = 2 ^ (8 * exponent) := by
    intro exponent
    rw [Nat.pow_mul]
  rw [Nat.testBit_mod_two_pow, Nat.testBit_mod_two_pow, hpower, hpower,
    Nat.testBit_div_two_pow, Nat.testBit_div_two_pow]
  by_cases hbit : bit < 8
  · have hmirror := hbits (bit + 8 * index) (by omega)
    have hquotient : (bit + 8 * index) / 8 = index := by omega
    have hremainder : (bit + 8 * index) % 8 = bit := by omega
    rw [hquotient, hremainder, Nat.add_comm (8 * (width - 1 - index))] at hmirror
    rw [hmirror]
  · simp [hbit]

def splitBytes? (count : Nat) (bytes : Bytes) : Option (Bytes × Bytes) :=
  if count ≤ bytes.length then some (bytes.take count, bytes.drop count)
  else none

theorem splitBytes?_append {front : Bytes} {count : Nat} (rest : Bytes)
    (hlength : front.length = count) :
    splitBytes? count (front ++ rest) = some (front, rest) := by
  subst hlength
  simp [splitBytes?]

theorem splitBytes?_eq_some {bytes front rest : Bytes} {count : Nat} :
    splitBytes? count bytes = some (front, rest) ↔
      front.length = count ∧ front ++ rest = bytes := by
  constructor
  · intro hsplit
    unfold splitBytes? at hsplit
    split at hsplit
    · rename_i hcount
      cases hsplit
      exact ⟨List.length_take_of_le hcount, List.take_append_drop count bytes⟩
    · cases hsplit
  · rintro ⟨hlength, rfl⟩
    exact splitBytes?_append rest hlength

theorem splitBytes?_eq_none {bytes : Bytes} {count : Nat} :
    splitBytes? count bytes = none ↔ bytes.length < count := by
  unfold splitBytes?
  split <;> simp <;> omega

end Rpcmple.Data
