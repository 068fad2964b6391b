import Mathlib.Logic.Basic
import Mathlib.Data.List.Basic
import Mathlib.Data.Nat.Bitwise

/-!
# Bits of a byte string

A byte string read as one sequence of bits, the most significant bit of each
byte first: reading a bit, setting a bit, and byte strings that agree bit by
bit.
-/

namespace TimeTracker.Library.Bits

/-- Bit `index` of the sequence; past the end it is clear. -/
def bitAt (bytes : List UInt8) (index : Nat) : Bool :=
  (bytes.getD (index / 8) 0).toNat.testBit (7 - index % 8)

/-- Set bit `index`; past the end there is nothing to set. -/
def setBit (bytes : List UInt8) (index : Nat) : List UInt8 :=
  bytes.modify (index / 8) fun byte => byte ||| 1 <<< UInt8.ofNat (7 - index % 8)

/-- The bit a shift and a mask pick out of a byte. -/
theorem shift_and_one {byte : UInt8} {shift : Nat} (small : shift < 8) :
    byte >>> UInt8.ofNat shift &&& 1 = if byte.toNat.testBit shift then 1 else 0 := by
  apply UInt8.toNat_inj.mp
  have amount : shift % 256 % 8 = shift := by omega
  simp only [UInt8.toNat_and, UInt8.toNat_shiftRight, UInt8.toNat_ofNat', Nat.reducePow,
    amount, UInt8.reduceToNat, Nat.and_one_is_mod]
  rw [Nat.testBit_eq_decide_div_mod_eq, Nat.shiftRight_eq_div_pow]
  split <;> simp_all

/-- The byte with one bit set. -/
theorem testBit_or_shift {byte : UInt8} {shift other : Nat} (small : shift < 8) :
    (byte ||| 1 <<< UInt8.ofNat shift).toNat.testBit other =
      (decide (shift = other) || byte.toNat.testBit other) := by
  have amount : shift % 256 % 8 = shift := by omega
  have fits : 2 ^ shift % 256 = 2 ^ shift := by
    apply Nat.mod_eq_of_lt
    calc 2 ^ shift < 2 ^ 8 := Nat.pow_lt_pow_right (by decide) small
      _ = 256 := rfl
  simp only [UInt8.toNat_or, UInt8.toNat_shiftLeft, UInt8.toNat_ofNat', Nat.reducePow,
    amount, UInt8.reduceToNat, Nat.shiftLeft_eq, Nat.one_mul, fits, Nat.testBit_or,
    Nat.testBit_two_pow]
  rw [Bool.or_comm]

@[simp] theorem length_setBit (bytes : List UInt8) (index : Nat) :
    (setBit bytes index).length = bytes.length := by
  simp [setBit]

theorem bitAt_setBit {bytes : List UInt8} {index : Nat}
    (inside : index / 8 < bytes.length) (other : Nat) :
    bitAt (setBit bytes index) other = (decide (index = other) || bitAt bytes other) := by
  unfold bitAt setBit
  by_cases here : index / 8 = other / 8
  · have byte : (bytes.modify (index / 8) fun byte =>
        byte ||| 1 <<< UInt8.ofNat (7 - index % 8)).getD (other / 8) 0 =
        bytes.getD (other / 8) 0 ||| 1 <<< UInt8.ofNat (7 - index % 8) := by
      rw [← here]
      simp [List.getD_eq_getElem?_getD, inside]
    have same : 7 - index % 8 = 7 - other % 8 ↔ index = other := by omega
    rw [byte, testBit_or_shift (by omega)]
    simp [same]
  · have apart : index ≠ other := by
      rintro rfl
      exact here rfl
    simp [List.getD_eq_getElem?_getD, List.getElem?_modify_ne _ _ here, apart]

@[simp] theorem bitAt_replicate_zero (count index : Nat) :
    bitAt (List.replicate count 0) index = false := by
  have clear : (List.replicate count (0 : UInt8)).getD (index / 8) 0 = 0 := by
    simp only [List.getD_eq_getElem?_getD, List.getElem?_replicate]
    split <;> rfl
  rw [bitAt, clear]
  exact Nat.zero_testBit _

/-- Byte strings of one length that agree on every bit are equal. -/
theorem ext_bitAt {first second : List UInt8} (length : first.length = second.length)
    (bits : ∀ index < 8 * first.length, bitAt first index = bitAt second index) :
    first = second := by
  apply List.ext_getElem length
  intro place inFirst inSecond
  apply UInt8.toNat_inj.mp
  apply Nat.eq_of_testBit_eq
  intro bit
  by_cases low : bit < 8
  · have agree := bits (8 * place + (7 - bit)) (by omega)
    have byte : (8 * place + (7 - bit)) / 8 = place := by omega
    have within : 7 - (8 * place + (7 - bit)) % 8 = bit := by omega
    simp only [bitAt, byte, within] at agree
    simpa [List.getD_eq_getElem?_getD, inFirst, inSecond] using agree
  · have small : ∀ byte : UInt8, byte.toNat.testBit bit = false := by
      intro byte
      apply Nat.testBit_lt_two_pow
      calc byte.toNat < 2 ^ 8 := byte.toNat_lt
        _ ≤ 2 ^ bit := Nat.pow_le_pow_right (by decide) (by omega)
    rw [small, small]

end TimeTracker.Library.Bits
