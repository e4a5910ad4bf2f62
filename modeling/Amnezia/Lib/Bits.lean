import Amnezia.Lib.Bytes
import Mathlib.Tactic.IntervalCases

/-! # The bits of a byte string -/

namespace Amnezia.Lib.Bits
open Bytes

def bitOf (bytes : List UInt8) (i : Nat) : Bool :=
  (bytes.getD (i / 8) 0).toNat.testBit (7 - i % 8)

def bits (bytes : List UInt8) : List Bool := (List.range (8 * bytes.length)).map (bitOf bytes)

@[simp] theorem length_bits (bytes : List UInt8) : (bits bytes).length = 8 * bytes.length := by
  simp [bits]

theorem getElem_bits (bytes : List UInt8) (i : Nat) (bound : i < (bits bytes).length) :
    (bits bytes)[i] = bitOf bytes i := by
  simp [bits]

theorem bitOf_eq_testBit (bytes : List UInt8) (i : Nat) (bound : i < 8 * bytes.length) :
    bitOf bytes i = (beNat bytes).testBit (8 * bytes.length - 1 - i) := by
  induction bytes generalizing i with
  | nil => simp at bound
  | cons b bytes ih =>
    have below : beNat bytes < 2 ^ (8 * bytes.length) := by
      have := beNat_lt bytes
      rwa [show 256 = 2 ^ 8 from rfl, ← pow_mul] at this
    have value : beNat (b :: bytes) = 2 ^ (8 * bytes.length) * b.toNat + beNat bytes := by
      rw [beNat_cons, show 256 = 2 ^ 8 from rfl, ← pow_mul]
    simp only [List.length_cons] at bound ⊢
    rw [value, Nat.testBit_two_pow_mul_add _ below]
    by_cases first : i < 8
    · rw [if_neg (by omega), bitOf, Nat.div_eq_of_lt first, Nat.mod_eq_of_lt first]
      congr 1
      omega
    · obtain ⟨k, rfl⟩ : ∃ k, i = k + 8 := ⟨i - 8, by omega⟩
      rw [if_pos (by omega)]
      have step : bitOf (b :: bytes) (k + 8) = bitOf bytes k := by
        simp [bitOf]
      rw [step, ih k (by omega)]
      congr 1
      omega

theorem testBit_beNat_of_le (bytes : List UInt8) {j : Nat} (beyond : 8 * bytes.length ≤ j) :
    (beNat bytes).testBit j = false := by
  apply Nat.testBit_lt_two_pow
  calc beNat bytes < 256 ^ bytes.length := beNat_lt bytes
    _ = 2 ^ (8 * bytes.length) := by rw [show 256 = 2 ^ 8 from rfl, ← pow_mul]
    _ ≤ 2 ^ j := Nat.pow_le_pow_right (by decide) beyond

variable {left right : List UInt8}

theorem take_bits_eq_iff (length : left.length = right.length) (mask : Nat) :
    (bits left).take mask = (bits right).take mask ↔
      ∀ i, i < mask → i < 8 * left.length → bitOf left i = bitOf right i := by
  constructor
  · intro equal i inMask bound
    have item := congrArg (·[i]?) equal
    simpa [inMask, bits, bound, ← length] using item
  · intro same
    apply List.ext_getElem
    · simp [length]
    · intro i leftBound rightBound
      simp only [List.length_take, length_bits, lt_inf_iff] at leftBound
      simpa [bits] using same i leftBound.1 leftBound.2

theorem bits_take (bytes : List UInt8) (n : Nat) : bits (bytes.take n) = (bits bytes).take (8 * n) := by
  apply List.ext_getElem
  · simp only [length_bits, List.length_take]
    omega
  · intro i leftBound rightBound
    simp only [length_bits, List.length_take] at leftBound
    have inside : i / 8 < n := by omega
    simp [bits, bitOf, inside]

theorem shiftRight_eq_iff (length : left.length = right.length) {mask : Nat}
    (bound : mask ≤ 8 * left.length) :
    beNat left >>> (8 * left.length - mask) = beNat right >>> (8 * left.length - mask) ↔
      (bits left).take mask = (bits right).take mask := by
  rw [take_bits_eq_iff length]
  constructor
  · intro equal i inMask inWidth
    have item := congrArg (·.testBit (mask - 1 - i)) equal
    simp only [Nat.testBit_shiftRight] at item
    rw [bitOf_eq_testBit left i inWidth, bitOf_eq_testBit right i (by omega), ← length]
    rwa [show 8 * left.length - mask + (mask - 1 - i) = 8 * left.length - 1 - i by omega] at item
  · intro same
    apply Nat.eq_of_testBit_eq
    intro j
    rw [Nat.testBit_shiftRight, Nat.testBit_shiftRight]
    by_cases inside : 8 * left.length - mask + j < 8 * left.length
    · have item := same (mask - 1 - j) (by omega) (by omega)
      rw [bitOf_eq_testBit left _ (by omega), bitOf_eq_testBit right _ (by omega), ← length] at item
      rwa [show 8 * left.length - 1 - (mask - 1 - j) = 8 * left.length - mask + j by omega] at item
    · rw [testBit_beNat_of_le left (by omega), testBit_beNat_of_le right (by omega)]

theorem bits_injective (length : left.length = right.length)
    (equal : bits left = bits right) : left = right := by
  apply beNat_inj length
  simpa using (shiftRight_eq_iff length le_rfl).mpr (congrArg (List.take _) equal)

theorem mod_two_pow_eq_zero_iff (bytes : List UInt8) (mask : Nat) :
    beNat bytes % 2 ^ (8 * bytes.length - mask) = 0 ↔
      ∀ i, mask ≤ i → i < 8 * bytes.length → bitOf bytes i = false := by
  constructor
  · intro zero i inHost inWidth
    have item := congrArg (·.testBit (8 * bytes.length - 1 - i)) zero
    simp only [Nat.testBit_mod_two_pow, Nat.zero_testBit] at item
    rw [bitOf_eq_testBit bytes i inWidth]
    simpa [show 8 * bytes.length - 1 - i < 8 * bytes.length - mask by omega] using item
  · intro clear
    apply Nat.eq_of_testBit_eq
    intro j
    rw [Nat.testBit_mod_two_pow, Nat.zero_testBit]
    by_cases inside : j < 8 * bytes.length - mask
    · have item := clear (8 * bytes.length - 1 - j) (by omega) (by omega)
      rw [bitOf_eq_testBit bytes _ (by omega)] at item
      rw [show 8 * bytes.length - 1 - (8 * bytes.length - 1 - j) = j by omega] at item
      simp [item]
    · simp [inside]

theorem one_twenty_eight_shiftRight {k : Nat} (bound : k < 8) : 128 >>> k = 2 ^ (7 - k) := by
  interval_cases k <;> rfl

theorem and_shifted_ne_zero_iff (b : UInt8) (i : Nat) :
    b.toNat &&& (128 >>> (i % 8)) ≠ 0 ↔ b.toNat.testBit (7 - i % 8) = true := by
  rw [one_twenty_eight_shiftRight (Nat.mod_lt i (by decide)), Nat.and_two_pow]
  cases b.toNat.testBit (7 - i % 8) <;> simp

theorem shifted_and_one_eq_one_iff (b : UInt8) (i : Nat) :
    (b.toNat >>> (7 - i % 8)) &&& 1 = 1 ↔ b.toNat.testBit (7 - i % 8) = true := by
  rw [Nat.and_one_is_mod, Nat.testBit_eq_decide_div_mod_eq, Nat.shiftRight_eq_div_pow, decide_eq_true_iff]

theorem bitOf_set (bytes : List UInt8) (b : UInt8) (d i : Nat) (found : bytes[d / 8]? = some b) :
    bitOf (bytes.set (d / 8) (UInt8.ofNat (b.toNat ||| (128 >>> (d % 8))))) i =
      (decide (i = d) || bitOf bytes i) := by
  obtain ⟨bound, value⟩ := List.getElem?_eq_some_iff.mp found
  by_cases sameByte : i / 8 = d / 8
  · have shifted := one_twenty_eight_shiftRight (Nat.mod_lt d (by decide : 0 < 8))
    have small : b.toNat ||| 128 >>> (d % 8) < 2 ^ 8 := by
      apply Nat.or_lt_two_pow b.toNat_lt
      rw [shifted]
      exact Nat.pow_lt_pow_right (by decide) (by omega)
    have position : (7 - d % 8 = 7 - i % 8) ↔ i = d := by omega
    simp only [bitOf, sameByte, List.getD_eq_getElem?_getD, List.getElem?_set_self bound, found,
      Option.getD_some, UInt8.toNat_ofNat', Nat.mod_eq_of_lt small]
    rw [shifted, Nat.testBit_or, Nat.testBit_two_pow, Bool.or_comm, decide_eq_decide.mpr position]
  · have other : i ≠ d := fun same => sameByte (by rw [same])
    simp [bitOf, List.getElem?_set_ne (Ne.symm sameByte), other]

end Amnezia.Lib.Bits
