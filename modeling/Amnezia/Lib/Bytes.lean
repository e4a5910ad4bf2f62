import Mathlib.Data.Nat.Digits.Defs
import Mathlib.Data.Nat.Bitwise
import Mathlib.Tactic.Ring
import Mathlib.Tactic.Linarith

/-! # Big-endian byte strings -/

namespace Amnezia.Lib.Bytes

def beNat (bytes : List UInt8) : Nat :=
  Nat.ofDigits 256 (bytes.reverse.map UInt8.toNat)

@[simp] theorem beNat_nil : beNat [] = 0 := rfl

theorem beNat_cons (b : UInt8) (bytes : List UInt8) :
    beNat (b :: bytes) = 256 ^ bytes.length * b.toNat + beNat bytes := by
  simp only [beNat, List.reverse_cons, List.map_append, List.map_cons, List.map_nil,
    Nat.ofDigits_append, Nat.ofDigits_singleton, List.length_map, List.length_reverse]
  omega

theorem beNat_append (front back : List UInt8) :
    beNat (front ++ back) = 256 ^ back.length * beNat front + beNat back := by
  simp only [beNat, List.reverse_append, List.map_append, Nat.ofDigits_append, List.length_map,
    List.length_reverse]
  omega

theorem beNat_singleton (b : UInt8) : beNat [b] = b.toNat := by
  simp [beNat]

private theorem digit_lt (bytes : List UInt8) : ∀ d ∈ bytes.reverse.map UInt8.toNat, d < 256 := by
  intro d member
  obtain ⟨b, -, rfl⟩ := List.mem_map.mp member
  exact b.toNat_lt

theorem beNat_lt (bytes : List UInt8) : beNat bytes < 256 ^ bytes.length := by
  have bound := Nat.ofDigits_lt_base_pow_length (by norm_num : 1 < 256) (digit_lt bytes)
  simpa [beNat] using bound

theorem beNat_inj {left right : List UInt8} (length : left.length = right.length)
    (equal : beNat left = beNat right) : left = right := by
  have digits := Nat.ofDigits_inj_of_len_eq (by norm_num : 1 < 256)
    (by simpa using length) (digit_lt left) (digit_lt right) equal
  exact List.reverse_inj.mp ((List.map_inj_right fun _ _ => UInt8.toNat.inj).mp digits)

theorem beNat_replicate_zero (n : Nat) : beNat (List.replicate n 0) = 0 := by
  induction n with
  | zero => rfl
  | succ n ih => rw [List.replicate_succ, beNat_cons, ih]; simp

theorem beNat_replicate_max (n : Nat) : beNat (List.replicate n 255) + 1 = 256 ^ n := by
  induction n with
  | zero => rfl
  | succ n ih =>
    rw [List.replicate_succ, beNat_cons, List.length_replicate, Nat.add_assoc, ih, pow_succ]
    have value : (255 : UInt8).toNat = 255 := rfl
    rw [value]
    ring

end Amnezia.Lib.Bytes
