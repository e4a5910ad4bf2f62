import Amnezia.Lib.Bytes

namespace Amnezia.Net
open Lib.Bytes

inductive NetException (α : Type) where
  | overflow
  | mixedFamilies (start stop : α)
  | startAfterEnd (start stop : α)
  | unknownHost (length : Nat)
  | indexOutOfBounds (index : Int) (length : Nat)
deriving Repr, DecidableEq

@[ext] structure IpAddress where
  address : List UInt8
  size_eq : address.length = 4 ∨ address.length = 16
deriving Repr, DecidableEq

namespace IpAddress

def size (ip : IpAddress) : Nat := ip.address.length

def maxMask (ip : IpAddress) : Nat := ip.size * 8

-- The loop runs from `lastIndex` down to 0, so both helpers take the bytes last first.
def incFromLast : List UInt8 → List UInt8
  | [] => []
  | b :: rest => if b + 1 ≠ 0 then (b + 1) :: rest else (b + 1) :: incFromLast rest

def decFromLast : List UInt8 → List UInt8
  | [] => []
  | b :: rest => if b - 1 ≠ 0xff then (b - 1) :: rest else (b - 1) :: decFromLast rest

theorem length_incFromLast (bytes : List UInt8) : (incFromLast bytes).length = bytes.length := by
  induction bytes with
  | nil => rfl
  | cons b rest ih => unfold incFromLast; split_ifs <;> simp [ih]

theorem length_decFromLast (bytes : List UInt8) : (decFromLast bytes).length = bytes.length := by
  induction bytes with
  | nil => rfl
  | cons b rest ih => unfold decFromLast; split_ifs <;> simp [ih]

def isMinIp (ip : IpAddress) : Bool := ip.address.all (· == 0x00)

def isMaxIp (ip : IpAddress) : Bool := ip.address.all (· == 0xff)

def inc (ip : IpAddress) : Except (NetException IpAddress) IpAddress :=
  if ip.address.all (· == 0xff) then .error .overflow
  else .ok ⟨(incFromLast ip.address.reverse).reverse, by simpa [length_incFromLast] using ip.size_eq⟩

def dec (ip : IpAddress) : Except (NetException IpAddress) IpAddress :=
  if ip.address.all (· == 0x00) then .error .overflow
  else .ok ⟨(decFromLast ip.address.reverse).reverse, by simpa [length_decFromLast] using ip.size_eq⟩

def compareBytes : List UInt8 → List UInt8 → Int
  | a :: as, b :: bs =>
    let d : Int := a.toNat - b.toNat
    if d ≠ 0 then d else compareBytes as bs
  | _, _ => 0

def compareTo (ip other : IpAddress) : Int :=
  if ip.size ≠ other.size then ip.size - other.size else compareBytes ip.address other.address

instance : LT IpAddress := ⟨fun a b => a.compareTo b < 0⟩
instance : LE IpAddress := ⟨fun a b => a.compareTo b ≤ 0⟩
instance (a b : IpAddress) : Decidable (a < b) := inferInstanceAs (Decidable (a.compareTo b < 0))
instance (a b : IpAddress) : Decidable (a ≤ b) := inferInstanceAs (Decidable (a.compareTo b ≤ 0))

def value (ip : IpAddress) : Nat := beNat ip.address

/-- One numbering of both families that `compareTo` follows. The number `2 ^ 32` stays unused, so
that the last IPv4 address and the first IPv6 address are not neighbours. -/
def rank (ip : IpAddress) : Nat := if ip.size = 4 then ip.value else 2 ^ 32 + 1 + ip.value

theorem value_lt (ip : IpAddress) : ip.value < 2 ^ ip.maxMask := by
  have bound := beNat_lt ip.address
  rw [show (256 : Nat) = 2 ^ 8 from rfl, ← pow_mul] at bound
  simpa [value, maxMask, size, Nat.mul_comm] using bound

theorem size_cases (ip : IpAddress) : ip.size = 4 ∨ ip.size = 16 := ip.size_eq

variable {ip a b : IpAddress}

theorem rank_of_size_four (four : ip.size = 4) : ip.rank = ip.value := by
  simp [rank, four]

theorem rank_of_size_sixteen (sixteen : ip.size = 16) :
    ip.rank = 2 ^ 32 + 1 + ip.value := by
  simp [rank, sixteen]

theorem value_lt_of_size_four (four : ip.size = 4) : ip.value < 2 ^ 32 := by
  simpa [maxMask, four] using ip.value_lt

theorem rank_lt_iff_size_four (ip : IpAddress) : ip.rank < 2 ^ 32 ↔ ip.size = 4 := by
  rcases ip.size_cases with four | sixteen
  · have := value_lt_of_size_four four
    rw [rank_of_size_four four]
    omega
  · rw [rank_of_size_sixteen sixteen]
    omega

theorem rank_ne_gap (ip : IpAddress) : ip.rank ≠ 2 ^ 32 := by
  rcases ip.size_cases with four | sixteen
  · rw [rank_of_size_four four]
    exact (value_lt_of_size_four four).ne
  · rw [rank_of_size_sixteen sixteen]
    omega

theorem compareBytes_spec (left right : List UInt8) (length : left.length = right.length) :
    (compareBytes left right < 0 ↔ beNat left < beNat right) ∧
      (compareBytes left right = 0 ↔ beNat left = beNat right) := by
  induction left generalizing right with
  | nil =>
    obtain rfl : right = [] := List.length_eq_zero_iff.mp length.symm
    simp [compareBytes]
  | cons a as ih =>
    cases right with
    | nil => simp at length
    | cons b bs =>
      have tails : as.length = bs.length := by simpa using length
      have boundA := beNat_lt as
      have boundB := beNat_lt bs
      rw [beNat_cons, beNat_cons, ← tails]
      rw [← tails] at boundB
      simp only [compareBytes]
      split_ifs with differ
      · -- The leading bytes differ by at least one, which outweighs everything after them.
        rcases lt_or_gt_of_ne (fun equal : a.toNat = b.toNat => differ (by omega)) with less | more
        · have : 256 ^ as.length * (a.toNat + 1) ≤ 256 ^ as.length * b.toNat :=
            Nat.mul_le_mul_left _ less
          rw [Nat.mul_add] at this
          omega
        · have : 256 ^ as.length * (b.toNat + 1) ≤ 256 ^ as.length * a.toNat :=
            Nat.mul_le_mul_left _ more
          rw [Nat.mul_add] at this
          omega
      · have equal : a.toNat = b.toNat := by omega
        rw [equal]
        have := ih bs tails
        omega

theorem compareTo_spec (a b : IpAddress) :
    (a.compareTo b < 0 ↔ a.rank < b.rank) ∧ (a.compareTo b = 0 ↔ a.rank = b.rank) := by
  unfold compareTo
  split_ifs with sizes
  · rcases a.size_cases with four | sixteen <;> rcases b.size_cases with four' | sixteen'
    · exact absurd (four.trans four'.symm) sizes
    · have := value_lt_of_size_four four
      rw [rank_of_size_four four, rank_of_size_sixteen sixteen', four, sixteen']
      omega
    · have := value_lt_of_size_four four'
      rw [rank_of_size_sixteen sixteen, rank_of_size_four four', sixteen, four']
      omega
    · exact absurd (sixteen.trans sixteen'.symm) sizes
  · have same : a.size = b.size := not_not.mp sizes
    have bytes := compareBytes_spec a.address b.address same
    rcases a.size_cases with four | sixteen
    · rw [rank_of_size_four four, rank_of_size_four (same ▸ four)]
      exact bytes
    · rw [rank_of_size_sixteen sixteen, rank_of_size_sixteen (same ▸ sixteen)]
      simp only [Nat.add_lt_add_iff_left, Nat.add_left_cancel_iff]
      exact bytes

theorem lt_iff (a b : IpAddress) : a < b ↔ a.rank < b.rank := (compareTo_spec a b).1

theorem le_iff (a b : IpAddress) : a ≤ b ↔ a.rank ≤ b.rank := by
  have := compareTo_spec a b
  change a.compareTo b ≤ 0 ↔ _
  omega

theorem rank_injective : Function.Injective rank := by
  intro a b equal
  have sizes : a.size = b.size := by
    have := rank_lt_iff_size_four a
    have := rank_lt_iff_size_four b
    rcases a.size_cases with four | sixteen <;> rcases b.size_cases with four' | sixteen' <;> omega
  apply IpAddress.ext
  apply beNat_inj sizes
  rcases a.size_cases with four | sixteen
  · rwa [rank_of_size_four four, rank_of_size_four (sizes ▸ four)] at equal
  · rw [rank_of_size_sixteen sixteen, rank_of_size_sixteen (sizes ▸ sixteen)] at equal
    exact Nat.add_left_cancel equal

theorem same_size_of_rank_succ (next : b.rank = a.rank + 1) :
    a.size = b.size := by
  have := rank_ne_gap b
  rcases a.size_cases with four | sixteen <;> rcases b.size_cases with four' | sixteen'
  · exact four.trans four'.symm
  · have := value_lt_of_size_four four
    rw [rank_of_size_four four, rank_of_size_sixteen sixteen'] at next
    omega
  · have := value_lt_of_size_four four'
    rw [rank_of_size_sixteen sixteen, rank_of_size_four four'] at next
    omega
  · exact sixteen.trans sixteen'.symm

theorem rank_eq_rank_add (sizes : a.size = b.size) (n : Nat) :
    b.rank = a.rank + n ↔ b.value = a.value + n := by
  rcases a.size_cases with four | sixteen
  · rw [rank_of_size_four four, rank_of_size_four (sizes ▸ four)]
  · rw [rank_of_size_sixteen sixteen, rank_of_size_sixteen (sizes ▸ sixteen)]
    omega

private theorem add_one_eq_zero_iff (b : UInt8) : b + 1 = 0 ↔ b.toNat = 255 := by
  rw [← UInt8.toNat_inj, UInt8.toNat_add]
  have := b.toNat_lt
  simp
  omega

private theorem sub_one_eq_max_iff (b : UInt8) : b - 1 = 0xff ↔ b.toNat = 0 := by
  rw [← UInt8.toNat_inj, UInt8.toNat_sub]
  have := b.toNat_lt
  simp
  omega

theorem beNat_incFromLast (bytes : List UInt8) (room : bytes.all (· == 0xff) = false) :
    beNat (incFromLast bytes).reverse = beNat bytes.reverse + 1 := by
  induction bytes with
  | nil => simp at room
  | cons b rest ih =>
    unfold incFromLast
    split_ifs with carry
    · simp only [List.reverse_cons, beNat_append, List.length_singleton, beNat_singleton]
      have : b.toNat ≠ 255 := fun full => carry ((add_one_eq_zero_iff b).mpr full)
      have := b.toNat_lt
      have sum : (b + 1).toNat = b.toNat + 1 := by
        rw [UInt8.toNat_add]
        simp
        omega
      omega
    · have full : b.toNat = 255 := (add_one_eq_zero_iff b).mp (not_not.mp carry)
      have rolled : (b + 1).toNat = 0 := by rw [not_not.mp carry]; rfl
      have byte : b = 0xff := UInt8.toNat_inj.mp full
      have tail : rest.all (· == 0xff) = false := by simpa [byte] using room
      simp only [List.reverse_cons, beNat_append, List.length_singleton, beNat_singleton,
        ih tail, rolled, full]
      omega

theorem beNat_decFromLast (bytes : List UInt8) (room : bytes.all (· == 0x00) = false) :
    beNat (decFromLast bytes).reverse + 1 = beNat bytes.reverse := by
  induction bytes with
  | nil => simp at room
  | cons b rest ih =>
    unfold decFromLast
    split_ifs with borrow
    · simp only [List.reverse_cons, beNat_append, List.length_singleton, beNat_singleton]
      have : b.toNat ≠ 0 := fun zero => borrow ((sub_one_eq_max_iff b).mpr zero)
      have := b.toNat_lt
      have difference : (b - 1).toNat = b.toNat - 1 := by
        rw [UInt8.toNat_sub]
        simp
        omega
      omega
    · have zero : b.toNat = 0 := (sub_one_eq_max_iff b).mp (not_not.mp borrow)
      have rolled : (b - 1).toNat = 255 := by rw [not_not.mp borrow]; rfl
      have byte : b = 0x00 := UInt8.toNat_inj.mp zero
      have tail : rest.all (· == 0x00) = false := by simpa [byte] using room
      have := ih tail
      simp only [List.reverse_cons, beNat_append, List.length_singleton, beNat_singleton,
        rolled, zero]
      omega

theorem inc_of_not_max (room : ip.isMaxIp = false) :
    ∃ next, ip.inc = .ok next ∧ next.rank = ip.rank + 1 ∧ next.size = ip.size := by
  have sizes : (incFromLast ip.address.reverse).reverse.length = ip.address.length := by
    simp [length_incFromLast]
  have bytes := beNat_incFromLast ip.address.reverse (by simpa [isMaxIp] using room)
  refine ⟨⟨(incFromLast ip.address.reverse).reverse, by simpa [sizes] using ip.size_eq⟩, ?_, ?_, sizes⟩
  · unfold inc
    rw [if_neg (by simpa [isMaxIp] using room)]
  · refine (rank_eq_rank_add (a := ip) ?_ 1).mpr ?_
    · exact sizes.symm
    · simpa [value] using bytes

theorem dec_of_not_min (room : ip.isMinIp = false) :
    ∃ previous, ip.dec = .ok previous ∧ previous.rank + 1 = ip.rank ∧ previous.size = ip.size := by
  have sizes : (decFromLast ip.address.reverse).reverse.length = ip.address.length := by
    simp [length_decFromLast]
  have bytes := beNat_decFromLast ip.address.reverse (by simpa [isMinIp] using room)
  refine ⟨⟨(decFromLast ip.address.reverse).reverse, by simpa [sizes] using ip.size_eq⟩, ?_, ?_, sizes⟩
  · unfold dec
    rw [if_neg (by simpa [isMinIp] using room)]
  · refine ((rank_eq_rank_add (b := ip) ?_ 1).mpr ?_).symm
    · exact sizes
    · simpa [value] using bytes.symm

theorem rank_of_inc {next : IpAddress} (equation : ip.inc = .ok next) :
    next.rank = ip.rank + 1 := by
  cases full : ip.isMaxIp with
  | true => simp [inc, show ip.address.all (· == 0xff) = true from full] at equation
  | false =>
    obtain ⟨next', equation', step, -⟩ := inc_of_not_max full
    rw [equation] at equation'
    exact (Except.ok.inj equation') ▸ step

private theorem eq_replicate_of_all {bytes : List UInt8} {b : UInt8}
    (all : bytes.all (· == b) = true) : bytes = List.replicate bytes.length b := by
  apply List.eq_replicate_of_mem
  simpa using all

theorem value_of_isMaxIp (full : ip.isMaxIp = true) :
    ip.value + 1 = 256 ^ ip.size := by
  unfold value
  rw [eq_replicate_of_all full]
  exact beNat_replicate_max _

theorem value_of_isMinIp (zero : ip.isMinIp = true) : ip.value = 0 := by
  unfold value
  rw [eq_replicate_of_all zero]
  exact beNat_replicate_zero _

theorem rank_ne_succ_of_isMaxIp (other : IpAddress) (full : ip.isMaxIp = true) :
    other.rank ≠ ip.rank + 1 := by
  intro next
  have sizes := same_size_of_rank_succ next
  have step := (rank_eq_rank_add sizes 1).mp next
  have bound := beNat_lt other.address
  rw [value_of_isMaxIp full, sizes] at step
  exact absurd step bound.ne

theorem rank_succ_ne_of_isMinIp (other : IpAddress) (zero : ip.isMinIp = true) :
    ip.rank ≠ other.rank + 1 := by
  intro next
  have step := (rank_eq_rank_add (same_size_of_rank_succ next) 1).mp next
  rw [value_of_isMinIp zero] at step
  omega

theorem isMinIp_of_lt (sizes : a.size = b.size) (less : a.rank < b.rank) :
    b.isMinIp = false := by
  by_contra zero
  have bottom := value_of_isMinIp (Bool.eq_true_of_not_eq_false zero)
  have distance := (rank_eq_rank_add sizes (b.rank - a.rank)).mp (by omega)
  omega

theorem isMaxIp_of_lt (sizes : a.size = b.size) (less : a.rank < b.rank) :
    a.isMaxIp = false := by
  by_contra full
  have top := value_of_isMaxIp (Bool.eq_true_of_not_eq_false full)
  have distance := (rank_eq_rank_add sizes (b.rank - a.rank)).mp (by omega)
  have bound : b.value < 256 ^ b.size := beNat_lt b.address
  rw [sizes] at top
  omega

end IpAddress

end Amnezia.Net
