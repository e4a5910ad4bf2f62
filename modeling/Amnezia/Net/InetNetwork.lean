import Amnezia.Net.IpAddress
import Amnezia.Lib.Bits
import Mathlib.Data.List.Infix

namespace Amnezia.Net
open Lib.Bytes Lib.Bits

-- The first twelve bytes of an IPv4-mapped IPv6 address, `::ffff:0:0/96`.
def mappedHead : List UInt8 := List.replicate 10 0x00 ++ [0xff, 0xff]

def isIPv4Mapped (bytes : List UInt8) : Bool := bytes.length == 16 && mappedHead.isPrefixOf bytes

def mappedWord : List Bool := bits mappedHead

theorem length_mappedWord : mappedWord.length = 96 := rfl

variable {bytes : List UInt8}

theorem isIPv4Mapped_iff (size : bytes.length = 4 ∨ bytes.length = 16) :
    isIPv4Mapped bytes = true ↔ mappedWord <+: bits bytes := by
  have head : mappedHead.length = 12 := rfl
  constructor
  · intro mapped
    simp only [isIPv4Mapped, Bool.and_eq_true, List.isPrefixOf_iff_prefix] at mapped
    have front := List.prefix_iff_eq_take.mp mapped.2
    rw [mappedWord, front, bits_take]
    exact List.take_prefix _ _
  · intro mapped
    have long := mapped.length_le
    rw [length_mappedWord, length_bits] at long
    have sixteen : bytes.length = 16 := by omega
    have front : bits mappedHead = bits (bytes.take 12) := by
      rw [bits_take]
      exact List.prefix_iff_eq_take.mp mapped
    have equal := bits_injective (by simp [head, sixteen]) front
    simp only [isIPv4Mapped, sixteen, BEq.rfl, Bool.true_and, List.isPrefixOf_iff_prefix]
    exact List.prefix_iff_eq_take.mpr equal

/-- `java.net.InetAddress`: four bytes, or sixteen bytes that are not an IPv4-mapped address, which
the class never returns. -/
@[ext] structure InetAddress where
  address : List UInt8
  size_eq : address.length = 4 ∨ address.length = 16
  notMapped : isIPv4Mapped address = false
deriving Repr

namespace InetAddress

instance : DecidableEq InetAddress := fun a b =>
  decidable_of_iff (a.address = b.address) ⟨InetAddress.ext, congrArg InetAddress.address⟩

theorem notMapped_of_length_four (length : bytes.length = 4) :
    isIPv4Mapped bytes = false := by
  simp [isIPv4Mapped, length]

def getByAddress (bytes : List UInt8) : Except (NetException IpAddress) InetAddress :=
  if four : bytes.length = 4 then .ok ⟨bytes, .inl four, notMapped_of_length_four four⟩
  else if sixteen : bytes.length = 16 then
    if mapped : isIPv4Mapped bytes then
      .ok ⟨bytes.drop 12, .inl (by simp [sixteen]), notMapped_of_length_four (by simp [sixteen])⟩
    else .ok ⟨bytes, .inr sixteen, by simpa using mapped⟩
  else .error (.unknownHost bytes.length)

theorem getByAddress_of_notMapped (size : bytes.length = 4 ∨ bytes.length = 16)
    (notMapped : isIPv4Mapped bytes = false) :
    getByAddress bytes = .ok ⟨bytes, size, notMapped⟩ := by
  unfold getByAddress
  rcases size with four | sixteen
  · simp [four]
  · simp [sixteen, notMapped]

end InetAddress

def inet4 (a b c d : UInt8) : InetAddress := ⟨[a, b, c, d], .inl rfl, rfl⟩

@[ext] structure InetNetwork where
  address : InetAddress
  mask : Int
deriving Repr, DecidableEq

@[ext] structure Route where
  inetNetwork : InetNetwork
  included : Bool
deriving Repr, DecidableEq

namespace InetNetwork

def width (network : InetNetwork) : Nat := 8 * network.address.address.length

def value (network : InetNetwork) : Nat := beNat network.address.address

def hostBits (network : InetNetwork) : Nat := (network.width - network.mask).toNat

/-- An address of the same family whose first `mask` bits are those of the network. -/
def covers (network : InetNetwork) (ip : IpAddress) : Prop :=
  network.address.address.length = ip.size ∧
    ip.value >>> network.hostBits = network.value >>> network.hostBits

instance (network : InetNetwork) (ip : IpAddress) : Decidable (network.covers ip) :=
  inferInstanceAs (Decidable (_ ∧ _))

structure Canonical (network : InetNetwork) : Prop where
  nonneg : 0 ≤ network.mask
  fits : network.mask ≤ network.width
  noHostBits : network.value % 2 ^ (network.width - network.mask.toNat) = 0

instance (network : InetNetwork) : Decidable network.Canonical :=
  decidable_of_iff (0 ≤ network.mask ∧ network.mask ≤ network.width ∧
      network.value % 2 ^ (network.width - network.mask.toNat) = 0)
    ⟨fun ⟨nonneg, fits, noHostBits⟩ => ⟨nonneg, fits, noHostBits⟩,
      fun canonical => ⟨canonical.nonneg, canonical.fits, canonical.noHostBits⟩⟩

def word (network : InetNetwork) : List Bool := (bits network.address.address).take network.mask.toNat

variable {network : InetNetwork}

theorem length_word (canonical : network.Canonical) :
    network.word.length = network.mask.toNat := by
  have := canonical.fits
  unfold width at this
  rw [word, List.length_take, length_bits]
  omega

theorem hostBits_eq (nonneg : 0 ≤ network.mask) :
    network.hostBits = network.width - network.mask.toNat := by
  unfold hostBits
  omega

theorem covers_iff (canonical : network.Canonical) (ip : IpAddress) :
    network.covers ip ↔ network.address.address.length = ip.size ∧ network.word <+: bits ip.address := by
  refine and_congr_right fun family => ?_
  have fits := canonical.fits
  unfold width at fits
  have long : network.word.length = network.mask.toNat := length_word canonical
  have sizes : network.address.address.length = ip.address.length := family
  rw [hostBits_eq canonical.nonneg, width, sizes]
  refine (shiftRight_eq_iff sizes.symm (by omega)).trans ?_
  rw [List.prefix_iff_eq_take, long]
  exact eq_comm

theorem eq_of_word {first second : InetNetwork} (one : first.Canonical) (two : second.Canonical)
    (family : first.address.address.length = second.address.address.length) (same : first.word = second.word) :
    first = second := by
  have masks : first.mask.toNat = second.mask.toNat := by
    rw [← length_word one, same, length_word two]
  have oneClear := (mod_two_pow_eq_zero_iff _ _).mp one.noHostBits
  have twoClear := (mod_two_pow_eq_zero_iff _ _).mp two.noHostBits
  have equal : bits first.address.address = bits second.address.address := by
    apply List.ext_getElem
    · rw [length_bits, length_bits, family]
    · intro i left right
      have bound : i < 8 * first.address.address.length := by rwa [length_bits] at left
      by_cases below : i < first.mask.toNat
      · have taken := congrArg (fun word => word[i]?) same
        simp only [word, ← masks, List.getElem?_take_of_lt below, List.getElem?_eq_getElem left,
          List.getElem?_eq_getElem right] at taken
        exact Option.some.inj taken
      · rw [getElem_bits, getElem_bits, oneClear i (Nat.le_of_not_lt below) bound,
          twoClear i (masks ▸ Nat.le_of_not_lt below) (family ▸ bound)]
  have address : first.address = second.address := InetAddress.ext (bits_injective family equal)
  refine InetNetwork.ext address ?_
  have := one.nonneg
  have := two.nonneg
  omega

end InetNetwork

end Amnezia.Net
