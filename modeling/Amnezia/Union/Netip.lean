import Amnezia.Lib.Bytes

/-!
# Addresses and prefixes of the union policy

The values of `net/netip` that the policy uses. An IPv4-mapped IPv6 address is an IPv6 address
until `unmap` turns it into the IPv4 address.
-/

namespace Amnezia.Union
open Lib.Bytes

inductive Family where
  | v4
  | v6 (zone : String)
deriving Repr, DecidableEq

def Family.bitLen : Family → Nat
  | v4 => 32
  | v6 _ => 128

def Family.withoutZone : Family → Family
  | v4 => v4
  | v6 _ => v6 ""

theorem Family.bitLen_withoutZone (family : Family) : family.withoutZone.bitLen = family.bitLen := by
  cases family <;> rfl

@[ext] structure Addr where
  family : Family
  value : Nat
  bound : value < 2 ^ family.bitLen
deriving Repr, DecidableEq

namespace Addr

def bitLen (addr : Addr) : Nat := addr.family.bitLen

def is4 (addr : Addr) : Bool := addr.family == .v4

def is4In6 (addr : Addr) : Bool := !addr.is4 && addr.value / 2 ^ 32 == 0xffff

def withoutZone (addr : Addr) : Addr :=
  ⟨addr.family.withoutZone, addr.value, by rw [Family.bitLen_withoutZone]; exact addr.bound⟩

def unmap (addr : Addr) : Addr :=
  if addr.is4In6 then ⟨.v4, addr.value % 2 ^ 32, Nat.mod_lt _ (by decide)⟩ else addr

def ofBytes (family : Family) (bytes : List UInt8) (length : 8 * bytes.length = family.bitLen) : Addr :=
  ⟨family, beNat bytes, by
    have := beNat_lt bytes
    rwa [← length, pow_mul]⟩

end Addr

@[ext] structure Prefix where
  addr : Addr
  bits : Nat
  fits : bits ≤ addr.bitLen
  noZone : addr.family = .v4 ∨ addr.family = .v6 ""
deriving Repr, DecidableEq

namespace Prefix

def hostBits (network : Prefix) : Nat := network.addr.bitLen - network.bits

theorem masked_bound (addr : Addr) (host : Nat) :
    addr.value / 2 ^ host * 2 ^ host < 2 ^ addr.family.bitLen :=
  lt_of_le_of_lt (Nat.div_mul_le_self _ _) addr.bound

def masked (network : Prefix) : Prefix :=
  { network with
    addr := ⟨network.addr.family, network.addr.value / 2 ^ network.hostBits * 2 ^ network.hostBits,
      masked_bound network.addr network.hostBits⟩ }

/-- An address is inside a prefix of its own family that agrees on the first `bits` bits. -/
def contains (network : Prefix) (addr : Addr) : Prop :=
  addr.family = network.addr.family ∧
    addr.value / 2 ^ network.hostBits = network.addr.value / 2 ^ network.hostBits

instance (network : Prefix) (addr : Addr) : Decidable (network.contains addr) :=
  inferInstanceAs (Decidable (_ ∧ _))

def prefixFrom (addr : Addr) (bits : Nat) (fits : bits ≤ addr.bitLen) : Prefix where
  addr := addr.withoutZone
  bits := bits
  fits := by rw [Addr.bitLen, Addr.withoutZone, Family.bitLen_withoutZone]; exact fits
  noZone := by cases h : addr.family <;> simp [Addr.withoutZone, h, Family.withoutZone]

theorem masked_prefixFrom {network : Prefix} {addr : Addr} (inside : network.contains addr)
    (fits : network.bits ≤ addr.bitLen) : (prefixFrom addr network.bits fits).masked = network.masked := by
  obtain ⟨family, equal⟩ := inside
  have zone : addr.family.withoutZone = network.addr.family := by
    rw [family]
    rcases network.noZone with v4 | v6
    · rw [v4]; rfl
    · rw [v6]; rfl
  have host : (prefixFrom addr network.bits fits).hostBits = network.hostBits := by
    simp only [hostBits, prefixFrom, Addr.withoutZone, Addr.bitLen, zone]
  ext
  · exact zone
  · simp only [masked, host]
    exact congrArg (· * 2 ^ network.hostBits) equal
  · rfl

end Prefix

end Amnezia.Union
