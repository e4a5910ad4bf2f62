import Amnezia.Union.Netip
import Mathlib.Data.List.Infix

/-! # Packet headers -/

namespace Amnezia.Union
open Lib.Bytes

inductive Panic where
  | indexOutOfRange (index length : Nat)
deriving Repr, DecidableEq

abbrev Go := Except Panic

def byteAt (packet : List UInt8) (i : Nat) : Go UInt8 :=
  match packet[i]? with
  | some byte => return byte
  | none => throw (.indexOutOfRange i packet.length)

def slice (packet : List UInt8) (i j : Nat) : Go (List UInt8) :=
  if i ≤ j ∧ j ≤ packet.length then return (packet.take j).drop i
  else throw (.indexOutOfRange j packet.length)

def uintAt (packet : List UInt8) (i size : Nat) : Go Nat := do
  let bytes ← slice packet i (i + size)
  return beNat bytes

def addrAt (family : Family) (packet : List UInt8) (i : Nat) : Go Addr := do
  let bytes ← slice packet i (i + family.bitLen / 8)
  if length : 8 * bytes.length = family.bitLen then return .ofBytes family bytes length
  else throw (.indexOutOfRange bytes.length (family.bitLen / 8))

structure AddrPort where
  addr : Addr
  port : Nat
deriving Repr, DecidableEq

structure Flow where
  source : AddrPort
  destination : AddrPort
  protocol : UInt8
deriving Repr, DecidableEq

structure Header where
  packet : List UInt8
  source : Addr
  destination : Addr
  protocol : UInt8
  offset : Nat

def parseIpv4 (packet : List UInt8) : Go (Option Header) := do
  if packet.length < 20 then return none
  let offset := ((← byteAt packet 0) &&& 15).toNat * 4
  let length ← uintAt packet 2 2
  let fragment ← uintAt packet 6 2
  if offset < 20 || length < offset || length > packet.length || fragment &&& 0x3fff != 0 then
    return none
  let packet ← slice packet 0 length
  let source ← addrAt .v4 packet 12
  let destination ← addrAt .v4 packet 16
  let protocol ← byteAt packet 9
  return some ⟨packet, source, destination, protocol, offset⟩

-- The loop over extension headers; `remaining` is `8 - count`.
def skipExtensions (packet : List UInt8) : Nat → UInt8 → Nat → Go (Option (UInt8 × Nat))
  | remaining, protocol, offset =>
    if protocol = 6 ∨ protocol = 17 then return some (protocol, offset)
    else match remaining with
      | 0 => return none
      | remaining + 1 =>
        if offset + 2 > packet.length then return none
        else if protocol = 0 ∨ protocol = 43 ∨ protocol = 60 then do
          let next ← byteAt packet offset
          let headerLength := ((← byteAt packet (offset + 1)).toNat + 1) * 8
          if offset + headerLength > packet.length then return none
          else skipExtensions packet remaining next (offset + headerLength)
        else return none

def parseIpv6 (packet : List UInt8) : Go (Option Header) := do
  if packet.length < 40 then return none
  let length := 40 + (← uintAt packet 4 2)
  if length > packet.length then return none
  let packet ← slice packet 0 length
  let source ← addrAt (.v6 "") packet 8
  let destination ← addrAt (.v6 "") packet 24
  match ← skipExtensions packet 8 (← byteAt packet 6) 40 with
  | none => return none
  | some (protocol, offset) => return some ⟨packet, source, destination, protocol, offset⟩

def parseTransport (header : Header) : Go (Option (Flow × Nat)) := do
  let packet := header.packet
  let offset := header.offset
  if header.protocol ≠ 6 ∧ header.protocol ≠ 17 then return none
  let minimum := if header.protocol = 6 then 20 else 8
  if offset + minimum > packet.length then return none
  if header.protocol = 6 then
    let headerLength := ((← byteAt packet (offset + 12)) >>> 4).toNat * 4
    if headerLength < 20 || offset + headerLength > packet.length then return none
  let sourcePort ← uintAt packet offset 2
  let destinationPort ← uintAt packet (offset + 2) 2
  return some (⟨⟨header.source, sourcePort⟩, ⟨header.destination, destinationPort⟩, header.protocol⟩, offset)

def parsePacket (packet : List UInt8) : Go (Option (Flow × Nat)) := do
  if packet.length < 1 then return none
  let version := (← byteAt packet 0) >>> 4
  let header ← if version = 4 then parseIpv4 packet else if version = 6 then parseIpv6 packet
    else return none
  match header with
  | none => return none
  | some header => parseTransport header

def field (packet : List UInt8) (i size : Nat) : Nat := beNat ((packet.take (i + size)).drop i)

theorem field_lt (packet : List UInt8) (i : Nat) (family : Family) :
    field packet i (family.bitLen / 8) < 2 ^ family.bitLen := by
  have short : ((packet.take (i + family.bitLen / 8)).drop i).length ≤ family.bitLen / 8 := by
    rw [List.length_drop, List.length_take]
    omega
  have width : 256 ^ (family.bitLen / 8) = 2 ^ family.bitLen := by cases family <;> simp [Family.bitLen]
  exact width ▸ (beNat_lt _).trans_le (Nat.pow_le_pow_right (by decide) short)

def fieldAddr (family : Family) (packet : List UInt8) (i : Nat) : Addr :=
  ⟨family, field packet i (family.bitLen / 8), field_lt packet i family⟩

-- The bytes of the two addresses, by the version in the first byte.
def sourceAddr (packet : List UInt8) : Addr :=
  if packet.getD 0 0 >>> 4 = 4 then fieldAddr .v4 packet 12 else fieldAddr (.v6 "") packet 8

def destinationAddr (packet : List UInt8) : Addr :=
  if packet.getD 0 0 >>> 4 = 4 then fieldAddr .v4 packet 16 else fieldAddr (.v6 "") packet 24

inductive OptionalHeaders (packet : List UInt8) : UInt8 → Nat → UInt8 → Nat → Prop where
  | last (protocol : UInt8) (offset : Nat) : OptionalHeaders packet protocol offset protocol offset
  | skip {protocol last : UInt8} {offset position : Nat} (optional : protocol ∈ [0, 43, 60])
      (rest : OptionalHeaders packet (packet.getD offset 0)
        (offset + ((packet.getD (offset + 1) 0).toNat + 1) * 8) last position) :
      OptionalHeaders packet protocol offset last position

/-- The packet carries the whole transport header at `offset`: in IPv4 the more-fragments flag and
the fragment offset are clear, in IPv6 there is no fragment header on the way. -/
def Unfragmented (packet : List UInt8) (protocol : UInt8) (offset : Nat) : Prop :=
  (packet.getD 0 0 >>> 4 = 4 ∧ field packet 6 2 % 2 ^ 14 = 0 ∧ packet.getD 9 0 = protocol ∧
      (packet.getD 0 0 &&& 15).toNat * 4 = offset) ∨
    (packet.getD 0 0 >>> 4 = 6 ∧ OptionalHeaders packet (packet.getD 6 0) 40 protocol offset)

structure Parsed (packet : List UInt8) (flow : Flow) (offset : Nat) : Prop where
  unfragmented : Unfragmented packet flow.protocol offset
  transport : flow.protocol = 6 ∨ flow.protocol = 17
  fits : flow.protocol = 6 → offset + 20 ≤ packet.length
  source : flow.source.addr = sourceAddr packet
  destination : flow.destination.addr = destinationAddr packet

inductive Extensions (packet : List UInt8) (total : Nat) : Nat → UInt8 → Nat → UInt8 → Nat → Prop where
  | none (protocol : UInt8) (offset : Nat) : Extensions packet total 0 protocol offset protocol offset
  | skip {count : Nat} {protocol last : UInt8} {offset position : Nat} (optional : protocol ∈ [0, 43, 60])
      (fits : offset + ((packet.getD (offset + 1) 0).toNat + 1) * 8 ≤ total)
      (rest : Extensions packet total count (packet.getD offset 0)
        (offset + ((packet.getD (offset + 1) 0).toNat + 1) * 8) last position) :
      Extensions packet total (count + 1) protocol offset last position

inductive IpHeader (packet : List UInt8) (total : Nat) (protocol : UInt8) (offset : Nat) : Prop where
  | v4 (version : packet.getD 0 0 >>> 4 = 4) (ihl : (packet.getD 0 0 &&& 15).toNat * 4 = offset)
      (least : 20 ≤ offset) (inside : offset ≤ total) (declared : field packet 2 2 = total)
      (fits : total ≤ packet.length) (whole : field packet 6 2 % 2 ^ 14 = 0)
      (carries : packet.getD 9 0 = protocol)
  | v6 (version : packet.getD 0 0 >>> 4 = 6) (declared : 40 + field packet 4 2 = total)
      (fits : total ≤ packet.length) {count : Nat} (few : count ≤ 8)
      (chain : Extensions packet total count (packet.getD 6 0) 40 protocol offset)

def TransportHeader (packet : List UInt8) (total : Nat) (protocol : UInt8) (offset : Nat) : Prop :=
  (protocol = 6 ∧ offset + 20 ≤ total ∧ 5 ≤ (packet.getD (offset + 12) 0 >>> 4).toNat ∧
      offset + (packet.getD (offset + 12) 0 >>> 4).toNat * 4 ≤ total) ∨
    (protocol = 17 ∧ offset + 8 ≤ total)

theorem byteAt_of_lt (packet : List UInt8) (i : Nat) (bound : i < packet.length) :
    byteAt packet i = .ok (packet.getD i 0) := by
  simp [byteAt, bound, List.getD, pure, Except.pure]

theorem slice_of_le (packet : List UInt8) {i j : Nat} (ordered : i ≤ j) (bound : j ≤ packet.length) :
    slice packet i j = .ok ((packet.take j).drop i) := by
  rw [slice, if_pos ⟨ordered, bound⟩]
  rfl

theorem uintAt_of_le (packet : List UInt8) (i size : Nat) (bound : i + size ≤ packet.length) :
    uintAt packet i size = .ok (field packet i size) := by
  rw [uintAt, slice_of_le _ (Nat.le_add_right _ _) bound]
  rfl

theorem addrAt_of_le (family : Family) (packet : List UInt8) (i : Nat)
    (bound : i + family.bitLen / 8 ≤ packet.length) :
    addrAt family packet i = .ok (fieldAddr family packet i) := by
  have length : 8 * ((packet.take (i + family.bitLen / 8)).drop i).length = family.bitLen := by
    cases family <;> simp [Family.bitLen] at bound ⊢ <;> omega
  rw [addrAt, slice_of_le _ (Nat.le_add_right _ _) bound]
  simp only [bind, Except.bind, length, dite_true]
  rfl

variable {packet : List UInt8} {total : Nat}

theorem getD_take {length i : Nat} (bound : i < length) :
    (packet.take length).getD i 0 = packet.getD i 0 := by
  simp [List.getD, bound]

theorem field_take {length i size : Nat} (bound : i + size ≤ length) :
    field (packet.take length) i size = field packet i size := by
  rw [field, field, List.take_take, Nat.min_eq_left bound]

theorem fieldAddr_take (family : Family) {length i : Nat} (bound : i + family.bitLen / 8 ≤ length) :
    fieldAddr family (packet.take length) i = fieldAddr family packet i :=
  Addr.ext rfl (field_take bound)

theorem parseIpv4_eq (packet : List UInt8) : parseIpv4 packet = .ok
    (if 20 ≤ (packet.getD 0 0 &&& 15).toNat * 4 ∧ (packet.getD 0 0 &&& 15).toNat * 4 ≤ field packet 2 2 ∧
        field packet 2 2 ≤ packet.length ∧ field packet 6 2 % 2 ^ 14 = 0 then
      some ⟨packet.take (field packet 2 2), fieldAddr .v4 packet 12, fieldAddr .v4 packet 16, packet.getD 9 0,
        (packet.getD 0 0 &&& 15).toNat * 4⟩
    else none) := by
  unfold parseIpv4
  by_cases short : packet.length < 20
  · rw [if_pos short, if_neg (by omega)]
    rfl
  · have first := byteAt_of_lt packet 0 (by omega)
    have length := uintAt_of_le packet 2 2 (by omega)
    have fragment := uintAt_of_le packet 6 2 (by omega)
    have clear : field packet 6 2 &&& 0x3fff = field packet 6 2 % 2 ^ 14 :=
      Nat.and_two_pow_sub_one_eq_mod _ 14
    simp only [short, if_false, first, length, fragment, bind, Except.bind, pure, Except.pure, clear,
      Bool.or_eq_true, decide_eq_true_eq, bne_iff_ne, ne_eq]
    by_cases good : 20 ≤ (packet.getD 0 0 &&& 15).toNat * 4 ∧
        (packet.getD 0 0 &&& 15).toNat * 4 ≤ field packet 2 2 ∧
        field packet 2 2 ≤ packet.length ∧ field packet 6 2 % 2 ^ 14 = 0
    · obtain ⟨ihl, header, total, whole⟩ := good
      have size : (packet.take (field packet 2 2)).length = field packet 2 2 := by simpa using total
      have inside (i : Nat) (first : i ≤ 16) : i + Family.v4.bitLen / 8 ≤ field packet 2 2 := by
        change i + 4 ≤ _
        omega
      have address (i : Nat) (first : i ≤ 16) :
          addrAt .v4 (packet.take (field packet 2 2)) i = .ok (fieldAddr .v4 packet i) := by
        rw [addrAt_of_le _ _ _ (by rw [size]; exact inside i first), fieldAddr_take _ (inside i first)]
      have protocol := byteAt_of_lt (packet.take (field packet 2 2)) 9 (by rw [size]; omega)
      rw [if_neg (by omega), if_pos ⟨ihl, header, total, whole⟩, slice_of_le _ (Nat.zero_le _) total]
      simp only [List.drop_zero, address 12 (by decide), address 16 (by decide), protocol,
        getD_take (show 9 < field packet 2 2 by omega)]
    · rw [if_pos (by omega), if_neg good]

theorem skipExtensions_iff (packet : List UInt8) (total : Nat) (fits : total ≤ packet.length)
    (remaining : Nat) (protocol : UInt8) (offset : Nat) :
    ∃ result, skipExtensions (packet.take total) remaining protocol offset = .ok result ∧
      ∀ last position, result = some (last, position) ↔ (last = 6 ∨ last = 17) ∧
        ∃ count ≤ remaining, Extensions packet total count protocol offset last position := by
  have size : (packet.take total).length = total := by simpa using fits
  have nothing {remaining : Nat} (transport : ¬ (protocol = 6 ∨ protocol = 17))
      (stuck : ∀ count last position, count + 1 ≤ remaining →
        ¬ Extensions packet total (count + 1) protocol offset last position) (last : UInt8) (position : Nat) :
      (none : Option (UInt8 × Nat)) = some (last, position) ↔ (last = 6 ∨ last = 17) ∧
        ∃ count ≤ remaining, Extensions packet total count protocol offset last position := by
    refine ⟨nofun, fun ⟨ends, count, few, chain⟩ => ?_⟩
    cases chain with
    | none => exact absurd ends transport
    | skip optional fits rest => exact absurd (.skip optional fits rest) (stuck _ _ _ few)
  rw [skipExtensions.eq_def]
  dsimp only
  by_cases transport : protocol = 6 ∨ protocol = 17
  · refine ⟨some (protocol, offset), if_pos transport, fun last position => ?_⟩
    constructor
    · rintro ⟨⟩
      exact ⟨transport, 0, Nat.zero_le _, .none protocol offset⟩
    · rintro ⟨-, count, -, chain⟩
      cases chain with
      | none => rfl
      | skip optional => rcases transport with rfl | rfl <;> exact absurd optional (by decide)
  · rw [if_neg transport]
    cases remaining with
    | zero => exact ⟨none, rfl, nothing transport fun _ _ _ few => absurd few (Nat.not_succ_le_zero _)⟩
    | succ remaining =>
      dsimp only
      rw [size]
      by_cases short : offset + 2 > total
      · refine ⟨none, if_pos short, nothing transport fun count last position _ chain => ?_⟩
        cases chain with
        | skip optional fits rest => omega
      · rw [if_neg short]
        by_cases optional : protocol = 0 ∨ protocol = 43 ∨ protocol = 60
        · have next := byteAt_of_lt (packet.take total) offset (by omega)
          have length := byteAt_of_lt (packet.take total) (offset + 1) (by omega)
          rw [getD_take (by omega)] at next length
          simp only [if_pos optional, next, length, bind, Except.bind]
          by_cases long : offset + ((packet.getD (offset + 1) 0).toNat + 1) * 8 > total
          · refine ⟨none, if_pos long, nothing transport fun count last position _ chain => ?_⟩
            cases chain with
            | skip _ fits rest => omega
          · obtain ⟨result, equation, exact⟩ := skipExtensions_iff packet total fits remaining
              (packet.getD offset 0) (offset + ((packet.getD (offset + 1) 0).toNat + 1) * 8)
            refine ⟨result, by rw [if_neg long, equation], fun last position => (exact last position).trans ?_⟩
            refine and_congr_right fun ends => ⟨fun ⟨count, few, chain⟩ => ?_, fun ⟨count, few, chain⟩ => ?_⟩
            · exact ⟨count + 1, Nat.succ_le_succ few, .skip (by simpa using optional) (Nat.not_lt.mp long) chain⟩
            · cases chain with
              | none => exact absurd ends transport
              | skip _ _ rest => exact ⟨_, Nat.le_of_succ_le_succ few, rest⟩
        · refine ⟨none, if_neg optional, nothing transport fun count last position _ chain => ?_⟩
          cases chain with
          | skip known => exact optional (by simpa using known)

theorem parseIpv6_iff (packet : List UInt8) (version : packet.getD 0 0 >>> 4 = 6) :
    ∃ found, parseIpv6 packet = .ok (found.map fun last => ⟨packet.take (40 + field packet 4 2),
        fieldAddr (.v6 "") packet 8, fieldAddr (.v6 "") packet 24, last.1, last.2⟩) ∧
      ∀ protocol offset, found = some (protocol, offset) ↔
        (protocol = 6 ∨ protocol = 17) ∧ IpHeader packet (40 + field packet 4 2) protocol offset := by
  have other : ¬ packet.getD 0 0 >>> 4 = 4 := by rw [version]; decide
  have refused (outside : ¬ 40 + field packet 4 2 ≤ packet.length) (protocol : UInt8) (offset : Nat) :
      (none : Option (UInt8 × Nat)) = some (protocol, offset) ↔
        (protocol = 6 ∨ protocol = 17) ∧ IpHeader packet (40 + field packet 4 2) protocol offset := by
    constructor
    · intro found
      cases found
    · rintro ⟨_, header⟩
      cases header with
      | v4 four => exact absurd four other
      | v6 _ _ fits => exact absurd fits outside
  unfold parseIpv6
  by_cases short : packet.length < 40
  · exact ⟨none, by rw [if_pos short]; rfl, refused (by omega)⟩
  · have length := uintAt_of_le packet 4 2 (by omega)
    simp only [short, if_false, length, bind, Except.bind, pure, Except.pure]
    by_cases long : 40 + field packet 4 2 > packet.length
    · exact ⟨none, by rw [if_pos long]; rfl, refused (by omega)⟩
    · have total : 40 + field packet 4 2 ≤ packet.length := by omega
      have size : (packet.take (40 + field packet 4 2)).length = 40 + field packet 4 2 := by simpa using total
      have address (i : Nat) (first : i ≤ 24) :
          addrAt (.v6 "") (packet.take (40 + field packet 4 2)) i = .ok (fieldAddr (.v6 "") packet i) := by
        have inside : i + (Family.v6 "").bitLen / 8 ≤ 40 + field packet 4 2 := by
          change i + 16 ≤ _
          omega
        rw [addrAt_of_le _ _ _ (by rw [size]; exact inside), fieldAddr_take _ inside]
      have protocol := byteAt_of_lt (packet.take (40 + field packet 4 2)) 6 (by rw [size]; omega)
      rw [getD_take (by omega)] at protocol
      obtain ⟨found, equation, exact⟩ := skipExtensions_iff packet _ total 8 (packet.getD 6 0) 40
      refine ⟨found, ?_, fun last position => (exact last position).trans ?_⟩
      · simp only [if_neg long, slice_of_le _ (Nat.zero_le _) total, List.drop_zero, address 8 (by decide),
          address 24 (by decide), protocol, equation]
        cases found with
        | none => rfl
        | some last => rfl
      · refine and_congr_right fun _ => ⟨?_, ?_⟩
        · rintro ⟨count, few, chain⟩
          exact .v6 version rfl total few chain
        · intro header
          cases header with
          | v4 four => exact absurd four other
          | v6 _ _ _ few chain => exact ⟨_, few, chain⟩

instance (packet : List UInt8) (total : Nat) (protocol : UInt8) (offset : Nat) :
    Decidable (TransportHeader packet total protocol offset) := inferInstanceAs (Decidable (_ ∨ _))

theorem parseTransport_eq (packet : List UInt8) (fits : total ≤ packet.length) (source destination : Addr)
    (protocol : UInt8) (offset : Nat) :
    parseTransport ⟨packet.take total, source, destination, protocol, offset⟩ = .ok
      (if TransportHeader packet total protocol offset then
        some (⟨⟨source, field packet offset 2⟩, ⟨destination, field packet (offset + 2) 2⟩, protocol⟩, offset)
      else none) := by
  have size : (packet.take total).length = total := by simpa using fits
  have ports (bound : offset + 4 ≤ total) :
      uintAt (packet.take total) offset 2 = .ok (field packet offset 2) ∧
        uintAt (packet.take total) (offset + 2) 2 = .ok (field packet (offset + 2) 2) := by
    rw [uintAt_of_le _ _ _ (by omega), uintAt_of_le _ _ _ (by omega), field_take (by omega), field_take (by omega)]
    exact ⟨rfl, rfl⟩
  unfold parseTransport
  dsimp only
  rw [size]
  by_cases tcp : protocol = 6
  · subst tcp
    simp only [ne_eq, not_true_eq_false, false_and, if_false, if_true, TransportHeader, true_and,
      or_false, show ¬ (6 : UInt8) = 17 by decide]
    by_cases short : offset + 20 > total
    · rw [if_pos short, if_neg (by omega)]
      rfl
    · have length := byteAt_of_lt (packet.take total) (offset + 12) (by omega)
      rw [getD_take (by omega)] at length
      simp only [if_neg short, length, (ports (by omega)).1, (ports (by omega)).2, bind, Except.bind, pure,
        Except.pure, Bool.or_eq_true, decide_eq_true_eq]
      by_cases good : 5 ≤ (packet.getD (offset + 12) 0 >>> 4).toNat ∧
          offset + (packet.getD (offset + 12) 0 >>> 4).toNat * 4 ≤ total
      · rw [if_neg (by omega), if_pos ⟨Nat.not_lt.mp short, good⟩]
      · rw [if_pos (by omega), if_neg fun all => good all.2]
  · by_cases udp : protocol = 17
    · subst udp
      simp only [ne_eq, not_true_eq_false, and_false, if_false, TransportHeader, false_and, true_and, false_or,
        show ¬ (17 : UInt8) = 6 by decide]
      by_cases short : offset + 8 > total
      · rw [if_pos short, if_neg (by omega)]
        rfl
      · simp only [if_neg short, if_pos (Nat.not_lt.mp short), (ports (by omega)).1, (ports (by omega)).2, bind,
          Except.bind, pure, Except.pure]
    · simp only [TransportHeader, tcp, udp, ne_eq, not_false_eq_true, and_self, if_true, false_and, or_self,
        if_false]
      rfl

variable {protocol : UInt8}

theorem IpHeader.fits {offset : Nat}
    (header : IpHeader packet total protocol offset) : total ≤ packet.length := by
  cases header with
  | v4 _ _ _ _ _ fits => exact fits
  | v6 _ _ fits => exact fits

theorem TransportHeader.transport {offset : Nat}
    (header : TransportHeader packet total protocol offset) : protocol = 6 ∨ protocol = 17 :=
  header.imp And.left And.left

structure Reads (packet : List UInt8) (total : Nat) (flow : Flow) (offset : Nat) : Prop where
  header : IpHeader packet total flow.protocol offset
  transport : TransportHeader packet total flow.protocol offset
  sourcePort : flow.source.port = field packet offset 2
  destinationPort : flow.destination.port = field packet (offset + 2) 2
  source : flow.source.addr = sourceAddr packet
  destination : flow.destination.addr = destinationAddr packet

structure Exact (packet : List UInt8) (result : Option (Flow × Nat)) : Prop where
  accepts : result.isSome ↔ ∃ total protocol offset, IpHeader packet total protocol offset ∧
    TransportHeader packet total protocol offset
  reads : ∀ flow offset, result = some (flow, offset) → ∃ total, Reads packet total flow offset

theorem Exact.none (refused : ∀ {total : Nat} {protocol : UInt8} {offset : Nat},
    IpHeader packet total protocol offset → ¬ TransportHeader packet total protocol offset) :
    Exact packet none :=
  ⟨⟨nofun, fun ⟨_, _, _, header, transport⟩ => absurd transport (refused header)⟩, nofun⟩

theorem Exact.transport {offset : Nat}
    (header : IpHeader packet total protocol offset)
    (only : ∀ {total' : Nat} {protocol' : UInt8} {offset' : Nat}, IpHeader packet total' protocol' offset' →
      TransportHeader packet total' protocol' offset' → total' = total ∧ protocol' = protocol ∧ offset' = offset) :
    ∃ result, parseTransport
        ⟨packet.take total, sourceAddr packet, destinationAddr packet, protocol, offset⟩ = .ok result ∧
      Exact packet result := by
  refine ⟨_, parseTransport_eq packet header.fits _ _ protocol offset, ?_⟩
  by_cases transport : TransportHeader packet total protocol offset
  · rw [if_pos transport]
    refine ⟨⟨fun _ => ⟨_, _, _, header, transport⟩, fun _ => rfl⟩, ?_⟩
    rintro flow offset ⟨⟩
    exact ⟨total, header, transport, rfl, rfl, rfl, rfl⟩
  · rw [if_neg transport]
    refine .none fun other complete => transport ?_
    obtain ⟨rfl, rfl, rfl⟩ := only other complete
    exact complete

theorem parsePacket_exact (packet : List UInt8) :
    ∃ result, parsePacket packet = .ok result ∧ Exact packet result := by
  unfold parsePacket
  by_cases empty : packet.length < 1
  · refine ⟨none, by rw [if_pos empty]; rfl, .none fun header transport => ?_⟩
    have fits := header.fits
    rcases transport with ⟨-, bound, -⟩ | ⟨-, bound⟩ <;> omega
  · simp only [empty, if_false, byteAt_of_lt packet 0 (by omega), bind, Except.bind]
    by_cases four : packet.getD 0 0 >>> 4 = 4
    · have source : sourceAddr packet = fieldAddr .v4 packet 12 := if_pos four
      have destination : destinationAddr packet = fieldAddr .v4 packet 16 := if_pos four
      simp only [four, if_true, parseIpv4_eq, ← source, ← destination]
      split_ifs with good
      · obtain ⟨ihl, inside, fits, whole⟩ := good
        refine Exact.transport (.v4 four rfl ihl inside rfl fits whole rfl) fun other _ => ?_
        cases other with
        | v4 _ ihl _ _ declared _ _ carries => exact ⟨declared.symm, carries.symm, ihl.symm⟩
        | v6 six => exact absurd (four.symm.trans six) (by decide)
      · refine ⟨none, rfl, .none fun header _ => good ?_⟩
        cases header with
        | v4 _ ihl least inside declared fits whole =>
          subst ihl declared
          exact ⟨least, inside, fits, whole⟩
        | v6 six => exact absurd (four.symm.trans six) (by decide)
    · by_cases six : packet.getD 0 0 >>> 4 = 6
      · obtain ⟨found, equation, exact⟩ := parseIpv6_iff packet six
        have source : sourceAddr packet = fieldAddr (.v6 "") packet 8 := if_neg four
        have destination : destinationAddr packet = fieldAddr (.v6 "") packet 24 := if_neg four
        have known {total offset : Nat} {protocol : UInt8} (header : IpHeader packet total protocol offset)
            (transport : TransportHeader packet total protocol offset) :
            total = 40 + field packet 4 2 ∧ found = some (protocol, offset) := by
          have declared : total = 40 + field packet 4 2 := by
            cases header with
            | v4 version => exact absurd version four
            | v6 _ declared => exact declared.symm
          subst declared
          exact ⟨rfl, (exact protocol offset).mpr ⟨transport.transport, header⟩⟩
        simp only [six, if_true, equation, ← source, ← destination]
        cases found with
        | none => exact ⟨none, rfl, .none fun header transport => nomatch (known header transport).2⟩
        | some last =>
          refine Exact.transport ((exact last.1 last.2).mp rfl).2 fun other transport => ?_
          obtain ⟨declared, same⟩ := known other transport
          cases same
          exact ⟨declared, rfl, rfl⟩
      · simp only [four, six, if_false]
        refine ⟨none, rfl, .none fun header _ => ?_⟩
        cases header with
        | v4 version => exact four version
        | v6 version => exact six version

theorem Extensions.optional {count offset position : Nat} {last : UInt8}
    (chain : Extensions packet total count protocol offset last position) :
    OptionalHeaders packet protocol offset last position := by
  induction chain with
  | none protocol offset => exact .last protocol offset
  | skip optional _ _ ih => exact .skip optional ih

theorem Reads.parsed {offset : Nat} {flow : Flow}
    (reads : Reads packet total flow offset) : Parsed packet flow offset where
  unfragmented := by
    cases reads.header with
    | v4 version ihl _ _ _ _ whole carries => exact .inl ⟨version, whole, carries, ihl⟩
    | v6 version _ _ _ chain => exact .inr ⟨version, chain.optional⟩
  transport := reads.transport.transport
  fits tcp := by
    rcases reads.transport with ⟨-, bound, -⟩ | ⟨udp, -⟩
    · exact bound.trans reads.header.fits
    · exact absurd (tcp.symm.trans udp) (by decide)
  source := reads.source
  destination := reads.destination

end Amnezia.Union
