import Mathlib.Data.List.Basic
import Mathlib.Logic.Function.Basic
import Mathlib.Tactic.Common

/-! # Reading from the device -/

namespace Amnezia.Union

-- `count` packets, each from `offset` on in its buffer, and whether an error came with them.
structure Batch where
  count : Nat
  buffers : Nat → List UInt8
  sizes : Nat → Nat
  failed : Bool

structure Reading (σ : Type) where
  buffers : Nat → List UInt8
  sizes : Nat → Nat
  kept : Nat
  policy : σ
  direct : List (List UInt8)

section
variable {σ : Type} (throughVPN : σ → List UInt8 → Bool × σ) (offset : Nat)

def packetAt (buffers : Nat → List UInt8) (sizes : Nat → Nat) (i : Nat) : List UInt8 :=
  ((buffers i).drop offset).take (sizes i)

def copyAt (target packet : List UInt8) : List UInt8 :=
  target.take offset ++ packet.take (target.length - offset) ++ target.drop (offset + packet.length)

def Reading.turn (reading : Reading σ) (i : Nat) : Reading σ :=
  let packet := packetAt offset reading.buffers reading.sizes i
  let answer := throughVPN reading.policy packet
  if answer.1 then
    { reading with
      buffers := if reading.kept ≠ i
        then Function.update reading.buffers reading.kept (copyAt offset (reading.buffers reading.kept) packet)
        else reading.buffers
      sizes := Function.update reading.sizes reading.kept (reading.sizes i)
      kept := reading.kept + 1
      policy := answer.2 }
  else { reading with policy := answer.2, direct := reading.direct ++ [packet] }

def Batch.turns (batch : Batch) (policy : σ) (direct : List (List UInt8)) (turns : Nat) : Reading σ :=
  (List.range turns).foldl (Reading.turn throughVPN offset) ⟨batch.buffers, batch.sizes, 0, policy, direct⟩

def read : List Batch → σ → List (List UInt8) → Option (Reading σ × Bool × List Batch)
  | [], _, _ => none
  | batch :: rest, policy, direct =>
    let reading := batch.turns throughVPN offset policy direct batch.count
    if 0 < reading.kept ∨ batch.failed then some (reading, batch.failed, rest)
    else read rest reading.policy reading.direct

structure Separated (σ : Type) where
  kept : List (List UInt8)
  direct : List (List UInt8)
  policy : σ

def Separated.add (separated : Separated σ) (packet : List UInt8) : Separated σ :=
  let answer := throughVPN separated.policy packet
  if answer.1 then { separated with kept := separated.kept ++ [packet], policy := answer.2 }
  else { separated with direct := separated.direct ++ [packet], policy := answer.2 }

def Batch.packets (batch : Batch) (turns : Nat) : List (List UInt8) :=
  (List.range turns).map (packetAt offset batch.buffers batch.sizes)

def separate (policy : σ) (direct packets : List (List UInt8)) : Separated σ :=
  packets.foldl (Separated.add throughVPN) ⟨[], direct, policy⟩

def readSeparated : List Batch → σ → List (List UInt8) → Option (Separated σ × Bool × List Batch)
  | [], _, _ => none
  | batch :: rest, policy, direct =>
    let separated := separate throughVPN policy direct (batch.packets offset batch.count)
    if separated.kept ≠ [] ∨ batch.failed then some (separated, batch.failed, rest)
    else readSeparated rest separated.policy separated.direct

end

def Batch.Fits (offset capacity : Nat) (batch : Batch) : Prop :=
  ∀ i < batch.count, (batch.buffers i).length = capacity ∧ offset + batch.sizes i ≤ capacity

structure Reading.Holds {σ : Type} (offset : Nat) (reading : Reading σ) (separated : Separated σ) : Prop where
  direct : reading.direct = separated.direct
  policy : reading.policy = separated.policy
  returned : (List.range reading.kept).map (fun i =>
      (reading.sizes i, packetAt offset reading.buffers reading.sizes i)) =
    separated.kept.map fun packet => (packet.length, packet)

theorem Reading.Holds.kept_pos {σ : Type} {offset : Nat} {reading : Reading σ} {separated : Separated σ}
    (holds : reading.Holds offset separated) : 0 < reading.kept ↔ separated.kept ≠ [] := by
  have same := congrArg List.length holds.returned
  simp only [List.length_map, List.length_range] at same
  rw [same, List.length_pos_iff]

variable {target packet : List UInt8}

theorem length_copyAt {offset : Nat} (room : offset + packet.length ≤ target.length) :
    (copyAt offset target packet).length = target.length := by
  simp only [copyAt, List.length_append, List.length_take, List.length_drop]
  omega

theorem take_copyAt {offset : Nat} (room : offset + packet.length ≤ target.length) :
    ((copyAt offset target packet).drop offset).take packet.length = packet := by
  have front : (target.take offset).length = offset := List.length_take_of_le (by omega)
  have whole : packet.take (target.length - offset) = packet := List.take_of_length_le (by omega)
  rw [copyAt, whole, List.append_assoc, List.drop_left' front, List.take_left]

theorem copyAt_self {offset size : Nat} (room : offset + size ≤ target.length) :
    copyAt offset target ((target.drop offset).take size) = target := by
  have length : ((target.drop offset).take size).length = size := by
    rw [List.length_take, List.length_drop]
    omega
  have whole : ((target.drop offset).take size).take (target.length - offset) = (target.drop offset).take size :=
    List.take_of_length_le (by omega)
  rw [copyAt, whole, length, List.append_assoc, ← List.drop_drop, List.take_append_drop, List.take_append_drop]

structure Follows {σ : Type} (offset capacity : Nat) (batch : Batch) (turns : Nat) (reading : Reading σ)
    (separated : Separated σ) : Prop extends reading.Holds offset separated where
  bound : reading.kept ≤ turns
  ahead : ∀ i, turns ≤ i → reading.buffers i = batch.buffers i ∧ reading.sizes i = batch.sizes i
  room : ∀ i < batch.count, (reading.buffers i).length = capacity

section
variable {σ : Type} {throughVPN : σ → List UInt8 → Bool × σ} {offset capacity turns : Nat} {batch : Batch}
  {reading : Reading σ} {separated : Separated σ}

theorem Follows.packet_eq (follows : Follows offset capacity batch turns reading separated) {i : Nat}
    (later : turns ≤ i) :
    packetAt offset reading.buffers reading.sizes i = packetAt offset batch.buffers batch.sizes i := by
  rw [packetAt, (follows.ahead i later).1, (follows.ahead i later).2, packetAt]

variable (throughVPN)

theorem Follows.turn (fits : batch.Fits offset capacity) (inside : turns < batch.count)
    (follows : Follows offset capacity batch turns reading separated) :
    Follows offset capacity batch (turns + 1) (reading.turn throughVPN offset turns)
      (separated.add throughVPN (packetAt offset batch.buffers batch.sizes turns)) := by
  obtain ⟨length, ends⟩ := fits turns inside
  have bound := follows.bound
  have same := follows.packet_eq (Nat.le_refl turns)
  have size : reading.sizes turns = batch.sizes turns := (follows.ahead turns (Nat.le_refl _)).2
  simp only [Reading.turn, Separated.add, ← follows.policy, ← same]
  generalize answered : throughVPN reading.policy (packetAt offset reading.buffers reading.sizes turns) = answer
  split
  · have length : (packetAt offset reading.buffers reading.sizes turns).length = reading.sizes turns := by
      rw [same, size, packetAt, List.length_take, List.length_drop, length]
      omega
    have fitting : offset + (packetAt offset reading.buffers reading.sizes turns).length ≤
        (reading.buffers reading.kept).length := by
      rw [follows.room reading.kept (by omega), length, size]
      exact ends
    have moved : (if reading.kept ≠ turns then Function.update reading.buffers reading.kept (copyAt offset
        (reading.buffers reading.kept) (packetAt offset reading.buffers reading.sizes turns)) else reading.buffers) =
        Function.update reading.buffers reading.kept (copyAt offset
          (reading.buffers reading.kept) (packetAt offset reading.buffers reading.sizes turns)) := by
      split
      · rfl
      · next here =>
        obtain rfl := not_not.mp here
        rw [packetAt, copyAt_self (by omega), Function.update_eq_self]
    rw [moved]
    refine ⟨⟨follows.direct, rfl, ?_⟩, Nat.succ_le_succ bound, fun i later => ?_, fun i listed => ?_⟩
    · rw [List.range_succ, List.map_append, List.map_append, ← follows.returned]
      congr 1
      · refine List.map_congr_left fun i listed => ?_
        have different : i ≠ reading.kept := Nat.ne_of_lt (List.mem_range.mp listed)
        simp only [packetAt, Function.update_of_ne different]
      · have placed := take_copyAt fitting
        rw [length] at placed
        simp only [List.map_cons, List.map_nil, packetAt, Function.update_self] at placed length ⊢
        rw [placed, length]
    · have different : i ≠ reading.kept := by omega
      simpa only [Function.update_of_ne different] using follows.ahead i (by omega)
    · rcases eq_or_ne i reading.kept with rfl | different
      · simpa only [Function.update_self, length_copyAt fitting] using follows.room _ listed
      · simpa only [Function.update_of_ne different] using follows.room i listed
  · refine ⟨⟨?_, rfl, follows.returned⟩, Nat.le_succ_of_le bound, fun i later => ?_, follows.room⟩
    · rw [follows.direct]
    · exact follows.ahead i (by omega)

theorem follows_turns (fits : batch.Fits offset capacity) (policy : σ) (direct : List (List UInt8))
    (inside : turns ≤ batch.count) :
    Follows offset capacity batch turns (batch.turns throughVPN offset policy direct turns)
      (separate throughVPN policy direct (batch.packets offset turns)) := by
  induction turns with
  | zero => exact ⟨⟨rfl, rfl, rfl⟩, Nat.le_refl 0, fun _ _ => ⟨rfl, rfl⟩, fun i listed => (fits i listed).1⟩
  | succ turns ih =>
    have next := (ih (by omega)).turn throughVPN fits inside
    simpa only [Batch.turns, separate, Batch.packets, List.range_succ, List.foldl_append, List.map_append,
      List.foldl_cons, List.foldl_nil, List.map_cons, List.map_nil] using next

end

/-- The call returns the packets that `throughVPN` keeps of the first batch with such a packet or an error, has given
every other packet to the direct stack, and no turn changes a packet that a later one reads. -/
theorem read_partitions_batches {σ : Type} (throughVPN : σ → List UInt8 → Bool × σ) (offset capacity : Nat)
    (batches : List Batch) (fits : ∀ batch ∈ batches, batch.Fits offset capacity) (policy : σ)
    (direct : List (List UInt8)) :
    Option.Rel (fun result expected => result.1.Holds offset expected.1 ∧ result.2 = expected.2)
      (read throughVPN offset batches policy direct) (readSeparated throughVPN offset batches policy direct) ∧
    ∀ batch ∈ batches, ∀ turns i, turns ≤ i → i < batch.count →
      packetAt offset (batch.turns throughVPN offset policy direct turns).buffers
        (batch.turns throughVPN offset policy direct turns).sizes i =
      packetAt offset batch.buffers batch.sizes i := by
  refine ⟨?_, fun batch listed turns i later inside => ?_⟩
  · induction batches generalizing policy direct with
    | nil => exact .none
    | cons batch rest ih =>
      have follows := follows_turns throughVPN (fits batch List.mem_cons_self) policy direct (Nat.le_refl _)
      have holds := follows.toHolds
      simp only [read, readSeparated, holds.kept_pos]
      split
      · exact .some ⟨holds, rfl⟩
      · rw [holds.policy, holds.direct]
        exact ih (fun other listed => fits other (List.mem_cons_of_mem _ listed)) _ _
  · exact (follows_turns throughVPN (fits batch listed) policy direct (by omega)).packet_eq later

def pair : Batch := ⟨2, fun i => [0, UInt8.ofNat i, 7], fun _ => 2, false⟩

def keepsOne (_ : Unit) (packet : List UInt8) : Bool × Unit :=
  (packet.head? == some 1, ())

theorem read_partitions_pair : Option.Rel (fun result expected => result.1.Holds 1 expected.1 ∧ result.2 = expected.2)
    (read keepsOne 1 [pair] () []) (some (⟨[[1, 7]], [[0, 7]], ()⟩, false, [])) := by
  refine (read_partitions_batches keepsOne 1 3 [pair] ?_ () []).1
  intro batch listed i _
  obtain rfl := List.mem_singleton.mp listed
  exact ⟨rfl, Nat.le_refl 3⟩

end Amnezia.Union
