import Amnezia.Net.IpRange

namespace Amnezia.Net
open Lib.Intervals IpRange

-- `sortedSetOf<IpRange>()`, listed in iteration order.
structure IpRangeSet where
  ranges : List IpRange := []
deriving Repr, DecidableEq

namespace IpRangeSet

-- `rangeToAdd.end < curRange.start && !rangeToAdd.end.isMaxIp() && rangeToAdd.end.inc() != curRange.start`
def endsBefore (rangeToAdd curRange : IpRange) : NetResult Bool :=
  if rangeToAdd.stop < curRange.start && !rangeToAdd.stop.isMaxIp then do
    let next ← rangeToAdd.stop.inc
    return next != curRange.start
  else return false

-- The second component is the range to insert after the loop; `return@run` leaves none.
def addLoop : List IpRange → IpRange → NetResult (List IpRange × Option IpRange)
  | [], rangeToAdd => return ([], some rangeToAdd)
  | curRange :: rest, rangeToAdd => do
      if ← endsBefore rangeToAdd curRange then return (curRange :: rest, some rangeToAdd)
      match ← curRange.plus rangeToAdd with
      | some resultRange =>
        if resultRange == curRange then return (curRange :: rest, none)
        addLoop rest resultRange
      | none => do
          let (kept, out) ← addLoop rest rangeToAdd
          return (curRange :: kept, out)

def add (set : IpRangeSet) (ipRange : IpRange) : NetResult IpRangeSet := do
  match ← addLoop set.ranges ipRange with
  | (kept, some rangeToAdd) => return ⟨insertSorted IpRange.compareTo rangeToAdd kept⟩
  | (kept, none) => return ⟨kept⟩

def removeLoop : List IpRange → IpRange → NetResult (List IpRange × List IpRange)
  | [], _ => return ([], [])
  | curRange :: rest, ipRange => do
      if ipRange.stop < curRange.start then return (curRange :: rest, [])
      match ← curRange.minus ipRange with
      | some resultRanges => do
          let (kept, splitRanges) ← removeLoop rest ipRange
          return (kept, resultRanges ++ splitRanges)
      | none => do
          let (kept, splitRanges) ← removeLoop rest ipRange
          return (curRange :: kept, splitRanges)

def remove (set : IpRangeSet) (ipRange : IpRange) : NetResult IpRangeSet := do
  let (kept, splitRanges) ← removeLoop set.ranges ipRange
  return ⟨splitRanges.foldl (fun ranges range => insertSorted IpRange.compareTo range ranges) kept⟩

theorem endsBefore_spec (r c : IpRange) :
    ∃ b, endsBefore r c = .ok b ∧ (b = true → Before lo hi r c) := by
  unfold endsBefore
  split_ifs with guard
  · simp only [Bool.and_eq_true, decide_eq_true_eq, Bool.not_eq_true', IpAddress.lt_iff] at guard
    obtain ⟨next, equation, step, -⟩ := IpAddress.inc_of_not_max guard.2
    refine ⟨next != c.start, by simp [equation, bind, Except.bind, pure, Except.pure], ?_⟩
    intro differ
    have : next.rank ≠ c.start.rank := fun equal => by
      simp [IpAddress.rank_injective equal] at differ
    unfold Before lo hi
    omega
  · exact ⟨false, rfl, by simp⟩

variable {ranges : List IpRange} {set : IpRangeSet}

theorem addLoop_of_before {r : IpRange}
    (before : ∀ c ∈ ranges, Before lo hi r c) : addLoop ranges r = .ok (ranges, some r) := by
  induction ranges with
  | nil => rfl
  | cons c rest ih =>
    obtain ⟨b, equation, -⟩ := endsBefore_spec r c
    have apart : Apart lo hi c r := .inr (before c (by simp))
    have tail := ih fun x member => before x (by simp [member])
    cases b <;> simp [addLoop, equation, plus_of_apart apart, tail, bind, Except.bind, pure, Except.pure]

structure AddSpec (ranges : List IpRange) (r : IpRange) (kept : List IpRange) (out : IpRange) :
    Prop where
  sublist : kept.Sublist ranges
  apart : ∀ c ∈ kept, Apart lo hi out c
  lower : ∀ m, m ≤ r.lo → (∀ c ∈ ranges, m ≤ c.lo) → m ≤ out.lo
  union : span lo hi out ∪ covered lo hi kept = span lo hi r ∪ covered lo hi ranges

theorem addLoop_spec (separated : Separated lo hi ranges) (r : IpRange) :
    (addLoop ranges r = .ok (ranges, none) ∧ ∃ c ∈ ranges, c.lo ≤ r.lo ∧ r.hi ≤ c.hi) ∨
      ∃ kept out, addLoop ranges r = .ok (kept, some out) ∧ AddSpec ranges r kept out := by
  induction ranges generalizing r with
  | nil => exact .inr ⟨[], r, rfl, ⟨.slnil, by simp, fun _ bound _ => bound, rfl⟩⟩
  | cons c rest ih =>
    obtain ⟨head, tail⟩ := List.pairwise_cons.mp separated
    have validC := c.lo_le_hi
    have validR := r.lo_le_hi
    obtain ⟨b, stop, ends⟩ := endsBefore_spec r c
    by_cases before : Before lo hi r c
    · -- Everything from here on starts after the new range, whether or not the loop breaks.
      have all : ∀ x ∈ c :: rest, Before lo hi r x := by
        intro x member
        rcases List.mem_cons.mp member with rfl | member
        · exact before
        · exact before.trans validC (head x member)
      exact .inr ⟨c :: rest, r, addLoop_of_before all,
        ⟨.refl _, fun x member => .inl (all x member), fun _ bound _ => bound, rfl⟩⟩
    obtain rfl : b = false := Bool.eq_false_of_not_eq_true fun h => before (ends h)
    by_cases touch : c.lo ≤ r.hi + 1 ∧ r.lo ≤ c.hi + 1
    · obtain ⟨sum, plus, los, his⟩ := plus_of_touch touch.1 touch.2
      by_cases same : sum = c
      · refine .inl ⟨by simp [addLoop, stop, plus, same, bind, Except.bind, pure, Except.pure], c,
          by simp, ?_⟩
        rw [same] at los his
        omega
      · have step : addLoop (c :: rest) r = addLoop rest sum := by
          simp [addLoop, stop, plus, same, bind, Except.bind]
        rcases ih tail sum with ⟨-, x, member, left, -⟩ | ⟨kept, out, equation, spec⟩
        · -- `sum` contains `c`, which lies before every later range.
          have := head x member
          unfold Before at this
          omega
        · refine .inr ⟨kept, out, step.trans equation, spec.sublist.cons c, spec.apart, ?_, ?_⟩
          · intro m bound all
            have := all c (by simp)
            exact spec.lower m (by omega) fun x member => all x (by simp [member])
          · rw [spec.union, covered_cons, ← Set.union_assoc]
            congr 1
            ext x
            simp only [mem_span, Set.mem_union]
            omega
    · have behind : Before lo hi c r := by
        unfold Before at *
        omega
      have apart : Apart lo hi c r := .inl behind
      have step (kept out) (equation : addLoop rest r = .ok (kept, out)) :
          addLoop (c :: rest) r = .ok (c :: kept, out) := by
        simp [addLoop, stop, plus_of_apart apart, equation, bind, Except.bind, pure, Except.pure]
      rcases ih tail r with ⟨equation, x, member, inside⟩ | ⟨kept, out, equation, spec⟩
      · exact .inl ⟨step _ _ equation, x, by simp [member], inside⟩
      · refine .inr ⟨c :: kept, out, step _ _ equation, spec.sublist.cons_cons c, ?_, ?_, ?_⟩
        · intro x member
          rcases List.mem_cons.mp member with equal | member
          · rw [equal]
            exact .inr (spec.lower (c.hi + 2) behind head)
          · exact spec.apart x member
        · exact fun m bound all => spec.lower m bound fun x member => all x (by simp [member])
        · rw [covered_cons, covered_cons, Set.union_left_comm, spec.union, Set.union_left_comm]

structure RemoveSpec (ranges : List IpRange) (r : IpRange) (kept split : List IpRange) : Prop where
  sublist : kept.Sublist ranges
  within : ∀ piece ∈ split, ∃ c ∈ ranges, c.lo ≤ piece.lo ∧ piece.hi ≤ c.hi
  pieces : Separated lo hi split
  apart : ∀ piece ∈ split, ∀ c ∈ kept, Apart lo hi piece c
  difference : covered lo hi kept ∪ covered lo hi split = covered lo hi ranges \ span lo hi r

theorem within_of_covered {pieces : List IpRange} (outer : IpRange)
    (subset : covered lo hi pieces ⊆ span lo hi outer) :
    ∀ piece ∈ pieces, outer.lo ≤ piece.lo ∧ piece.hi ≤ outer.hi := by
  intro piece member
  have valid := piece.lo_le_hi
  have left : piece.lo ∈ span lo hi outer := subset ⟨piece, member, le_rfl, valid⟩
  have right : piece.hi ∈ span lo hi outer := subset ⟨piece, member, valid, le_rfl⟩
  exact ⟨left.1, right.2⟩

theorem removeLoop_spec (separated : Separated lo hi ranges) (r : IpRange) :
    ∃ kept split, removeLoop ranges r = .ok (kept, split) ∧ RemoveSpec ranges r kept split := by
  induction ranges with
  | nil => exact ⟨[], [], rfl, ⟨.slnil, by simp, .nil, by simp, by simp⟩⟩
  | cons c rest ih =>
    obtain ⟨head, tail⟩ := List.pairwise_cons.mp separated
    have validC := c.lo_le_hi
    by_cases stop : r.stop < c.start
    · refine ⟨c :: rest, [], by simp [removeLoop, stop, pure, Except.pure],
        ⟨.refl _, by simp, .nil, by simp, ?_⟩⟩
      have bound : r.hi < c.lo := (IpAddress.lt_iff _ _).mp stop
      rw [covered_nil, Set.union_empty, eq_comm, sdiff_eq_left, Set.disjoint_left]
      rintro x ⟨y, member, inside⟩ inR
      have : c.lo ≤ y.lo := by
        rcases List.mem_cons.mp member with rfl | member
        · exact le_rfl
        · have := head y member
          unfold Before at this
          omega
      simp only [mem_span] at inside inR
      omega
    obtain ⟨kept, split, equation, spec⟩ := ih tail
    by_cases meet : c.lo ≤ r.hi ∧ r.lo ≤ c.hi
    · obtain ⟨pieces, minus, difference, order⟩ := minus_of_meet meet
      have inside := within_of_covered c (by rw [difference]; exact Set.sdiff_subset)
      refine ⟨kept, pieces ++ split, ?_, spec.sublist.cons c, ?_, ?_, ?_, ?_⟩
      · simp [removeLoop, stop, minus, equation, bind, Except.bind, pure, Except.pure]
      · intro piece member
        rcases List.mem_append.mp member with member | member
        · exact ⟨c, by simp, inside piece member⟩
        · obtain ⟨x, inRest, bounds⟩ := spec.within piece member
          exact ⟨x, by simp [inRest], bounds⟩
      · refine List.pairwise_append.mpr ⟨order, spec.pieces, ?_⟩
        intro piece inPieces other inSplit
        obtain ⟨x, inRest, bounds⟩ := spec.within other inSplit
        have := inside piece inPieces
        have := head x inRest
        unfold Before at *
        omega
      · intro piece member x inKept
        rcases List.mem_append.mp member with member | member
        · have bounds := inside piece member
          have before : Before lo hi c x := head x (spec.sublist.subset inKept)
          exact (Apart.of_within (Or.inr before) bounds.1 bounds.2).symm
        · exact spec.apart piece member x inKept
      · rw [covered_append, Set.union_left_comm, spec.difference, difference, covered_cons,
          Set.union_sdiff_distrib]
    · refine ⟨c :: kept, split, ?_, spec.sublist.cons_cons c, ?_, spec.pieces, ?_, ?_⟩
      · simp [removeLoop, stop, minus_of_disjoint meet, equation, bind, Except.bind, pure, Except.pure]
      · intro piece member
        obtain ⟨x, inRest, bounds⟩ := spec.within piece member
        exact ⟨x, by simp [inRest], bounds⟩
      · intro piece member x inKept
        rcases List.mem_cons.mp inKept with equal | inKept
        · obtain ⟨y, inRest, bounds⟩ := spec.within piece member
          have before := head y inRest
          rw [equal]
          refine .inr ?_
          unfold Before at *
          omega
        · exact spec.apart piece member x inKept
      · rw [covered_cons, covered_cons, Set.union_assoc, spec.difference, Set.union_sdiff_distrib]
        congr 1
        rw [eq_comm, sdiff_eq_left, Set.disjoint_left]
        intro x inC inR
        simp only [mem_span] at inC inR
        omega

private theorem eq_of_compareTo (a b : IpRange) (zero : a.compareTo b = 0) : a = b :=
  (compareTo_eq_zero_iff a b).mp zero

private theorem lo_le_of_compareTo (a b : IpRange) (less : a.compareTo b < 0) : a.lo ≤ b.lo := by
  have := (compareTo_lt_iff a b).mp less
  omega

private theorem lo_ge_of_compareTo (a b : IpRange) (greater : ¬ a.compareTo b < 0) : b.lo ≤ a.lo := by
  have := (compareTo_lt_iff a b).not.mp greater
  omega

theorem add_spec (separated : Separated lo hi set.ranges) (r : IpRange) :
    ∃ set', set.add r = .ok set' ∧ Separated lo hi set'.ranges ∧
      covered lo hi set'.ranges = covered lo hi set.ranges ∪ span lo hi r := by
  rcases addLoop_spec separated r with ⟨equation, c, member, inside⟩ | ⟨kept, out, equation, spec⟩
  · refine ⟨set, by simp [add, equation, bind, Except.bind, pure, Except.pure], separated, ?_⟩
    rw [eq_comm, Set.union_eq_left]
    rintro x ⟨left, right⟩
    exact ⟨c, member, inside.1.trans left, right.trans inside.2⟩
  · refine ⟨⟨insertSorted IpRange.compareTo out kept⟩,
      by simp [add, equation, bind, Except.bind, pure, Except.pure], ?_, ?_⟩
    · exact separated_insertSorted eq_of_compareTo lo_le_of_compareTo lo_ge_of_compareTo
        IpRange.lo_le_hi (separated.sublist spec.sublist) spec.apart
    · rw [covered_insertSorted eq_of_compareTo, spec.union, Set.union_comm]

theorem remove_spec (separated : Separated lo hi set.ranges) (r : IpRange) :
    ∃ set', set.remove r = .ok set' ∧ Separated lo hi set'.ranges ∧
      covered lo hi set'.ranges = covered lo hi set.ranges \ span lo hi r := by
  obtain ⟨kept, split, equation, spec⟩ := removeLoop_spec separated r
  obtain ⟨sorted, union⟩ := foldl_insertSorted eq_of_compareTo lo_le_of_compareTo lo_ge_of_compareTo
    IpRange.lo_le_hi spec.pieces (separated.sublist spec.sublist) spec.apart
  exact ⟨⟨_⟩, by simp [remove, equation, bind, Except.bind, pure, Except.pure], sorted,
    union.trans spec.difference⟩

inductive Op where
  | add (ipRange : IpRange)
  | remove (ipRange : IpRange)
deriving Repr, DecidableEq

def step (set : IpRangeSet) : Op → NetResult IpRangeSet
  | .add ipRange => set.add ipRange
  | .remove ipRange => set.remove ipRange

def run (ops : List Op) : NetResult IpRangeSet := ops.foldlM step {}

def addresses (set : IpRangeSet) : Set IpAddress := {ip | ∃ range ∈ set.ranges, ip ∈ range.addresses}

def Op.meaning (set : Set IpAddress) : Op → Set IpAddress
  | .add ipRange => set ∪ ipRange.addresses
  | .remove ipRange => set \ ipRange.addresses

/-- The stored ranges are a normal form: strictly sorted, each of one family, and two ranges of one
family neither overlap nor follow each other without a gap. -/
structure Normal (set : IpRangeSet) : Prop where
  sorted : set.ranges.Pairwise fun a b => a.compareTo b < 0
  oneFamily : ∀ range ∈ set.ranges, range.start.size = range.stop.size
  disjoint : set.ranges.Pairwise fun a b => ∀ ip ∈ a.addresses, ip ∉ b.addresses
  notAdjacent : set.ranges.Pairwise fun a b => a.stop.inc ≠ .ok b.start ∧ b.stop.inc ≠ .ok a.start

theorem mem_addresses_iff (set : IpRangeSet) (ip : IpAddress) :
    ip ∈ set.addresses ↔ ip.rank ∈ covered lo hi set.ranges := by
  simp only [addresses, covered, Set.mem_ofPred_eq, IpRange.mem_addresses_iff]

theorem normal_of_separated (separated : Separated lo hi set.ranges) :
    set.Normal where
  sorted := separated.imp fun {a b} before => (compareTo_lt_iff a b).mpr (by
    have := a.lo_le_hi
    unfold Before at before
    omega)
  oneFamily range _ := range.sameSize
  disjoint := separated.imp fun {a b} before => by
    intro ip inA inB
    rw [IpRange.mem_addresses_iff, mem_span] at inA inB
    unfold Before at before
    omega
  notAdjacent := separated.imp fun {a b} before => by
    have validA := a.lo_le_hi
    have validB := b.lo_le_hi
    unfold Before at before
    constructor <;> intro next <;> have step := IpAddress.rank_of_inc next <;>
      unfold lo hi at * <;> omega

theorem step_spec (separated : Separated lo hi set.ranges) (op : Op) :
    ∃ set', set.step op = .ok set' ∧ Separated lo hi set'.ranges ∧
      set'.addresses = op.meaning set.addresses := by
  cases op with
  | add r =>
    obtain ⟨set', equation, separated', union⟩ := add_spec separated r
    refine ⟨set', equation, separated', ?_⟩
    ext ip
    rw [mem_addresses_iff, union, Op.meaning, Set.mem_union, Set.mem_union, mem_addresses_iff,
      IpRange.mem_addresses_iff]
  | remove r =>
    obtain ⟨set', equation, separated', difference⟩ := remove_spec separated r
    refine ⟨set', equation, separated', ?_⟩
    ext ip
    rw [mem_addresses_iff, difference, Op.meaning, Set.mem_sdiff, Set.mem_sdiff,
      mem_addresses_iff, IpRange.mem_addresses_iff]

theorem run_from (set : IpRangeSet) (separated : Separated lo hi set.ranges) (ops : List Op) :
    ∃ set', ops.foldlM step set = .ok set' ∧ Separated lo hi set'.ranges ∧
      set'.addresses = ops.foldl Op.meaning set.addresses := by
  induction ops generalizing set with
  | nil => exact ⟨set, rfl, separated, rfl⟩
  | cons op ops ih =>
    obtain ⟨next, equation, separated', meaning⟩ := step_spec separated op
    obtain ⟨set', rest, separated'', meaning'⟩ := ih next separated'
    refine ⟨set', ?_, separated'', ?_⟩
    · simp [List.foldlM_cons, equation, rest, bind, Except.bind]
    · rw [meaning', meaning, List.foldl_cons]

/-- Every sequence of calls succeeds, keeps the normal form and covers exactly the addresses that
union and difference give. -/
theorem run_normal (ops : List Op) :
    ∃ set, run ops = .ok set ∧ set.Normal ∧ set.addresses = ops.foldl Op.meaning ∅ := by
  obtain ⟨set, equation, separated, meaning⟩ := run_from {} .nil ops
  refine ⟨set, equation, normal_of_separated separated, meaning.trans ?_⟩
  congr 1
  ext ip
  simp [addresses]

end IpRangeSet

end Amnezia.Net
