import Amnezia.Net.IpAddress
import Amnezia.Lib.Intervals

namespace Amnezia.Net
open Lib.Intervals

@[ext] structure IpRange where
  start : IpAddress
  stop : IpAddress
  sameSize : start.size = stop.size
  ordered : ¬ start > stop
deriving Repr, DecidableEq

abbrev NetResult := Except (NetException IpAddress)

namespace IpRange

def ofBounds (start stop : IpAddress) : NetResult IpRange :=
  if sizes : start.size ≠ stop.size then .error (.mixedFamilies start stop)
  else if order : start > stop then .error (.startAfterEnd start stop)
  else .ok ⟨start, stop, not_not.mp sizes, order⟩

def contains (range other : IpRange) : Bool :=
  range.start ≤ other.start && range.stop ≥ other.stop

def isIntersect (range other : IpRange) : Bool :=
  range.start ≤ other.stop && range.stop ≥ other.start

-- `start > other.end && !start.isMinIp() && start.dec() == other.end`
def follows (range other : IpRange) : NetResult Bool :=
  if range.start > other.stop && !range.start.isMinIp then do
    let previous ← range.start.dec
    return previous == other.stop
  else return false

-- `end < other.start && !end.isMaxIp() && end.inc() == other.start`
def precedes (range other : IpRange) : NetResult Bool :=
  if range.stop < other.start && !range.stop.isMaxIp then do
    let next ← range.stop.inc
    return next == other.start
  else return false

def minOf (a b : IpAddress) : IpAddress := if a ≤ b then a else b

def maxOf (a b : IpAddress) : IpAddress := if a ≥ b then a else b

def plus (range other : IpRange) : NetResult (Option IpRange) := do
  if ← range.follows other then return some (← ofBounds other.start range.stop)
  if ← range.precedes other then return some (← ofBounds range.start other.stop)
  if !range.isIntersect other then return none
  return some (← ofBounds (minOf range.start other.start) (maxOf range.stop other.stop))

def minus (range other : IpRange) : NetResult (Option (List IpRange)) := do
  if other.contains range then return some []
  if !range.isIntersect other then return none
  let mut resultRanges := []
  if range.start < other.start then
    resultRanges := resultRanges ++ [← ofBounds range.start (← other.start.dec)]
  if range.stop > other.stop then
    resultRanges := resultRanges ++ [← ofBounds (← other.stop.inc) range.stop]
  return some resultRanges

def compareTo (range other : IpRange) : Int :=
  let d := range.start.compareTo other.start
  if d = 0 then range.stop.compareTo other.stop else d

def lo (range : IpRange) : Nat := range.start.rank

def hi (range : IpRange) : Nat := range.stop.rank

theorem lo_le_hi (range : IpRange) : range.lo ≤ range.hi :=
  not_lt.mp ((IpAddress.lt_iff _ _).not.mp range.ordered)

variable {a b : IpRange}

theorem ext_of_ends (los : a.lo = b.lo) (his : a.hi = b.hi) : a = b :=
  IpRange.ext (IpAddress.rank_injective los) (IpAddress.rank_injective his)

def addresses (range : IpRange) : Set IpAddress := {ip | range.start ≤ ip ∧ ip ≤ range.stop}

theorem mem_addresses_iff (range : IpRange) (ip : IpAddress) :
    ip ∈ range.addresses ↔ ip.rank ∈ span lo hi range := by
  simp only [addresses, Set.mem_ofPred_eq, IpAddress.le_iff]
  rfl

theorem compareTo_lt_iff (a b : IpRange) :
    a.compareTo b < 0 ↔ a.lo < b.lo ∨ (a.lo = b.lo ∧ a.hi < b.hi) := by
  have starts := IpAddress.compareTo_spec a.start b.start
  have stops := IpAddress.compareTo_spec a.stop b.stop
  simp only [compareTo, lo, hi]
  split_ifs <;> omega

theorem compareTo_eq_zero_iff (a b : IpRange) : a.compareTo b = 0 ↔ a = b := by
  have starts := IpAddress.compareTo_spec a.start b.start
  have stops := IpAddress.compareTo_spec a.stop b.stop
  have ends : a.compareTo b = 0 ↔ a.lo = b.lo ∧ a.hi = b.hi := by
    simp only [compareTo, lo, hi]
    split_ifs <;> omega
  rw [ends]
  exact ⟨fun equal => ext_of_ends equal.1 equal.2, fun equal => by simp [equal]⟩

theorem side (range : IpRange) :
    (range.start.size = 4 ∧ range.hi < 2 ^ 32) ∨ (range.start.size = 16 ∧ 2 ^ 32 < range.lo) := by
  rcases range.start.size_cases with four | sixteen
  · exact .inl ⟨four, (IpAddress.rank_lt_iff_size_four _).mpr (range.sameSize ▸ four)⟩
  · refine .inr ⟨sixteen, ?_⟩
    have := IpAddress.rank_of_size_sixteen sixteen
    unfold lo
    omega

theorem size_eq_of_touch (left : a.lo ≤ b.hi + 1) (right : b.lo ≤ a.hi + 1) :
    a.start.size = b.start.size := by
  have := a.lo_le_hi
  have := b.lo_le_hi
  rcases a.side with ⟨sizeA, boundA⟩ | ⟨sizeA, boundA⟩ <;>
    rcases b.side with ⟨sizeB, boundB⟩ | ⟨sizeB, boundB⟩ <;> omega

theorem ofBounds_ok (start stop : IpAddress) (sizes : start.size = stop.size)
    (order : start.rank ≤ stop.rank) :
    ∃ range, ofBounds start stop = .ok range ∧ range.lo = start.rank ∧ range.hi = stop.rank := by
  have ordered : ¬ start > stop := (IpAddress.lt_iff _ _).not.mpr (not_lt.mpr order)
  exact ⟨⟨start, stop, sizes, ordered⟩, by simp [ofBounds, sizes, ordered], rfl, rfl⟩

theorem follows_eq (a b : IpRange) : a.follows b = .ok (decide (a.lo = b.hi + 1)) := by
  unfold follows
  by_cases zero : a.start.isMinIp = true
  · have := IpAddress.rank_succ_ne_of_isMinIp b.stop zero
    simp [zero, lo, hi, this, pure, Except.pure]
  · obtain ⟨previous, equation, step, -⟩ := IpAddress.dec_of_not_min (Bool.eq_false_of_not_eq_true zero)
    by_cases after : a.start > b.stop
    · have same : (previous == b.stop) = decide (a.lo = b.hi + 1) := by
        rw [Bool.eq_iff_iff, beq_iff_eq, decide_eq_true_eq, ← IpAddress.rank_injective.eq_iff]
        unfold lo hi
        omega
      simp [after, zero, equation, bind, Except.bind, pure, Except.pure, same]
    · have := (IpAddress.lt_iff _ _).not.mp after
      have : a.lo ≠ b.hi + 1 := by unfold lo hi; omega
      simp [after, this, pure, Except.pure]

theorem precedes_eq (a b : IpRange) : a.precedes b = .ok (decide (b.lo = a.hi + 1)) := by
  unfold precedes
  by_cases full : a.stop.isMaxIp = true
  · have := IpAddress.rank_ne_succ_of_isMaxIp b.start full
    simp [full, lo, hi, this, pure, Except.pure]
  · obtain ⟨next, equation, step, -⟩ := IpAddress.inc_of_not_max (Bool.eq_false_of_not_eq_true full)
    by_cases below : a.stop < b.start
    · have same : (next == b.start) = decide (b.lo = a.hi + 1) := by
        rw [Bool.eq_iff_iff, beq_iff_eq, decide_eq_true_eq, ← IpAddress.rank_injective.eq_iff]
        unfold lo hi
        omega
      simp [below, full, equation, bind, Except.bind, pure, Except.pure, same]
    · have := (IpAddress.lt_iff _ _).not.mp below
      have : b.lo ≠ a.hi + 1 := by unfold lo hi; omega
      simp [below, this, pure, Except.pure]

theorem isIntersect_eq (a b : IpRange) :
    a.isIntersect b = decide (a.lo ≤ b.hi ∧ b.lo ≤ a.hi) := by
  rw [Bool.eq_iff_iff]
  simp only [isIntersect, Bool.and_eq_true, decide_eq_true_eq, ge_iff_le, IpAddress.le_iff]
  rfl

theorem contains_eq (a b : IpRange) : a.contains b = decide (a.lo ≤ b.lo ∧ b.hi ≤ a.hi) := by
  rw [Bool.eq_iff_iff]
  simp only [contains, Bool.and_eq_true, decide_eq_true_eq, ge_iff_le, IpAddress.le_iff]
  rfl

theorem rank_minOf (a b : IpAddress) : (minOf a b).rank = min a.rank b.rank := by
  unfold minOf
  split_ifs with order <;> rw [IpAddress.le_iff] at order <;> omega

theorem rank_maxOf (a b : IpAddress) : (maxOf a b).rank = max a.rank b.rank := by
  unfold maxOf
  split_ifs with order <;> rw [ge_iff_le, IpAddress.le_iff] at order <;> omega

theorem size_minOf {a b : IpAddress} (sizes : a.size = b.size) : (minOf a b).size = a.size := by
  unfold minOf
  split_ifs <;> simp [sizes]

theorem size_maxOf {a b : IpAddress} (sizes : a.size = b.size) : (maxOf a b).size = a.size := by
  unfold maxOf
  split_ifs <;> simp [sizes]

theorem plus_of_touch (left : a.lo ≤ b.hi + 1) (right : b.lo ≤ a.hi + 1) :
    ∃ sum, a.plus b = .ok (some sum) ∧ sum.lo = min a.lo b.lo ∧ sum.hi = max a.hi b.hi := by
  have sizes := size_eq_of_touch left right
  have stops : a.stop.size = b.stop.size := by rw [← a.sameSize, ← b.sameSize, sizes]
  have validA := a.lo_le_hi
  have validB := b.lo_le_hi
  simp only [plus, follows_eq, precedes_eq, isIntersect_eq, bind, Except.bind]
  by_cases after : a.lo = b.hi + 1
  · obtain ⟨sum, equation, los, his⟩ := ofBounds_ok b.start a.stop
      (by rw [← a.sameSize, sizes]) (by change b.lo ≤ a.hi; omega)
    refine ⟨sum, by simp [after, equation, pure, Except.pure], ?_, ?_⟩
    · rw [los]; change b.lo = _; omega
    · rw [his]; change a.hi = _; omega
  by_cases below : b.lo = a.hi + 1
  · obtain ⟨sum, equation, los, his⟩ := ofBounds_ok a.start b.stop
      (by rw [a.sameSize, stops]) (by change a.lo ≤ b.hi; omega)
    refine ⟨sum, by simp [after, below, equation, pure, Except.pure], ?_, ?_⟩
    · rw [los]; change a.lo = _; omega
    · rw [his]; change b.hi = _; omega
  have meet : a.lo ≤ b.hi ∧ b.lo ≤ a.hi := by omega
  obtain ⟨sum, equation, los, his⟩ := ofBounds_ok
    (minOf a.start b.start) (maxOf a.stop b.stop)
    (by rw [size_minOf sizes, size_maxOf stops, a.sameSize])
    (by rw [rank_minOf, rank_maxOf]; change min a.lo b.lo ≤ max a.hi b.hi; omega)
  rw [rank_minOf] at los
  rw [rank_maxOf] at his
  exact ⟨sum, by simp [after, below, meet, equation, pure, Except.pure], los, his⟩

theorem plus_of_apart (apart : Apart lo hi a b) : a.plus b = .ok none := by
  unfold Apart Before at apart
  have validA := a.lo_le_hi
  have validB := b.lo_le_hi
  have : ¬ a.lo = b.hi + 1 := by omega
  have : ¬ b.lo = a.hi + 1 := by omega
  have : ¬ (a.lo ≤ b.hi ∧ b.lo ≤ a.hi) := by omega
  simp_all [plus, follows_eq, precedes_eq, isIntersect_eq, bind, Except.bind, pure, Except.pure]

theorem minus_of_meet (meet : a.lo ≤ b.hi ∧ b.lo ≤ a.hi) :
    ∃ rest, a.minus b = .ok (some rest) ∧ covered lo hi rest = span lo hi a \ span lo hi b ∧
      Separated lo hi rest := by
  have validA := a.lo_le_hi
  have validB := b.lo_le_hi
  have sizes : a.start.size = b.start.size := size_eq_of_touch (by omega) (by omega)
  simp only [minus, contains_eq, isIntersect_eq, meet]
  by_cases inside : b.lo ≤ a.lo ∧ a.hi ≤ b.hi
  · refine ⟨[], by simp [inside, pure, Except.pure], ?_, List.Pairwise.nil⟩
    ext x
    simp
    omega
  have left : a.start < b.start → ∃ previous piece, b.start.dec = .ok previous ∧
      ofBounds a.start previous = .ok piece ∧ piece.lo = a.lo ∧ piece.hi + 1 = b.lo := by
    intro order
    rw [IpAddress.lt_iff] at order
    obtain ⟨previous, equation, step, size⟩ :=
      IpAddress.dec_of_not_min (IpAddress.isMinIp_of_lt sizes order)
    obtain ⟨piece, made, los, his⟩ := ofBounds_ok a.start previous
      (by rw [size, sizes]) (by omega)
    exact ⟨previous, piece, equation, made, los, by rw [his]; exact step⟩
  have right : a.stop > b.stop → ∃ next piece, b.stop.inc = .ok next ∧
      ofBounds next a.stop = .ok piece ∧ piece.lo = b.hi + 1 ∧ piece.hi = a.hi := by
    intro order
    rw [gt_iff_lt, IpAddress.lt_iff] at order
    have stops : b.stop.size = a.stop.size := by rw [← a.sameSize, ← b.sameSize, sizes]
    obtain ⟨next, equation, step, size⟩ :=
      IpAddress.inc_of_not_max (IpAddress.isMaxIp_of_lt stops order)
    obtain ⟨piece, made, los, his⟩ := ofBounds_ok next a.stop
      (by rw [size, stops]) (by omega)
    exact ⟨next, piece, equation, made, los.trans step, his⟩
  have start_lt : a.start < b.start ↔ a.lo < b.lo := IpAddress.lt_iff _ _
  have stop_gt : a.stop > b.stop ↔ b.hi < a.hi := IpAddress.lt_iff _ _
  by_cases l : a.start < b.start <;> by_cases r : a.stop > b.stop <;>
    have l' := l <;> have r' := r <;> rw [start_lt] at l' <;> rw [stop_gt] at r'
  · obtain ⟨previous, piece, decEq, made, los, his⟩ := left l
    obtain ⟨next, piece', incEq, made', los', his'⟩ := right r
    refine ⟨[piece, piece'], ?_, ?_, ?_⟩
    · simp [inside, l, r, decEq, made, incEq, made', bind, Except.bind, pure, Except.pure]
    · ext x
      simp [covered]
      omega
    · simp [Separated, Before]
      omega
  · obtain ⟨previous, piece, decEq, made, los, his⟩ := left l
    refine ⟨[piece], ?_, ?_, by simp [Separated]⟩
    · simp [inside, l, r, decEq, made, bind, Except.bind, pure, Except.pure]
    · ext x
      simp [covered]
      omega
  · obtain ⟨next, piece, incEq, made, los, his⟩ := right r
    refine ⟨[piece], ?_, ?_, by simp [Separated]⟩
    · simp [inside, l, r, incEq, made, bind, Except.bind, pure, Except.pure]
    · ext x
      simp [covered]
      omega
  · omega

theorem minus_of_disjoint (disjoint : ¬ (a.lo ≤ b.hi ∧ b.lo ≤ a.hi)) :
    a.minus b = .ok none := by
  have := a.lo_le_hi
  have : ¬ (b.lo ≤ a.lo ∧ a.hi ≤ b.hi) := by have := b.lo_le_hi; omega
  simp [minus, contains_eq, isIntersect_eq, this, disjoint, pure, Except.pure]

end IpRange

end Amnezia.Net
