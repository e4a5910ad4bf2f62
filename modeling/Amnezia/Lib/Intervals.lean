import Mathlib.Data.List.Pairwise
import Mathlib.Data.Set.Basic

/-! # Lists of separated intervals -/

namespace Amnezia.Lib.Intervals

variable {ρ : Type*} (lo hi : ρ → ℕ)

def span (r : ρ) : Set ℕ := {x | lo r ≤ x ∧ x ≤ hi r}

def covered (ranges : List ρ) : Set ℕ := {x | ∃ r ∈ ranges, x ∈ span lo hi r}

def Before (a b : ρ) : Prop := hi a + 1 < lo b

def Apart (a b : ρ) : Prop := Before lo hi a b ∨ Before lo hi b a

def Separated (ranges : List ρ) : Prop := ranges.Pairwise (Before lo hi)

variable {lo hi}

@[simp] theorem mem_span {r : ρ} {x : ℕ} : x ∈ span lo hi r ↔ lo r ≤ x ∧ x ≤ hi r := Iff.rfl

@[simp] theorem covered_nil : covered lo hi [] = ∅ := by
  ext x
  simp [covered]

theorem covered_cons (r : ρ) (ranges : List ρ) :
    covered lo hi (r :: ranges) = span lo hi r ∪ covered lo hi ranges := by
  ext x
  simp [covered]

theorem covered_append (front back : List ρ) :
    covered lo hi (front ++ back) = covered lo hi front ∪ covered lo hi back := by
  ext x
  simp only [covered, List.mem_append, Set.mem_ofPred_eq, Set.mem_union, or_and_right, exists_or]

theorem covered_congr {left right : List ρ} (same : ∀ r, r ∈ left ↔ r ∈ right) :
    covered lo hi left = covered lo hi right := by
  ext x
  simp [covered, same]

theorem Apart.symm {a b : ρ} (apart : Apart lo hi a b) : Apart lo hi b a := Or.symm apart

theorem Before.trans {a b c : ρ} (valid : lo b ≤ hi b) (first : Before lo hi a b)
    (second : Before lo hi b c) : Before lo hi a c := by
  unfold Before at *
  omega

theorem Apart.of_within {a b c : ρ} (apart : Apart lo hi a c) (left : lo c ≤ lo b)
    (right : hi b ≤ hi c) : Apart lo hi a b := by
  unfold Apart Before at *
  omega

def insertSorted (cmp : ρ → ρ → Int) (r : ρ) : List ρ → List ρ
  | [] => [r]
  | c :: rest =>
    if cmp r c < 0 then r :: c :: rest
    else if cmp r c = 0 then c :: rest
    else c :: insertSorted cmp r rest

variable {cmp : ρ → ρ → Int}

section

variable (zero : ∀ a b, cmp a b = 0 → a = b)
include zero

theorem mem_insertSorted (r x : ρ)
    (ranges : List ρ) : x ∈ insertSorted cmp r ranges ↔ x = r ∨ x ∈ ranges := by
  induction ranges with
  | nil => simp [insertSorted]
  | cons c rest ih =>
    unfold insertSorted
    split_ifs with less equal
    · simp
    · rw [zero r c equal]
      simp
    · simp only [List.mem_cons, ih, or_left_comm]

theorem separated_insertSorted
    (less : ∀ a b, cmp a b < 0 → lo a ≤ lo b) (greater : ∀ a b, ¬ cmp a b < 0 → lo b ≤ lo a)
    (valid : ∀ a : ρ, lo a ≤ hi a) {r : ρ} {ranges : List ρ} (separated : Separated lo hi ranges)
    (apart : ∀ c ∈ ranges, Apart lo hi r c) : Separated lo hi (insertSorted cmp r ranges) := by
  induction ranges with
  | nil => exact List.pairwise_singleton _ _
  | cons c rest ih =>
    have validR := valid r
    have validC := valid c
    have headApart := apart c (by simp)
    obtain ⟨head, tail⟩ := List.pairwise_cons.mp separated
    unfold insertSorted
    split_ifs with lower equal
    · have before : Before lo hi r c := by
        have := less r c lower
        unfold Apart Before at *
        omega
      refine List.pairwise_cons.mpr ⟨?_, separated⟩
      intro x member
      rcases List.mem_cons.mp member with rfl | member
      · exact before
      · exact before.trans validC (head x member)
    · exact separated
    · have before : Before lo hi c r := by
        have := greater r c lower
        unfold Apart Before at *
        omega
      refine List.pairwise_cons.mpr ⟨?_, ih tail fun x member => apart x (by simp [member])⟩
      intro x member
      rcases (mem_insertSorted zero r x rest).mp member with rfl | member
      · exact before
      · exact head x member

theorem covered_insertSorted (r : ρ) (ranges : List ρ) :
    covered lo hi (insertSorted cmp r ranges) = span lo hi r ∪ covered lo hi ranges := by
  rw [← covered_cons]
  exact covered_congr fun x => by rw [mem_insertSorted zero, List.mem_cons]

theorem foldl_insertSorted
    (less : ∀ a b, cmp a b < 0 → lo a ≤ lo b) (greater : ∀ a b, ¬ cmp a b < 0 → lo b ≤ lo a)
    (valid : ∀ a : ρ, lo a ≤ hi a) {pieces ranges : List ρ} (order : Separated lo hi pieces)
    (separated : Separated lo hi ranges) (apart : ∀ p ∈ pieces, ∀ c ∈ ranges, Apart lo hi p c) :
    let result := pieces.foldl (fun ranges r => insertSorted cmp r ranges) ranges
    Separated lo hi result ∧ covered lo hi result = covered lo hi ranges ∪ covered lo hi pieces := by
  induction pieces generalizing ranges with
  | nil => exact ⟨separated, by simp⟩
  | cons p rest ih =>
    obtain ⟨head, tail⟩ := List.pairwise_cons.mp order
    have inserted := separated_insertSorted zero less greater valid separated (apart p (by simp))
    obtain ⟨sorted, union⟩ := ih tail inserted (by
      intro q inRest c member
      rcases (mem_insertSorted zero p c ranges).mp member with rfl | member
      · exact .inr (head q inRest)
      · exact apart q (by simp [inRest]) c member)
    refine ⟨sorted, union.trans ?_⟩
    rw [covered_insertSorted zero, covered_cons, Set.union_assoc, Set.union_left_comm]

end

end Amnezia.Lib.Intervals
