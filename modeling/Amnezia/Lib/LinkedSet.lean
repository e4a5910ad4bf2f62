import Mathlib.Data.List.Nodup

/-! # Sets that keep insertion order -/

namespace Amnezia.Lib.LinkedSet

variable {α : Type} [DecidableEq α]

def insertLast (set : List α) (a : α) : List α := if a ∈ set then set else set ++ [a]

def addAll (set items : List α) : List α := items.foldl insertLast set

def toSet (items : List α) : List α := addAll [] items

theorem mem_insertLast (set : List α) (a b : α) : b ∈ insertLast set a ↔ b ∈ set ∨ b = a := by
  unfold insertLast
  split_ifs with present
  · constructor
    · exact .inl
    · rintro (member | rfl)
      · exact member
      · exact present
  · simp

theorem nodup_insertLast {set : List α} (nodup : set.Nodup) (a : α) : (insertLast set a).Nodup := by
  unfold insertLast
  split_ifs with present
  · exact nodup
  · exact List.nodup_append.mpr ⟨nodup, List.nodup_singleton a, by
      rintro b inside c single rfl
      exact present (List.mem_singleton.mp single ▸ inside)⟩

theorem mem_addAll (set items : List α) (b : α) : b ∈ addAll set items ↔ b ∈ set ∨ b ∈ items := by
  induction items generalizing set with
  | nil => simp [addAll]
  | cons a items ih =>
    rw [addAll, List.foldl_cons, ← addAll, ih, mem_insertLast, List.mem_cons, or_assoc]

theorem nodup_addAll {set : List α} (nodup : set.Nodup) (items : List α) : (addAll set items).Nodup := by
  induction items generalizing set with
  | nil => exact nodup
  | cons a items ih => exact ih (nodup_insertLast nodup a)

theorem addAll_of_nodup (set items : List α) (nodup : (set ++ items).Nodup) :
    addAll set items = set ++ items := by
  induction items generalizing set with
  | nil => simp [addAll]
  | cons a items ih =>
    have absent : a ∉ set := fun present =>
      (List.nodup_append.mp nodup).2.2 a present a (by simp) rfl
    rw [addAll, List.foldl_cons, ← addAll, insertLast, if_neg absent,
      ih _ (by simpa using nodup), List.append_assoc, List.singleton_append]

theorem toSet_of_nodup {items : List α} (nodup : items.Nodup) : toSet items = items := by
  simpa [toSet] using addAll_of_nodup [] items nodup

theorem mem_toSet (items : List α) (b : α) : b ∈ toSet items ↔ b ∈ items := by
  simp [toSet, mem_addAll]

end Amnezia.Lib.LinkedSet
