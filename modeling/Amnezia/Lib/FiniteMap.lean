import Mathlib.Data.List.AList

/-! # Finite maps with a size -/

namespace Amnezia.Lib

abbrev FiniteMap (κ ν : Type) := AList fun _ : κ => ν

namespace FiniteMap

variable {κ ν : Type}

def size (map : FiniteMap κ ν) : Nat := map.entries.length

def filter (keep : κ → ν → Bool) (map : FiniteMap κ ν) : FiniteMap κ ν :=
  ⟨map.entries.filter fun entry => keep entry.1 entry.2,
    map.nodupKeys.sublist List.filter_sublist⟩

theorem size_filter_le (keep : κ → ν → Bool) (map : FiniteMap κ ν) : size (filter keep map) ≤ size map :=
  List.length_filter_le _ _

variable [DecidableEq κ]

theorem lookup_filter (keep : κ → ν → Bool) (map : FiniteMap κ ν) (key : κ) (value : ν) :
    (filter keep map).lookup key = some value ↔ map.lookup key = some value ∧ keep key value = true := by
  rw [← Option.mem_def, ← Option.mem_def, AList.mem_lookup_iff, AList.mem_lookup_iff]
  simp [filter]

variable {map : FiniteMap κ ν}

theorem size_insert_of_mem {key : κ} (present : key ∈ map) (value : ν) :
    size (map.insert key value) = size map := by
  have keys := congrArg List.length (AList.keys_insert (b := value) map (a := key))
  have := List.length_erase_add_one (AList.mem_keys.mp present)
  simp only [AList.keys, List.keys, List.length_map, List.length_cons, size] at *
  omega

theorem size_insert_of_notMem {key : κ} (absent : key ∉ map) (value : ν) :
    size (map.insert key value) = size map + 1 := by
  rw [size, AList.entries_insert_of_notMem absent, List.length_cons, size]

theorem size_erase_le (map : FiniteMap κ ν) (key : κ) : size (map.erase key) ≤ size map :=
  (List.kerase_sublist key map.entries).length_le

theorem exists_lookup_of_size_pos (positive : 0 < size map) :
    ∃ key value, map.lookup key = some value := by
  obtain ⟨entry, member⟩ := List.exists_mem_of_length_pos positive
  exact ⟨entry.1, entry.2, AList.mem_lookup_iff.mpr member⟩

variable {keep : κ → ν → Bool}

theorem filter_eq_self
    (all : ∀ key value, map.lookup key = some value → keep key value = true) : filter keep map = map := by
  apply AList.ext
  apply List.filter_eq_self.mpr
  intro entry member
  exact all entry.1 entry.2 (AList.mem_lookup_iff.mpr member)

theorem filter_eq_empty
    (none : ∀ key value, map.lookup key = some value → keep key value = false) : filter keep map = ∅ := by
  apply AList.ext
  apply List.filter_eq_nil_iff.mpr
  intro entry member
  rw [none entry.1 entry.2 (AList.mem_lookup_iff.mpr member)]
  exact Bool.false_ne_true

end FiniteMap

end Amnezia.Lib
