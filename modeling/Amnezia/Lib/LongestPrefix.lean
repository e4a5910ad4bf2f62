import Mathlib.Data.List.Infix
import Mathlib.Logic.Function.Basic
import Mathlib.Tactic.Common

/-! # Longest-prefix match over bit words -/

namespace Amnezia.Lib.LongestPrefix

abbrev Word := List Bool

abbrev Table (α : Type) := Word → Option α

variable {α : Type}

namespace Table

def empty : Table α := fun _ => none

def below (table : Table α) (bit : Bool) : Table α := fun word => table (bit :: word)

def put (table : Table α) (word : Word) (value : α) : Table α :=
  Function.update table word (some value)

def matched (table : Table α) : Word → Option (Nat × α)
  | [] => (table []).map (0, ·)
  | bit :: rest =>
    (((table.below bit).matched rest).map fun found => (found.1 + 1, found.2)).or
      ((table []).map (0, ·))

def lpm (table : Table α) (word : Word) : Option α := (table.matched word).map Prod.snd

def ofEntries (entries : List (Word × α)) : Table α :=
  entries.foldl (fun table entry => table.put entry.1 entry.2) empty

section

variable (table : Table α)
include table

theorem lpm_nil : table.lpm [] = table [] := by
  simp [lpm, matched, Function.comp_def]

theorem lpm_cons (bit : Bool) (rest : Word) :
    table.lpm (bit :: rest) = ((table.below bit).lpm rest).or (table []) := by
  simp [lpm, matched, Option.map_or, Function.comp_def]

theorem below_put_nil (value : α) (bit : Bool) : (table.put [] value).below bit = table.below bit := by
  funext word
  simp [below, put]

theorem below_put_cons (b bit : Bool) (word : Word) (value : α) : (table.put (b :: word) value).below bit =
      if b = bit then (table.below bit).put word value else table.below bit := by
  funext other
  cases b <;> cases bit <;> simp [below, put, Function.update_apply]

theorem matched_put (key word : Word) (value : α) : (table.put key value).matched word =
      if key <+: word ∧ ∀ found ∈ table.matched word, found.1 ≤ key.length then
        some (key.length, value)
      else table.matched word := by
  induction word generalizing table key with
  | nil =>
    cases key with
    | nil => simp [matched, put]
    | cons b key => simp [matched, put]
  | cons bit rest ih =>
    cases key with
    | nil =>
      rw [matched, below_put_nil, matched]
      cases deeper : (table.below bit).matched rest with
      | none => simp [put]
      | some found => simp
    | cons b key =>
      rw [matched, below_put_cons, matched]
      have root : table.put (b :: key) value [] = table [] := by simp [put]
      rw [root]
      by_cases same : b = bit
      · subst same
        rw [if_pos rfl, ih]
        cases deeper : (table.below b).matched rest with
        | none =>
            by_cases pre : key <+: rest
            · simp [pre]
            · simp [pre]
        | some found =>
          by_cases pre : key <+: rest ∧ found.1 ≤ key.length
          · simp [pre]
          · simp [pre]
      · rw [if_neg same]
        simp [same]

end

theorem ofEntries_append_singleton (entries : List (Word × α)) (entry : Word × α) :
    ofEntries (entries ++ [entry]) = (ofEntries entries).put entry.1 entry.2 := by
  simp [ofEntries]

theorem matched_empty (word : Word) : (empty : Table α).matched word = none := by
  induction word with
  | nil => rfl
  | cons bit rest ih =>
    have same : (empty : Table α).below bit = empty := rfl
    rw [matched, same, ih]
    rfl

theorem lpm_empty (word : Word) : (empty : Table α).lpm word = none := by
  rw [lpm, matched_empty, Option.map_none]

theorem foldl_put (entries : List (Word × α)) (table : Table α) (word : Word) :
    entries.foldl (fun table entry => table.put entry.1 entry.2) table word =
      (ofEntries entries word).or (table word) := by
  induction entries using List.reverseRecOn with
  | nil => simp [ofEntries, empty]
  | append_singleton front entry ih =>
    rw [ofEntries_append_singleton, List.foldl_append]
    by_cases same : word = entry.1
    · simp [put, same]
    · simpa [put, same] using ih

theorem ofEntries_append (front back : List (Word × α)) (word : Word) :
    ofEntries (front ++ back) word = (ofEntries back word).or (ofEntries front word) := by
  rw [ofEntries, List.foldl_append, foldl_put]
  rfl

theorem ofEntries_cons (entry : Word × α) (entries : List (Word × α)) (word : Word) :
    ofEntries (entry :: entries) word =
      (ofEntries entries word).or (if word = entry.1 then some entry.2 else none) := by
  have split := ofEntries_append [entry] entries word
  simpa [ofEntries, empty, put, Function.update_apply] using split

variable {entries : List (Word × α)}

theorem mem_of_ofEntries {word : Word} {value : α}
    (found : ofEntries entries word = some value) : (word, value) ∈ entries := by
  induction entries with
  | nil => cases found
  | cons entry entries ih =>
    rw [ofEntries_cons, Option.or_eq_some_iff] at found
    rcases found with found | ⟨-, found⟩
    · exact List.mem_cons_of_mem _ (ih found)
    · split at found
      · rename_i same
        cases found
        simp [same]
      · cases found

theorem ofEntries_eq_some_iff (distinct : (entries.map Prod.fst).Nodup)
    (word : Word) (value : α) : ofEntries entries word = some value ↔ (word, value) ∈ entries := by
  refine ⟨mem_of_ofEntries, fun member => ?_⟩
  induction entries with
  | nil => cases member
  | cons entry entries ih =>
    obtain ⟨fresh, distinct⟩ := List.nodup_cons.mp distinct
    rw [ofEntries_cons]
    rcases List.mem_cons.mp member with same | member
    · have absent : ofEntries entries word = none := by
        apply Option.eq_none_iff_forall_ne_some.mpr
        intro other found
        apply fresh
        rw [← same]
        exact List.mem_map.mpr ⟨(word, other), mem_of_ofEntries found, rfl⟩
      rw [absent, ← same, if_pos rfl, Option.none_or]
    · rw [ih distinct member, Option.some_or]

theorem ofEntries_perm {other : List (Word × α)} (distinct : (entries.map Prod.fst).Nodup)
    (perm : other.Perm entries) : ofEntries other = ofEntries entries := by
  funext word
  apply Option.ext
  intro value
  rw [ofEntries_eq_some_iff distinct, ofEntries_eq_some_iff ((perm.map _).nodup_iff.mpr distinct),
    perm.mem_iff]

end Table

end Amnezia.Lib.LongestPrefix
