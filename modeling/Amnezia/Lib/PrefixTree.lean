import Amnezia.Lib.LongestPrefix
import Mathlib.Data.List.Nodup

/-! # Binary prefix trees and their compaction -/

namespace Amnezia.Lib.PrefixTree
open LongestPrefix LongestPrefix.Table

inductive BitTree (α : Type) where
  | nil
  | node (action : Option α) (left right : BitTree α)
deriving Repr, DecidableEq

variable {α : Type}

namespace BitTree

def action : BitTree α → Option α
  | nil => none
  | node action _ _ => action

def child : BitTree α → Bool → BitTree α
  | nil, _ => nil
  | node _ left _, false => left
  | node _ _ right, true => right

def put : BitTree α → Word → α → BitTree α
  | tree, [], value => node (some value) (tree.child false) (tree.child true)
  | tree, false :: rest, value => node tree.action ((tree.child false).put rest value) (tree.child true)
  | tree, true :: rest, value => node tree.action (tree.child false) ((tree.child true).put rest value)

def table : BitTree α → Table α
  | tree, [] => tree.action
  | tree, bit :: rest => (tree.child bit).table rest

def descend : BitTree α → Word → BitTree α
  | tree, [] => tree
  | tree, bit :: rest => (tree.child bit).descend rest

def Fits (tree : BitTree α) (width : Nat) : Prop :=
  ∀ word, tree.descend word ≠ nil → word.length ≤ width

theorem table_put (tree : BitTree α) (key : Word) (value : α) :
    (tree.put key value).table = tree.table.put key value := by
  funext word
  induction key generalizing tree word with
  | nil =>
    cases word with
    | nil => simp [put, table, Table.put, action]
    | cons bit rest => cases bit <;> simp [put, table, Table.put, child]
  | cons b key ih =>
    cases word with
    | nil => cases b <;> simp [put, table, Table.put, action]
    | cons bit rest =>
      have inner := ih (tree.child b) rest
      cases b <;> cases bit <;>
        simp_all [put, table, Table.put, child, Function.update_apply]

theorem below_table (tree : BitTree α) (bit : Bool) : tree.table.below bit = (tree.child bit).table := rfl

theorem descend_nil (word : Word) : (nil : BitTree α).descend word = nil := by
  induction word with
  | nil => rfl
  | cons bit rest ih => simpa [descend, child] using ih

theorem descend_put (tree : BitTree α) (key word : Word) (value : α) :
    (tree.put key value).descend word ≠ nil ↔ word <+: key ∨ tree.descend word ≠ nil := by
  induction key generalizing tree word with
  | nil =>
    cases word with
    | nil => simp [put, descend]
    | cons bit rest => cases bit <;> simp [put, descend, child]
  | cons b key ih =>
    cases word with
    | nil => cases b <;> simp [put, descend]
    | cons bit rest =>
      have inner := ih (tree.child b) rest
      cases b <;> cases bit <;> simp_all [put, descend, child]

def putAll (tree : BitTree α) (entries : List (Word × α)) : BitTree α :=
  entries.foldl (fun tree entry => tree.put entry.1 entry.2) tree

theorem table_putAll (tree : BitTree α) (entries : List (Word × α)) :
    (tree.putAll entries).table = entries.foldl (fun table entry => table.put entry.1 entry.2) tree.table := by
  induction entries generalizing tree with
  | nil => rfl
  | cons entry entries ih =>
    rw [List.foldl_cons, ← table_put]
    exact ih (tree.put entry.1 entry.2)

theorem descend_putAll (tree : BitTree α) (entries : List (Word × α)) (word : Word) :
    (tree.putAll entries).descend word ≠ nil ↔
      (∃ entry ∈ entries, word <+: entry.1) ∨ tree.descend word ≠ nil := by
  induction entries generalizing tree with
  | nil => simp [putAll]
  | cons entry entries ih =>
    have step := ih (tree.put entry.1 entry.2)
    rw [descend_put] at step
    rw [List.exists_mem_cons_iff, or_comm (a := word <+: entry.1), or_assoc]
    exact step

theorem table_lpm_cons (tree : BitTree α) (inherited : Option α) (bit : Bool) (rest : Word) :
    (tree.table.lpm (bit :: rest)).or inherited =
      ((tree.child bit).table.lpm rest).or (tree.action.or inherited) := by
  rw [lpm_cons, below_table, Option.or_assoc]
  rfl

theorem table_nil : (nil : BitTree α).table = empty := by
  funext word
  induction word with
  | nil => rfl
  | cons bit rest ih => exact ih

theorem table_root : (node none nil nil : BitTree α).table = empty := by
  funext word
  cases word with
  | nil => rfl
  | cons bit rest =>
    have inner := congrFun (table_nil (α := α)) rest
    cases bit <;> exact inner

theorem lpm_table_nil (word : Word) : (nil : BitTree α).table.lpm word = none := by
  rw [table_nil, lpm_empty]

def words : BitTree α → List Word
  | nil => []
  | node action left right =>
    (if action.isSome then [[]] else []) ++ left.words.map (false :: ·) ++ right.words.map (true :: ·)

theorem mem_words (tree : BitTree α) (word : Word) : word ∈ tree.words ↔ tree.table word ≠ none := by
  induction tree generalizing word with
  | nil =>
    rw [table_nil]
    simp [words, Table.empty]
  | node action left right leftIh rightIh =>
    cases word with
    | nil => cases action <;> simp [words, table, BitTree.action]
    | cons bit rest => cases bit <;> cases action <;> simp [words, table, child, leftIh, rightIh]

theorem words_nodup (tree : BitTree α) : tree.words.Nodup := by
  induction tree with
  | nil => exact .nil
  | node action left right leftIh rightIh =>
    have root : (if action.isSome then [([] : Word)] else []).Nodup := by split_ifs <;> simp
    refine (root.append (leftIh.map List.cons_injective) ?_).append (rightIh.map List.cons_injective) ?_
    · intro word here below
      obtain ⟨rest, -, rfl⟩ := List.mem_map.mp below
      split_ifs at here <;> simp at here
    · intro word here below
      obtain ⟨rest, -, rfl⟩ := List.mem_map.mp below
      rcases List.mem_append.mp here with here | here
      · split_ifs at here <;> simp at here
      · obtain ⟨other, -, equal⟩ := List.mem_map.mp here
        cases equal

theorem Fits.child {tree : BitTree α} {width : Nat} (fits : tree.Fits (width + 1)) (bit : Bool) :
    (tree.child bit).Fits width := by
  intro word present
  have := fits (bit :: word) present
  simpa using this

theorem Fits.child_nil {tree : BitTree α} (fits : tree.Fits 0) (bit : Bool) : tree.child bit = nil := by
  by_contra present
  have := fits [bit] present
  simp at this

end BitTree

def under (bit : Bool) (entries : List (Word × α)) : List (Word × α) :=
  entries.map fun entry => (bit :: entry.1, entry.2)

theorem ofEntries_under (bit other : Bool) (entries : List (Word × α)) (word : Word) :
    ofEntries (under bit entries) (other :: word) =
      if bit = other then ofEntries entries word else none := by
  induction entries with
  | nil => simp [under, ofEntries, empty]
  | cons entry entries ih =>
    have step : under bit (entry :: entries) = (bit :: entry.1, entry.2) :: under bit entries := rfl
    rw [step, ofEntries_cons, ih, ofEntries_cons]
    by_cases same : bit = other
    · simp [same]
    · simp [same, Ne.symm same]

theorem ofEntries_under_nil (bit : Bool) (entries : List (Word × α)) :
    ofEntries (under bit entries) [] = none := by
  apply Option.eq_none_iff_forall_ne_some.mpr
  intro value found
  have member := mem_of_ofEntries found
  simp [under] at member

theorem under_words (bit : Bool) (entries : List (Word × α)) :
    (under bit entries).map Prod.fst = (entries.map Prod.fst).map (bit :: ·) := by
  simp only [under, List.map_map, Function.comp_def]

variable {entries : List (Word × α)}

theorem cons_of_under {bit : Bool} {word : Word} (member : word ∈ (under bit entries).map Prod.fst) :
    ∃ rest ∈ entries.map Prod.fst, bit :: rest = word := by
  rw [under_words] at member
  exact List.mem_map.mp member

theorem lpm_leaf (action inherited : Option α) (word : Word) :
    ((BitTree.node action .nil .nil).table.lpm word).or inherited = action.or inherited := by
  cases word with
  | nil => rw [lpm_nil]; rfl
  | cons bit rest =>
    have child : (BitTree.node action .nil .nil).child bit = .nil := by cases bit <;> rfl
    rw [BitTree.table_lpm_cons, child, BitTree.lpm_table_nil]
    rfl

theorem BitTree.putAll_append (tree : BitTree α) (front back : List (Word × α)) :
    tree.putAll (front ++ back) = (tree.putAll front).putAll back := List.foldl_append

theorem BitTree.putAll_under_false (action : Option α) (left right : BitTree α) (entries : List (Word × α)) :
    (BitTree.node action left right).putAll (under false entries) = .node action (left.putAll entries) right := by
  induction entries generalizing left with
  | nil => rfl
  | cons entry entries ih => exact ih _

theorem BitTree.putAll_under_true (action : Option α) (left right : BitTree α) (entries : List (Word × α)) :
    (BitTree.node action left right).putAll (under true entries) = .node action left (right.putAll entries) := by
  induction entries generalizing right with
  | nil => rfl
  | cons entry entries ih => exact ih _

theorem BitTree.putAll_root (some : entries ≠ []) :
    (BitTree.node none .nil .nil).putAll entries = BitTree.nil.putAll entries := by
  cases entries with
  | nil => exact absurd rfl some
  | cons entry rest =>
    obtain ⟨word, value⟩ := entry
    have first : (BitTree.node none .nil .nil).put word value = BitTree.nil.put word value := by
      cases word with
      | nil => rfl
      | cons bit rest => cases bit <;> rfl
    exact congrArg (fun tree => BitTree.putAll tree rest) first

structure Reduced (α : Type) where
  mixed : Bool
  uniform : Option α
  entries : List (Word × α)

section Compaction
variable [DecidableEq α]

def own (action inherited : Option α) : List (Word × α) :=
  match action with
  | some value => if action ≠ inherited then [([], value)] else []
  | none => []

@[grind =] def compact : BitTree α → Option α → Reduced α
  | .nil, inherited => ⟨false, inherited, []⟩
  | .node action left right, inherited =>
    if left = .nil ∧ right = .nil then ⟨false, action.or inherited, own (action.or inherited) inherited⟩
    else
      let leftReduced := compact left (action.or inherited)
      let rightReduced := compact right (action.or inherited)
      if !leftReduced.mixed && !rightReduced.mixed && leftReduced.uniform == rightReduced.uniform then
        ⟨false, leftReduced.uniform, own leftReduced.uniform inherited⟩
      else
        ⟨true, none, own (action.or inherited) inherited ++ under false leftReduced.entries ++
          under true rightReduced.entries⟩

theorem own_cases (action inherited : Option α) (covers : action = none → inherited = none) :
    (own action inherited = [] ∧ action = inherited) ∨
      ∃ value, action = some value ∧ own action inherited = [([], value)] := by
  cases action with
  | none => exact .inl ⟨rfl, (covers rfl).symm⟩
  | some value =>
    by_cases same : some value = inherited
    · exact .inl ⟨by simp [own, same], same⟩
    · exact .inr ⟨value, rfl, by simp [own, same]⟩

theorem lpm_own (action inherited : Option α) (word : Word) (covers : action = none → inherited = none) :
    ((ofEntries (own action inherited)).lpm word).or inherited = action := by
  rcases own_cases action inherited covers with ⟨nothing, same⟩ | ⟨value, rfl, entry⟩
  · rw [nothing, same]
    exact congrArg (Option.or · inherited) (lpm_empty word)
  · have root : (ofEntries [(([] : Word), value)]).lpm word = some value := by
      cases word with
      | nil => rw [lpm_nil]; simp [ofEntries, Table.put]
      | cons bit rest =>
        have below : (ofEntries [(([] : Word), value)]).below bit = empty := below_put_nil _ _ _
        rw [lpm_cons, below, lpm_empty]
        simp [ofEntries, Table.put]
    rw [entry, root, Option.some_or]

theorem lpm_split (action inherited : Option α) (left right : List (Word × α)) (bit : Bool)
    (rest : Word) (covers : action = none → inherited = none) :
    ((ofEntries (own action inherited ++ under false left ++ under true right)).lpm (bit :: rest)).or
        inherited =
      ((ofEntries (if bit then right else left)).lpm rest).or action := by
  have ownBelow (word : Word) : ofEntries (own action inherited) (bit :: word) = none := by
    rcases own_cases action inherited covers with ⟨nothing, -⟩ | ⟨value, -, entry⟩
    · rw [nothing]; rfl
    · rw [entry]; simp [ofEntries, Table.put, empty]
  have below : (ofEntries (own action inherited ++ under false left ++ under true right)).below bit =
      ofEntries (if bit then right else left) := by
    funext word
    rw [Table.below, ofEntries_append, ofEntries_append, ownBelow, ofEntries_under, ofEntries_under]
    cases bit <;> simp
  have here : ofEntries (own action inherited ++ under false left ++ under true right) [] =
      ofEntries (own action inherited) [] := by
    rw [ofEntries_append, ofEntries_append, ofEntries_under_nil, ofEntries_under_nil]
    simp
  have root := lpm_own action inherited [] covers
  rw [lpm_nil] at root
  rw [lpm_cons, below, here, Option.or_assoc, root]

structure CompactSpec (tree : BitTree α) (inherited : Option α) (reduced : Reduced α) : Prop where
  same : ∀ word, tree.Fits word.length →
    ((ofEntries reduced.entries).lpm word).or inherited = (tree.table.lpm word).or inherited
  uniform : reduced.mixed = false → ∀ word, tree.Fits word.length →
    (tree.table.lpm word).or inherited = reduced.uniform
  covers : reduced.mixed = false → reduced.uniform = none → inherited = none

theorem compact_spec (tree : BitTree α) (inherited : Option α) :
    CompactSpec tree inherited (compact tree inherited) := by
  induction tree generalizing inherited with
  | nil =>
    refine ⟨fun word _ => ?_, fun _ word _ => ?_, fun _ => id⟩
    · rw [BitTree.lpm_table_nil]
      exact congrArg (Option.or · inherited) (lpm_empty word)
    · rw [BitTree.lpm_table_nil]
      rfl
  | node action left right leftIh rightIh =>
    have covers (missing : action.or inherited = none) : inherited = none :=
      (Option.or_eq_none_iff.mp missing).2
    have leftSpec := leftIh (action.or inherited)
    have rightSpec := rightIh (action.or inherited)
    -- A word is at least one bit longer than an inner node, so the match is decided in a child.
    have inner (leaf : ¬ (left = .nil ∧ right = .nil)) (word : Word)
        (fits : (BitTree.node action left right).Fits word.length) :
        ∃ bit rest, word = bit :: rest ∧ left.Fits rest.length ∧ right.Fits rest.length := by
      cases word with
      | nil => exact absurd ⟨fits.child_nil false, fits.child_nil true⟩ leaf
      | cons bit rest => exact ⟨bit, rest, rfl, fits.child false, fits.child true⟩
    rw [compact]
    split_ifs with leaf
    · obtain ⟨rfl, rfl⟩ := leaf
      refine ⟨fun word _ => ?_, fun _ word _ => lpm_leaf action inherited word, fun _ => covers⟩
      rw [lpm_own _ _ _ covers, lpm_leaf]
    · extract_lets leftReduced rightReduced
      split_ifs with merged
      · simp only [Bool.and_eq_true, Bool.not_eq_true', beq_iff_eq] at merged
        obtain ⟨⟨leftPure, rightPure⟩, equal⟩ := merged
        have covers' (missing : leftReduced.uniform = none) : inherited = none :=
          covers (leftSpec.covers leftPure missing)
        have all (word : Word) (fits : (BitTree.node action left right).Fits word.length) :
            ((BitTree.node action left right).table.lpm word).or inherited = leftReduced.uniform := by
          obtain ⟨bit, rest, rfl, leftFits, rightFits⟩ := inner leaf word fits
          rw [BitTree.table_lpm_cons]
          cases bit with
          | false => exact leftSpec.uniform leftPure rest leftFits
          | true => exact (rightSpec.uniform rightPure rest rightFits).trans equal.symm
        exact ⟨fun word fits => (lpm_own _ _ word covers').trans (all word fits).symm,
          fun _ => all, fun _ => covers'⟩
      · refine ⟨fun word fits => ?_, nofun, nofun⟩
        obtain ⟨bit, rest, rfl, leftFits, rightFits⟩ := inner leaf word fits
        rw [lpm_split _ _ _ _ _ _ covers, BitTree.table_lpm_cons]
        cases bit with
        | false => exact leftSpec.same rest leftFits
        | true => exact rightSpec.same rest rightFits

theorem own_words (action inherited : Option α) :
    (own action inherited).map Prod.fst = [] ∨ (own action inherited).map Prod.fst = [[]] := by
  unfold own
  split
  · split_ifs <;> simp
  · exact .inl rfl

variable {action inherited : Option α} {tree : BitTree α}

theorem eq_nil_of_own {word : Word}
    (member : word ∈ (own action inherited).map Prod.fst) : word = [] := by
  rcases own_words action inherited with words | words <;> rw [words] at member
  · cases member
  · exact List.mem_singleton.mp member

theorem compact_distinct (tree : BitTree α) (inherited : Option α) :
    ((compact tree inherited).entries.map Prod.fst).Nodup := by
  have ownDistinct (action inherited : Option α) : ((own action inherited).map Prod.fst).Nodup := by
    rcases own_words action inherited with words | words <;> rw [words] <;> simp
  have underDistinct (bit : Bool) {entries : List (Word × α)} (distinct : (entries.map Prod.fst).Nodup) :
      ((under bit entries).map Prod.fst).Nodup := by
    rw [under_words]
    exact distinct.map List.cons_injective
  induction tree generalizing inherited with
  | nil => exact .nil
  | node action left right leftIh rightIh =>
    rw [compact]
    split_ifs
    · exact ownDistinct _ _
    · dsimp only
      split_ifs
      · exact ownDistinct _ _
      · rw [List.map_append, List.map_append]
        refine (List.Nodup.append (ownDistinct _ _) (underDistinct false (leftIh _)) ?_).append
          (underDistinct true (rightIh _)) ?_
        · intro word here below
          obtain ⟨rest, -, rfl⟩ := cons_of_under below
          cases eq_nil_of_own here
        · intro word here below
          obtain ⟨rest, -, rfl⟩ := cons_of_under below
          rcases List.mem_append.mp here with here | here
          · cases eq_nil_of_own here
          · obtain ⟨other, -, equal⟩ := cons_of_under here
            cases equal

theorem own_eq_nil (same : action = inherited ∨ action = none) :
    own action inherited = [] := by
  rcases same with rfl | rfl
  · cases action <;> simp [own]
  · rfl

theorem length_own_le (action inherited : Option α) : (own action inherited).length ≤ 1 := by
  unfold own
  split
  · split_ifs <;> simp
  · simp

theorem compact_of_no_words (nothing : tree.words = []) (inherited : Option α) :
    compact tree inherited = ⟨false, inherited, []⟩ := by
  induction tree with
  | nil => rfl
  | node action left right leftIh rightIh =>
    rw [BitTree.words, List.append_eq_nil_iff, List.append_eq_nil_iff, List.map_eq_nil_iff,
      List.map_eq_nil_iff] at nothing
    obtain ⟨⟨root, leftNothing⟩, rightNothing⟩ := nothing
    have missing : action = none := by
      cases action with
      | none => rfl
      | some value => cases root
    subst missing
    rw [compact]
    split_ifs with leaf
    · simp [own_eq_nil]
    · simp [leftIh leftNothing, rightIh rightNothing, own_eq_nil]

theorem length_compact_le (tree : BitTree α) (inherited : Option α) :
    (compact tree inherited).entries.length ≤ tree.words.length := by
  induction tree generalizing inherited with
  | nil => exact Nat.le_refl 0
  | node action left right leftIh rightIh =>
    by_cases nothing : (BitTree.node action left right).words = []
    · rw [compact_of_no_words nothing]
      exact Nat.zero_le _
    · have some : 1 ≤ (BitTree.node action left right).words.length := List.length_pos_iff.mpr nothing
      rw [compact]
      split_ifs
      · exact Nat.le_trans (length_own_le _ _) some
      · dsimp only
        split_ifs
        · exact Nat.le_trans (length_own_le _ _) some
        · have leftBound := leftIh (action.or inherited)
          have rightBound := rightIh (action.or inherited)
          have ownBound : (own (action.or inherited) inherited).length ≤
              (if action.isSome then [([] : Word)] else []).length := by
            cases action with
            | none => simp [own_eq_nil]
            | some value => exact length_own_le _ _
          simp only [BitTree.words, under, List.length_append, List.length_map]
          omega

theorem compact_root (entries : List (Word × α)) (inherited : Option α) :
    compact ((BitTree.node none .nil .nil).putAll entries) inherited =
      compact (BitTree.nil.putAll entries) inherited := by
  by_cases nothing : entries = []
  · subst nothing
    simp [BitTree.putAll, compact, own_eq_nil]
  · rw [BitTree.putAll_root nothing]

theorem entries_of_uniform (pure : (compact tree inherited).mixed = false) :
    (compact tree inherited).entries = own (compact tree inherited).uniform inherited := by
  cases tree with
  | nil => exact (own_eq_nil (.inl rfl)).symm
  | node action left right =>
    rw [compact] at pure ⊢
    split_ifs at pure ⊢
    · rfl
    · dsimp only at pure ⊢
      split_ifs at pure ⊢
      rfl

theorem uniform_of_no_entries
    (pure : (compact tree inherited).mixed = false) (nothing : (compact tree inherited).entries = []) :
    (compact tree inherited).uniform = inherited := by
  rw [entries_of_uniform pure] at nothing
  rcases own_cases _ inherited ((compact_spec tree inherited).covers pure) with ⟨-, same⟩ | ⟨value, -, entry⟩
  · exact same
  · rw [nothing] at entry
    cases entry

theorem entries_of_mixed
    (mixed : (compact tree inherited).mixed = true) : (compact tree inherited).entries ≠ [] := by
  induction tree generalizing inherited with
  | nil => cases mixed
  | node action left right leftIh rightIh =>
    rw [compact] at mixed ⊢
    split_ifs at mixed ⊢ with leaf
    dsimp only at mixed ⊢
    split_ifs at mixed ⊢ with merged
    intro nothing
    rw [List.append_eq_nil_iff, List.append_eq_nil_iff, under, under, List.map_eq_nil_iff,
      List.map_eq_nil_iff] at nothing
    have leftPure := Bool.eq_false_iff.mpr fun mixed => leftIh mixed nothing.1.2
    have rightPure := Bool.eq_false_iff.mpr fun mixed => rightIh mixed nothing.2
    apply merged
    rw [leftPure, rightPure, uniform_of_no_entries leftPure nothing.1.2, uniform_of_no_entries rightPure nothing.2]
    simp

theorem compact_putAll_own (covers : action = none → inherited = none) :
    compact (BitTree.nil.putAll (own action inherited)) inherited = ⟨false, action, own action inherited⟩ := by
  rcases own_cases action inherited covers with ⟨nothing, rfl⟩ | ⟨value, rfl, entry⟩
  · rw [nothing]
    rfl
  · rw [entry]
    have leaf : BitTree.nil.putAll [(([] : Word), value)] = .node (some value) .nil .nil := rfl
    rw [leaf, compact]
    simp [entry]

theorem putAll_own (covers : action = none → inherited = none) :
    ∃ kept : Option α, (BitTree.node none .nil .nil).putAll (own action inherited) = .node kept .nil .nil ∧
      kept.or inherited = action := by
  rcases own_cases action inherited covers with ⟨nothing, rfl⟩ | ⟨value, rfl, entry⟩
  · exact ⟨none, by rw [nothing]; rfl, rfl⟩
  · exact ⟨some value, by rw [entry]; rfl, rfl⟩

theorem compact_rebuild (tree : BitTree α) (inherited : Option α) :
    compact (BitTree.nil.putAll (compact tree inherited).entries) inherited = compact tree inherited := by
  induction tree generalizing inherited with
  | nil => rfl
  | node action left right leftIh rightIh =>
    cases mixed : (compact (BitTree.node action left right) inherited).mixed with
    | false =>
      have covers := (compact_spec _ _).covers mixed
      rw [entries_of_uniform mixed, compact_putAll_own covers, ← entries_of_uniform mixed, ← mixed]
    | true =>
      have filled := entries_of_mixed mixed
      rw [compact] at mixed filled ⊢
      split_ifs at mixed filled ⊢ with leaf
      dsimp only at mixed filled ⊢
      split_ifs at mixed filled ⊢ with merged
      have covers (missing : action.or inherited = none) : inherited = none :=
        (Option.or_eq_none_iff.mp missing).2
      obtain ⟨kept, root, same⟩ := putAll_own covers
      rw [← BitTree.putAll_root filled, BitTree.putAll_append, BitTree.putAll_append, root,
        BitTree.putAll_under_false, BitTree.putAll_under_true, compact, same, leftIh, rightIh]
      have inner : ¬(BitTree.nil.putAll (compact left (action.or inherited)).entries = .nil ∧
          BitTree.nil.putAll (compact right (action.or inherited)).entries = .nil) := by
        rintro ⟨leftNil, rightNil⟩
        have leftSame := leftIh (action.or inherited)
        have rightSame := rightIh (action.or inherited)
        rw [leftNil] at leftSame
        rw [rightNil] at rightSame
        exact merged (by rw [← leftSame, ← rightSame]; simp [compact])
      rw [if_neg inner]
      dsimp only
      rw [if_neg merged]

end Compaction

end Amnezia.Lib.PrefixTree
