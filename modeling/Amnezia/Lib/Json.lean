import Mathlib.Data.Rat.Defs
import Mathlib.Tactic.Common

/-!
# JSON values

Objects are lists of members; the value of a key is that of its first member. Numbers are the rationals
that a double holds.
-/

namespace Amnezia.Lib

inductive Json where
  | null
  | bool (value : Bool)
  | number (value : Rat)
  | string (value : String)
  | array (items : List Json)
  | object (members : List (String × Json))

abbrev JsonObject := List (String × Json)

namespace Json

def isObject : Json → Bool
  | object _ => true
  | _ => false

def isArray : Json → Bool
  | array _ => true
  | _ => false

def isDouble : Json → Bool
  | number _ => true
  | _ => false

def isString : Json → Bool
  | string _ => true
  | _ => false

def isBool : Json → Bool
  | bool _ => true
  | _ => false

def toObject : Json → JsonObject
  | object members => members
  | _ => []

def toString (fallback : String) : Json → String
  | string value => value
  | _ => fallback

def toBool (fallback : Bool) : Json → Bool
  | bool value => value
  | _ => fallback

def toArray : Json → List Json
  | array items => items
  | _ => []

def toDouble (fallback : Rat) : Json → Rat
  | number value => value
  | _ => fallback

def toInt (fallback : Int) : Json → Int
  | number value =>
    if value.den = 1 ∧ -2147483648 ≤ value.num ∧ value.num ≤ 2147483647 then value.num else fallback
  | _ => fallback

mutual

def decideSame : (first second : Json) → Decidable (first = second)
  | .null, .null => isTrue rfl
  | .bool first, .bool second => decidable_of_iff (first = second) (by simp)
  | .number first, .number second => decidable_of_iff (first = second) (by simp)
  | .string first, .string second => decidable_of_iff (first = second) (by simp)
  | .array first, .array second =>
    match decideItems first second with
    | isTrue same => isTrue (same ▸ rfl)
    | isFalse differ => isFalse (fun equal => differ (by cases equal; rfl))
  | .object first, .object second =>
    match decideMembers first second with
    | isTrue same => isTrue (same ▸ rfl)
    | isFalse differ => isFalse (fun equal => differ (by cases equal; rfl))
  | .null, .bool _ | .null, .number _ | .null, .string _ | .null, .array _ | .null, .object _
  | .bool _, .null | .bool _, .number _ | .bool _, .string _ | .bool _, .array _ | .bool _, .object _
  | .number _, .null | .number _, .bool _ | .number _, .string _ | .number _, .array _
  | .number _, .object _ | .string _, .null | .string _, .bool _ | .string _, .number _
  | .string _, .array _ | .string _, .object _ | .array _, .null | .array _, .bool _
  | .array _, .number _ | .array _, .string _ | .array _, .object _ | .object _, .null
  | .object _, .bool _ | .object _, .number _ | .object _, .string _ | .object _, .array _ =>
    isFalse nofun

def decideItems : (first second : List Json) → Decidable (first = second)
  | [], [] => isTrue rfl
  | [], _ :: _ | _ :: _, [] => isFalse nofun
  | first :: firsts, second :: seconds =>
    match decideSame first second, decideItems firsts seconds with
    | isTrue head, isTrue tail => isTrue (by rw [head, tail])
    | isFalse differ, _ => isFalse (fun equal => differ (by cases equal; rfl))
    | _, isFalse differ => isFalse (fun equal => differ (by cases equal; rfl))

def decideMembers : (first second : List (String × Json)) → Decidable (first = second)
  | [], [] => isTrue rfl
  | [], _ :: _ | _ :: _, [] => isFalse nofun
  | (key, first) :: firsts, (other, second) :: seconds =>
    match decEq key other, decideSame first second, decideMembers firsts seconds with
    | isTrue key, isTrue head, isTrue tail => isTrue (by rw [key, head, tail])
    | isFalse differ, _, _ => isFalse (fun equal => differ (by cases equal; rfl))
    | _, isFalse differ, _ => isFalse (fun equal => differ (by cases equal; rfl))
    | _, _, isFalse differ => isFalse (fun equal => differ (by cases equal; rfl))

end

instance : DecidableEq Json := decideSame

end Json

namespace JsonObject

-- A missing value is like `null` for every question below.
def value (members : JsonObject) (key : String) : Json := (members.lookup key).getD .null

def contains (members : JsonObject) (key : String) : Bool := (members.lookup key).isSome

def hasOnly (members : JsonObject) (allowed : List String) : Bool :=
  members.all fun member => allowed.contains member.1

def text (members : JsonObject) (key : String) : String := (value members key).toString ""

-- The value that is there, for comparisons: a missing value is not `null`.
def find (members : JsonObject) (key : String) : Option Json := members.lookup key

def hasExactKeys (members : JsonObject) (keys : List String) : Bool :=
  hasOnly members keys && keys.all (contains members)

def object (members : JsonObject) (key : String) : JsonObject := (value members key).toObject

def insert : JsonObject → String → Json → JsonObject
  | [], key, value => [(key, value)]
  | (other, old) :: members, key, value =>
    if key = other then (key, value) :: members
    else if key < other then (key, value) :: (other, old) :: members
    else (other, old) :: insert members key value

def remove (members : JsonObject) (key : String) : JsonObject := members.filter (·.1 ≠ key)

variable {members : JsonObject} {key other : String} {value : Json}

theorem remove_eq_self :
    remove members key = members ↔ ∀ member ∈ members, member.1 ≠ key := by
  simp [remove, List.filter_eq_self]

variable {member : String × Json}

theorem mem_insert (inside : member ∈ insert members key value) : member = (key, value) ∨ member ∈ members := by
  induction members with
  | nil => exact .inl (List.mem_singleton.mp inside)
  | cons first members ih =>
    unfold insert at inside
    split at inside
    · exact (List.mem_cons.mp inside).imp_right (List.mem_cons_of_mem first)
    · split at inside
      · exact List.mem_cons.mp inside
      · rcases List.mem_cons.mp inside with here | later
        · exact .inr (here ▸ List.mem_cons_self)
        · exact (ih later).imp_right (List.mem_cons_of_mem first)

theorem mem_insert_self (members : JsonObject) (key : String) (value : Json) :
    (key, value) ∈ insert members key value := by
  induction members with
  | nil => exact List.mem_singleton_self _
  | cons first members ih =>
    unfold insert
    split
    · exact List.mem_cons_self
    · split
      · exact List.mem_cons_self
      · exact List.mem_cons_of_mem first ih

theorem contains_iff :
    contains members key = true ↔ ∃ value, (key, value) ∈ members := by
  induction members with
  | nil => exact ⟨nofun, nofun⟩
  | cons first members ih =>
    obtain ⟨other, old⟩ := first
    rw [contains, List.lookup_cons]
    by_cases same : key = other
    · subst same
      simp only [BEq.rfl, Option.isSome_some, true_iff]
      exact ⟨old, List.mem_cons_self⟩
    · rw [beq_false_of_ne same]
      refine ih.trans ⟨fun ⟨value, inside⟩ => ⟨value, List.mem_cons_of_mem _ inside⟩, fun ⟨value, inside⟩ => ?_⟩
      rcases List.mem_cons.mp inside with here | later
      · exact absurd (congrArg Prod.fst here) same
      · exact ⟨value, later⟩

theorem contains_cons :
    contains ((key, value) :: members) other = true ↔ other = key ∨ contains members other = true := by
  rw [contains_iff, contains_iff]
  simp only [List.mem_cons, Prod.mk.injEq, exists_or, exists_and_left, exists_eq, and_true]

theorem contains_insert :
    contains (insert members key value) other = true ↔ other = key ∨ contains members other = true := by
  induction members with
  | nil => exact contains_cons
  | cons first members ih =>
    obtain ⟨current, old⟩ := first
    unfold insert
    split
    · next same =>
      subst same
      rw [contains_cons, contains_cons]
      tauto
    split
    · rw [contains_cons]
    · rw [contains_cons, contains_cons, ih]
      tauto

theorem remove_insert (differ : key ≠ other)
    (missing : remove members other = members) :
    remove (insert members key value) other = insert members key value := by
  rw [remove_eq_self] at missing ⊢
  intro member inside
  rcases mem_insert inside with new | old
  · rw [new]
    exact differ
  · exact missing member old

def Ordered (members : JsonObject) : Prop := members.Pairwise fun first second => first.1 < second.1

theorem ordered_nil : Ordered [] := List.Pairwise.nil

theorem ordered_insert (ordered : Ordered members) :
    Ordered (insert members key value) := by
  induction members with
  | nil => exact List.pairwise_singleton _ _
  | cons first members ih =>
    obtain ⟨other, old⟩ := first
    obtain ⟨above, rest⟩ := List.pairwise_cons.mp ordered
    unfold insert
    split
    · next same => exact List.pairwise_cons.mpr ⟨fun member inside => same ▸ above member inside, rest⟩
    split
    · next less =>
      refine List.pairwise_cons.mpr ⟨fun member inside => ?_, ordered⟩
      rcases List.mem_cons.mp inside with rfl | later
      · exact less
      · exact String.lt_trans less (above member later)
    · next different notLess =>
      refine List.pairwise_cons.mpr ⟨fun member inside => ?_, ih rest⟩
      rcases mem_insert inside with rfl | earlier
      · refine Classical.byContradiction fun notAbove => different ?_
        exact String.le_antisymm (String.not_lt.mp notAbove) (String.not_lt.mp notLess)
      · exact above member earlier

theorem Ordered.find_iff (ordered : Ordered members) :
    find members key = some value ↔ (key, value) ∈ members := by
  induction members with
  | nil => exact ⟨nofun, nofun⟩
  | cons first members ih =>
    obtain ⟨other, old⟩ := first
    obtain ⟨above, rest⟩ := List.pairwise_cons.mp ordered
    rw [find, List.lookup_cons, List.mem_cons, Prod.mk.injEq]
    by_cases same : key = other
    · subst same
      have absent : (key, value) ∉ members := fun inside => String.lt_irrefl key (above _ inside)
      simp [absent, eq_comm]
    · have differ : (key == other) = false := beq_false_of_ne same
      rw [differ]
      simpa [same, find] using ih rest

theorem mem_insert_of_missing
    (missing : find members key = none) (inside : member ∈ members) : member ∈ insert members key value := by
  induction members with
  | nil => exact absurd inside List.not_mem_nil
  | cons first members ih =>
    obtain ⟨other, old⟩ := first
    rw [find, List.lookup_cons] at missing
    unfold insert
    split
    · next same =>
      subst same
      simp at missing
    split
    · exact List.mem_cons_of_mem _ inside
    · next different _ =>
      rw [beq_false_of_ne different] at missing
      rcases List.mem_cons.mp inside with here | later
      · exact here ▸ List.mem_cons_self
      · exact List.mem_cons_of_mem _ (ih missing later)

theorem Ordered.ext {first second : JsonObject} (left : Ordered first) (right : Ordered second)
    (same : ∀ member, member ∈ first ↔ member ∈ second) : first = second := by
  have distinct {members : JsonObject} (ordered : Ordered members) : members.Nodup := by
    apply List.Pairwise.imp _ ordered
    intro a b less same
    exact String.lt_irrefl a.1 (same ▸ less)
  refine List.Perm.eq_of_pairwise (fun a b _ _ less more => absurd more (String.lt_asymm less)) left right ?_
  exact (List.perm_ext_iff_of_nodup (distinct left) (distinct right)).mpr same

theorem find_insert (members : JsonObject) (key other : String) (value : Json) :
    find (insert members key value) other = if other = key then some value else find members other := by
  induction members with
  | nil =>
    rw [insert, find, List.lookup_cons]
    by_cases same : other = key
    · simp [same]
    · simp [same, beq_false_of_ne same, find]
  | cons first members ih =>
    obtain ⟨current, old⟩ := first
    unfold insert
    split
    · next here =>
      subst here
      simp only [find, List.lookup_cons]
      by_cases same : other = key
      · simp [same]
      · simp [same, beq_false_of_ne same]
    split
    · simp only [find, List.lookup_cons]
      by_cases same : other = key
      · simp [same]
      · simp [same, beq_false_of_ne same]
    · next different _ =>
      simp only [find, List.lookup_cons] at ih ⊢
      by_cases same : other = current
      · simp [same, Ne.symm different]
      · rw [beq_false_of_ne same]
        exact ih

def mapValues (change : String → Json → Json) (members : JsonObject) : JsonObject :=
  members.map fun member => (member.1, change member.1 member.2)

theorem mapValues_insert (change : String → Json → Json) (members : JsonObject) (key : String) (value : Json) :
    mapValues change (insert members key value) = insert (mapValues change members) key (change key value) := by
  induction members with
  | nil => rfl
  | cons first members ih =>
    obtain ⟨other, old⟩ := first
    simp only [insert, mapValues, List.map_cons] at ih ⊢
    split
    · rfl
    split
    · rfl
    · rw [List.map_cons, ih]

theorem find_mapValues (change : String → Json → Json) (members : JsonObject) (key : String) :
    find (mapValues change members) key = (find members key).map (change key) := by
  induction members with
  | nil => rfl
  | cons first members ih =>
    obtain ⟨other, old⟩ := first
    simp only [find, mapValues, List.map_cons, List.lookup_cons] at ih ⊢
    by_cases same : key = other
    · simp [same]
    · rw [beq_false_of_ne same]
      exact ih

end JsonObject

end Amnezia.Lib
