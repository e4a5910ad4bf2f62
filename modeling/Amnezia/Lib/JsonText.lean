import Amnezia.Lib.Json

/-! # JSON texts -/

namespace Amnezia.Lib.JsonText

abbrev Bytes := List UInt8

def openObject : UInt8 := 0x7B
def closeObject : UInt8 := 0x7D
def openArray : UInt8 := 0x5B
def closeArray : UInt8 := 0x5D
def colon : UInt8 := 0x3A
def comma : UInt8 := 0x2C
def quote : UInt8 := 0x22
def backslash : UInt8 := 0x5C

def isBlank (byte : UInt8) : Bool := byte ∈ [0x20, 0x0A, 0x09, 0x0D]

def isStructural (byte : UInt8) : Bool :=
  byte ∈ [openObject, closeObject, openArray, closeArray, colon, comma]

def trueText : Bytes := [0x74, 0x72, 0x75, 0x65]
def falseText : Bytes := [0x66, 0x61, 0x6C, 0x73, 0x65]
def nullText : Bytes := [0x6E, 0x75, 0x6C, 0x6C]

def isNumberByte (byte : UInt8) : Bool :=
  (0x30 ≤ byte && byte ≤ 0x39) || byte ∈ [0x2B, 0x2D, 0x2E, 0x45, 0x65]

-- What stands before the closing quote, which ends the text. A backslash takes the next byte with it.
def unquote : Bytes → Option Bytes
  | [] => none
  | [byte] => if byte = quote then some [] else none
  | byte :: next :: rest =>
    if byte = backslash then (unquote rest).map fun body => byte :: next :: body
    else if byte = quote then none
    else (unquote (next :: rest)).map (byte :: ·)

/-- What a string and a number stand for, if they are well formed. -/
structure Reader where
  string : Bytes → Option String
  number : Bytes → Option Rat

namespace Reader

variable (reader : Reader)

def key : Bytes → Option String
  | [] => none
  | byte :: rest => if byte = quote then (unquote rest).bind reader.string else none

def scalar (text : Bytes) : Option Json :=
  if text = nullText then some .null
  else if text = trueText then some (.bool true)
  else if text = falseText then some (.bool false)
  else
    match reader.key text with
    | some string => some (.string string)
    | none => if text ≠ [] ∧ text.all isNumberByte then (reader.number text).map .number else none

end Reader

mutual

inductive Tree where
  | scalar (text : Bytes)
  | array (items : Items)
  | object (members : Members)

inductive Items where
  | nil
  | cons (item : Tree) (items : Items)

inductive Members where
  | nil
  | cons (key : Bytes) (value : Tree) (members : Members)

end

mutual

def Tree.tokens : Tree → List Bytes
  | .scalar text => [text]
  | .array items => [openArray] :: items.tokens
  | .object members => [openObject] :: members.tokens

def Items.tokens : Items → List Bytes
  | .nil => [[closeArray]]
  | .cons item items => item.tokens ++ items.more

def Items.more : Items → List Bytes
  | .nil => [[closeArray]]
  | .cons item items => [comma] :: (item.tokens ++ items.more)

def Members.tokens : Members → List Bytes
  | .nil => [[closeObject]]
  | .cons key value members => key :: [colon] :: (value.tokens ++ members.more)

def Members.more : Members → List Bytes
  | .nil => [[closeObject]]
  | .cons key value members => [comma] :: key :: [colon] :: (value.tokens ++ members.more)

end

variable (reader : Reader)

-- The members of an object in the order of their keys; the last of equal keys counts.
def collect (members : List (String × Json)) : JsonObject :=
  members.foldl (fun object member => object.insert member.1 member.2) []

theorem collect_mapValues (change : String → Json → Json) (members : JsonObject) :
    collect (members.mapValues change) = (collect members).mapValues change := by
  have fold (start : JsonObject) :
      (members.mapValues change).foldl (fun object member => object.insert member.1 member.2)
          (start.mapValues change) =
        (members.foldl (fun object member => object.insert member.1 member.2) start).mapValues change := by
    induction members generalizing start with
    | nil => rfl
    | cons member members ih =>
      rw [List.foldl_cons, ← ih, JsonObject.mapValues_insert]
      rfl
  exact fold []

theorem find_collect {members : List (String × Json)} (distinct : (members.map Prod.fst).Nodup)
    (key : String) : (collect members).find key = members.lookup key := by
  have fold (start : JsonObject) :
      (members.foldl (fun object member => object.insert member.1 member.2) start).find key =
        (members.lookup key).or (start.find key) := by
    induction members generalizing start with
    | nil => rfl
    | cons member members ih =>
      obtain ⟨name, value⟩ := member
      obtain ⟨new, others⟩ := List.nodup_cons.mp distinct
      rw [List.foldl_cons, ih others, JsonObject.find_insert, List.lookup_cons]
      by_cases same : key = name
      · have missing : members.lookup key = none := by
          rw [List.lookup_eq_none_iff]
          intro other inside
          exact bne_iff_ne.mpr fun equal => new (List.mem_map.mpr ⟨other, inside, equal ▸ same⟩)
        rw [if_pos same, missing, same, BEq.rfl]
        rfl
      · rw [if_neg same, beq_false_of_ne same]
  rw [collect, fold, JsonObject.find, List.lookup_nil, Option.or_none]

mutual

def Tree.value : Tree → Option Json
  | .scalar text => reader.scalar text
  | .array items => items.values.map .array
  | .object members => members.values.map fun members => .object (collect members)

def Items.values : Items → Option (List Json)
  | .nil => some []
  | .cons item items => do
      let value ← item.value
      let values ← items.values
      return value :: values

def Members.values : Members → Option (List (String × Json))
  | .nil => some []
  | .cons key value members => do
      let key ← reader.key key
      let value ← value.value
      let values ← members.values
      return (key, value) :: values

end

section Inversion

variable {reader}

theorem Items.values_cons {item : Tree} {items : Items} {values : List Json}
    (read : (Items.cons item items).values reader = some values) :
    ∃ value, item.value reader = some value ∧ ∃ others, items.values reader = some others ∧
      values = value :: others := by
  simp only [Items.values, Option.bind_eq_bind, Option.bind_eq_some_iff] at read
  obtain ⟨value, first, others, later, whole⟩ := read
  exact ⟨value, first, others, later, (Option.some.inj whole).symm⟩

theorem Members.values_cons {key : Bytes} {value : Tree} {members : Members}
    {values : List (String × Json)} (read : (Members.cons key value members).values reader = some values) :
    ∃ name, reader.key key = some name ∧ ∃ json, value.value reader = some json ∧
      ∃ others, members.values reader = some others ∧ values = (name, json) :: others := by
  simp only [Members.values, Option.bind_eq_bind, Option.bind_eq_some_iff] at read
  obtain ⟨name, known, json, first, others, later, whole⟩ := read
  exact ⟨name, known, json, first, others, later, (Option.some.inj whole).symm⟩

end Inversion

def weave (gaps : Nat → Bytes) (first : Nat) : List Bytes → Bytes
  | [] => gaps first
  | token :: tokens => gaps first ++ (token ++ weave gaps (first + 1) tokens)

def Blanks (gaps : Nat → Bytes) : Prop := ∀ i, (gaps i).all isBlank = true

/-- The text is a tree with blanks between its tokens, and the tree stands for the value. -/
def IsJson (text : Bytes) (value : Json) : Prop :=
  ∃ (tree : Tree) (gaps : Nat → Bytes), Blanks gaps ∧ text = weave gaps 0 tree.tokens ∧
    tree.value reader = some value

def Plain (token : Bytes) : Prop :=
  token ≠ [] ∧ ∀ byte ∈ token, isBlank byte = false ∧ isStructural byte = false ∧ byte ≠ quote

instance (token : Bytes) : Decidable (Plain token) := inferInstanceAs (Decidable (_ ∧ _))

def Quoted (token : Bytes) : Prop := ∃ rest body, token = quote :: rest ∧ unquote rest = some body

def Structural (token : Bytes) : Prop := ∃ byte, token = [byte] ∧ isStructural byte = true

/-- Every token has a shape, and one without an end of its own is followed by a structural one. -/
def Separated : List Bytes → Prop
  | [] => True
  | token :: tokens =>
    (Plain token ∨ Quoted token ∨ Structural token) ∧
      (Plain token → ∀ next ∈ tokens.head?, Structural next) ∧ Separated tokens

section Shapes

variable {reader}

variable {byte : UInt8} {token : Bytes}

theorem isNumberByte_plain (digit : isNumberByte byte = true) :
    isBlank byte = false ∧ isStructural byte = false ∧ byte ≠ quote := by
  have all : ∀ n : Fin 256, isNumberByte (UInt8.ofNat n) = true →
      isBlank (UInt8.ofNat n) = false ∧ isStructural (UInt8.ofNat n) = false ∧ UInt8.ofNat n ≠ quote := by
    decide +kernel
  have here := all ⟨byte.toNat, byte.toNat_lt⟩
  rw [UInt8.ofNat_toNat] at here
  exact here digit

theorem Reader.quoted_of_key {key : String} (read : reader.key token = some key) :
    Quoted token := by
  cases token with
  | nil => cases read
  | cons byte rest =>
    rw [Reader.key] at read
    split_ifs at read with first
    obtain ⟨body, ended, -⟩ := Option.bind_eq_some_iff.mp read
    exact ⟨rest, body, by rw [first], ended⟩

theorem Reader.shape_of_scalar {value : Json} (read : reader.scalar token = some value) :
    Plain token ∨ Quoted token := by
  cases key : reader.key token with
  | some string => exact .inr (Reader.quoted_of_key key)
  | none =>
    simp only [Reader.scalar, key] at read
    split_ifs at read with isNull isTrue isFalse digits
    · exact .inl (by subst isNull; decide +kernel)
    · exact .inl (by subst isTrue; decide +kernel)
    · exact .inl (by subst isFalse; decide +kernel)
    · exact .inl ⟨digits.1, fun byte member => isNumberByte_plain (List.all_eq_true.mp digits.2 byte member)⟩

theorem structural_single (known : isStructural byte = true) : Structural [byte] :=
  ⟨byte, rfl, known⟩

theorem not_plain_structural (structural : Structural token) : ¬ Plain token := by
  obtain ⟨byte, rfl, known⟩ := structural
  intro plain
  have none := (plain.2 byte (List.mem_singleton_self _)).2.1
  rw [known] at none
  cases none

theorem not_quoted_structural (structural : Structural token) : ¬ Quoted token := by
  obtain ⟨byte, rfl, known⟩ := structural
  rintro ⟨rest, body, equal, -⟩
  rw [(List.cons.inj equal).1] at known
  exact absurd known (by decide)

theorem not_plain_quoted (quoted : Quoted token) : ¬ Plain token := by
  obtain ⟨rest, body, rfl, -⟩ := quoted
  exact fun plain => (plain.2 quote List.mem_cons_self).2.2 rfl

theorem Reader.scalar_ne_structural {value : Json} (read : reader.scalar token = some value) :
    ¬ Structural token := by
  intro structural
  rcases Reader.shape_of_scalar read with plain | quoted
  · exact not_plain_structural structural plain
  · exact not_quoted_structural structural quoted

theorem separated_structural (known : isStructural byte = true) {tokens : List Bytes}
    (rest : Separated tokens) : Separated ([byte] :: tokens) := by
  have structural := structural_single known
  exact ⟨.inr (.inr structural), fun plain => absurd plain (not_plain_structural structural), rest⟩

theorem separated_quoted (quoted : Quoted token) {tokens : List Bytes}
    (rest : Separated tokens) : Separated (token :: tokens) :=
  ⟨.inr (.inl quoted), fun plain => absurd plain (not_plain_quoted quoted), rest⟩

theorem Items.head_more (items : Items) (rest : List Bytes) :
    ∀ next ∈ (items.more ++ rest).head?, Structural next := by
  cases items with
  | nil => exact fun next first => Option.some.inj first ▸ structural_single (by decide)
  | cons item items => exact fun next first => Option.some.inj first ▸ structural_single (by decide)

theorem Members.head_more (members : Members) (rest : List Bytes) :
    ∀ next ∈ (members.more ++ rest).head?, Structural next := by
  cases members with
  | nil => exact fun next first => Option.some.inj first ▸ structural_single (by decide)
  | cons key value members => exact fun next first => Option.some.inj first ▸ structural_single (by decide)

theorem Items.separated_more {items : Items} {rest : List Bytes} (whole : Separated (items.tokens ++ rest)) :
    Separated (items.more ++ rest) := by
  cases items with
  | nil => exact whole
  | cons item items => exact separated_structural (by decide) whole

theorem Members.separated_more {members : Members} {rest : List Bytes}
    (whole : Separated (members.tokens ++ rest)) : Separated (members.more ++ rest) := by
  cases members with
  | nil => exact whole
  | cons key value members => exact separated_structural (by decide) whole

mutual

theorem Tree.separated {tree : Tree} {value : Json} (read : tree.value reader = some value)
    {rest : List Bytes} (after : Separated rest) (next : ∀ token ∈ rest.head?, Structural token) :
    Separated (tree.tokens ++ rest) := by
  cases tree with
  | scalar text =>
    refine ⟨?_, fun _ => next, after⟩
    rcases Reader.shape_of_scalar read with plain | quoted
    · exact .inl plain
    · exact .inr (.inl quoted)
  | array items =>
    obtain ⟨values, known, -⟩ := Option.map_eq_some_iff.mp read
    exact separated_structural (by decide) (Items.separated known after)
  | object members =>
    obtain ⟨values, known, -⟩ := Option.map_eq_some_iff.mp read
    exact separated_structural (by decide) (Members.separated known after)

theorem Items.separated {items : Items} {values : List Json} (read : items.values reader = some values)
    {rest : List Bytes} (after : Separated rest) : Separated (items.tokens ++ rest) := by
  cases items with
  | nil => exact separated_structural (by decide) after
  | cons item items =>
    obtain ⟨value, first, others, later, -⟩ := Items.values_cons read
    rw [Items.tokens, List.append_assoc]
    exact Tree.separated first (Items.separated_more (Items.separated later after)) (Items.head_more items rest)

theorem Members.separated {members : Members} {values : List (String × Json)}
    (read : members.values reader = some values) {rest : List Bytes} (after : Separated rest) :
    Separated (members.tokens ++ rest) := by
  cases members with
  | nil => exact separated_structural (by decide) after
  | cons key value members =>
    obtain ⟨name, known, json, first, others, later, -⟩ := Members.values_cons read
    rw [Members.tokens, List.cons_append, List.cons_append, List.append_assoc]
    exact separated_quoted (Reader.quoted_of_key known) (separated_structural (by decide)
      (Tree.separated first (Members.separated_more (Members.separated later after))
        (Members.head_more members rest)))

end

end Shapes

section Unique

variable {reader}

theorem Tree.tokens_ne_close {tree : Tree} {value : Json} (read : tree.value reader = some value)
    (rest others : List Bytes) : tree.tokens ++ rest ≠ [closeArray] :: others := by
  intro same
  cases tree with
  | scalar text =>
    have token : text = [closeArray] := (List.cons.inj same).1
    exact Reader.scalar_ne_structural read (token ▸ structural_single (by decide))
  | array items => exact absurd (List.cons.inj same).1 (by decide)
  | object members => exact absurd (List.cons.inj same).1 (by decide)

theorem Reader.key_ne_structural {token : Bytes} {key : String} (read : reader.key token = some key) :
    ¬ Structural token := fun structural => not_quoted_structural structural (Reader.quoted_of_key read)

theorem Items.more_inj {items other : Items} {rest others : List Bytes}
    (tokens_inj : items.tokens ++ rest = other.tokens ++ others → items = other ∧ rest = others)
    (same : items.more ++ rest = other.more ++ others) : items = other ∧ rest = others := by
  cases items with
  | nil =>
    cases other with
    | nil => exact tokens_inj same
    | cons item' items' => exact absurd (List.cons.inj same).1 (by decide)
  | cons item items =>
    cases other with
    | nil => exact absurd (List.cons.inj same).1 (by decide)
    | cons item' items' => exact tokens_inj (List.cons.inj same).2

theorem Members.more_inj {members other : Members} {rest others : List Bytes}
    (tokens_inj : members.tokens ++ rest = other.tokens ++ others → members = other ∧ rest = others)
    (same : members.more ++ rest = other.more ++ others) : members = other ∧ rest = others := by
  cases members with
  | nil =>
    cases other with
    | nil => exact tokens_inj same
    | cons key' value' members' => exact absurd (List.cons.inj same).1 (by decide)
  | cons key value members =>
    cases other with
    | nil => exact absurd (List.cons.inj same).1 (by decide)
    | cons key' value' members' => exact tokens_inj (List.cons.inj same).2

mutual

theorem Tree.tokens_inj {tree other : Tree} {value json : Json} (read : tree.value reader = some value)
    (again : other.value reader = some json) {rest others : List Bytes}
    (same : tree.tokens ++ rest = other.tokens ++ others) : tree = other ∧ rest = others := by
  cases tree with
  | scalar text =>
    have known := Reader.scalar_ne_structural read
    cases other with
    | scalar text' =>
      obtain ⟨rfl, rfl⟩ := List.cons.inj same
      exact ⟨rfl, rfl⟩
    | array items => exact absurd ((List.cons.inj same).1 ▸ structural_single (by decide)) known
    | object members => exact absurd ((List.cons.inj same).1 ▸ structural_single (by decide)) known
  | array items =>
    obtain ⟨values, known, -⟩ := Option.map_eq_some_iff.mp read
    cases other with
    | scalar text =>
      have unknown := Reader.scalar_ne_structural again
      exact absurd ((List.cons.inj same).1 ▸ structural_single (by decide)) unknown
    | array items' =>
      obtain ⟨values', known', -⟩ := Option.map_eq_some_iff.mp again
      obtain ⟨rfl, rfl⟩ := Items.tokens_inj known known' (List.cons.inj same).2
      exact ⟨rfl, rfl⟩
    | object members => exact absurd (List.cons.inj same).1 (by decide)
  | object members =>
    obtain ⟨values, known, -⟩ := Option.map_eq_some_iff.mp read
    cases other with
    | scalar text =>
      have unknown := Reader.scalar_ne_structural again
      exact absurd ((List.cons.inj same).1 ▸ structural_single (by decide)) unknown
    | array items => exact absurd (List.cons.inj same).1 (by decide)
    | object members' =>
      obtain ⟨values', known', -⟩ := Option.map_eq_some_iff.mp again
      obtain ⟨rfl, rfl⟩ := Members.tokens_inj known known' (List.cons.inj same).2
      exact ⟨rfl, rfl⟩

theorem Items.tokens_inj {items other : Items} {values json : List Json}
    (read : items.values reader = some values) (again : other.values reader = some json)
    {rest others : List Bytes} (same : items.tokens ++ rest = other.tokens ++ others) :
    items = other ∧ rest = others := by
  cases items with
  | nil =>
    cases other with
    | nil => exact ⟨rfl, (List.cons.inj same).2⟩
    | cons item' items' =>
      obtain ⟨value, first, -⟩ := Items.values_cons again
      rw [Items.tokens, Items.tokens, List.append_assoc] at same
      exact absurd same.symm (Tree.tokens_ne_close first _ _)
  | cons item items =>
    obtain ⟨value, first, later, followed, -⟩ := Items.values_cons read
    cases other with
    | nil =>
      rw [Items.tokens, Items.tokens, List.append_assoc] at same
      exact absurd same (Tree.tokens_ne_close first _ _)
    | cons item' items' =>
      obtain ⟨value', first', later', followed', -⟩ := Items.values_cons again
      rw [Items.tokens, Items.tokens, List.append_assoc, List.append_assoc] at same
      obtain ⟨rfl, tail⟩ := Tree.tokens_inj first first' same
      obtain ⟨rfl, rfl⟩ := Items.more_inj (Items.tokens_inj followed followed') tail
      exact ⟨rfl, rfl⟩

theorem Members.tokens_inj {members other : Members} {values json : List (String × Json)}
    (read : members.values reader = some values) (again : other.values reader = some json)
    {rest others : List Bytes} (same : members.tokens ++ rest = other.tokens ++ others) :
    members = other ∧ rest = others := by
  cases members with
  | nil =>
    cases other with
    | nil => exact ⟨rfl, (List.cons.inj same).2⟩
    | cons key' value' members' =>
      obtain ⟨name, known, -⟩ := Members.values_cons again
      have token : key' = [closeObject] := (List.cons.inj same).1.symm
      exact absurd (token ▸ structural_single (by decide)) (Reader.key_ne_structural known)
  | cons key value members =>
    obtain ⟨name, known, json₁, first, later, followed, -⟩ := Members.values_cons read
    cases other with
    | nil =>
      have token : key = [closeObject] := (List.cons.inj same).1
      exact absurd (token ▸ structural_single (by decide)) (Reader.key_ne_structural known)
    | cons key' value' members' =>
      obtain ⟨name', known', json₂, first', later', followed', -⟩ := Members.values_cons again
      obtain ⟨rfl, tail⟩ := List.cons.inj same
      have inner := (List.cons.inj tail).2
      rw [List.append_eq, List.append_eq, List.append_assoc, List.append_assoc] at inner
      obtain ⟨rfl, final⟩ := Tree.tokens_inj first first' inner
      obtain ⟨rfl, rfl⟩ := Members.more_inj (Members.tokens_inj followed followed') final
      exact ⟨rfl, rfl⟩

end

end Unique

end Amnezia.Lib.JsonText
