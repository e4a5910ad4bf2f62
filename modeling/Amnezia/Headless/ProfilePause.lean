import Amnezia.Lib.JsonText
import Mathlib.Data.List.Forall2
import Mathlib.Data.List.Nodup

/-! # Pausing automatic updates in the profile store -/

namespace Amnezia.Headless.ProfilePause
open Lib Lib.JsonText

inductive PauseError where
  | objectInvalid | schemaInvalid | tokenInvalid | nestingInvalid | keyInvalid | duplicateKey
  | colonInvalid | autoUpdateTypeInvalid | profileIdentityInvalid | profileArrayInvalid
  | profileObjectInvalid | arrayEndInvalid | objectEndInvalid | trailingInvalid
  | outOfRange
  deriving DecidableEq

structure Token where
  start : Nat
  stop : Nat
  text : Bytes
  deriving DecidableEq

/-! ## The tokenizer -/

-- What is left behind the closing quote. After a backslash at the end the loop stands behind the text.
def stringRest : Bytes → Option Bytes
  | [] => some []
  | [byte] => if byte = backslash then none else some []
  | byte :: next :: rest =>
    if byte = backslash then stringRest rest
    else if byte = quote then some (next :: rest)
    else stringRest (next :: rest)

def tokenRest : Bytes → Option Bytes
  | [] => some []
  | byte :: rest =>
    if byte = quote then stringRest rest
    else if isStructural byte then some rest
    else some ((byte :: rest).dropWhile fun byte => !(isBlank byte || isStructural byte))

-- Each turn takes a byte at least, so there are no more turns than bytes.
def tokenize : Nat → Nat → Bytes → Except PauseError (List Token)
  | 0, _, _ => return []
  | _ + 1, _, [] => return []
  | fuel + 1, start, byte :: rest =>
    if isBlank byte then tokenize fuel (start + 1) rest
    else
      match tokenRest (byte :: rest) with
      | none => throw .tokenInvalid
      | some left => do
          let length := (byte :: rest).length - left.length
          let tokens ← tokenize fuel (start + length) left
          return ⟨start, start + length, (byte :: rest).take length⟩ :: tokens

/-! ## The walk -/

structure Marks where
  profileIndex : Int
  edits : List Token
  ids : List Json

-- `tokens` are those from `at` on.
structure Walk where
  tokens : List Token
  marks : Marks

abbrev Step := Walk → Except PauseError Walk

-- `require(tokens[at++].text == text, error)`
def expect (atEnd : PauseError) (byte : UInt8) (error : PauseError) : Step := fun walk =>
  match walk.tokens with
  | [] => throw atEnd
  | token :: rest => if token.text = [byte] then return { walk with tokens := rest } else throw error

-- `if (tokens[at].text == ",") ++at; else break;` at the end of a loop's body.
def afterComma (again : Step) : Step := fun walk =>
  match walk.tokens with
  | [] => throw .outOfRange
  | token :: rest => if token.text = [comma] then again { walk with tokens := rest } else return walk

def walkItems (item : Step) : Nat → Step
  | 0, _ => throw .outOfRange
  | fuel + 1, walk =>
    match walk.tokens with
    | [] => throw .outOfRange
    | token :: _ =>
      if token.text = [closeArray] then return walk
      else do
        let walk ← item walk
        afterComma (walkItems item fuel) walk

variable (fromJson : Bytes → Option Json)

def readKey (token : Bytes) : Except PauseError String :=
  match fromJson ([openArray] ++ token ++ [closeArray]) with
  | some (.array [.string key]) => return key
  | _ => throw .keyInvalid

def walkMember (value : String → Step) (keys : List String) (walk : Walk) :
    Except PauseError (List String × Walk) :=
  match walk.tokens with
  | [] => throw .outOfRange
  | keyToken :: rest => do
      let key ← readKey fromJson keyToken.text
      if key ∈ keys then throw .duplicateKey
      let walk ← expect .colonInvalid colon .colonInvalid { walk with tokens := rest }
      let walk ← value key walk
      return (keys ++ [key], walk)

def walkMembers (value : String → Step) : Nat → List String → Step
  | 0, _, walk => return walk
  | fuel + 1, keys, walk =>
    match walk.tokens with
    | [] => return walk
    | token :: _ =>
      if token.text = [closeObject] then return walk
      else do
        let (keys, walk) ← walkMember fromJson value keys walk
        afterComma (walkMembers value fuel keys) walk

variable (doc : JsonObject)

def profilesOf : List Json := (doc.value "profiles").toArray

def noteAutoUpdate : Step := fun walk =>
  match walk.tokens with
  | [] => throw .outOfRange
  | token :: _ =>
    let marks := walk.marks
    if token.text = trueText then
      if 0 ≤ marks.profileIndex ∧ marks.profileIndex < (profilesOf doc).length then
        let profile := (profilesOf doc).getD marks.profileIndex.toNat .null
        return { walk with
          marks := { marks with
            edits := marks.edits ++ [token]
            ids := marks.ids ++ [profile.toObject.value "id"] } }
      else throw .profileIdentityInvalid
    else if token.text = falseText then return walk
    else throw .autoUpdateTypeInvalid

def walkProfile (walkValue : Bool → Step) : Step := fun walk =>
  match walk.tokens with
  | [] => throw .outOfRange
  | token :: _ =>
    let walk := { walk with
      marks := { walk.marks with profileIndex := walk.marks.profileIndex + 1 } }
    if token.text = [openObject] then walkValue true walk else throw .profileObjectInvalid

def walkValue (walkTree : Bool → Step) (root profile : Bool) (key : String) : Step := fun walk => do
  let walk ← if profile ∧ key = "autoUpdate" then noteAutoUpdate doc walk else pure walk
  if root ∧ key = "profiles" then
    let walk ← expect .outOfRange openArray .profileArrayInvalid walk
    let walk ← walkItems (walkProfile walkTree) walk.tokens.length walk
    expect .outOfRange closeArray .arrayEndInvalid walk
  else walkTree false walk

-- `room` is how much deeper the nesting may get: `depth < 64`.
def walk : Nat → Bool → Bool → Step
  | 0, _, _, _ => throw .nestingInvalid
  | room + 1, root, profile, state =>
    match state.tokens with
    | [] => throw .nestingInvalid
    | token :: rest =>
      let state := { state with tokens := rest }
      if token.text = [openObject] then do
        let state ← walkMembers fromJson (walkValue doc (walk room false) root profile) rest.length [] state
        expect .outOfRange closeObject .objectEndInvalid state
      else if token.text = [openArray] then do
        let state ← walkItems (walk room false false) rest.length state
        expect .outOfRange closeArray .arrayEndInvalid state
      else return state

/-! ## The result -/

-- From the last edit to the first, so that the places of the others stay right.
def applyEdits (raw : Bytes) (edits : List Token) : Bytes :=
  edits.foldr (fun token result => result.take token.start ++ falseText ++ result.drop token.stop) raw

def maximumDepth : Nat := 64

def pauseJson (raw : Bytes) : Except PauseError (Bytes × List Json) :=
  match fromJson raw with
  | some (.object doc) =>
    if (JsonObject.value doc "version").toInt 0 = 1 ∧ (JsonObject.value doc "profiles").isArray then do
      let tokens ← tokenize raw.length 0 raw
      let state ← walk fromJson doc maximumDepth true false ⟨tokens, -1, [], []⟩
      if state.tokens = [] then return (applyEdits raw state.marks.edits, state.marks.ids)
      else throw .trailingInvalid
    else throw .schemaInvalid
  | _ => throw .objectInvalid

/-! ## The tokenizer finds the tokens of a text -/

def placed (gaps : Nat → Bytes) (start first : Nat) : List Bytes → List Token
  | [] => []
  | text :: texts =>
    let place := start + (gaps first).length
    ⟨place, place + text.length, text⟩ :: placed gaps (place + text.length) (first + 1) texts

theorem map_text_placed (gaps : Nat → Bytes) (start first : Nat) (texts : List Bytes) :
    (placed gaps start first texts).map Token.text = texts := by
  induction texts generalizing start first with
  | nil => rfl
  | cons text texts ih => rw [placed, List.map_cons, ih]

theorem stringRest_append {inner body : Bytes} (ended : unquote inner = some body) (rest : Bytes) :
    stringRest (inner ++ rest) = some rest := by
  fun_induction unquote inner generalizing body with
  | case1 => cases ended
  | case2 =>
    cases rest with
    | nil => rfl
    | cons next rest => rfl
  | case3 byte other => cases ended
  | case4 next inner ih =>
    obtain ⟨shorter, known, -⟩ := Option.map_eq_some_iff.mp ended
    rw [List.cons_append, List.cons_append, stringRest, if_pos rfl]
    exact ih known
  | case5 next inner plain => cases ended
  | case6 byte next inner plain inside ih =>
    obtain ⟨shorter, known, -⟩ := Option.map_eq_some_iff.mp ended
    rw [List.cons_append, List.cons_append, stringRest, if_neg plain, if_neg inside]
    exact ih known

def Stops (rest : Bytes) : Prop := ∀ byte ∈ rest.head?, (isBlank byte || isStructural byte) = true

variable {token : Bytes}

theorem dropWhile_plain {rest : Bytes} (plain : Plain token) (stops : Stops rest) :
    (token ++ rest).dropWhile (fun byte => !(isBlank byte || isStructural byte)) = rest := by
  have inside : ∀ byte ∈ token, (!(isBlank byte || isStructural byte)) = true := by
    intro byte member
    obtain ⟨blank, structural, -⟩ := plain.2 byte member
    rw [blank, structural]
    rfl
  rw [List.dropWhile_append_of_pos inside]
  cases rest with
  | nil => rfl
  | cons byte rest =>
    have known := stops byte rfl
    rw [List.dropWhile_cons, known]
    rfl

theorem tokenRest_append {rest : Bytes} (shape : Plain token ∨ Quoted token ∨ Structural token)
    (stops : Plain token → Stops rest) : tokenRest (token ++ rest) = some rest := by
  rcases shape with plain | ⟨inner, body, rfl, ended⟩ | ⟨byte, rfl, known⟩
  · cases token with
    | nil => exact absurd rfl plain.1
    | cons byte token =>
      obtain ⟨-, structural, notQuote⟩ := plain.2 byte List.mem_cons_self
      have dropped := dropWhile_plain plain (stops plain)
      rw [List.cons_append] at dropped ⊢
      rw [tokenRest, if_neg notQuote, structural, if_neg Bool.false_ne_true, dropped]
  · exact stringRest_append ended rest
  · have other : byte ≠ quote := by
      rintro rfl
      exact absurd known (by decide)
    rw [List.cons_append, List.nil_append, tokenRest, if_neg other, if_pos known]

theorem first_of_shape (shape : Plain token ∨ Quoted token ∨ Structural token) :
    ∃ byte rest, token = byte :: rest ∧ isBlank byte = false := by
  rcases shape with plain | ⟨inner, body, rfl, -⟩ | ⟨byte, rfl, known⟩
  · obtain ⟨byte, rest, rfl⟩ := List.exists_cons_of_ne_nil plain.1
    exact ⟨byte, rest, rfl, (plain.2 byte List.mem_cons_self).1⟩
  · exact ⟨quote, inner, rfl, by decide⟩
  · refine ⟨byte, [], rfl, ?_⟩
    have all : ∀ n : Fin 256, isStructural (UInt8.ofNat n) = true → isBlank (UInt8.ofNat n) = false := by
      decide +kernel
    have here := all ⟨byte.toNat, byte.toNat_lt⟩
    rw [UInt8.ofNat_toNat] at here
    exact here known

theorem stops_weave {gaps : Nat → Bytes} (blanks : Blanks gaps) {first : Nat} {tokens : List Bytes}
    (next : ∀ token ∈ tokens.head?, Structural token) : Stops (weave gaps first tokens) := by
  intro byte head
  have blank := blanks first
  cases gap : gaps first with
  | cons space others =>
    rw [gap] at blank
    have inGap : byte = space := by
      cases tokens with
      | nil =>
        rw [weave, gap] at head
        exact (Option.some.inj head).symm
      | cons token tokens =>
        rw [weave, gap] at head
        exact (Option.some.inj head).symm
    rw [inGap, (List.all_eq_true.mp blank) space List.mem_cons_self, Bool.true_or]
  | nil =>
    cases tokens with
    | nil =>
      rw [weave, gap] at head
      cases head
    | cons token tokens =>
      obtain ⟨known, rfl, structural⟩ := next token rfl
      rw [weave, gap] at head
      rw [← Option.some.inj head, structural, Bool.or_true]

theorem tokenize_blanks {blank : Bytes} (blanks : blank.all isBlank = true) (fuel start : Nat) (text : Bytes) :
    tokenize (blank.length + fuel) start (blank ++ text) = tokenize fuel (start + blank.length) text := by
  induction blank generalizing start with
  | nil => simp
  | cons byte blank ih =>
    rw [List.all_cons, Bool.and_eq_true] at blanks
    rw [List.length_cons, Nat.add_right_comm, List.cons_append, tokenize, if_pos blanks.1,
      ih blanks.2, Nat.add_assoc, Nat.add_comm 1]

theorem tokenize_weave {gaps : Nat → Bytes} (blanks : Blanks gaps) {tokens : List Bytes}
    (separated : Separated tokens) (fuel start first : Nat)
    (enough : (weave gaps first tokens).length ≤ fuel) :
    tokenize fuel start (weave gaps first tokens) = .ok (placed gaps start first tokens) := by
  induction tokens generalizing fuel start first with
  | nil =>
    obtain ⟨more, rfl⟩ := Nat.exists_eq_add_of_le enough
    have step := tokenize_blanks (blanks first) more start []
    rw [List.append_nil] at step
    rw [weave, step]
    cases more with
    | zero => rfl
    | succ more => rfl
  | cons token tokens ih =>
    obtain ⟨shape, follows, others⟩ := separated
    obtain ⟨byte, inner, rfl, notBlank⟩ := first_of_shape shape
    rw [weave, List.length_append] at enough
    obtain ⟨more, rfl⟩ := Nat.exists_eq_add_of_le (Nat.le_of_add_right_le enough)
    rw [weave, tokenize_blanks (blanks first)]
    rw [List.length_append, List.length_cons] at enough
    obtain ⟨fuel, rfl⟩ : ∃ fuel, more = fuel + 1 := ⟨more - 1, by omega⟩
    have stops (plain : Plain (byte :: inner)) : Stops (weave gaps (first + 1) tokens) :=
      stops_weave blanks (follows plain)
    have rest := tokenRest_append shape stops
    have length : (byte :: inner ++ weave gaps (first + 1) tokens).length -
        (weave gaps (first + 1) tokens).length = (byte :: inner).length := by
      rw [List.length_append]
      omega
    have later := ih others fuel (start + (gaps first).length + (byte :: inner).length) (first + 1) (by omega)
    rw [List.cons_append] at rest length ⊢
    rw [tokenize, if_neg (by rw [notBlank]; exact Bool.false_ne_true), rest]
    dsimp only
    rw [length, later, placed]
    have text : (byte :: (inner ++ weave gaps (first + 1) tokens)).take (byte :: inner).length =
        byte :: inner := by
      rw [← List.cons_append, List.take_left]
    rw [text]
    rfl

/-! ## Getting over the tokens of a tree -/

def Marks.add (marks : Marks) (steps : Int) (edits : List Token) (ids : List Json) : Marks :=
  ⟨marks.profileIndex + steps, marks.edits ++ edits, marks.ids ++ ids⟩

theorem Marks.add_nothing (marks : Marks) : marks.add 0 [] [] = marks := by
  simp only [Marks.add, Int.add_zero, List.append_nil]

theorem Marks.add_add (marks : Marks) (steps more : Int) (edits others : List Token) (ids later : List Json) :
    (marks.add steps edits ids).add more others later =
      marks.add (steps + more) (edits ++ others) (ids ++ later) := by
  simp only [Marks.add, Int.add_assoc, List.append_assoc]

def changed (tokens : List Token) (texts : List Bytes) : List Token :=
  (tokens.zip texts).filterMap fun pair => if pair.1.text = pair.2 then none else some pair.1

variable {front back : List Bytes}

theorem changed_append {first second : List Token} (length : first.length = front.length) :
    changed (first ++ second) (front ++ back) = changed first front ++ changed second back := by
  rw [changed, List.zip_append length, List.filterMap_append]
  rfl

variable {tokens : List Token}

theorem changed_cons {token : Token} {text : Bytes} {texts : List Bytes}
    (same : token.text = text) : changed (token :: tokens) (text :: texts) = changed tokens texts := by
  rw [changed, List.zip_cons_cons, List.filterMap_cons, if_pos same]
  rfl

abbrev Rewritten : List Bytes → List Bytes → Prop := List.Forall₂ fun old new => new = old ∨ new = falseText

theorem Rewritten.refl (texts : List Bytes) : Rewritten texts texts := List.forall₂_same.mpr fun _ _ => .inl rfl

-- The step gets past these texts and notes nothing. The steps that are loops have fuel.
def Passes (step : Nat → Step) (steps : Int) (texts : List Bytes) : Prop :=
  ∀ (fuel : Nat) (tokens rest : List Token) (marks : Marks), tokens.map Token.text = texts →
    tokens.length ≤ fuel → step fuel ⟨tokens ++ rest, marks⟩ = .ok ⟨rest, marks.add steps [] []⟩

/-- Where the step gets past the old texts, it notes the tokens that differ in the new ones, and for any document
gets over those. What the marks are is known under `valid` and from a profile index `start` only. -/
structure Turns (doc : JsonObject) (known valid : Prop) (step : JsonObject → Nat → Step) (start steps : Int)
    (old new : List Bytes) (ids : List Json) : Prop where
  rewritten : Rewritten old new
  turn : ∀ (fuel : Nat) (tokens rest : List Token) (marks : Marks) (after : Walk),
    tokens.map Token.text = old → tokens.length ≤ fuel → step doc fuel ⟨tokens ++ rest, marks⟩ = .ok after →
      known ∧ after.tokens = rest ∧ (valid → marks.profileIndex = start →
        after.marks = marks.add steps (changed tokens new) ids ∧ ∀ other, Passes (step other) steps new)

def Agree (step other : JsonObject → Nat → Step) (texts : List Bytes) : Prop :=
  ∀ (doc : JsonObject) (fuel : Nat) (tokens rest : List Token) (marks : Marks), tokens.map Token.text = texts →
    tokens.length ≤ fuel → step doc fuel ⟨tokens ++ rest, marks⟩ = other doc fuel ⟨tokens ++ rest, marks⟩

def skip : Step := fun walk => return { walk with tokens := walk.tokens.tail }

section Rules

theorem bind_eq_ok {α β : Type} {first : Except PauseError α} {next : α → Except PauseError β} {result : β} :
    (first >>= next) = .ok result ↔ ∃ value, first = .ok value ∧ next value = .ok result := by
  cases first with
  | error failure => exact ⟨nofun, nofun⟩
  | ok value => exact ⟨fun ran => ⟨value, rfl, ran⟩, fun ⟨_, same, ran⟩ => Except.ok.inj same ▸ ran⟩

theorem ok_bind {α β : Type} (value : α) (next : α → Except PauseError β) :
    (Except.ok value >>= next) = next value := rfl

theorem split_texts (texts : tokens.map Token.text = front ++ back) :
    ∃ first second, tokens = first ++ second ∧ first.map Token.text = front ∧
      second.map Token.text = back ∧ first.length = front.length := by
  obtain ⟨first, second, rfl, one, two⟩ := List.map_eq_append_iff.mp texts
  exact ⟨first, second, rfl, one, two, by rw [← one, List.length_map]⟩

theorem single_text {text : Bytes} (whole : tokens.map Token.text = [text]) :
    ∃ token, tokens = [token] ∧ token.text = text := by
  obtain ⟨token, rest, rfl, same, none⟩ := List.map_eq_cons_iff.mp whole
  exact ⟨token, by rw [List.map_eq_nil_iff.mp none], same⟩

variable {doc : JsonObject} {known known' valid valid' : Prop} {step step' : JsonObject → Nat → Step}
  {start start' steps steps' total : Int} {old new old' new' : List Bytes} {ids ids' : List Json}

theorem Turns.fails (rewritten : Rewritten old new)
    (error : ∀ fuel tokens rest marks after, tokens.map Token.text = old → tokens.length ≤ fuel →
      step doc fuel ⟨tokens ++ rest, marks⟩ ≠ .ok after) :
    Turns doc known valid step start steps old new ids where
  rewritten := rewritten
  turn fuel tokens rest marks after texts enough ran := absurd ran (error fuel tokens rest marks after texts enough)

theorem Turns.skip (fact : known) {text : Bytes} :
    Turns doc known valid (fun _ _ => skip) start 0 [text] [text] [] where
  rewritten := .refl _
  turn fuel tokens rest marks after texts enough ran := by
    obtain ⟨token, rfl, same⟩ := single_text texts
    obtain rfl := Except.ok.inj ran
    refine ⟨fact, rfl, fun _ _ => ⟨?_, ?_⟩⟩
    · rw [changed_cons same]
      exact marks.add_nothing.symm
    · intro _ fuel tokens rest marks texts enough
      obtain ⟨token, rfl, -⟩ := single_text texts
      rw [marks.add_nothing]
      rfl

theorem Turns.bind (first : Turns doc known valid step start steps old new ids)
    (second : Turns doc known' valid step' start' steps' old' new' ids') {less : Nat → Nat}
    (next : start + steps = start') (sum : steps + steps' = total)
    (left : ∀ fuel n, old.length + n ≤ fuel → n ≤ less fuel) :
    Turns doc known' valid (fun doc fuel walk => step doc fuel walk >>= step' doc (less fuel)) start total
      (old ++ old') (new ++ new') (ids ++ ids') where
  rewritten := List.rel_append first.rewritten second.rewritten
  turn fuel tokens rest marks after texts enough ran := by
    obtain ⟨front, back, rfl, one, two, length⟩ := split_texts texts
    rw [List.length_append] at enough
    rw [List.append_assoc] at ran
    obtain ⟨between, ran, ended⟩ := bind_eq_ok.mp ran
    obtain ⟨-, tokens, noted⟩ := first.turn fuel front _ marks between one (by omega) ran
    obtain ⟨tokens', marks'⟩ := between
    obtain rfl : tokens' = back ++ rest := tokens
    obtain ⟨fact, past, noted'⟩ := second.turn _ back rest marks' after two (left fuel _ (by omega)) ended
    refine ⟨fact, past, fun sure place => ?_⟩
    obtain ⟨rfl, passes⟩ := noted sure place
    obtain ⟨final, passes'⟩ := noted' sure (by rw [Marks.add, place, next])
    constructor
    · rw [final, Marks.add_add, sum, changed_append (length.trans first.rewritten.length_eq)]
    · intro other fuel tokens rest marks texts enough
      obtain ⟨front, back, rfl, one, two, length⟩ := split_texts texts
      rw [← first.rewritten.length_eq] at length
      rw [List.length_append] at enough
      dsimp only
      rw [List.append_assoc, passes other fuel front _ marks one (by omega), ok_bind,
        passes' other _ back rest _ two (left fuel _ (by omega)), Marks.add_add, sum]
      rfl

section

variable (turns : Turns doc known valid step start steps old new ids)
include turns

theorem Turns.congr (same : Agree step' step old) (alike : Agree step' step new) :
    Turns doc known valid step' start steps old new ids where
  rewritten := turns.rewritten
  turn fuel tokens rest marks after texts enough ran := by
    rw [same doc fuel tokens rest marks texts enough] at ran
    obtain ⟨fact, past, noted⟩ := turns.turn fuel tokens rest marks after texts enough ran
    refine ⟨fact, past, fun sure place => ⟨(noted sure place).1, ?_⟩⟩
    intro other fuel tokens rest marks texts enough
    rw [alike other fuel tokens rest marks texts enough]
    exact (noted sure place).2 other fuel tokens rest marks texts enough

theorem Turns.imp (fact : known → known') (use : known → valid' → valid ∧ steps = steps' ∧ ids = ids') :
    Turns doc known' valid' step start steps' old new ids' where
  rewritten := turns.rewritten
  turn fuel tokens rest marks after texts enough ran := by
    obtain ⟨here, past, noted⟩ := turns.turn fuel tokens rest marks after texts enough ran
    refine ⟨fact here, past, fun sure place => ?_⟩
    obtain ⟨sure, rfl, rfl⟩ := use here sure
    exact noted sure place

theorem Turns.own :
    Turns doc known valid (fun doc _ walk => step doc walk.tokens.length walk) start steps old new ids where
  rewritten := turns.rewritten
  turn fuel tokens rest marks after texts enough ran := by
    have all (tokens rest : List Token) : tokens.length ≤ (tokens ++ rest).length := by
      rw [List.length_append]
      omega
    obtain ⟨fact, past, noted⟩ := turns.turn _ tokens rest marks after texts (all _ _) ran
    refine ⟨fact, past, fun sure place => ⟨(noted sure place).1, ?_⟩⟩
    intro other fuel tokens rest marks texts enough
    exact (noted sure place).2 other _ tokens rest marks texts (all _ _)

end

end Rules

/-! ## The loops -/

section Loops

variable (reader : Reader)

def nameOf (key : Bytes) : String := (reader.key key).getD ""

def namesOf : Members → List String
  | .nil => []
  | .cons key _ members => nameOf reader key :: namesOf members

inductive ItemsTurn (doc : JsonObject) (valid : Prop) (item : JsonObject → Step) :
    Int → Int → Items → Items → List Json → Prop
  | nil {start : Int} : ItemsTurn doc valid item start 0 .nil .nil []
  | cons {start steps start' steps' total : Int} {tree tree' : Tree} {items items' : Items} {ids ids' : List Json}
      {value value' : Json} (read : tree.value reader = some value) (read' : tree'.value reader = some value')
      (turns : Turns doc True valid (fun doc _ => item doc) start steps tree.tokens tree'.tokens ids)
      (next : start + steps = start') (sum : steps + steps' = total)
      (later : ItemsTurn doc valid item start' steps' items items' ids') :
      ItemsTurn doc valid item start total (.cons tree items) (.cons tree' items') (ids ++ ids')

inductive MembersTurn (doc : JsonObject) (valid : Prop) (value : JsonObject → String → Step) :
    Int → Int → Members → Members → List Json → Prop
  | nil {start : Int} : MembersTurn doc valid value start 0 .nil .nil []
  | cons {start steps start' steps' total : Int} {key : Bytes} {name : String} {tree tree' : Tree}
      {members members' : Members} {ids ids' : List Json} (known : reader.key key = some name)
      (turns : Turns doc True valid (fun doc _ => value doc name) start steps tree.tokens tree'.tokens ids)
      (next : start + steps = start') (sum : steps + steps' = total)
      (later : MembersTurn doc valid value start' steps' members members' ids') :
      MembersTurn doc valid value start total (.cons key tree members) (.cons key tree' members') (ids ++ ids')

variable {reader} {token : Token} {rest : List Token} {marks : Marks}

theorem expect_ok {atEnd error : PauseError} {byte : UInt8} (text : token.text = [byte]) :
    expect atEnd byte error ⟨token :: rest, marks⟩ = .ok ⟨rest, marks⟩ := by
  simp only [expect, text, if_true]
  rfl

def itemsLoop (item : Step) (fuel : Nat) : Step := fun walk =>
  walkItems item fuel walk >>= expect .outOfRange closeArray .arrayEndInvalid

def moreItems (item : Step) (fuel : Nat) : Step := fun walk =>
  afterComma (walkItems item fuel) walk >>= expect .outOfRange closeArray .arrayEndInvalid

theorem agree_close {loop : JsonObject → Nat → Step} {byte : UInt8}
    (ends : ∀ doc fuel token rest marks, token.text = [byte] →
      loop doc (fuel + 1) ⟨token :: rest, marks⟩ = .ok ⟨rest, marks⟩) :
    Agree loop (fun _ _ => skip) [[byte]] := by
  intro doc fuel tokens rest marks texts enough
  obtain ⟨token, rfl, text⟩ := single_text texts
  obtain ⟨fuel, rfl⟩ : ∃ less, fuel = less + 1 := ⟨fuel - 1, by rw [List.length_singleton] at enough; omega⟩
  exact ends doc fuel token rest marks text

theorem agree_comma {again : JsonObject → Nat → Step} {byte : UInt8} {error : PauseError} (texts : List Bytes) :
    Agree (fun doc fuel walk => afterComma (again doc fuel) walk >>= expect .outOfRange byte error)
      (fun doc fuel walk => skip walk >>= fun walk => again doc fuel walk >>= expect .outOfRange byte error)
      ([comma] :: texts) := by
  intro _ fuel tokens rest marks texts enough
  obtain ⟨token, tokens, rfl, text, -⟩ := List.map_eq_cons_iff.mp texts
  simp only [List.cons_append, afterComma, text, if_true]
  rfl

theorem afterComma_of_close {again : Step} {byte : UInt8} (text : token.text = [byte]) (other : byte ≠ comma) :
    afterComma again ⟨token :: rest, marks⟩ = .ok ⟨token :: rest, marks⟩ := by
  have different : ¬ [byte] = [comma] := fun same => other (List.cons.inj same).1
  simp only [afterComma, text, if_neg different]
  rfl

theorem agree_items_nil (item : JsonObject → Step) :
    Agree (fun doc => itemsLoop (item doc)) (fun _ _ => skip) [[closeArray]] ∧
      Agree (fun doc => moreItems (item doc)) (fun _ _ => skip) [[closeArray]] := by
  refine ⟨agree_close fun _ fuel token rest marks text => ?_, agree_close fun _ fuel token rest marks text => ?_⟩
  · simp only [itemsLoop, walkItems, text, if_true]
    exact @expect_ok token rest marks .outOfRange .arrayEndInvalid closeArray text
  · rw [moreItems, afterComma_of_close text (by decide), ok_bind, expect_ok text]

variable {item : JsonObject → Step}

theorem agree_items_cons {tree : Tree} {value : Json}
    (read : tree.value reader = some value) (texts : List Bytes) :
    Agree (fun doc => itemsLoop (item doc)) (fun doc fuel walk => item doc walk >>= moreItems (item doc) (fuel - 1))
      (tree.tokens ++ texts) := by
  intro doc fuel tokens rest marks whole enough
  have notClose := Tree.tokens_ne_close read texts (tokens.tail.map Token.text)
  rw [← whole] at notClose
  cases tokens with
  | nil => cases tree <;> exact nomatch whole
  | cons token tokens =>
    obtain ⟨fuel, rfl⟩ : ∃ less, fuel = less + 1 := ⟨fuel - 1, by rw [List.length_cons] at enough; omega⟩
    have other : token.text ≠ [closeArray] := fun same => notClose (by rw [List.map_cons, same]; rfl)
    simp only [itemsLoop, walkItems, List.cons_append, if_neg other, bind_assoc]
    rfl

theorem tokens_length (tree : Tree) : 0 < tree.tokens.length := by
  cases tree <;> exact Nat.succ_pos _

variable {doc : JsonObject} {valid : Prop} {start steps : Int} {ids : List Json}

theorem walkItems_turns {items items' : Items}
    (turn : ItemsTurn reader doc valid item start steps items items' ids) :
    Turns doc True valid (fun doc => itemsLoop (item doc)) start steps items.tokens items'.tokens ids ∧
      Turns doc True valid (fun doc => moreItems (item doc)) start steps items.more items'.more ids := by
  induction turn with
  | nil =>
    obtain ⟨first, more⟩ := agree_items_nil item
    exact ⟨(Turns.skip trivial).congr first first, (Turns.skip trivial).congr more more⟩
  | @cons start steps start' steps' total tree tree' items items' ids ids' value value' read read' turns
      next sum later ih =>
    have whole := (turns.bind ih.2 next sum fun fuel n (enough : tree.tokens.length + n ≤ fuel) =>
      (by have := tokens_length tree; omega : n ≤ fuel - 1)).congr
        (agree_items_cons read items.more) (agree_items_cons read' items'.more)
    refine ⟨whole, ?_⟩
    exact ((Turns.skip trivial).bind whole (Int.add_zero _) (Int.zero_add _) fun fuel n enough =>
      (Nat.le_of_add_left_le enough : n ≤ fuel)).congr (agree_comma _) (agree_comma _)

/-- The reader that the text functions of Qt stand for accepts the standard texts and no others. -/
def Standard (reader : Reader) (fromJson : Bytes → Option Json) : Prop :=
  ∀ text value, fromJson text = some value ↔ IsJson reader text value

variable {fromJson : Bytes → Option Json} {key : String}

theorem Reader.scalar_of_key {token : Bytes} (read : reader.key token = some key) :
    reader.scalar token = some (.string key) := by
  obtain ⟨rest, body, rfl, -⟩ := Reader.quoted_of_key read
  have other (text : Bytes) (first : text.head? ≠ some quote) : quote :: rest ≠ text := by
    rintro rfl
    exact first rfl
  rw [Reader.scalar, if_neg (other _ (by decide)), if_neg (other _ (by decide)),
    if_neg (other _ (by decide)), read]

theorem parse_key (standard : Standard reader fromJson) {token : Bytes} (read : reader.key token = some key) :
    fromJson ([openArray] ++ token ++ [closeArray]) = some (.array [.string key]) := by
  refine (standard _ _).mpr ⟨.array (.cons (.scalar token) .nil), fun _ => [], fun _ => rfl, ?_, ?_⟩
  · simp [weave, Tree.tokens, Items.tokens, Items.more]
  · simp [Tree.value, Items.values, Reader.scalar_of_key read]

theorem readKey_ok (standard : Standard reader fromJson) {token : Bytes}
    (read : reader.key token = some key) : readKey fromJson token = .ok key := by
  rw [readKey, parse_key standard read]
  rfl

def membersLoop (fromJson : Bytes → Option Json) (value : String → Step) (keys : List String) (fuel : Nat) :
    Step := fun walk =>
  walkMembers fromJson value fuel keys walk >>= expect .outOfRange closeObject .objectEndInvalid

def moreMembers (fromJson : Bytes → Option Json) (value : String → Step) (keys : List String) (fuel : Nat) :
    Step := fun walk =>
  afterComma (walkMembers fromJson value fuel keys) walk >>= expect .outOfRange closeObject .objectEndInvalid

theorem agree_members_nil (value : JsonObject → String → Step) (keys : List String) :
    Agree (fun doc => membersLoop fromJson (value doc) keys) (fun _ _ => skip) [[closeObject]] ∧
      Agree (fun doc => moreMembers fromJson (value doc) keys) (fun _ _ => skip) [[closeObject]] := by
  refine ⟨agree_close fun _ fuel token rest marks text => ?_, agree_close fun _ fuel token rest marks text => ?_⟩
  · simp only [membersLoop, walkMembers, text, if_true]
    exact @expect_ok token rest marks .outOfRange .objectEndInvalid closeObject text
  · rw [moreMembers, afterComma_of_close text (by decide), ok_bind, expect_ok text]

variable {value : JsonObject → String → Step}

theorem agree_members_cons (standard : Standard reader fromJson)
    {keys : List String} {key : Bytes} {name : String} (read : reader.key key = some name) (texts : List Bytes) :
    Agree (fun doc => membersLoop fromJson (value doc) keys)
      (fun doc fuel walk => skip walk >>= fun walk => skip walk >>= fun walk =>
        if name ∈ keys then .error .duplicateKey
        else value doc name walk >>= moreMembers fromJson (value doc) (keys ++ [name]) (fuel - 1))
      (key :: [colon] :: texts) := by
  intro doc fuel tokens rest marks whole enough
  obtain ⟨token, tokens, rfl, rfl, later⟩ := List.map_eq_cons_iff.mp whole
  obtain ⟨separator, tokens, rfl, text, -⟩ := List.map_eq_cons_iff.mp later
  obtain ⟨fuel, rfl⟩ : ∃ less, fuel = less + 1 := ⟨fuel - 1, by rw [List.length_cons] at enough; omega⟩
  have notClose : token.text ≠ [closeObject] := fun same =>
    Reader.key_ne_structural read (same ▸ structural_single (by decide))
  simp only [membersLoop, walkMembers, List.cons_append, if_neg notClose, walkMember,
    readKey_ok standard read, ok_bind, expect_ok text, bind_assoc]
  split
  · rfl
  · rw [bind_assoc]
    rfl

theorem walkMembers_turns (standard : Standard reader fromJson)
    {members members' : Members} (turn : MembersTurn reader doc valid value start steps members members' ids)
    {keys : List String} (distinct : keys.Nodup) :
    Turns doc (keys ++ namesOf reader members).Nodup valid (fun doc => membersLoop fromJson (value doc) keys)
        start steps members.tokens members'.tokens ids ∧
      Turns doc (keys ++ namesOf reader members).Nodup valid (fun doc => moreMembers fromJson (value doc) keys)
        start steps members.more members'.more ids := by
  induction turn generalizing keys with
  | nil =>
    have all : (keys ++ namesOf reader .nil).Nodup := by rwa [namesOf, List.append_nil]
    obtain ⟨first, more⟩ := @agree_members_nil fromJson value keys
    exact ⟨(Turns.skip all).congr first first, (Turns.skip all).congr more more⟩
  | @cons start steps start' steps' total key name tree tree' members members' ids ids' known turns next sum
      later ih =>
    have skipping {step : JsonObject → Nat → Step} {start steps : Int} {text : Bytes} {old new : List Bytes}
        {ids : List Json} (turns : Turns doc (keys ++ namesOf reader (.cons key tree members)).Nodup valid step
          start steps old new ids) :=
      (@Turns.skip doc True valid start trivial text).bind turns (Int.add_zero _) (Int.zero_add _)
        fun fuel n enough => (Nat.le_of_add_left_le enough : n ≤ fuel)
    have inner : Turns doc (keys ++ namesOf reader (.cons key tree members)).Nodup valid
        (fun doc fuel walk => if name ∈ keys then .error .duplicateKey
          else value doc name walk >>= moreMembers fromJson (value doc) (keys ++ [name]) (fuel - 1))
        start total (tree.tokens ++ members.more) (tree'.tokens ++ members'.more) (ids ++ ids') := by
      by_cases new : name ∈ keys
      · -- A key that was read before makes the walk fail.
        simp only [if_pos new]
        exact .fails (List.rel_append turns.rewritten (ih List.nodup_nil).2.rewritten) (by intros; exact nofun)
      · have grown : (keys ++ [name]).Nodup := by
          rw [List.nodup_append]
          refine ⟨distinct, List.nodup_singleton _, fun other inside same single => ?_⟩
          rintro rfl
          exact new (List.mem_singleton.mp single ▸ inside)
        simp only [if_neg new]
        refine (turns.bind (ih grown).2 next sum fun fuel n (enough : tree.tokens.length + n ≤ fuel) =>
          (by have := tokens_length tree; omega : n ≤ fuel - 1)).imp (fun all => ?_)
            fun _ sure => ⟨sure, rfl, rfl⟩
        rwa [List.append_assoc, List.singleton_append, ← Option.getD_some (a := name) (b := ""), ← known] at all
    have whole := (skipping (skipping inner)).congr (agree_members_cons standard known _)
      (agree_members_cons standard known _)
    exact ⟨whole, (skipping whole).congr (agree_comma _) (agree_comma _)⟩

end Loops

/-! ## Outside the profiles -/

section Plain

variable {reader : Reader} {fromJson : Bytes → Option Json} {doc : JsonObject} {root profile : Bool} {room : Nat}

theorem walkValue_plain (walkTree : Bool → Step) (key : String) :
    walkValue doc walkTree false false key = walkTree false := by
  funext state
  simp only [walkValue, Bool.false_eq_true, false_and, if_false]
  rfl

theorem agree_object (texts : List Bytes) :
    Agree (fun doc _ => walk fromJson doc (room + 1) root profile)
      (fun doc _ walk => skip walk >>= fun walk =>
        membersLoop fromJson (walkValue doc (ProfilePause.walk fromJson doc room false) root profile) []
          walk.tokens.length walk)
      ([openObject] :: texts) := by
  intro doc fuel tokens rest marks whole enough
  obtain ⟨token, tokens, rfl, text, -⟩ := List.map_eq_cons_iff.mp whole
  simp only [List.cons_append, walk, text, if_true]
  rfl

theorem agree_array (texts : List Bytes) :
    Agree (fun doc _ => walk fromJson doc (room + 1) root profile)
      (fun doc _ walk => skip walk >>= fun walk =>
        itemsLoop (ProfilePause.walk fromJson doc room false false) walk.tokens.length walk)
      ([openArray] :: texts) := by
  intro doc fuel tokens rest marks whole enough
  obtain ⟨token, tokens, rfl, text, -⟩ := List.map_eq_cons_iff.mp whole
  have other : ¬ [openArray] = [openObject] := by decide
  simp only [List.cons_append, walk, text, if_neg other, if_true]
  rfl

theorem agree_scalar {text : Bytes} {value : Json} (read : reader.scalar text = some value) :
    Agree (fun doc _ => walk fromJson doc (room + 1) root profile) (fun _ _ => skip) [text] := by
  intro doc fuel tokens rest marks whole enough
  obtain ⟨token, rfl, rfl⟩ := single_text whole
  have other (byte : UInt8) (known : isStructural byte = true) : token.text ≠ [byte] :=
    fun same => Reader.scalar_ne_structural read (same ▸ structural_single known)
  simp only [List.singleton_append, walk, if_neg (other openObject (by decide)),
    if_neg (other openArray (by decide))]
  rfl

variable {valid : Prop} {start steps : Int} {ids : List Json}

theorem Turns.after_token {known : Prop} {step : JsonObject → Nat → Step} {text : Bytes} {old new : List Bytes}
    (turns : Turns doc known valid step start steps old new ids) :
    Turns doc known valid (fun doc _ walk => ProfilePause.skip walk >>= fun walk => step doc walk.tokens.length walk)
      start steps (text :: old) (text :: new) ids :=
  (@Turns.skip doc True valid start trivial text).bind turns.own (Int.add_zero _) (Int.zero_add _)
    fun fuel n enough => (Nat.le_of_add_left_le enough : n ≤ fuel)

mutual

theorem walk_turns (standard : Standard reader fromJson) {tree : Tree} {value : Json}
    (read : tree.value reader = some value) (room : Nat) :
    Turns doc True valid (fun doc _ => walk fromJson doc room false false) start 0 tree.tokens tree.tokens [] := by
  cases room with
  | zero => exact .fails (.refl _) (by intros; exact nofun)
  | succ room =>
    cases tree with
    | scalar text => exact (Turns.skip trivial).congr (agree_scalar read) (agree_scalar read)
    | array items =>
      obtain ⟨values, known, -⟩ := Option.map_eq_some_iff.mp read
      exact (walkItems_turns (items_turn standard known room)).1.after_token.congr (agree_array _) (agree_array _)
    | object members =>
      obtain ⟨values, known, -⟩ := Option.map_eq_some_iff.mp read
      have turns := (walkMembers_turns standard (members_turn standard known room) List.nodup_nil).1
      exact (turns.after_token.congr (agree_object _) (agree_object _)).imp (fun _ => trivial)
        fun _ sure => ⟨sure, rfl, rfl⟩

theorem items_turn (standard : Standard reader fromJson) {items : Items} {values : List Json}
    (read : items.values reader = some values) (room : Nat) :
    ItemsTurn reader doc valid (fun doc => walk fromJson doc room false false) start 0 items items [] := by
  cases items with
  | nil => exact .nil
  | cons tree items =>
    obtain ⟨value, first, others, later, -⟩ := Items.values_cons read
    exact .cons first first (walk_turns standard first room) (Int.add_zero _) (Int.add_zero _)
      (items_turn standard later room)

theorem members_turn (standard : Standard reader fromJson) {members : Members}
    {values : List (String × Json)} (read : members.values reader = some values) (room : Nat) :
    MembersTurn reader doc valid (fun doc => walkValue doc (walk fromJson doc room false) false false) start 0
      members members [] := by
  cases members with
  | nil => exact .nil
  | cons key tree members =>
    obtain ⟨name, known, json, first, others, later, -⟩ := Members.values_cons read
    have value : Turns doc True valid (fun doc _ => walkValue doc (walk fromJson doc room false) false false name)
        start 0 tree.tokens tree.tokens [] := by
      simp only [walkValue_plain]
      exact walk_turns standard first room
    exact .cons known value (Int.add_zero _) (Int.add_zero _) (members_turn standard later room)

end

end Plain

end Amnezia.Headless.ProfilePause
