import Amnezia.Ipc.OpenVpnConfig

/-!
# How OpenVPN reads a configuration

A line whose only word is a tag opens an inline block, which ends at the first line that begins with the
closing tag; the contents of a connection block are read again as lines.
-/

namespace Amnezia.Ipc

def isBlankByte (byte : UInt8) : Bool := byte = 32 || (9 ≤ byte && byte ≤ 13)

inductive WordState where
  | initial
  | unquoted
  | quoted
  | singleQuoted
deriving DecidableEq, Repr

-- A byte after a backslash may be a backslash, a double quote or a blank.
def mayEscape (byte : UInt8) : Bool := byte = 92 || byte = 34 || isBlankByte byte

/-- The words of a line from a state on. `word` holds the bytes of the word that is being read, and
`none` is a line that OpenVPN refuses. -/
@[grind =] def readWords : WordState → Bool → Bytes → Bytes → Option (List Bytes)
  | .initial, _, _, [] => some []
  | .unquoted, false, word, [] => some [word]
  | _, _, _, [] => none
  | state, backslash, word, byte :: rest =>
    if backslash = false ∧ byte = 92 ∧ state ≠ .singleQuoted then readWords state true word rest
    else match state with
      | .initial =>
        if isBlankByte byte then readWords .initial false [] rest
        else if byte = 59 ∨ byte = 35 then some []
        else if backslash = false ∧ byte = 34 then readWords .quoted false [] rest
        else if backslash = false ∧ byte = 39 then readWords .singleQuoted false [] rest
        else if backslash = true ∧ !mayEscape byte then none
        else readWords .unquoted false [byte] rest
      | .unquoted =>
        if backslash = false ∧ isBlankByte byte then (readWords .initial false [] rest).map (word :: ·)
        else if backslash = true ∧ !mayEscape byte then none
        else readWords .unquoted false (word ++ [byte]) rest
      | .quoted =>
        if backslash = false ∧ byte = 34 then (readWords .initial false [] rest).map (word :: ·)
        else if backslash = true ∧ !mayEscape byte then none
        else readWords .quoted false (word ++ [byte]) rest
      | .singleQuoted =>
        if byte = 39 then (readWords .initial false [] rest).map (word :: ·)
        else readWords .singleQuoted false (word ++ [byte]) rest

def lineWords (line : Bytes) : Option (List Bytes) := readWords .initial false [] line

def isOrdinary (byte : UInt8) : Bool := byte ≠ 92 && !isBlankByte byte

def beginsWord (byte : UInt8) : Bool :=
  isOrdinary byte && byte ≠ 59 && byte ≠ 35 && byte ≠ 34 && byte ≠ 39

theorem readWords_blanks (blanks : Bytes) (blank : ∀ byte ∈ blanks, isBlankByte byte = true) (rest : Bytes) :
    readWords .initial false [] (blanks ++ rest) = readWords .initial false [] rest := by
  induction blanks with
  | nil => rfl
  | cons byte blanks ih =>
    have here := blank byte List.mem_cons_self
    have notBackslash : byte ≠ 92 := by
      rintro rfl
      exact absurd here (by decide)
    rw [List.cons_append, readWords, if_neg (by simp [notBackslash]), if_pos here]
    exact ih fun other member => blank other (List.mem_cons_of_mem _ member)

theorem readWords_ordinary {token : Bytes} (ordinary : ∀ byte ∈ token, isOrdinary byte = true)
    (word rest : Bytes) :
    readWords .unquoted false word (token ++ rest) = readWords .unquoted false (word ++ token) rest := by
  induction token generalizing word with
  | nil => simp
  | cons byte token ih =>
    have here := ordinary byte List.mem_cons_self
    simp only [isOrdinary, Bool.and_eq_true, decide_eq_true_eq, Bool.not_eq_true'] at here
    rw [List.cons_append, readWords, if_neg (by simp [here.1]), if_neg (by simp [here.2]), if_neg (by simp),
      ih fun other member => ordinary other (List.mem_cons_of_mem _ member)]
    simp

variable {byte : UInt8}

theorem readWords_start (begins : beginsWord byte = true) (rest : Bytes) :
    readWords .initial false [] (byte :: rest) = readWords .unquoted false [byte] rest := by
  simp only [beginsWord, isOrdinary, Bool.and_eq_true, decide_eq_true_eq, Bool.not_eq_true'] at begins
  obtain ⟨⟨⟨⟨⟨backslash, blank⟩, semicolon⟩, hash⟩, quote⟩, single⟩ := begins
  rw [readWords, if_neg (by simp [backslash]), if_neg (by simp [blank]), if_neg (by simp [semicolon, hash]),
    if_neg (by simp [quote]), if_neg (by simp [single]), if_neg (by simp)]

theorem readWords_token {token : Bytes} (begins : beginsWord byte = true)
    (ordinary : ∀ byte ∈ token, isOrdinary byte = true) (rest : Bytes)
    (ends : ∀ next ∈ rest.head?, isBlankByte next = true) :
    readWords .initial false [] (byte :: token ++ rest) =
      (readWords .initial false [] rest).map ((byte :: token) :: ·) := by
  rw [List.cons_append, readWords_start begins, readWords_ordinary ordinary]
  cases rest with
  | nil => rfl
  | cons next rest =>
    have blank := ends next rfl
    have notBackslash : next ≠ 92 := by
      rintro rfl
      exact absurd blank (by decide)
    have skip : readWords .initial false [] (next :: rest) = readWords .initial false [] rest :=
      readWords_blanks [next] (by simpa using blank) rest
    rw [skip, readWords, if_neg (by simp [notBackslash])]
    exact if_pos ⟨rfl, blank⟩

theorem readWords_quoted {inner : Bytes} (plain : ∀ byte ∈ inner, byte ≠ 34 ∧ byte ≠ 92) (word rest : Bytes) :
    readWords .quoted false word (inner ++ 34 :: rest) =
      (readWords .initial false [] rest).map ((word ++ inner) :: ·) := by
  induction inner generalizing word with
  | nil => simp [readWords]
  | cons byte inner ih =>
    obtain ⟨quote, backslash⟩ := plain byte List.mem_cons_self
    rw [List.cons_append, readWords, if_neg (by simp [backslash]), if_neg (by simp [quote]), if_neg (by simp),
      ih fun other member => plain other (List.mem_cons_of_mem _ member)]
    simp

theorem readWords_singleQuoted {inner : Bytes} (plain : ∀ byte ∈ inner, byte ≠ 39) (word rest : Bytes) :
    readWords .singleQuoted false word (inner ++ 39 :: rest) =
      (readWords .initial false [] rest).map ((word ++ inner) :: ·) := by
  induction inner generalizing word with
  | nil => simp [readWords]
  | cons byte inner ih =>
    have here := plain byte List.mem_cons_self
    rw [List.cons_append, readWords, if_neg (by simp), if_neg here,
      ih fun other member => plain other (List.mem_cons_of_mem _ member)]
    simp

theorem readWords_extends {backslash : Bool} {word rest : Bytes} {words : List Bytes}
    (found : readWords .unquoted backslash word rest = some words) :
    ∃ more others, words = (word ++ more) :: others := by
  induction rest generalizing backslash word with
  | nil =>
    cases backslash with
    | true => simp [readWords] at found
    | false => exact ⟨[], [], by simpa [readWords] using found.symm⟩
  | cons byte rest ih =>
    rw [readWords] at found
    split_ifs at found with escape
    · exact ih found
    · obtain ⟨others, -, rfl⟩ := Option.map_eq_some_iff.mp found
      exact ⟨[], others, by simp⟩
    · obtain ⟨more, others, rfl⟩ := ih found
      exact ⟨byte :: more, others, by simp⟩

theorem readWords_extends_start (begins : beginsWord byte = true) {rest : Bytes}
    {words : List Bytes} (found : readWords .initial false [] (byte :: rest) = some words) :
    ∃ more others, words = (byte :: more) :: others := by
  rw [readWords_start begins] at found
  exact readWords_extends found

structure Line where
  number : Nat
  bytes : Bytes

structure Directive where
  line : Nat
  name : Bytes
  arguments : List Bytes
  isInline : Bool
deriving Repr, DecidableEq

-- A leading `--` of a word of at least three bytes is dropped.
def bypassDoubleDash (word : Bytes) : Bytes :=
  match word with
  | 45 :: 45 :: byte :: rest => byte :: rest
  | _ => word

def inlineTag (word : Bytes) : Option Bytes :=
  if word.head? = some 60 ∧ word.getLast? = some 62 then some word.tail.dropLast else none

def closesBlock (tag : Bytes) (line : Line) : Bool :=
  (60 :: 47 :: tag ++ [62]).isPrefixOf (line.bytes.dropWhile isBlankByte)

def splitBlock (tag : Bytes) : List Line → Option (List Line × List Line)
  | [] => none
  | line :: rest =>
    if closesBlock tag line then some ([], rest)
    else (splitBlock tag rest).map fun (block, after) => (line :: block, after)

-- Every turn uses up a line, so as much fuel as there are lines is enough.
def readDirectives : Nat → List Line → Option (List Directive)
  | _, [] => some []
  | 0, _ => none
  | fuel + 1, line :: rest =>
    match lineWords line.bytes with
    | none => none
    | some [] => readDirectives fuel rest
    | some (word :: arguments) =>
      let name := bypassDoubleDash word
      match (if arguments = [] then inlineTag name else none) with
      | none => do
          let others ← readDirectives fuel rest
          return ⟨line.number, name, arguments, false⟩ :: others
      | some tag => do
          let (block, after) ← splitBlock tag rest
          let inner ← (if tag = ascii "connection" then readDirectives fuel block else some [])
          let others ← readDirectives fuel after
          return ⟨line.number, tag, [], true⟩ :: inner ++ others

def terminated : List Bytes → List Bytes
  | [] => []
  | [last] => [last]
  | line :: rest => (line ++ [10]) :: terminated rest

def physicalLines (content : Bytes) : List Line :=
  (terminated (content.splitOn 10)).mapIdx fun number bytes => ⟨number, bytes⟩

/-- The directives that OpenVPN reads, or `none` when it refuses the configuration. -/
def readConfig (content : Bytes) : Option (List Directive) :=
  let lines := physicalLines content
  readDirectives lines.length lines

/-- The directive is what the line says, as a plain line or as the opening of a block. -/
def ReadsAs (line : Line) (directive : Directive) : Prop :=
  directive.line = line.number ∧ ∃ word arguments, lineWords line.bytes = some (word :: arguments) ∧
    ((directive.name = bypassDoubleDash word ∧ directive.arguments = arguments ∧ directive.isInline = false) ∨
      (arguments = [] ∧ inlineTag (bypassDoubleDash word) = some directive.name ∧
        directive.arguments = [] ∧ directive.isInline = true))

end Amnezia.Ipc
