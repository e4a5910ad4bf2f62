import Amnezia.Ipc.OpenVpnReader

/-! # What the check of a configuration guarantees -/

namespace Amnezia.Ipc
open Lib.Utf8

/-! ## Permitted directives -/

def samePath (left right : Text) : Prop :=
  (left.head? = some '/' ↔ right.head? = some '/') ∧ segments left = segments right

def RunsTrustedScript (policy : ScriptPolicy) (directive : Directive) : Prop :=
  ∃ path text, directive.arguments = [path] ∧ decode path = some text ∧
    samePath text policy.trustedResolverScript

def IsInlineMarker (argument : Bytes) : Prop :=
  ∃ text, argument = toBytes text ∧ toLower text = literal "[inline]"

structure Permitted (policy : ScriptPolicy) (directive : Directive) : Prop where
  privileged : ∀ name ∈ forbiddenDirectives, directive.name = toBytes name →
    (name = literal "script-security" ∧ directive.arguments = [ascii "2"]) ∨
      ((name = literal "up" ∨ name = literal "down") ∧ RunsTrustedScript policy directive)
  external : ∀ name ∈ externalFileDirectives, directive.name = toBytes name →
    directive.isInline = true ∨ ∀ argument ∈ directive.arguments.head?, IsInlineMarker argument

def isNameByte (byte : UInt8) : Bool := isNameChar (Char.ofUInt8 byte)

variable {char : Char} {byte : UInt8} {name line value rest after : Text} {directive : Directive}
variable {bytes tail word middle : Bytes} {arguments : List Bytes} {policy : ScriptPolicy}

theorem isAscii_of_isNameChar (isName : isNameChar char = true) : isAscii char = true := by
  refine decide_eq_true (Nat.lt_of_le_of_lt (m := 122) ?_ (by decide))
  rw [isNameChar, Bool.or_eq_true, Bool.or_eq_true] at isName
  rcases isName with (alphanum | underscore) | dash
  · rcases (Bool.or_eq_true _ _).mp alphanum with alpha | digit
    · rcases (Bool.or_eq_true _ _).mp alpha with upper | lower
      · exact Nat.le_trans (of_decide_eq_true (p := _ ∧ _) upper).2 (by decide : 90 ≤ 122)
      · exact of_decide_eq_true ((Bool.and_eq_true _ _).mp lower).2
    · exact Nat.le_trans (of_decide_eq_true ((Bool.and_eq_true _ _).mp digit).2) (by decide : 57 ≤ 122)
  · rw [of_decide_eq_true underscore]
    decide
  · rw [of_decide_eq_true dash]
    decide

theorem ofUInt8_ofNat (ascii : isAscii char = true) :
    Char.ofUInt8 (UInt8.ofNat char.toNat) = char :=
  (char_eq_iff _ _).mpr (toNat_ofNat_ascii (of_decide_eq_true ascii))

theorem isNameByte_eq (ascii : isAscii char = true) :
    isNameByte (UInt8.ofNat char.toNat) = isNameChar char := by
  rw [isNameByte, ofUInt8_ofNat ascii]

theorem isNameByte_of_high (high : 128 ≤ byte.toNat) : isNameByte byte = false := by
  rw [← Bool.not_eq_true]
  intro isName
  exact absurd (of_decide_eq_true (isAscii_of_isNameChar isName)) (Nat.not_lt.mpr high)

theorem listed_spelling : ((forbiddenDirectives ++ externalFileDirectives).all fun name =>
    name.all fun char => isNameChar char && char.toLower == char) = true := by
  decide

theorem spelling_of_listed (listed : name ∈ forbiddenDirectives ++ externalFileDirectives) (member : char ∈ name) :
    isNameChar char = true ∧ char.toLower = char := by
  have spelled := List.all_eq_true.mp (List.all_eq_true.mp listed_spelling name listed) char member
  rwa [Bool.and_eq_true, beq_iff_eq] at spelled

theorem permitted_of_unlisted (policy : ScriptPolicy)
    (unlisted : ∀ name ∈ forbiddenDirectives ++ externalFileDirectives, directive.name ≠ toBytes name) :
    Permitted policy directive :=
  ⟨fun name listed same => (unlisted name (List.mem_append_left _ listed) same).elim,
    fun name listed same => (unlisted name (List.mem_append_right _ listed) same).elim⟩

theorem permitted_of_foreign (policy : ScriptPolicy)
    (member : byte ∈ directive.name) (foreign : isNameByte byte = false) : Permitted policy directive := by
  refine permitted_of_unlisted policy fun name listed same => ?_
  rw [same] at member
  obtain ⟨char, inside, rfl⟩ := List.mem_map.mp member
  have isName := (spelling_of_listed listed inside).1
  rw [isNameByte_eq (isAscii_of_isNameChar isName), isName] at foreign
  cases foreign

/-! ## The shape of a line -/

theorem isAscii_of_isBlank (blank : isBlank char = true) : isAscii char = true := by
  simp only [isBlank, Bool.or_eq_true, decide_eq_true_eq, Bool.and_eq_true] at blank
  rcases blank with rfl | ⟨-, below⟩
  · decide
  · exact decide_eq_true (by omega)

theorem isBlankByte_eq (ascii : isAscii char = true) :
    isBlankByte (UInt8.ofNat char.toNat) = isBlank char := by
  have byte := toNat_ofNat_ascii (of_decide_eq_true ascii)
  rw [Bool.eq_iff_iff]
  simp only [isBlankByte, isBlank, Bool.or_eq_true, Bool.and_eq_true, decide_eq_true_eq, char_eq_iff,
    UInt8.le_iff_toNat_le, ← UInt8.toNat_inj, byte]
  rfl

theorem isBlank_of_isSpace (space : isSpace char = true) (ascii : isAscii char = true) :
    isBlank char = true := by
  have small := of_decide_eq_true ascii
  simp only [isSpace, Bool.or_eq_true, decide_eq_true_eq, Bool.and_eq_true, List.mem_cons,
    List.not_mem_nil, or_false] at space
  rcases space with (blank | listed) | range
  · exact blank
  · omega
  · omega

theorem head_dropWhile_not {α : Type} (drops : α → Bool) (items : List α) :
    ∀ item ∈ (items.dropWhile drops).head?, drops item = false := by
  intro item first
  have := List.head?_dropWhile_not drops items
  rwa [first] at this

theorem trimmed_split (line : Text) : ∃ front back, line = front ++ trimmed line ++ back ∧
    (∀ char ∈ front, isSpace char = true) ∧ (∀ char ∈ back, isSpace char = true) ∧
    (trimmed line = [] → back = []) ∧ ∀ char ∈ (trimmed line).head?, isSpace char = false := by
  refine ⟨line.takeWhile isSpace, (line.dropWhile isSpace).rtakeWhile isSpace, ?_, ?_, ?_, ?_, ?_⟩
  · rw [List.append_assoc, trimmed, List.rdropWhile_append_rtakeWhile, List.takeWhile_append_dropWhile]
  · exact fun char member => List.mem_takeWhile_imp member
  · exact fun char member => List.mem_rtakeWhile_imp member
  · intro nothing
    have spaces := List.rdropWhile_eq_nil_iff.mp nothing
    cases rest : line.dropWhile isSpace with
    | nil => rfl
    | cons char others =>
      have outside := head_dropWhile_not isSpace line char (by rw [rest]; rfl)
      rw [spaces char (by rw [rest]; exact List.mem_cons_self)] at outside
      cases outside
  · intro char first
    refine head_dropWhile_not isSpace line char ?_
    obtain ⟨others, equal⟩ := List.head?_eq_some_iff.mp first
    obtain ⟨back, whole⟩ : trimmed line <+: line.dropWhile isSpace := List.rdropWhile_prefix isSpace _
    rw [← whole, equal]
    rfl

theorem beginsWord_of_high (high : 128 ≤ byte.toNat) : beginsWord byte = true := by
  have other (small : UInt8) (low : small.toNat < 128) : byte ≠ small := by
    rintro rfl
    omega
  have notBlank : isBlankByte byte = false := by
    simp only [isBlankByte, Bool.or_eq_false_iff, Bool.and_eq_false_iff, decide_eq_false_iff_not,
      UInt8.le_iff_toNat_le]
    exact ⟨other 32 (by decide), .inr (Nat.not_le.mpr (Nat.lt_of_lt_of_le (by decide) high))⟩
  simp [beginsWord, isOrdinary, notBlank, other 92 (by decide), other 59 (by decide), other 35 (by decide),
    other 34 (by decide), other 39 (by decide)]

theorem isBlankByte_of_mem_toBytes {blanks : Text} (blank : ∀ char ∈ blanks, isBlank char = true) :
    ∀ byte ∈ toBytes blanks, isBlankByte byte = true := by
  intro byte member
  obtain ⟨char, inside, rfl⟩ := List.mem_map.mp member
  rw [isBlankByte_eq (isAscii_of_isBlank (blank char inside)), blank char inside]

theorem isBlankByte_of_encodes {blanks : Text} (encodes : Encodes bytes blanks)
    (blank : ∀ char ∈ blanks, isBlank char = true) : ∀ byte ∈ bytes, isBlankByte byte = true := by
  rw [encodes.eq_toBytes fun char member => isAscii_of_isBlank (blank char member)]
  exact isBlankByte_of_mem_toBytes blank

theorem words_of_line (encodes : Encodes bytes line)
    (blankTail : ∀ byte ∈ tail, isBlankByte byte = true)
    (words : lineWords (bytes ++ tail) = some (word :: arguments)) :
    (∃ byte more, word = byte :: more ∧ 128 ≤ byte.toNat) ∨
      ∃ middle back rest, Encodes middle (trimmed line) ∧ Encodes back rest ∧
        (∀ char ∈ rest, isSpace char = true) ∧ trimmed line ≠ [] ∧ (∀ char ∈ rest, char ∈ line) ∧
        readWords .initial false [] (middle ++ (back ++ tail)) = some (word :: arguments) := by
  obtain ⟨front, rest, split, spaces, trailing, empty, -⟩ := trimmed_split line
  have whole := encodes
  rw [split] at whole
  obtain ⟨_, back, rfl, whole, backEncodes⟩ := whole.split
  obtain ⟨frontBytes, middle, rfl, frontEncodes, middleEncodes⟩ := whole.split
  rw [lineWords, List.append_assoc, List.append_assoc] at words
  have cut : front = front.takeWhile isBlank ++ front.dropWhile isBlank :=
    (List.takeWhile_append_dropWhile ..).symm
  have blanks : ∀ char ∈ front.takeWhile isBlank, isBlank char = true := fun _ => List.mem_takeWhile_imp
  rw [cut] at frontEncodes
  obtain ⟨blankBytes, others, rfl, blankEncodes, otherEncodes⟩ := frontEncodes.split
  rw [List.append_assoc, readWords_blanks _ (isBlankByte_of_encodes blankEncodes blanks)] at words
  cases more : front.dropWhile isBlank with
  | nil =>
    rw [more] at otherEncodes
    cases otherEncodes with
    | nil =>
      refine .inr ⟨middle, back, rest, middleEncodes, backEncodes, trailing, fun nothing => ?_, ?_, words⟩
      · rw [empty nothing] at backEncodes
        rw [nothing] at middleEncodes
        cases middleEncodes
        cases backEncodes
        have none := readWords_blanks tail blankTail []
        rw [List.append_nil] at none
        rw [List.nil_append, List.nil_append, List.nil_append, none] at words
        cases words
      · intro char member
        rw [split]
        exact List.mem_append_right _ member
  | cons char more' =>
    rw [more] at otherEncodes
    have space : isSpace char = true := spaces char (by rw [cut, more]; simp)
    have notBlank : isBlank char = false := head_dropWhile_not isBlank front char (by rw [more]; rfl)
    have outside : 128 ≤ char.toNat := by
      by_contra small
      rw [isBlank_of_isSpace space (decide_eq_true (Nat.not_le.mp small))] at notBlank
      cases notBlank
    obtain ⟨byte, remaining, rfl, high⟩ := otherEncodes.head_high outside
    obtain ⟨suffix, following, equal⟩ := readWords_extends_start (beginsWord_of_high high) words
    cases equal
    exact .inl ⟨byte, suffix, rfl, high⟩

/-! ## What the patterns match -/

theorem dropWhile_blank_of_first (first : ∀ char ∈ line.head?, isSpace char = false) :
    line.dropWhile isBlank = line := by
  cases line with
  | nil => rfl
  | cons char rest =>
    have notSpace := first char rfl
    refine List.dropWhile_cons_of_neg fun blank => ?_
    simp [isSpace, blank] at notSpace

theorem matchTag_split {marker : Text} (first : ∀ char ∈ line.head?, isSpace char = false)
    (found : matchTag marker line = some name) :
    ∃ rest, line = marker ++ name ++ '>' :: rest ∧ ∀ char ∈ name, isNameChar char = true := by
  unfold matchTag at found
  rw [dropWhile_blank_of_first first] at found
  dsimp only at found
  split at found
  · rename_i rest tail
    split_ifs at found with both
    cases found
    obtain ⟨after, rfl⟩ := List.isPrefixOf_iff_prefix.mp both.1
    rw [List.drop_left] at tail ⊢
    refine ⟨rest, ?_, fun char => List.mem_takeWhile_imp⟩
    rw [List.append_assoc, ← tail, List.takeWhile_append_dropWhile]
  · cases found

theorem dropDashes_split (line : Text) : ∃ dashes, line = dashes ++ dropDashes line ∧
    (dashes = ['-', '-'] ∨
      (dashes = [] ∧ ∀ rest, line = '-' :: '-' :: rest → rest.head?.any isNameChar = false)) := by
  unfold dropDashes
  split
  · split_ifs with named
    · exact ⟨['-', '-'], rfl, .inl rfl⟩
    · refine ⟨[], rfl, .inr ⟨rfl, fun rest equal => ?_⟩⟩
      cases equal
      simpa using named
  · rename_i other
    exact ⟨[], rfl, .inr ⟨rfl, fun rest equal => (other rest equal).elim⟩⟩

theorem bypassDoubleDash_of_undashed (line : Text) (begins : name <+: line)
    (named : ∀ char ∈ name, isNameChar char = true)
    (undashed : ∀ rest, line = '-' :: '-' :: rest → rest.head?.any isNameChar = false) :
    bypassDoubleDash (toBytes name) = toBytes name := by
  have dash {char : Char} (isName : isNameChar char = true) (same : UInt8.ofNat char.toNat = 45) : char = '-' := by
    have byte := toNat_ofNat_ascii (of_decide_eq_true (isAscii_of_isNameChar isName))
    rw [same] at byte
    exact (char_eq_iff _ _).mpr byte.symm
  unfold bypassDoubleDash
  split
  · rename_i third others equal
    obtain ⟨after, rfl⟩ := begins
    match name, equal with
    | [_], equal => simp [toBytes] at equal
    | [_, _], equal => simp [toBytes] at equal
    | a :: b :: c :: more, equal =>
      simp only [toBytes, List.map_cons, List.cons.injEq] at equal
      have first := dash (named a (by simp)) equal.1
      have second := dash (named b (by simp)) equal.2.1
      subst first second
      have := undashed (c :: more ++ after) rfl
      simp [named c (by simp)] at this
  · rfl

theorem matchDirective_split (first : ∀ char ∈ line.head?, isSpace char = false)
    (found : matchDirective line = some (name, value)) :
    ∃ dashes after, line = dashes ++ name ++ after ∧ name ≠ [] ∧ (∀ char ∈ name, isNameChar char = true) ∧
      (∀ char ∈ after.head?, isBlank char = true) ∧ value = after.dropWhile isBlank ∧
      (dashes = ['-', '-'] ∨ dashes = []) ∧ bypassDoubleDash (toBytes (dashes ++ name)) = toBytes name := by
  unfold matchDirective at found
  rw [dropWhile_blank_of_first first] at found
  obtain ⟨dashes, split, kind⟩ := dropDashes_split line
  dsimp only at found
  split_ifs at found with empty ends
  cases found
  have named : ∀ char ∈ (dropDashes line).takeWhile isNameChar, isNameChar char = true :=
    fun _ => List.mem_takeWhile_imp
  refine ⟨dashes, (dropDashes line).dropWhile isNameChar, ?_, empty, named, ?_, rfl, kind.imp_right And.left, ?_⟩
  · rw [List.append_assoc, List.takeWhile_append_dropWhile, ← split]
  · intro char head
    rcases ends with nothing | blank
    · rw [nothing] at head
      cases head
    · rw [head] at blank
      simpa using blank
  · rcases kind with rfl | ⟨rfl, undashed⟩
    · obtain ⟨char, more, equal⟩ := List.exists_cons_of_ne_nil empty
      rw [equal]
      rfl
    · rw [List.nil_append] at split ⊢
      refine bypassDoubleDash_of_undashed line ?_ named undashed
      rw [← split]
      exact List.takeWhile_prefix _

/-! ## Lines that are let through -/

def isPathChar (char : Char) : Bool :=
  isAscii char && !isBlank char && char ≠ '"' && char ≠ '\'' && char ≠ '\\'

def PlainPath (path : Text) : Prop := path.head? = some '/' ∧ ['.', '.'] ∉ segments path

def PlainScript (policy : ScriptPolicy) (value : Text) : Prop :=
  (unquote value).all isPathChar = true ∧ PlainPath (unquote value) ∧ PlainPath policy.trustedResolverScript

/-- The check lets the line pass without comparing what OpenVPN compares: an unknown tag, or an
exempted directive that is not written plainly. -/
def Irregular (policy : ScriptPolicy) (line : Text) : Prop :=
  (∃ tag, matchOpenTag (trimmed line) = some tag ∧ toLower tag ∉ literal "connection" :: dataBlocks) ∨
    ∃ name rest, matchDirective (trimmed line) = some (name, rest) ∧
      toLower name ∈ forbiddenDirectives ++ externalFileDirectives ∧
      ¬ (line.all isAscii = true ∧
        (toLower name = literal "up" ∨ toLower name = literal "down" → PlainScript policy (trimmed rest)))

theorem toLower_listed (listed : name ∈ forbiddenDirectives ++ externalFileDirectives) :
    toLower name = name :=
  (List.map_congr_left fun _ member => (spelling_of_listed listed member).2).trans (List.map_id name)

theorem eq_of_toBytes_listed {written : Text}
    (listed : name ∈ forbiddenDirectives ++ externalFileDirectives)
    (named : ∀ char ∈ written, isNameChar char = true) (same : toBytes written = toBytes name) :
    toLower written = name ∧ written = name := by
  have equal : written = name := toBytes_injective (fun char member => isAscii_of_isNameChar (named char member))
    (fun char member => isAscii_of_isNameChar (spelling_of_listed listed member).1) same
  exact ⟨equal.symm ▸ toLower_listed listed, equal⟩

theorem blocks_not_forbidden : ∀ tag ∈ literal "connection" :: dataBlocks, tag ∉ forbiddenDirectives := by
  decide

theorem beginsWord_of_isNameByte (named : isNameByte byte = true) : beginsWord byte = true := by
  have all : ∀ index : Fin 256, isNameByte (UInt8.ofFin index) = true → beginsWord (UInt8.ofFin index) = true := by
    decide +kernel
  exact all byte.toFin named

theorem isOrdinary_of_beginsWord (begins : beginsWord byte = true) : isOrdinary byte = true := by
  simp only [beginsWord, Bool.and_eq_true] at begins
  exact begins.1.1.1.1

theorem isNameByte_of_mem_toBytes (named : ∀ char ∈ name, isNameChar char = true) :
    ∀ byte ∈ toBytes name, isNameByte byte = true := by
  intro byte member
  obtain ⟨char, inside, rfl⟩ := List.mem_map.mp member
  rw [isNameByte_eq (isAscii_of_isNameChar (named char inside)), named char inside]

theorem eq_toBytes_of_named (encodes : Encodes bytes name)
    (named : ∀ char ∈ name, isNameChar char = true) : bytes = toBytes name :=
  encodes.eq_toBytes fun char member => isAscii_of_isNameChar (named char member)

def Names (word : Bytes) (arguments : List Bytes) (directive : Directive) : Prop :=
  (directive.name = bypassDoubleDash word ∧ directive.arguments = arguments ∧ directive.isInline = false) ∨
    (arguments = [] ∧ inlineTag (bypassDoubleDash word) = some directive.name ∧
      directive.arguments = [] ∧ directive.isInline = true)

theorem permitted_of_bracket (policy : ScriptPolicy) {more : Bytes}
    (names : Names (60 :: more) arguments directive) : Permitted policy directive ∨
      (directive.isInline = true ∧ directive.name = more.dropLast ∧ more.getLast? = some 62) := by
  have word : bypassDoubleDash (60 :: more) = 60 :: more := rfl
  rcases names with ⟨name, -, -⟩ | ⟨-, tag, -, inline⟩
  · rw [word] at name
    exact .inl (permitted_of_foreign policy (show 60 ∈ directive.name by simp [name]) (by decide))
  · rw [word, inlineTag] at tag
    split_ifs at tag with brackets
    cases more with
    | nil => simp at brackets
    | cons byte more =>
      refine .inr ⟨inline, (Option.some.inj tag).symm, ?_⟩
      rw [← brackets.2]
      simp

theorem words_of_tag {inside : Text}
    (ascii : ∀ char ∈ inside, isAscii char = true) (ordinary : ∀ byte ∈ toBytes inside, isOrdinary byte = true)
    (encodes : Encodes middle ('<' :: inside ++ '>' :: rest))
    (words : readWords .initial false [] (middle ++ tail) = some (word :: arguments)) :
    ∃ more, word = 60 :: (toBytes inside ++ 62 :: more) := by
  obtain ⟨frontBytes, backBytes, rfl, frontEncodes, backEncodes⟩ := Encodes.split encodes
  have front : frontBytes = 60 :: toBytes inside := frontEncodes.eq_toBytes (List.forall_mem_cons.mpr ⟨rfl, ascii⟩)
  cases backEncodes with
  | wide _ _ outside _ => exact absurd outside (by decide)
  | @ascii byte _ restBytes _ small same _ =>
    have bracket : byte = 62 := UInt8.toNat_inj.mp same.symm
    have plain : ∀ byte ∈ toBytes inside ++ [62], isOrdinary byte = true := by
      intro byte member
      rcases List.mem_append.mp member with inTag | last
      · exact ordinary byte inTag
      · rw [List.mem_singleton.mp last]
        decide
    have cut : (60 :: toBytes inside ++ 62 :: restBytes) ++ tail =
        60 :: ((toBytes inside ++ [62]) ++ (restBytes ++ tail)) := by simp
    rw [front, bracket, cut, readWords_start (by decide), readWords_ordinary plain] at words
    obtain ⟨more, others, equal⟩ := readWords_extends words
    cases equal
    exact ⟨more, by simp⟩

theorem permitted_of_openTag (policy : ScriptPolicy) {tag : Text}
    (first : ∀ char ∈ line.head?, isSpace char = false) (encodes : Encodes middle line)
    (opens : matchOpenTag line = some tag) (known : toLower tag ∈ literal "connection" :: dataBlocks)
    (words : readWords .initial false [] (middle ++ tail) = some (word :: arguments))
    (names : Names word arguments directive) : Permitted policy directive := by
  obtain ⟨rest, rfl, named⟩ := matchTag_split first opens
  have ascii : ∀ char ∈ tag, isAscii char = true := fun char member => isAscii_of_isNameChar (named char member)
  obtain ⟨more, rfl⟩ := words_of_tag ascii (fun byte member => isOrdinary_of_beginsWord
    (beginsWord_of_isNameByte (isNameByte_of_mem_toBytes named byte member))) encodes words
  rcases permitted_of_bracket policy names with permitted | ⟨inline, name, -⟩
  · exact permitted
  · cases more with
    | nil =>
      have tagName : directive.name = toBytes tag := by simpa using name
      refine ⟨fun forbidden listed same => ?_, fun _ _ _ => .inl inline⟩
      have both := List.mem_append_left externalFileDirectives listed
      rw [(eq_of_toBytes_listed both named (tagName.symm.trans same)).1] at known
      exact (blocks_not_forbidden forbidden known listed).elim
    | cons byte more =>
      exact permitted_of_foreign policy (show 62 ∈ directive.name by rw [name]; simp) (by decide)

theorem permitted_of_closeTag (policy : ScriptPolicy) {tag : Text}
    (first : ∀ char ∈ line.head?, isSpace char = false) (encodes : Encodes middle line)
    (closes : matchCloseTag line = some tag)
    (words : readWords .initial false [] (middle ++ tail) = some (word :: arguments))
    (names : Names word arguments directive) : Permitted policy directive := by
  obtain ⟨rest, rfl, named⟩ := matchTag_split first closes
  have ascii : ∀ char ∈ '/' :: tag, isAscii char = true :=
    List.forall_mem_cons.mpr ⟨rfl, fun char member => isAscii_of_isNameChar (named char member)⟩
  have ordinary : ∀ byte ∈ toBytes ('/' :: tag), isOrdinary byte = true :=
    List.forall_mem_cons.mpr ⟨by decide, fun byte member => isOrdinary_of_beginsWord
      (beginsWord_of_isNameByte (isNameByte_of_mem_toBytes named byte member))⟩
  obtain ⟨more, rfl⟩ := words_of_tag ascii ordinary encodes words
  rcases permitted_of_bracket policy names with permitted | ⟨-, name, -⟩
  · exact permitted
  · refine permitted_of_foreign policy (show 47 ∈ directive.name from ?_) (by decide)
    rw [name, List.dropLast_append_of_ne_nil (List.cons_ne_nil _ _)]
    exact List.mem_append_left _ List.mem_cons_self

/-! ## Directives with an exemption -/

theorem readWords_value {before : Text}
    (blankBefore : ∀ char ∈ before, isBlank char = true) (blankAfter : ∀ char ∈ after, isBlank char = true)
    (blankTail : ∀ byte ∈ tail, isBlankByte byte = true) {argument : Bytes}
    (reads : ∀ rest : Bytes, (∀ byte ∈ rest, isBlankByte byte = true) →
      readWords .initial false [] (toBytes value ++ rest) = (readWords .initial false [] rest).map (argument :: ·)) :
    readWords .initial false [] (toBytes (before ++ value ++ after) ++ tail) = some [argument] := by
  have blanks : ∀ byte ∈ toBytes after ++ tail, isBlankByte byte = true := by
    intro byte member
    rcases List.mem_append.mp member with inside | inside
    · exact isBlankByte_of_mem_toBytes blankAfter byte inside
    · exact blankTail byte inside
  have nothing : readWords .initial false [] (toBytes after ++ tail) = some [] := by
    have := readWords_blanks _ blanks []
    rwa [List.append_nil] at this
  have cut : toBytes (before ++ value ++ after) ++ tail =
      toBytes before ++ (toBytes value ++ (toBytes after ++ tail)) := by
    simp [toBytes]
  rw [cut, readWords_blanks _ (isBlankByte_of_mem_toBytes blankBefore), reads _ blanks, nothing]
  rfl

theorem readWords_plain (begins : beginsWord (UInt8.ofNat char.toNat) = true)
    (ordinary : ∀ byte ∈ toBytes value, isOrdinary byte = true) (rest : Bytes)
    (blank : ∀ byte ∈ rest, isBlankByte byte = true) :
    readWords .initial false [] (toBytes (char :: value) ++ rest) =
      (readWords .initial false [] rest).map (toBytes (char :: value) :: ·) :=
  readWords_token begins ordinary rest fun _ first => blank _ (List.mem_of_head? first)

theorem unquote_cases (value : Text) : value = unquote value ∨ value = '"' :: unquote value ++ ['"'] ∨
    value = '\'' :: unquote value ++ ['\''] := by
  have surrounded {quote : Char} (long : 2 ≤ value.length) (first : value.head? = some quote)
      (final : value.getLast? = some quote) : value = quote :: value.tail.dropLast ++ [quote] := by
    obtain ⟨tail, rfl⟩ := List.head?_eq_some_iff.mp first
    have present : tail ≠ [] := by
      rintro rfl
      simp at long
    rw [List.getLast?_cons_of_ne_nil present] at final
    obtain ⟨middle, rfl⟩ := List.getLast?_eq_some_iff.mp final
    simp
  unfold unquote
  split_ifs with quoted
  · rcases quoted with ⟨long, ⟨first, final⟩ | ⟨first, final⟩⟩
    · exact .inr (.inl (surrounded long first final))
    · exact .inr (.inr (surrounded long first final))
  · exact .inl rfl

theorem resolveParents_of_plain {parts : List Text} (plain : ['.', '.'] ∉ parts) : resolveParents parts = parts := by
  have loop (front : List Text) : parts.foldl
      (fun front part => if part = ['.', '.'] then front.dropLast else front ++ [part]) front = front ++ parts := by
    induction parts generalizing front with
    | nil => simp
    | cons part parts ih =>
      rw [List.mem_cons, not_or] at plain
      rw [List.foldl_cons, if_neg (Ne.symm plain.1), ih plain.2, List.append_assoc, List.singleton_append]
  exact loop []

theorem cleanAbsolutePath_of_plain (currentPath : Text) {path : Text} (plain : PlainPath path) :
    cleanAbsolutePath currentPath path = some (segments path) := by
  obtain ⟨absolute, noParent⟩ := plain
  have present : path ≠ [] := by
    rintro rfl
    cases absolute
  rw [cleanAbsolutePath, if_neg present, if_pos absolute, resolveParents_of_plain noParent]

theorem pathBytes_plain {path : Text} (plain : path.all isPathChar = true) : ∀ byte ∈ toBytes path,
    isOrdinary byte = true ∧ byte ≠ 34 ∧ byte ≠ 39 ∧ byte ≠ 92 := by
  intro byte member
  obtain ⟨char, inside, rfl⟩ := List.mem_map.mp member
  have here := List.all_eq_true.mp plain char inside
  simp only [isPathChar, Bool.and_eq_true, Bool.not_eq_true', decide_eq_true_eq] at here
  obtain ⟨⟨⟨⟨ascii, notBlank⟩, notQuote⟩, notSingle⟩, notBackslash⟩ := here
  have byteValue := toNat_ofNat_ascii (of_decide_eq_true ascii)
  have differs {other : Char} {code : UInt8} (same : other.toNat = code.toNat) (different : char ≠ other) :
      UInt8.ofNat char.toNat ≠ code := by
    intro equal
    rw [equal, ← same] at byteValue
    exact different ((char_eq_iff _ _).mpr byteValue.symm)
  have backslash : UInt8.ofNat char.toNat ≠ 92 := differs rfl notBackslash
  refine ⟨?_, differs rfl notQuote, differs rfl notSingle, backslash⟩
  rw [isOrdinary, isBlankByte_eq ascii, notBlank]
  simpa using backslash

theorem readWords_script (plain : PlainScript policy value) (rest : Bytes)
    (blank : ∀ byte ∈ rest, isBlankByte byte = true) : readWords .initial false [] (toBytes value ++ rest) =
      (readWords .initial false [] rest).map (toBytes (unquote value) :: ·) := by
  obtain ⟨chars, ⟨absolute, -⟩, -⟩ := plain
  have bytes := pathBytes_plain chars
  rcases unquote_cases value with bare | double | single
  · obtain ⟨path, equal⟩ := List.head?_eq_some_iff.mp absolute
    rw [equal] at bytes bare ⊢
    rw [bare]
    exact readWords_plain (by decide) (fun byte member => (bytes byte (List.mem_cons_of_mem _ member)).1) rest blank
  · have cut : toBytes value ++ rest = 34 :: (toBytes (unquote value) ++ 34 :: rest) := by
      conv_lhs => rw [double]
      simp [toBytes]
    have inner := readWords_quoted (fun byte member => ⟨(bytes byte member).2.1, (bytes byte member).2.2.2⟩) [] rest
    rw [cut]
    exact Eq.trans rfl inner
  · have cut : toBytes value ++ rest = 39 :: (toBytes (unquote value) ++ 39 :: rest) := by
      conv_lhs => rw [single]
      simp [toBytes]
    have inner := readWords_singleQuoted (fun byte member => (bytes byte member).2.2.1) [] rest
    rw [cut]
    exact Eq.trans rfl inner

theorem bypassDoubleDash_cases (word : Bytes) : bypassDoubleDash word = word ∨
    ∃ byte rest, word = 45 :: 45 :: byte :: rest ∧ bypassDoubleDash word = byte :: rest := by
  unfold bypassDoubleDash
  split
  · exact .inr ⟨_, _, rfl, rfl⟩
  · exact .inl rfl

theorem inlineTag_of_named (present : name ≠ []) (named : ∀ char ∈ name, isNameChar char = true)
    {tag : Bytes} : inlineTag (toBytes name) ≠ some tag := by
  obtain ⟨char, rest, rfl⟩ := List.exists_cons_of_ne_nil present
  have first := isNameByte_of_mem_toBytes named (UInt8.ofNat char.toNat) List.mem_cons_self
  rw [inlineTag, if_neg]
  · nofun
  · rintro ⟨bracket, -⟩
    have same : UInt8.ofNat char.toNat = 60 := Option.some.inj bracket
    rw [same] at first
    exact absurd first (by decide)

theorem high_mem_name (front : Bytes) {more : Bytes} {high : UInt8}
    (named : ∀ byte ∈ front, isNameByte byte = true) (large : 128 ≤ high.toNat)
    (names : Names (front ++ [high] ++ more) arguments directive) : high ∈ directive.name := by
  have notDash : high ≠ 45 := by
    rintro rfl
    exact absurd large (by decide)
  have notBracket {byte : UInt8} (member : byte ∈ front ++ [high]) : byte ≠ 60 := by
    rintro rfl
    rcases List.mem_append.mp member with inside | last
    · exact absurd (named 60 inside) (by decide)
    · rw [← List.mem_singleton.mp last] at large
      exact absurd large (by decide)
  rcases names with ⟨name, -, -⟩ | ⟨-, tag, -, -⟩
  · rcases bypassDoubleDash_cases (front ++ [high] ++ more) with same | ⟨byte, rest, whole, dropped⟩
    · rw [name, same]
      simp
    · have member : high ∈ front ++ [high] ++ more := by simp
      rw [whole] at member
      rw [name, dropped]
      simpa [notDash] using member
  · exfalso
    rw [inlineTag] at tag
    split_ifs at tag with brackets
    rcases bypassDoubleDash_cases (front ++ [high] ++ more) with same | ⟨byte, rest, whole, dropped⟩
    · rw [same] at brackets
      cases front with
      | nil => exact notBracket (by simp) (Option.some.inj brackets.1)
      | cons first front => exact notBracket List.mem_cons_self (Option.some.inj brackets.1)
    · rw [dropped] at brackets
      have third : byte = 60 := Option.some.inj brackets.1
      match front, whole with
      | [], whole => exact notDash (List.cons.inj whole).1
      | [_], whole => exact notDash (List.cons.inj (List.cons.inj whole).2).1
      | [_, _], whole =>
        exact notBracket (by simp) ((List.cons.inj (List.cons.inj (List.cons.inj whole).2).2).1.trans third)
      | _ :: _ :: c :: _, whole =>
        exact notBracket (by simp) ((List.cons.inj (List.cons.inj (List.cons.inj whole).2).2).1.trans third)

theorem first_of_rest {afterBytes back : Bytes}
    (blank : ∀ char ∈ after.head?, isBlank char = true) (spaces : ∀ char ∈ rest, isSpace char = true)
    (afterEncodes : Encodes afterBytes after) (backEncodes : Encodes back rest)
    (blankTail : ∀ byte ∈ tail, isBlankByte byte = true) :
    (∀ byte ∈ (afterBytes ++ (back ++ tail)).head?, isBlankByte byte = true) ∨
      ∃ high others, afterBytes ++ (back ++ tail) = high :: others ∧ 128 ≤ high.toNat := by
  have blankHead {char : Char} {text : Text} {bytes more : Bytes} (encodes : Encodes bytes (char :: text))
      (blank : isBlank char = true) : ∀ byte ∈ (bytes ++ more).head?, isBlankByte byte = true := by
    obtain ⟨_, others, rfl, single, -⟩ := Encodes.split (show Encodes bytes ([char] ++ text) from encodes)
    rw [single.eq_toBytes (by simpa using isAscii_of_isBlank blank)]
    intro byte first
    cases first
    rw [isBlankByte_eq (isAscii_of_isBlank blank), blank]
  cases after with
  | cons char after => exact .inl (blankHead afterEncodes (blank char rfl))
  | nil =>
    cases afterEncodes
    rw [List.nil_append]
    cases rest with
    | nil =>
      cases backEncodes
      exact .inl fun byte first => blankTail byte (List.mem_of_head? first)
    | cons char rest =>
      have space := spaces char List.mem_cons_self
      by_cases ascii : isAscii char = true
      · exact .inl (blankHead backEncodes (isBlank_of_isSpace space ascii))
      · obtain ⟨byte, others, rfl, high⟩ := backEncodes.head_high (by simpa [isAscii] using ascii)
        exact .inr ⟨byte, others ++ tail, rfl, high⟩

theorem name_of_directive {dashes : Text} {back : Bytes}
    (dashed : dashes = ['-', '-'] ∨ dashes = []) (present : name ≠ [])
    (named : ∀ char ∈ name, isNameChar char = true)
    (bypass : bypassDoubleDash (toBytes (dashes ++ name)) = toBytes name)
    (blank : ∀ char ∈ after.head?, isBlank char = true) (spaces : ∀ char ∈ rest, isSpace char = true)
    (encodes : Encodes middle (dashes ++ name ++ after)) (backEncodes : Encodes back rest)
    (blankTail : ∀ byte ∈ tail, isBlankByte byte = true)
    (words : readWords .initial false [] (middle ++ (back ++ tail)) = some (word :: arguments))
    (names : Names word arguments directive) :
    (∃ byte ∈ directive.name, 128 ≤ byte.toNat) ∨
      ∃ afterBytes, Encodes afterBytes after ∧ directive.name = toBytes name ∧ directive.isInline = false ∧
        readWords .initial false [] (afterBytes ++ (back ++ tail)) = some directive.arguments := by
  have namedAll : ∀ char ∈ dashes ++ name, isNameChar char = true := by
    intro char member
    rcases List.mem_append.mp member with inDashes | inName
    · rcases dashed with rfl | rfl
      · rcases List.mem_pair.mp inDashes with rfl | rfl <;> decide
      · cases inDashes
    · exact named char inName
  obtain ⟨frontBytes, afterBytes, rfl, frontEncodes, afterEncodes⟩ := Encodes.split encodes
  have bytesNamed := isNameByte_of_mem_toBytes namedAll
  rw [eq_toBytes_of_named frontEncodes namedAll, List.append_assoc] at words
  obtain ⟨byte, more, whole⟩ := List.exists_cons_of_ne_nil
    (show toBytes (dashes ++ name) ≠ [] by simpa [toBytes] using fun _ => present)
  rw [whole] at words bytesNamed
  have begins := beginsWord_of_isNameByte (bytesNamed byte List.mem_cons_self)
  have ordinary (other : UInt8) (member : other ∈ more) : isOrdinary other = true :=
    isOrdinary_of_beginsWord (beginsWord_of_isNameByte (bytesNamed other (List.mem_cons_of_mem _ member)))
  rcases first_of_rest blank spaces afterEncodes backEncodes blankTail with ends | ⟨high, others, follows, large⟩
  · rw [readWords_token begins ordinary _ ends] at words
    obtain ⟨found, run, equal⟩ := Option.map_eq_some_iff.mp words
    cases equal
    rw [← whole] at names
    rcases names with ⟨sameName, sameArguments, notInline⟩ | ⟨-, tag, -, -⟩
    · exact .inr ⟨afterBytes, afterEncodes, sameName.trans bypass, notInline, sameArguments ▸ run⟩
    · rw [bypass] at tag
      exact absurd tag (inlineTag_of_named present named)
  · have cut : byte :: more ++ high :: others = byte :: ((more ++ [high]) ++ others) := by simp
    have ordinary' : ∀ other ∈ more ++ [high], isOrdinary other = true := by
      intro other member
      rcases List.mem_append.mp member with inside | last
      · exact ordinary other inside
      · exact List.mem_singleton.mp last ▸ isOrdinary_of_beginsWord (beginsWord_of_high large)
    rw [follows, cut, readWords_start begins, readWords_ordinary ordinary'] at words
    obtain ⟨longer, following, equal⟩ := readWords_extends words
    cases equal
    have split : [byte] ++ (more ++ [high]) ++ longer = byte :: more ++ [high] ++ longer := by simp
    exact .inl ⟨high, high_mem_name _ bytesNamed large (split ▸ names), large⟩

theorem checkDirective_listed {directive : Text}
    (accepted : checkDirective policy directive value = .ok ())
    (listed : directive ∈ forbiddenDirectives ++ externalFileDirectives) :
    (directive = literal "script-security" ∧ value = ['2']) ∨
      ((directive = literal "up" ∨ directive = literal "down") ∧
        cleanAbsolutePath policy.currentPath (unquote value) =
          cleanAbsolutePath policy.currentPath policy.trustedResolverScript) ∨
      (directive ∉ forbiddenDirectives ∧ toLower value = literal "[inline]") := by
  unfold checkDirective at accepted
  split_ifs at accepted with security script refused
  · exact .inl ⟨security.1, security.2.1⟩
  · exact .inr (.inl ⟨script.1, script.2.2⟩)
  · rw [not_or, not_and_or] at refused
    refine .inr (.inr ⟨refused.1, ?_⟩)
    rcases refused.2 with notExternal | marker
    · exact ((List.mem_append.mp listed).elim refused.1 notExternal).elim
    · exact not_not.mp marker

theorem scripts_not_external : ∀ name ∈ [literal "script-security", literal "up", literal "down"],
    name ∉ externalFileDirectives := by
  decide

theorem marker_begins (ascii : isAscii char = true)
    (member : char.toLower ∈ literal "[inline]") : beginsWord (UInt8.ofNat char.toNat) = true := by
  have all : ∀ code : Fin 128, (Char.ofNat code).toLower ∈ literal "[inline]" →
      beginsWord (UInt8.ofNat code) = true := by
    decide
  have here := all ⟨char.toNat, of_decide_eq_true ascii⟩
  rw [Char.ofNat_toNat] at here
  exact here member

theorem permitted_of_exempted (policy : ScriptPolicy)
    (accepted : checkDirective policy (toLower name) (trimmed (after.dropWhile isBlank)) = .ok ())
    (named : ∀ char ∈ name, isNameChar char = true)
    (listed : toLower name ∈ forbiddenDirectives ++ externalFileDirectives)
    (ascii : ∀ char ∈ after ++ rest, isAscii char = true) (spaces : ∀ char ∈ rest, isSpace char = true)
    (plain : toLower name = literal "up" ∨ toLower name = literal "down" →
      PlainScript policy (trimmed (after.dropWhile isBlank)))
    (blankTail : ∀ byte ∈ tail, isBlankByte byte = true)
    (sameName : directive.name = toBytes name)
    (words : readWords .initial false [] (toBytes (after ++ rest) ++ tail) = some directive.arguments) :
    Permitted policy directive := by
  obtain ⟨front, back, split, frontSpaces, backSpaces, -, -⟩ := trimmed_split (after.dropWhile isBlank)
  have cut : after ++ rest =
      (after.takeWhile isBlank ++ front) ++ trimmed (after.dropWhile isBlank) ++ (back ++ rest) := by
    conv_lhs => rw [← List.takeWhile_append_dropWhile (p := isBlank) (l := after), split]
    simp
  generalize trimmed (after.dropWhile isBlank) = value at *
  have blankBefore : ∀ char ∈ after.takeWhile isBlank ++ front, isBlank char = true := by
    intro char member
    rcases List.mem_append.mp member with leading | inside
    · exact List.mem_takeWhile_imp leading
    · exact isBlank_of_isSpace (frontSpaces char inside) (ascii char (by rw [cut]; simp [inside]))
  have blankAfter : ∀ char ∈ back ++ rest, isBlank char = true := by
    intro char member
    have within : char ∈ after ++ rest := by
      rw [cut]
      simp only [List.mem_append] at member ⊢
      exact .inr member
    refine isBlank_of_isSpace ?_ (ascii char within)
    exact (List.mem_append.mp member).elim (backSpaces char) (spaces char)
  have argument {bytes : Bytes} (reads : ∀ rest : Bytes, (∀ byte ∈ rest, isBlankByte byte = true) →
      readWords .initial false [] (toBytes value ++ rest) = (readWords .initial false [] rest).map (bytes :: ·)) :
      directive.arguments = [bytes] := by
    rw [cut, readWords_value blankBefore blankAfter blankTail reads] at words
    exact (Option.some.inj words).symm
  have valueAscii : ∀ char ∈ value, isAscii char = true := fun char member => ascii char (by rw [cut]; simp [member])
  have sameListed {listedName : Text} (inTable : listedName ∈ forbiddenDirectives ++ externalFileDirectives)
      (same : directive.name = toBytes listedName) : toLower name = listedName :=
    (eq_of_toBytes_listed inTable named (sameName.symm.trans same)).1
  rcases checkDirective_listed accepted listed with ⟨security, two⟩ | ⟨script, path⟩ | ⟨allowed, marker⟩
  · subst two
    have two := argument (readWords_plain (by decide) nofun)
    refine ⟨fun listedName inTable same => .inl ⟨?_, two.trans (by decide)⟩, fun listedName inTable same => ?_⟩
    · rw [← sameListed (List.mem_append_left _ inTable) same, security]
    · rw [← sameListed (List.mem_append_right _ inTable) same, security] at inTable
      exact (scripts_not_external _ (by simp) inTable).elim
  · have plainScript := plain script
    have runs : RunsTrustedScript policy directive := by
      have ⟨chars, plainPath, trusted⟩ := plainScript
      refine ⟨_, unquote value, argument (readWords_script plainScript), decode_toBytes fun char member => ?_, ?_⟩
      · have here := List.all_eq_true.mp chars char member
        simp only [isPathChar, Bool.and_eq_true] at here
        exact here.1.1.1.1
      · rw [cleanAbsolutePath_of_plain _ plainPath, cleanAbsolutePath_of_plain _ trusted] at path
        exact ⟨iff_of_true plainPath.1 trusted.1, Option.some.inj path⟩
    refine ⟨fun listedName inTable same => .inr ⟨?_, runs⟩, fun listedName inTable same => ?_⟩
    · rwa [← sameListed (List.mem_append_left _ inTable) same]
    · rw [← sameListed (List.mem_append_right _ inTable) same] at inTable
      refine (scripts_not_external _ ?_ inTable).elim
      rcases script with up | down <;> simp [*]
  · cases value with
    | nil => exact absurd marker (by decide)
    | cons char value =>
      have begins : ∀ other ∈ char :: value, beginsWord (UInt8.ofNat other.toNat) = true :=
        fun other member => marker_begins (valueAscii other member)
          (marker ▸ List.mem_map_of_mem (f := Char.toLower) member)
      have ordinary : ∀ byte ∈ toBytes value, isOrdinary byte = true := by
        intro byte member
        obtain ⟨other, inside, rfl⟩ := List.mem_map.mp member
        exact isOrdinary_of_beginsWord (begins other (List.mem_cons_of_mem _ inside))
      have word := argument (readWords_plain (begins char List.mem_cons_self) ordinary)
      refine ⟨fun listedName inTable same => ?_, fun _ _ _ => .inr fun first head => ?_⟩
      · rw [← sameListed (List.mem_append_left _ inTable) same] at inTable
        exact (allowed inTable).elim
      · rw [word] at head
        cases head
        exact ⟨char :: value, rfl, marker⟩

/-! ## A line that the check looks at -/

variable {state next : ScanState}

theorem scanLogicalLine_outside
    (outside : state.activeDataBlock = []) (scanned : scanLogicalLine policy state line = .ok next) :
    (line = [] ∨ line.head? = some '#' ∨ line.head? = some ';') ∨ (∃ tag, matchOpenTag line = some tag) ∨
      (∃ tag, matchCloseTag line = some tag) ∨
      ∃ name rest, matchDirective line = some (name, rest) ∧
        checkDirective policy (toLower name) (trimmed rest) = .ok () := by
  unfold scanLogicalLine at scanned
  by_cases comment : line = [] ∨ line.head? = some '#' ∨ line.head? = some ';'
  · exact .inl comment
  rw [if_neg comment, if_neg (not_not.mpr outside)] at scanned
  cases opens : matchOpenTag line with
  | some tag => exact .inr (.inl ⟨tag, rfl⟩)
  | none =>
    rw [opens] at scanned
    dsimp only at scanned
    by_cases connection : (matchCloseTag line).map toLower = some (literal "connection")
    · obtain ⟨tag, closes, -⟩ := Option.map_eq_some_iff.mp connection
      exact .inr (.inr (.inl ⟨tag, closes⟩))
    rw [if_neg connection] at scanned
    cases found : matchDirective line with
    | none => rw [found] at scanned; cases scanned
    | some pair =>
      obtain ⟨name, rest⟩ := pair
      rw [found] at scanned
      cases check : checkDirective policy (toLower name) (trimmed rest) with
      | error message => simp [check, bind, Except.bind] at scanned
      | ok _ => exact .inr (.inr (.inr ⟨name, rest, rfl, check⟩))

theorem readWords_comment (encodes : Encodes middle line)
    (comment : line.head? = some '#' ∨ line.head? = some ';') (rest : Bytes) :
    readWords .initial false [] (middle ++ rest) = some [] := by
  have first {char : Char} (byte : UInt8) (same : char.toNat = byte.toNat) (small : byte.toNat < 128)
      (head : line.head? = some char) : ∃ more, middle = byte :: more := by
    obtain ⟨tail, rfl⟩ := List.head?_eq_some_iff.mp head
    cases encodes with
    | @ascii other _ bytes _ _ equal _ => exact ⟨bytes, by rw [UInt8.toNat_inj.mp (equal.symm.trans same)]⟩
    | wide _ _ outside _ => omega
  rcases comment with hash | semicolon
  · obtain ⟨more, rfl⟩ := first 35 rfl (by decide) hash
    rfl
  · obtain ⟨more, rfl⟩ := first 59 rfl (by decide) semicolon
    rfl

theorem permitted_of_line (policy : ScriptPolicy)
    (encodes : Encodes bytes line) (blankTail : ∀ byte ∈ tail, isBlankByte byte = true)
    (outside : state.activeDataBlock = []) (scanned : scanLogicalLine policy state (trimmed line) = .ok next)
    (regular : ¬ Irregular policy line) {number : Nat}
    (reads : ReadsAs ⟨number, bytes ++ tail⟩ directive) : Permitted policy directive := by
  obtain ⟨-, word, arguments, words, names⟩ := reads
  obtain ⟨front, back', split, -, -, -, first⟩ := trimmed_split line
  rcases words_of_line encodes blankTail words with
    ⟨byte, more, rfl, high⟩ | ⟨middle, back, rest, middleEncodes, backEncodes, spaces, present, inside, run⟩
  · exact permitted_of_foreign policy (high_mem_name [] nofun high names) (isNameByte_of_high high)
  rcases scanLogicalLine_outside outside scanned with
    comment | ⟨tag, opens⟩ | ⟨tag, closes⟩ | ⟨name, value, found, accepted⟩
  · rw [readWords_comment middleEncodes (comment.resolve_left present)] at run
    cases run
  · have known : toLower tag ∈ literal "connection" :: dataBlocks := by
      by_contra unknown
      exact regular (.inl ⟨tag, opens, unknown⟩)
    exact permitted_of_openTag policy first middleEncodes opens known run names
  · exact permitted_of_closeTag policy first middleEncodes closes run names
  · obtain ⟨dashes, after, whole, some, named, blank, rfl, dashed, bypass⟩ := matchDirective_split first found
    rw [whole] at middleEncodes
    rcases name_of_directive dashed some named bypass blank spaces middleEncodes backEncodes blankTail run names with
      ⟨byte, member, high⟩ | ⟨afterBytes, afterEncodes, sameName, -, following⟩
    · exact permitted_of_foreign policy member (isNameByte_of_high high)
    · by_cases listed : toLower name ∈ forbiddenDirectives ++ externalFileDirectives
      · obtain ⟨ascii, plain⟩ : line.all isAscii = true ∧
            (toLower name = literal "up" ∨ toLower name = literal "down" →
              PlainScript policy (trimmed (after.dropWhile isBlank))) := by
          by_contra loose
          exact regular (.inr ⟨name, _, found, listed, loose⟩)
        have asciiParts : ∀ char ∈ after ++ rest, isAscii char = true := by
          intro char member
          refine List.all_eq_true.mp ascii char ?_
          rcases List.mem_append.mp member with inAfter | inRest
          · rw [split, whole]
            simp [inAfter]
          · exact inside char inRest
        have bytesEqual : afterBytes ++ back = toBytes (after ++ rest) := by
          rw [afterEncodes.eq_toBytes fun char member => asciiParts char (List.mem_append_left _ member),
            backEncodes.eq_toBytes fun char member => asciiParts char (List.mem_append_right _ member)]
          exact (List.map_append ..).symm
        rw [← List.append_assoc, bytesEqual] at following
        exact permitted_of_exempted policy accepted named listed asciiParts spaces plain blankTail sameName following
      · refine permitted_of_unlisted policy fun listedName inTable same => listed ?_
        rwa [(eq_of_toBytes_listed inTable named (sameName.symm.trans same)).1]

end Amnezia.Ipc
