import Amnezia.Ipc.OpenVpnPolicy

/-! # Checked configurations -/

namespace Amnezia.Ipc
open Lib.Utf8

/-! ## Lines outside inline blocks -/

def openedTag (line : Line) : List Bytes :=
  match lineWords line.bytes with
  | some [word] => (inlineTag (bypassDoubleDash word)).toList
  | _ => []

/-- The inline blocks that are open after a line, the innermost first. -/
def blocksAfter (blocks : List Bytes) (line : Line) : List Bytes :=
  match blocks with
  | [] => openedTag line
  | tag :: outer =>
    if closesBlock tag line then outer
    else if tag = ascii "connection" then openedTag line ++ tag :: outer
    else tag :: outer

-- The lines that are not contents of an inline block, those of a connection block included.
def linesOutside : List Bytes → List Line → List Line
  | _, [] => []
  | blocks, line :: rest =>
    if ∀ tag ∈ blocks.head?, tag = ascii "connection" then
      line :: linesOutside (blocksAfter blocks line) rest
    else linesOutside (blocksAfter blocks line) rest

variable {blocks outer : List Bytes} {tag : Bytes} {line closing : Line} {lines block after : List Line}
variable {directives : List Directive} {directive : Directive} {word : Bytes} {arguments : List Bytes}

theorem linesOutside_append (blocks : List Bytes) (front back : List Line) :
    linesOutside blocks (front ++ back) =
      linesOutside blocks front ++ linesOutside (front.foldl blocksAfter blocks) back := by
  induction front generalizing blocks with
  | nil => rfl
  | cons line front ih =>
    rw [List.cons_append, linesOutside, linesOutside, ih, List.foldl_cons]
    split_ifs <;> rfl

theorem splitBlock_some (split : splitBlock tag lines = some (block, after)) :
    ∃ closing, lines = block ++ closing :: after ∧ closesBlock tag closing = true ∧
      ∀ line ∈ block, closesBlock tag line = false := by
  induction lines generalizing block with
  | nil => cases split
  | cons head rest ih =>
    rw [splitBlock] at split
    split_ifs at split with closes
    · cases split
      exact ⟨head, rfl, closes, nofun⟩
    · obtain ⟨⟨inner, others⟩, found, equal⟩ := Option.map_eq_some_iff.mp split
      cases equal
      obtain ⟨closing, rfl, closed, stays⟩ := ih found
      exact ⟨closing, rfl, closed, List.forall_mem_cons.mpr ⟨by simpa using closes, stays⟩⟩

theorem linesOutside_block (outer : List Bytes) (other : tag ≠ ascii "connection")
    (stays : ∀ line ∈ block, closesBlock tag line = false) :
    block.foldl blocksAfter (tag :: outer) = tag :: outer ∧ linesOutside (tag :: outer) block = [] := by
  induction block with
  | nil => exact ⟨rfl, rfl⟩
  | cons line block ih =>
    obtain ⟨here, later⟩ := List.forall_mem_cons.mp stays
    have same : blocksAfter (tag :: outer) line = tag :: outer := by simp [blocksAfter, here, other]
    rw [List.foldl_cons, linesOutside, same, if_neg (by simpa using other)]
    exact ih later

theorem unnamed_of_closes (closes : closesBlock tag closing = true) (reads : ReadsAs closing directive) :
    ∃ byte ∈ directive.name, isNameByte byte = false := by
  obtain ⟨-, word, arguments, words, names⟩ := reads
  obtain ⟨rest, whole⟩ := List.isPrefixOf_iff_prefix.mp closes
  have blanks : ∀ byte ∈ closing.bytes.takeWhile isBlankByte, isBlankByte byte = true :=
    fun byte member => List.mem_takeWhile_imp member
  have cut : (60 :: 47 :: tag ++ [62]) ++ rest = 60 :: ([47] ++ (tag ++ [62] ++ rest)) := rfl
  rw [lineWords, ← List.takeWhile_append_dropWhile (p := isBlankByte) (l := closing.bytes),
    readWords_blanks _ blanks, ← whole, cut, readWords_start (by decide +kernel),
    readWords_ordinary (by decide +kernel)] at words
  obtain ⟨more, others, equal⟩ := readWords_extends words
  cases equal
  rcases names with ⟨name, -, -⟩ | ⟨-, named, -, -⟩
  · exact ⟨60, by rw [name]; exact List.mem_cons_self, by decide⟩
  · have word : bypassDoubleDash ([60] ++ [47] ++ more) = 60 :: 47 :: more := rfl
    rw [word, inlineTag] at named
    split_ifs at named with brackets
    cases more with
    | nil => exact absurd brackets.2 (by decide)
    | cons byte more => exact ⟨47, by rw [← Option.some.inj named]; exact List.mem_cons_self, by decide⟩

-- What a line says: an inline block that it opens, or a plain directive.
def lineDirective (line : Line) (word : Bytes) (arguments : List Bytes) : Directive :=
  match (if arguments = [] then inlineTag (bypassDoubleDash word) else none) with
  | none => ⟨line.number, bypassDoubleDash word, arguments, false⟩
  | some tag => ⟨line.number, tag, [], true⟩

theorem readsAs_iff (words : lineWords line.bytes = some (word :: arguments))
    (named : ∀ byte ∈ directive.name, isNameByte byte = true) :
    ReadsAs line directive ↔ directive = lineDirective line word arguments := by
  obtain ⟨number, name, values, isInline⟩ := directive
  simp only [ReadsAs, words, Option.some.injEq, List.cons.injEq, lineDirective]
  constructor
  · rintro ⟨rfl, _, _, ⟨rfl, rfl⟩, ⟨rfl, rfl, rfl⟩ | ⟨rfl, tag, rfl, rfl⟩⟩
    · have noTag : inlineTag (bypassDoubleDash word) = none := by
        rw [inlineTag, if_neg]
        rintro ⟨bracket, -⟩
        exact absurd (named 60 (List.mem_of_head? bracket)) (by decide)
      simp [noTag]
    · simp [tag]
  · intro same
    split at same
    · cases same
      exact ⟨rfl, _, _, ⟨rfl, rfl⟩, .inl ⟨rfl, rfl, rfl⟩⟩
    · next tag opens =>
      split_ifs at opens with alone
      cases same
      exact ⟨rfl, _, _, ⟨rfl, rfl⟩, .inr ⟨alone, opens, rfl, rfl⟩⟩

/-- No block is open around the lines, or a connection block that none of them closes. -/
def Surrounds (outer : List Bytes) (lines : List Line) : Prop :=
  outer = [] ∨ outer = [ascii "connection"] ∧ ∀ line ∈ lines, closesBlock (ascii "connection") line = false

theorem Surrounds.mono (around : Surrounds outer lines) (fewer : ∀ line ∈ block, line ∈ lines) :
    Surrounds outer block :=
  around.imp id fun inside => ⟨inside.1, fun line member => inside.2 line (fewer line member)⟩

theorem Surrounds.cons (around : Surrounds outer (line :: lines)) :
    blocksAfter outer line = openedTag line ++ outer ∧
      linesOutside outer (line :: lines) = line :: linesOutside (openedTag line ++ outer) lines := by
  rcases around with rfl | ⟨rfl, inside⟩
  · simp [linesOutside, blocksAfter]
  · simp [linesOutside, blocksAfter, inside line List.mem_cons_self]

/-- The lines leave no block open, and the named directives are those of the lines outside blocks. -/
structure Collects (outer : List Bytes) (lines : List Line) (directives : List Directive) : Prop where
  closed : lines.foldl blocksAfter outer = outer
  exactly : ∀ directive : Directive, (∀ byte ∈ directive.name, isNameByte byte = true) →
    (directive ∈ directives ↔ ∃ line ∈ linesOutside outer lines, ReadsAs line directive)

theorem Collects.nil (outer : List Bytes) : Collects outer [] [] :=
  ⟨rfl, fun directive _ => by simp [linesOutside]⟩

theorem Collects.silent (around : Surrounds outer (line :: lines)) (words : lineWords line.bytes = some [])
    (collects : Collects outer lines directives) : Collects outer (line :: lines) directives := by
  have plain : openedTag line = [] := by simp [openedTag, words]
  have silent (directive : Directive) : ¬ ReadsAs line directive := by
    rintro ⟨-, word, arguments, other, -⟩
    simp [words] at other
  refine ⟨?_, fun directive named => ?_⟩
  · rw [List.foldl_cons, around.cons.1, plain]
    exact collects.closed
  · rw [around.cons.2, plain, collects.exactly directive named]
    simp [silent directive]

theorem Collects.plain (around : Surrounds outer (line :: lines))
    (words : lineWords line.bytes = some (word :: arguments))
    (tag : (if arguments = [] then inlineTag (bypassDoubleDash word) else none) = none)
    (collects : Collects outer lines directives) :
    Collects outer (line :: lines) (⟨line.number, bypassDoubleDash word, arguments, false⟩ :: directives) := by
  have plain : openedTag line = [] := by
    cases arguments <;> simp_all [openedTag]
  refine ⟨?_, fun directive named => ?_⟩
  · rw [List.foldl_cons, around.cons.1, plain]
    exact collects.closed
  · rw [around.cons.2, plain]
    simp [collects.exactly directive named, readsAs_iff words named, lineDirective, tag]

section

variable (words : lineWords line.bytes = some [word]) (opens : inlineTag (bypassDoubleDash word) = some tag)
  (closes : closesBlock tag closing = true)
include words opens

theorem readsAs_opening (named : ∀ byte ∈ directive.name, isNameByte byte = true) :
    ReadsAs line directive ↔ directive = ⟨line.number, tag, [], true⟩ := by
  simp [readsAs_iff words named, lineDirective, opens]

theorem openedTag_opening : openedTag line = [tag] := by simp [openedTag, words, opens]

include closes

theorem Collects.inline (stays : ∀ line ∈ block, closesBlock tag line = false)
    (around : Surrounds outer (line :: (block ++ closing :: after))) (other : tag ≠ ascii "connection")
    (collects : Collects outer after directives) :
    Collects outer (line :: (block ++ closing :: after)) (⟨line.number, tag, [], true⟩ :: directives) := by
  have ends : blocksAfter (tag :: outer) closing = outer := by simp [blocksAfter, closes]
  obtain ⟨held, nothing⟩ := linesOutside_block outer other stays
  refine ⟨?_, fun directive named => ?_⟩
  · rw [List.foldl_cons, around.cons.1, openedTag_opening words opens, List.singleton_append, List.foldl_append,
      List.foldl_cons, held, ends, collects.closed]
  · rw [around.cons.2, openedTag_opening words opens, List.singleton_append, linesOutside_append, linesOutside,
      held, nothing, ends, if_neg (by simpa using other)]
    simp [collects.exactly directive named, readsAs_opening words opens named]

theorem Collects.connection (connection : tag = ascii "connection") {inner : List Directive}
    (inside : Collects [tag] block inner) (collects : Collects [] after directives) :
    Collects [] (line :: (block ++ closing :: after)) (⟨line.number, tag, [], true⟩ :: inner ++ directives) := by
  have around : Surrounds [] (line :: (block ++ closing :: after)) := .inl rfl
  have ends : blocksAfter [tag] closing = [] := by simp [blocksAfter, closes]
  refine ⟨?_, fun directive named => ?_⟩
  · rw [List.foldl_cons, around.cons.1, openedTag_opening words opens, List.append_nil, List.foldl_append,
      List.foldl_cons, inside.closed, ends, collects.closed]
  · have silent : ¬ ReadsAs closing directive := fun reads => by
      obtain ⟨byte, member, foreign⟩ := unnamed_of_closes closes reads
      rw [named byte member] at foreign
      cases foreign
    rw [around.cons.2, openedTag_opening words opens, List.append_nil, linesOutside_append, linesOutside,
      inside.closed, ends, if_pos (by simp [connection])]
    simp only [List.cons_append, List.mem_cons, List.mem_append, inside.exactly directive named,
      collects.exactly directive named, or_and_right, exists_or, exists_eq_left,
      readsAs_opening words opens named, silent, false_or]

end

theorem readDirectives_collects {fuel : Nat} (read : readDirectives fuel lines = some directives)
    (around : Surrounds outer lines) : Collects outer lines directives := by
  induction fuel generalizing lines directives outer with
  | zero =>
    cases lines with
    | nil =>
      cases read
      exact .nil outer
    | cons line rest => cases read
  | succ fuel ih =>
    cases lines with
    | nil =>
      cases read
      exact .nil outer
    | cons line rest =>
      have later := around.mono fun other member => List.mem_cons_of_mem line member
      rw [readDirectives] at read
      split at read
      · cases read
      · next words => exact .silent around words (ih read later)
      · next word arguments words =>
        dsimp only at read
        split at read
        · next tag =>
          obtain ⟨others, run, equal⟩ := Option.bind_eq_some_iff.mp read
          cases equal
          exact .plain around words tag (ih run later)
        · next tag opens =>
          split_ifs at opens with alone
          subst alone
          obtain ⟨⟨block, after⟩, split, read⟩ := Option.bind_eq_some_iff.mp read
          obtain ⟨inner, readBlock, read⟩ := Option.bind_eq_some_iff.mp read
          obtain ⟨others, run, equal⟩ := Option.bind_eq_some_iff.mp read
          cases equal
          obtain ⟨closing, rfl, closes, stays⟩ := splitBlock_some split
          have collects := ih run (later.mono fun other member => by simp [member])
          by_cases connection : tag = ascii "connection"
          · have top : outer = [] := by
              refine later.resolve_right fun inside => ?_
              rw [connection, inside.2 closing (by simp)] at closes
              cases closes
            subst top
            rw [if_pos connection] at readBlock
            have inside : Collects [tag] block inner := ih readBlock (.inr ⟨by rw [connection], connection ▸ stays⟩)
            exact .connection words opens closes connection inside collects
          · rw [if_neg connection] at readBlock
            cases readBlock
            exact .inline words opens closes stays around connection collects

/-! ## Lines that the check overlooks -/

def textLines (content : Bytes) : List Text :=
  (((fromUtf8 content).getD []).splitOn '\n').map chopCarriageReturn

/-- One of the lines opens a data block, and no later line closes it. -/
def InDataBlock (lines : List Text) (tag : Text) : Prop :=
  ∃ front opening between, lines = front ++ opening :: between ∧
    (matchOpenTag (trimmed opening)).map toLower = some tag ∧ tag ∈ dataBlocks ∧
    ∀ line ∈ between, (matchCloseTag (trimmed line)).map toLower ≠ some tag

/-- The line or one before it ends in an odd number of backslashes, or the line stands in a data block
or is irregular. -/
def Overlooked (policy : ScriptPolicy) (lines : List Text) (number : Nat) : Prop :=
  ∃ line, lines[number]? = some line ∧ ((∃ earlier ∈ lines.take (number + 1), isContinued earlier = true) ∨
    (∃ tag, InDataBlock (lines.take number) tag) ∨ Irregular policy line)

def policyLines (content : Bytes) : Nat := if openVpnConfigSecurityPolicyPrefix.isPrefixOf content then 0 else 3

/-- An overlooked line that stands outside OpenVPN's inline blocks names a privileged directive. -/
def HidesPrivileged (policy : ScriptPolicy) (content : Bytes) : Prop :=
  ∃ line ∈ linesOutside [] (physicalLines (hardenOpenVpnConfigContent content)), ∃ number directive,
    line.number = policyLines content + number ∧ Overlooked policy (textLines content) number ∧
    ReadsAs line directive ∧ ¬ Permitted policy directive

variable {number : Nat} {content piece : Bytes}

theorem terminated_getElem? {pieces : List Bytes} {bytes : Bytes}
    (found : (terminated pieces)[number]? = some bytes) :
    ∃ piece tail, pieces[number]? = some piece ∧ bytes = piece ++ tail ∧
      ∀ byte ∈ tail, isBlankByte byte = true := by
  fun_induction terminated pieces generalizing number with
  | case1 => cases found
  | case2 =>
    cases number with
    | zero =>
      cases found
      exact ⟨bytes, [], rfl, (List.append_nil _).symm, nofun⟩
    | succ number => cases found
  | case3 line rest more ih =>
    cases number with
    | zero =>
      cases found
      exact ⟨line, [10], rfl, rfl, List.forall_mem_singleton.mpr rfl⟩
    | succ number => exact ih found

theorem terminated_append (front : List Bytes) {back : List Bytes} (present : back ≠ []) :
    terminated (front ++ back) = front.map (· ++ [10]) ++ terminated back := by
  induction front with
  | nil => rfl
  | cons line front ih =>
    have more : front ++ back ≠ [] := by simp [present]
    rw [List.cons_append, List.map_cons, List.cons_append, ← ih]
    cases rest : front ++ back with
    | nil => exact absurd rest more
    | cons next others => rfl

def policyLineBytes : List Bytes :=
  [ascii "pull-filter reject \"setenv \"\n", ascii "pull-filter accept \"setenv-safe\"\n",
    ascii "pull-filter reject \"setenv\"\n"]

theorem terminated_harden (content : Bytes) : terminated ((openVpnConfigSecurityPolicyPrefix ++ content).splitOn 10) =
    policyLineBytes ++ terminated (content.splitOn 10) := by
  have ends : openVpnConfigSecurityPolicyPrefix = openVpnConfigSecurityPolicyPrefix.dropLast ++ [10] := by
    decide
  have lines : (openVpnConfigSecurityPolicyPrefix.dropLast.splitOn 10).map (· ++ [10]) = policyLineBytes := by
    decide
  have present : content.splitOn 10 ≠ [] := List.splitOnP_ne_nil _ _
  rw [ends, List.append_assoc, List.singleton_append, List.splitOn_append_cons_self,
    terminated_append _ present, lines]

theorem mem_physicalLines (member : line ∈ physicalLines content) :
    (terminated (content.splitOn 10))[line.number]? = some line.bytes := by
  obtain ⟨index, bound, rfl⟩ := List.mem_mapIdx.mp member
  exact List.getElem?_eq_getElem bound

theorem line_of_hardened
    (member : line ∈ physicalLines (hardenOpenVpnConfigContent content)) : line.bytes ∈ policyLineBytes ∨
      ∃ number piece tail, line.number = policyLines content + number ∧
        (content.splitOn 10)[number]? = some piece ∧ line.bytes = piece ++ tail ∧
        ∀ byte ∈ tail, isBlankByte byte = true := by
  have found := mem_physicalLines member
  unfold hardenOpenVpnConfigContent at found
  unfold policyLines
  split_ifs at found ⊢ with already
  · obtain ⟨piece, tail, place, bytes, blank⟩ := terminated_getElem? found
    exact .inr ⟨line.number, piece, tail, (Nat.zero_add _).symm, place, bytes, blank⟩
  · rw [terminated_harden, List.getElem?_append] at found
    have three : policyLineBytes.length = 3 := rfl
    split_ifs at found with inPolicy
    · exact .inl (List.mem_of_getElem? found)
    · obtain ⟨piece, tail, place, bytes, blank⟩ := terminated_getElem? found
      exact .inr ⟨line.number - 3, piece, tail, by omega, place, bytes, blank⟩

theorem permitted_of_policyLine (policy : ScriptPolicy) {directive : Directive}
    (member : line.bytes ∈ policyLineBytes) (reads : ReadsAs line directive) : Permitted policy directive := by
  have words : ∀ bytes ∈ policyLineBytes, (lineWords bytes).map List.head? = some (some (ascii "pull-filter")) := by
    decide
  have unlisted : ∀ name ∈ forbiddenDirectives ++ externalFileDirectives, ascii "pull-filter" ≠ toBytes name := by
    decide
  obtain ⟨-, word, arguments, found, names⟩ := reads
  have first := words line.bytes member
  rw [found] at first
  have same : word = ascii "pull-filter" := Option.some.inj (Option.some.inj first)
  have name : bypassDoubleDash word = ascii "pull-filter" := by rw [same]; decide
  rcases names with ⟨sameName, -, -⟩ | ⟨-, tag, -, -⟩
  · refine permitted_of_unlisted policy fun listed inTable equal => unlisted listed inTable ?_
    rw [← name, ← sameName, equal]
  · have noTag : inlineTag (ascii "pull-filter") = none := by decide
    rw [name, noTag] at tag
    cases tag

theorem foldlM_take {σ α ε : Type} {step : σ → α → Except ε σ} {items : List α} {start final : σ}
    {item : α} (run : items.foldlM step start = .ok final) (place : items[number]? = some item) :
    ∃ before after, (items.take number).foldlM step start = .ok before ∧ step before item = .ok after := by
  induction items generalizing start number with
  | nil => cases place
  | cons head items ih =>
    rw [List.foldlM_cons] at run
    cases first : step start head with
    | error message => simp [first, bind, Except.bind] at run
    | ok next =>
      simp only [first, bind, Except.bind] at run
      cases number with
      | zero =>
        cases place
        exact ⟨start, next, rfl, first⟩
      | succ number =>
        obtain ⟨before, after, taken, stepped⟩ := ih run place
        refine ⟨before, after, ?_, stepped⟩
        rw [List.take_succ_cons, List.foldlM_cons, first]
        exact taken

theorem forall₂_getElem? {α β : Type} {R : α → β → Prop} {left : List α} {right : List β}
    (related : List.Forall₂ R left right) {a : α} (place : left[number]? = some a) :
    ∃ b, right[number]? = some b ∧ R a b := by
  induction related generalizing number with
  | nil => cases place
  | cons head _ ih =>
    cases number with
    | zero =>
      cases place
      exact ⟨_, rfl, head⟩
    | succ number => exact ih place

theorem fromUtf8_lines {text : Text} (read : fromUtf8 content = some text)
    (place : (content.splitOn 10)[number]? = some piece) :
    ∃ line, (text.splitOn '\n')[number]? = some line ∧
      (Encodes piece line ∨ ∃ mark : Char, 128 ≤ mark.toNat ∧ Encodes piece (mark :: line)) := by
  unfold fromUtf8 at read
  cases decoded : decode content with
  | none => rw [decoded] at read; cases read
  | some whole =>
    rw [decoded] at read
    obtain ⟨line, found, encodes⟩ := forall₂_getElem? (encodes_of_decode content whole decoded).lines place
    cases whole with
    | nil =>
      cases read
      exact ⟨line, found, .inl encodes⟩
    | cons mark rest =>
      dsimp only at read
      split_ifs at read with isMark
      · cases read
        have notFeed : '\n' ∉ [mark] := by
          rw [List.mem_singleton, char_eq_iff, isMark]
          decide
        rw [← List.singleton_append, splitOn_append_of_notMem notFeed] at found
        cases number with
        | zero =>
          cases first : text.splitOn '\n' with
          | nil => exact absurd first (List.splitOnP_ne_nil _ _)
          | cons head others =>
            rw [first] at found
            cases found
            exact ⟨head, rfl, .inr ⟨mark, by omega, encodes⟩⟩
        | succ number =>
          rw [List.getElem?_modifyHead_succ] at found
          exact ⟨line, found, .inl encodes⟩
      · cases read
        exact ⟨line, found, .inl encodes⟩

theorem chopCarriageReturn_split {line : Text} (encodes : Encodes piece line) :
    ∃ front tail, piece = front ++ tail ∧ Encodes front (chopCarriageReturn line) ∧
      ∀ byte ∈ tail, isBlankByte byte = true := by
  unfold chopCarriageReturn
  split_ifs with carriage
  · obtain ⟨front, rfl⟩ := List.getLast?_eq_some_iff.mp carriage
    obtain ⟨frontBytes, tail, rfl, frontEncodes, tailEncodes⟩ := Encodes.split encodes
    refine ⟨frontBytes, tail, rfl, by simpa using frontEncodes, ?_⟩
    rw [tailEncodes.eq_toBytes (List.forall_mem_singleton.mpr rfl)]
    exact List.forall_mem_singleton.mpr rfl
  · exact ⟨piece, [], (List.append_nil _).symm, encodes, nofun⟩

theorem scan_of_valid {policy : ScriptPolicy}
    (valid : validateOpenVpnConfigContent policy content = .ok ()) : ∃ text final,
      fromUtf8 content = some text ∧ (text.splitOn '\n').foldlM (scanPhysicalLine policy) {} = .ok final := by
  unfold validateOpenVpnConfigContent at valid
  split_ifs at valid with size
  cases read : fromUtf8 content with
  | none => rw [read] at valid; cases valid
  | some text =>
    rw [read] at valid
    dsimp only at valid
    split_ifs at valid
    cases scan : (text.splitOn '\n').foldlM (scanPhysicalLine policy) {} with
    | error message => simp [scan, bind, Except.bind] at valid
    | ok final => exact ⟨text, final, rfl, scan⟩

theorem matchCloseTag_of_comment {line : Text}
    (comment : line = [] ∨ line.head? = some '#' ∨ line.head? = some ';') : matchCloseTag line = none := by
  by_contra closes
  obtain ⟨tag, closes⟩ := Option.ne_none_iff_exists'.mp closes
  have first : ∀ char ∈ line.head?, isSpace char = false := by
    rcases comment with rfl | hash | semicolon
    · exact nofun
    · exact hash ▸ fun _ same => Option.some.inj same ▸ rfl
    · exact semicolon ▸ fun _ same => Option.some.inj same ▸ rfl
  obtain ⟨rest, rfl, -⟩ := matchTag_split first closes
  simp at comment

theorem scanLogicalLine_block {policy : ScriptPolicy} {state next : ScanState} {line : Text}
    (scanned : scanLogicalLine policy state line = .ok next) :
    next.logicalLine = state.logicalLine ∧ (next.activeDataBlock = [] ∨
      (next.activeDataBlock = state.activeDataBlock ∧
        (matchCloseTag line).map toLower ≠ some (toLower state.activeDataBlock)) ∨
      ((matchOpenTag line).map toLower = some next.activeDataBlock ∧ next.activeDataBlock ∈ dataBlocks)) := by
  unfold scanLogicalLine at scanned
  by_cases comment : line = [] ∨ line.head? = some '#' ∨ line.head? = some ';'
  · rw [if_pos comment] at scanned
    cases scanned
    exact ⟨rfl, .inr (.inl ⟨rfl, by simp [matchCloseTag_of_comment comment]⟩)⟩
  rw [if_neg comment] at scanned
  by_cases outside : state.activeDataBlock = []
  case neg =>
    rw [if_pos outside] at scanned
    split at scanned
    · next tag closes =>
      split_ifs at scanned with same
      · cases scanned
        exact ⟨rfl, .inl rfl⟩
      · cases scanned
        exact ⟨rfl, .inr (.inl ⟨rfl, by simpa [closes] using same⟩)⟩
    · next closes =>
      cases scanned
      exact ⟨rfl, .inr (.inl ⟨rfl, by simp [closes]⟩)⟩
  rw [if_neg (not_not.mpr outside)] at scanned
  split at scanned
  · next tag opens =>
    split_ifs at scanned with known
    · cases scanned
      exact ⟨rfl, .inr (.inr ⟨by rw [opens]; rfl, known⟩)⟩
    · cases scanned
      exact ⟨rfl, .inl outside⟩
  · split at scanned
    · cases scanned
      exact ⟨rfl, .inl outside⟩
    split at scanned
    · cases scanned
    · next name rest _ =>
      cases check : checkDirective policy (toLower name) (trimmed rest) with
      | error message => simp [check, bind, Except.bind] at scanned
      | ok _ =>
        simp only [check, bind, Except.bind] at scanned
        cases scanned
        exact ⟨rfl, .inl outside⟩

theorem toLower_dataBlock : ∀ tag ∈ dataBlocks, toLower tag = tag := by
  decide

theorem InDataBlock.snoc {lines : List Text} {tag line : Text} (inside : InDataBlock lines tag)
    (stays : (matchCloseTag (trimmed line)).map toLower ≠ some tag) : InDataBlock (lines ++ [line]) tag := by
  obtain ⟨front, opening, between, rfl, opens, known, kept⟩ := inside
  refine ⟨front, opening, between ++ [line], by simp, opens, known, fun other member => ?_⟩
  rcases List.mem_append.mp member with before | last
  · exact kept other before
  · exact List.mem_singleton.mp last ▸ stays

theorem scan_block {policy : ScriptPolicy} {front : List Text} {state : ScanState}
    (alone : ∀ line ∈ front, isContinued (chopCarriageReturn line) = false)
    (run : front.foldlM (scanPhysicalLine policy) {} = .ok state) : state.logicalLine = [] ∧
      (state.activeDataBlock = [] ∨ InDataBlock (front.map chopCarriageReturn) state.activeDataBlock) := by
  induction front using List.reverseRecOn generalizing state with
  | nil =>
    cases run
    exact ⟨rfl, .inl rfl⟩
  | append_singleton front line ih =>
    simp only [List.foldlM_append, List.foldlM_cons, List.foldlM_nil, bind_pure] at run
    cases before : front.foldlM (scanPhysicalLine policy) {} with
    | error message => simp [before, bind, Except.bind] at run
    | ok earlier =>
      have scanned : scanPhysicalLine policy earlier line = .ok state := by rwa [before] at run
      obtain ⟨pending, block⟩ := ih (fun other member => alone other (List.mem_append_left _ member)) before
      have single := alone line (List.mem_append_right _ (List.mem_singleton_self line))
      rw [scanPhysicalLine, pending, List.nil_append, if_neg (by simp [single])] at scanned
      obtain ⟨logical, closed | ⟨same, stays⟩ | ⟨opens, known⟩⟩ := scanLogicalLine_block scanned
      · exact ⟨logical, .inl closed⟩
      · refine ⟨logical, ?_⟩
        rw [same, List.map_append]
        refine block.imp id fun inside => inside.snoc ?_
        obtain ⟨-, -, -, -, -, known, -⟩ := inside
        rwa [← toLower_dataBlock _ known]
      · exact ⟨logical, .inr ⟨front.map chopCarriageReturn, _, [], by simp, opens, known, nofun⟩⟩

theorem permitted_of_checked {policy : ScriptPolicy}
    (valid : validateOpenVpnConfigContent policy content = .ok ()) {tail : Bytes}
    (place : (content.splitOn 10)[number]? = some piece) (blankTail : ∀ byte ∈ tail, isBlankByte byte = true)
    (checked : ¬ Overlooked policy (textLines content) number) {lineNumber : Nat}
    (reads : ReadsAs ⟨lineNumber, piece ++ tail⟩ directive) : Permitted policy directive := by
  obtain ⟨text, final, read, scan⟩ := scan_of_valid valid
  obtain ⟨line, found, encodes | ⟨mark, high, encodes⟩⟩ := fromUtf8_lines read place
  · obtain ⟨state, next, before, scanned⟩ := foldlM_take scan found
    have lines : textLines content = (text.splitOn '\n').map chopCarriageReturn := by simp [textLines, read]
    have here : (textLines content)[number]? = some (chopCarriageReturn line) := by
      rw [lines, List.getElem?_map, found]
      rfl
    have looked : ¬ (_ ∨ _ ∨ _) := fun why => checked ⟨_, here, why⟩
    simp only [not_or, not_exists, not_and, Bool.not_eq_true] at looked
    obtain ⟨single, outside, regular⟩ := looked
    have member : chopCarriageReturn line ∈ (textLines content).take (number + 1) :=
      List.mem_of_getElem? (by rw [List.getElem?_take_of_lt (Nat.lt_succ_self _), here])
    have plain : ∀ other ∈ (text.splitOn '\n').take number, isContinued (chopCarriageReturn other) = false := by
      intro other earlier
      refine single _ ?_
      rw [lines, ← List.map_take]
      exact List.mem_map_of_mem (List.take_subset_take_left _ (Nat.le_succ number) earlier)
    obtain ⟨pending, block⟩ := scan_block plain before
    have noBlock : ({ state with logicalLine := [] } : ScanState).activeDataBlock = [] :=
      block.resolve_right fun inside => by
        rw [List.map_take, ← lines] at inside
        exact outside _ inside
    rw [scanPhysicalLine, pending, List.nil_append, if_neg (by simp [single _ member])] at scanned
    obtain ⟨front, carriage, rfl, frontEncodes, blankCarriage⟩ := chopCarriageReturn_split encodes
    rw [List.append_assoc] at reads
    have blankRest : ∀ byte ∈ carriage ++ tail, isBlankByte byte = true := fun byte member =>
      (List.mem_append.mp member).elim (blankCarriage byte) (blankTail byte)
    exact permitted_of_line policy frontEncodes blankRest noBlock scanned regular reads
  · -- A byte order mark begins the first word.
    obtain ⟨byte, others, rfl, large⟩ := encodes.head_high high
    obtain ⟨-, word, arguments, words, names⟩ := reads
    obtain ⟨more, following, equal⟩ := readWords_extends_start (beginsWord_of_high large) words
    cases equal
    exact permitted_of_foreign policy (high_mem_name [] nofun large names) (isNameByte_of_high large)

theorem mem_linesOutside (member : line ∈ linesOutside blocks lines) : line ∈ lines := by
  induction lines generalizing blocks with
  | nil => cases member
  | cons head rest ih =>
    rw [linesOutside] at member
    split_ifs at member
    · exact (List.mem_cons.mp member).elim (fun same => same ▸ List.mem_cons_self)
        fun later => List.mem_cons_of_mem _ (ih later)
    · exact List.mem_cons_of_mem _ (ih member)

/-- A configuration that the check and OpenVPN accept gives only permitted directives exactly if it hides
no privileged one on a line that the check overlooks. -/
theorem checked_config_permitted_iff (policy : ScriptPolicy) (content : Bytes)
    (valid : validateOpenVpnConfigContent policy content = .ok ())
    (read : readConfig (hardenOpenVpnConfigContent content) = some directives) :
    (∀ directive ∈ directives, Permitted policy directive) ↔ ¬ HidesPrivileged policy content := by
  have found := (readDirectives_collects read (.inl rfl)).exactly
  have named {directive : Directive} (privileged : ¬ Permitted policy directive) :
      ∀ byte ∈ directive.name, isNameByte byte = true := fun byte member => by
    by_contra foreign
    exact privileged (permitted_of_foreign policy member (by simpa using foreign))
  constructor
  · rintro safe ⟨line, outside, -, directive, -, -, reads, privileged⟩
    exact privileged (safe directive ((found directive (named privileged)).mpr ⟨line, outside, reads⟩))
  · intro nothingHidden directive member
    by_contra privileged
    obtain ⟨⟨lineNumber, bytes⟩, outside, reads⟩ := (found directive (named privileged)).mp member
    rcases line_of_hardened (mem_linesOutside outside) with inPolicy | ⟨number, piece, tail, same, place, rfl, blank⟩
    · exact privileged (permitted_of_policyLine policy inPolicy reads)
    · refine privileged (permitted_of_checked valid place blank (fun overlooked => ?_) reads)
      exact nothingHidden ⟨_, outside, number, directive, same, overlooked, reads, privileged⟩

def resolverPolicy : ScriptPolicy := ⟨literal "/opt/AmneziaVPN/update-resolv-conf.sh", literal "/"⟩

def commentedPlugin : Bytes := ascii "client\n# \\\nplugin /tmp/evil.so\n"

def evilPlugin : Directive := ⟨5, ascii "plugin", [ascii "/tmp/evil.so"], false⟩

theorem validate_commentedPlugin : validateOpenVpnConfigContent resolverPolicy commentedPlugin = .ok () := by
  decide +kernel

theorem evilPlugin_mem_readConfig : ∃ directives,
    readConfig (hardenOpenVpnConfigContent commentedPlugin) = some directives ∧ evilPlugin ∈ directives :=
  ⟨_, rfl, by decide +kernel⟩

theorem evilPlugin_not_permitted : ¬ Permitted resolverPolicy evilPlugin := by
  intro permitted
  have listed : literal "plugin" ∈ forbiddenDirectives := by decide +kernel
  have others : literal "plugin" ≠ literal "script-security" ∧ literal "plugin" ≠ literal "up" ∧
      literal "plugin" ≠ literal "down" := by decide +kernel
  rcases permitted.privileged (literal "plugin") listed (by decide +kernel) with ⟨security, -⟩ | ⟨up | down, -⟩
  · exact others.1 security
  · exact others.2.1 up
  · exact others.2.2 down

theorem commentedPlugin_hidden : HidesPrivileged resolverPolicy commentedPlugin := by
  obtain ⟨directives, read, member⟩ := evilPlugin_mem_readConfig
  by_contra nothing
  exact evilPlugin_not_permitted
    ((checked_config_permitted_iff resolverPolicy commentedPlugin validate_commentedPlugin read).mpr nothing _ member)

theorem commentedPlugin_reaches_openvpn :
    validateOpenVpnConfigContent resolverPolicy commentedPlugin = .ok () ∧ ∃ directives,
      readConfig (hardenOpenVpnConfigContent commentedPlugin) = some directives ∧
      evilPlugin ∈ directives ∧ ¬ Permitted resolverPolicy evilPlugin := by
  obtain ⟨directives, read, member⟩ := evilPlugin_mem_readConfig
  exact ⟨validate_commentedPlugin, directives, read, member, evilPlugin_not_permitted⟩

end Amnezia.Ipc
