import Mathlib.Algebra.Ring.Nat
import Mathlib.Data.List.Infix

/-!
# Configuration payloads

`decode` tells plain text from the output of `qCompress` by the first bytes, and inflates the latter
chunk by chunk within a bound. zlib is given by the streams it recognises; memory for its state is
always there.
-/

namespace Amnezia.Utils.ConfigPayloadCodec

abbrev Bytes := List UInt8

/-! ## zlib and qCompress -/

inductive ZStatus where
  | ok | streamEnd | error
  deriving DecidableEq

structure Inflated (State : Type) where
  status : ZStatus
  state : State
  -- `next_in`, what is left of the input
  input : Bytes
  output : Bytes

/-- What is assumed of `inflate` when it is given all of the input at once. `stream state input output`
says that the input is exactly the rest of one complete stream, and the output what it still stands for. -/
structure Zlib where
  State : Type
  start : State
  inflate : State → Bytes → Nat → Inflated State
  stream : State → Bytes → Bytes → Prop
  produces : ∀ state input room, (inflate state input room).output.length ≤ room
  consumes : ∀ state input room, (inflate state input room).input <:+ input
  ends : ∀ state input room, (inflate state input room).status = .streamEnd →
    ∃ used, input = used ++ (inflate state input room).input ∧ stream state used (inflate state input room).output
  continues : ∀ state input room used, (inflate state input room).status = .ok →
    input = used ++ (inflate state input room).input → ∀ more rest,
      stream state (used ++ more) ((inflate state input room).output ++ rest) ↔
        stream (inflate state input room).state more rest
  completes : ∀ state input room output, stream state input output → 0 < room →
    (inflate state input room).status = .streamEnd ∧ (inflate state input room).input = [] ∧
        (inflate state input room).output = output ∨
      (inflate state input room).status = .ok ∧ (inflate state input room).output <+: output ∧
        ((inflate state input room).output ≠ [] ∨ (inflate state input room).input.length ≠ input.length)

def bigEndian (number : Nat) : Bytes :=
  [UInt8.ofNat (number / 2 ^ 24), UInt8.ofNat (number / 2 ^ 16), UInt8.ofNat (number / 2 ^ 8), UInt8.ofNat number]

-- CM is 8 with a window of at most 32 KiB, and FCHECK makes the header a multiple of 31.
def validHeader (cmf flg : UInt8) : Bool :=
  (cmf &&& 0x0f) = 8 && cmf >>> 4 ≤ 7 && (cmf.toNat * 2 ^ 8 + flg.toNat) % 31 = 0

def compressBound (length : Nat) : Nat := length + length / 2 ^ 12 + length / 2 ^ 14 + length / 2 ^ 25 + 13

/-- `qCompress`: four zero bytes for no data, else the length and one stream. -/
structure Compressor (zlib : Zlib) where
  qCompress : Bytes → Bytes
  format : ∀ data, data = [] ∧ qCompress data = [0, 0, 0, 0] ∨
    ∃ cmf flg body, qCompress data = bigEndian data.length ++ cmf :: flg :: body ∧
      validHeader cmf flg = true ∧ zlib.stream zlib.start (cmf :: flg :: body) data ∧
      (cmf :: flg :: body).length ≤ compressBound data.length

/-! ## The function -/

def maximumDecodedBytes : Nat := 16 * 1024 * 1024

inductive Status where
  | notCompressed | decoded | invalid | tooLarge
  deriving DecidableEq

structure Result where
  status : Status
  data : Bytes := []

def byteOrderMark : Bytes := [0xef, 0xbb, 0xbf]

def text (input : Bytes) : Bytes := if byteOrderMark.isPrefixOf input then input.drop 3 else input

def isBlank (byte : UInt8) : Bool := byte ∈ [0x20, 0x09, 0x0d, 0x0a, 0x0c, 0x0b]

def isOpening (byte : UInt8) : Bool := byte ∈ [0x7b, 0x5b, 0x23, 0x3b]

def scanConfiguration : Bytes → Bool
  | [] => false
  | byte :: rest => if !isBlank byte then isOpening byte else scanConfiguration rest

def hasPlainConfigurationPrefix (input : Bytes) : Bool := scanConfiguration (text input)

def isText (byte : UInt8) : Bool := !((byte < 32 || byte > 126) && byte ∉ [0x09, 0x0a, 0x0d, 0x0c, 0x0b])

def hasPlainTextPrefix (input : Bytes) : Bool := ((text input).take 4).all isText

def hasZlibHeader (input : Bytes) : Bool :=
  match input.drop 4 with
  | cmf :: flg :: _ => validHeader cmf flg
  | _ => false

def hasCompressedEnvelope (input : Bytes) : Bool :=
  input = [0, 0, 0, 0] ||
    (!hasPlainConfigurationPrefix input && !hasPlainTextPrefix input && hasZlibHeader input)

variable (zlib : Zlib)

variable {input : Bytes} {byte : UInt8}

theorem inflate_progress {maximum room : Nat} {state : zlib.State} {output : Bytes}
    (fits : ¬ (zlib.inflate state input room).output.length > maximum - output.length)
    (moves : ¬ ((zlib.inflate state input room).output = [] ∧
      (zlib.inflate state input room).input.length = input.length)) :
    maximum - (output ++ (zlib.inflate state input room).output).length +
      (zlib.inflate state input room).input.length < maximum - output.length + input.length := by
  have left := (zlib.consumes state input room).length_le
  rw [List.length_append]
  by_cases silent : (zlib.inflate state input room).output = []
  · have read : (zlib.inflate state input room).input.length ≠ input.length :=
      fun same => moves ⟨silent, same⟩
    rw [silent, List.length_nil]
    omega
  · have wrote := List.length_pos_iff.mpr silent
    omega

-- The loop over the chunks. It gives up when a call neither reads nor writes.
def inflateAll (maximum : Nat) (state : zlib.State) (input output : Bytes) : Result :=
  let remaining := maximum - output.length
  let called := zlib.inflate state input (min (64 * 1024) (remaining + 1))
  if called.output.length > remaining then ⟨.tooLarge, []⟩
  else if called.status = .streamEnd then
    if called.input ≠ [] then ⟨.invalid, []⟩ else ⟨.decoded, output ++ called.output⟩
  else if called.status ≠ .ok ∨ (called.output = [] ∧ called.input.length = input.length) then ⟨.invalid, []⟩
  else inflateAll maximum called.state called.input (output ++ called.output)
termination_by maximum - output.length + input.length
decreasing_by exact inflate_progress zlib ‹_› fun both => ‹¬ (_ ∨ _)› (.inr both)

def decode (input : Bytes) (maximum : Int) : Result :=
  if maximum < 0 ∨ maximum > maximumDecodedBytes then ⟨.invalid, []⟩
  else
    let maximum := maximum.toNat
    if input.length > maximum + maximum / 1000 + 64 then ⟨.tooLarge, []⟩
    else if input = [0, 0, 0, 0] then ⟨.decoded, []⟩
    else if !hasCompressedEnvelope input then
      if input.length > maximum then ⟨.tooLarge, []⟩ else ⟨.notCompressed, input⟩
    else inflateAll zlib maximum zlib.start (input.drop 4) []

/-! ## The loop -/

variable {zlib} {maximum : Nat}

theorem inflateAll_sound (state : zlib.State) (input output : Bytes) (bounded : output.length ≤ maximum) :
    (inflateAll zlib maximum state input output).status ∈ [.invalid, .tooLarge] ∨
      ∃ rest, inflateAll zlib maximum state input output = ⟨.decoded, output ++ rest⟩ ∧
        (output ++ rest).length ≤ maximum ∧ zlib.stream state input rest := by
  induction state, input, output using inflateAll.induct zlib maximum with
  | case1 state input output remaining called large =>
    rw [inflateAll, if_pos large]
    exact .inl (by decide)
  | case2 state input output remaining called small ended more =>
    rw [inflateAll, if_neg small, if_pos ended, if_pos more]
    exact .inl (by decide)
  | case3 state input output remaining called small ended whole =>
    rw [inflateAll, if_neg small, if_pos ended, if_neg whole]
    obtain ⟨used, split, stream⟩ := zlib.ends _ _ _ ended
    have same : input = used := by rw [split, not_not.mp whole, List.append_nil]
    refine .inr ⟨called.output, rfl, ?_, same ▸ stream⟩
    rw [List.length_append]
    omega
  | case4 state input output remaining called small unended stuck =>
    rw [inflateAll, if_neg small, if_neg unended, if_pos stuck]
    exact .inl (by decide)
  | case5 state input output remaining called small unended moves ih =>
    rw [inflateAll, if_neg small, if_neg unended, if_neg moves]
    rcases ih (by rw [List.length_append]; omega) with failed | ⟨rest, equation, within, stream⟩
    · exact .inl failed
    · obtain ⟨used, split⟩ := zlib.consumes state input (min (64 * 1024) (remaining + 1))
      have good : called.status = .ok := not_not.mp fun bad => moves (.inl bad)
      have whole := (zlib.continues _ _ _ used good split.symm _ _).mpr stream
      rw [split] at whole
      rw [List.append_assoc] at equation within
      exact .inr ⟨called.output ++ rest, equation, within, whole⟩

theorem inflateAll_complete {state : zlib.State} {output rest : Bytes}
    (stream : zlib.stream state input rest) (bounded : (output ++ rest).length ≤ maximum) :
    inflateAll zlib maximum state input output = ⟨.decoded, output ++ rest⟩ := by
  induction size : maximum - output.length + input.length using Nat.strong_induction_on
    generalizing state input output rest with
  | h size ih =>
  rw [List.length_append] at bounded
  have room : 0 < min (64 * 1024) (maximum - output.length + 1) := by omega
  rw [inflateAll]
  rcases zlib.completes state input _ rest stream room with ⟨ended, drained, whole⟩ | ⟨ok, ⟨left, split⟩, moved⟩
  · rw [if_neg (by rw [whole]; omega), if_pos ended, if_neg (not_not.mpr drained), whole]
  · rw [← split, List.length_append] at bounded
    have small : ¬ (zlib.inflate state input (min (64 * 1024) (maximum - output.length + 1))).output.length >
        maximum - output.length := by omega
    have moves := not_and_or.mpr moved
    obtain ⟨used, consumed⟩ := zlib.consumes state input (min (64 * 1024) (maximum - output.length + 1))
    have continued : zlib.stream _ _ left :=
      (zlib.continues _ _ _ used ok consumed.symm _ _).mp (by rw [consumed, split]; exact stream)
    have fits : (output ++ (zlib.inflate state input (min (64 * 1024) (maximum - output.length + 1))).output ++
        left).length ≤ maximum := by
      rw [List.length_append, List.length_append]
      omega
    rw [if_neg small, if_neg (by rw [ok]; decide), if_neg (by rintro (bad | both); exacts [bad ok, moves both]),
      ih _ (size ▸ inflate_progress zlib small moves) continued fits rfl, List.append_assoc, split]

/-! ## Plain text and envelopes -/

/-- The input starts, after an optional byte order mark, with four printable or whitespace bytes. -/
def StartsAsText (input : Bytes) : Prop :=
  ∃ mark first rest, input = mark ++ first ++ rest ∧ (mark = [] ∨ mark = byteOrderMark) ∧ first.length = 4 ∧
    ∀ byte ∈ first, isBlank byte = true ∨ 32 ≤ byte ∧ byte ≤ 126

/-- The first byte that is no blank, after an optional byte order mark, is one of `{ [ # ;`. -/
def StartsAsConfiguration (input : Bytes) : Prop :=
  ∃ mark blanks opening rest, input = mark ++ blanks ++ opening :: rest ∧ (mark = [] ∨ mark = byteOrderMark) ∧
    (∀ byte ∈ blanks, isBlank byte = true) ∧ isOpening opening = true

theorem isBlank_text (blank : isBlank byte = true) : isText byte = true ∧ byte < 128 :=
  (by decide +kernel : ∀ byte ∈ ([0x20, 0x09, 0x0d, 0x0a, 0x0c, 0x0b] : Bytes), isText byte = true ∧ byte < 128) byte
    (of_decide_eq_true blank)

theorem visible_text (visible : 32 ≤ byte ∧ byte ≤ 126) : isText byte = true ∧ byte < 128 := by
  have inside : (byte < 32 || byte > 126) = false :=
    Bool.or_eq_false_iff.mpr ⟨decide_eq_false (UInt8.not_lt.mpr visible.1),
      decide_eq_false (UInt8.not_lt.mpr visible.2)⟩
  exact ⟨by rw [isText, inside]; rfl, UInt8.lt_of_le_of_lt visible.2 (by decide)⟩

theorem isOpening_visible (opening : isOpening byte = true) : isBlank byte = false ∧ byte < 128 :=
  (by decide +kernel : ∀ byte ∈ ([0x7b, 0x5b, 0x23, 0x3b] : Bytes), isBlank byte = false ∧ byte < 128) byte
    (of_decide_eq_true opening)

theorem text_marked {mark : Bytes} (rest : Bytes) (marked : mark = [] ∨ mark = byteOrderMark)
    (plain : ∀ byte ∈ rest.head?, byte < 128) : text (mark ++ rest) = rest := by
  rcases marked with rfl | rfl
  · refine if_neg ?_
    cases rest with
    | nil => decide
    | cons byte rest =>
      rw [byteOrderMark, List.nil_append, List.isPrefixOf, Bool.and_eq_true, beq_iff_eq]
      rintro ⟨rfl, _⟩
      exact absurd (plain _ rfl) (by decide)
  · rw [text, if_pos (List.isPrefixOf_iff_prefix.mpr (List.prefix_append _ _))]
    rfl

theorem scanConfiguration_blanks {blanks : Bytes} (blank : ∀ byte ∈ blanks, isBlank byte = true) (rest : Bytes) :
    scanConfiguration (blanks ++ rest) = scanConfiguration rest := by
  induction blanks with
  | nil => rfl
  | cons byte blanks ih =>
    rw [List.cons_append, scanConfiguration, blank byte List.mem_cons_self]
    exact ih fun byte inside => blank byte (List.mem_cons_of_mem _ inside)

theorem StartsAsConfiguration.plain (starts : StartsAsConfiguration input) :
    hasPlainConfigurationPrefix input = true := by
  obtain ⟨mark, blanks, opening, rest, rfl, marked, blank, opens⟩ := starts
  obtain ⟨visible, ascii⟩ := isOpening_visible opens
  rw [hasPlainConfigurationPrefix, List.append_assoc, text_marked _ marked, scanConfiguration_blanks blank,
    scanConfiguration, visible]
  · exact opens
  · cases blanks with
    | nil => rintro _ ⟨⟩; exact ascii
    | cons byte blanks => rintro _ ⟨⟩; exact (isBlank_text (blank _ List.mem_cons_self)).2

theorem StartsAsText.plain (starts : StartsAsText input) : hasPlainTextPrefix input = true := by
  obtain ⟨mark, first, rest, rfl, marked, four, printable⟩ := starts
  have text byte (inside : byte ∈ first) := (printable byte inside).elim isBlank_text visible_text
  rw [hasPlainTextPrefix, List.append_assoc, text_marked _ marked, List.take_left' four, List.all_eq_true]
  · exact fun byte inside => (text byte inside).1
  · cases first with
    | nil => cases four
    | cons byte first => rintro _ ⟨⟩; exact (text _ List.mem_cons_self).2

theorem hasCompressedEnvelope_bigEndian {length : Nat} {cmf flg : UInt8} (body : Bytes)
    (small : length ≤ maximumDecodedBytes) (valid : validHeader cmf flg = true) :
    hasCompressedEnvelope (bigEndian length ++ cmf :: flg :: body) = true := by
  have first : UInt8.ofNat (length / 2 ^ 24) = 0 ∨ UInt8.ofNat (length / 2 ^ 24) = 1 := by
    rw [maximumDecodedBytes] at small
    obtain zero | one : length / 2 ^ 24 = 0 ∨ length / 2 ^ 24 = 1 := by omega
    · exact .inl (by rw [zero]; rfl)
    · exact .inr (by rw [one]; rfl)
  have header : hasZlibHeader (bigEndian length ++ cmf :: flg :: body) = true := valid
  have unmarked := text_marked (bigEndian length ++ cmf :: flg :: body) (.inl rfl)
  rw [hasCompressedEnvelope, header, hasPlainConfigurationPrefix, hasPlainTextPrefix]
  rcases first with first | first
  all_goals
    rw [bigEndian, first, List.nil_append] at unmarked
    rw [bigEndian, first, unmarked (by rintro _ ⟨⟩; decide)]
    exact Bool.or_true _

theorem decode_qCompress (compressor : Compressor zlib) {data : Bytes} (bounded : maximum ≤ maximumDecodedBytes)
    (fits : data.length ≤ maximum) : decode zlib (compressor.qCompress data) maximum = ⟨.decoded, data⟩ := by
  rw [decode, if_neg (by omega)]
  simp only [Int.toNat_natCast]
  rcases compressor.format data with ⟨rfl, empty⟩ | ⟨cmf, flg, body, format, valid, stream, usual⟩
  · rw [empty, if_neg (by simp only [List.length_cons, List.length_nil]; omega), if_pos rfl]
  · have long : (bigEndian data.length ++ cmf :: flg :: body).length = (cmf :: flg :: body).length + 4 :=
      List.length_append.trans (Nat.add_comm _ _)
    rw [compressBound] at usual
    rw [format, if_neg (by omega), if_neg, hasCompressedEnvelope_bigEndian body (by omega) valid]
    · exact inflateAll_complete stream fits
    · intro same
      rw [same] at long
      cases long

theorem decode_plain (bounded : maximum ≤ maximumDecodedBytes) (fits : input.length ≤ maximum)
    (starts : StartsAsText input ∨ StartsAsConfiguration input) :
    decode zlib input maximum = ⟨.notCompressed, input⟩ := by
  have nonzero : input ≠ [0, 0, 0, 0] := by
    rintro rfl
    rcases starts with starts | starts
    · exact absurd starts.plain (by decide)
    · exact absurd starts.plain (by decide)
  have plain : hasCompressedEnvelope input = false := by
    rw [hasCompressedEnvelope, decide_eq_false nonzero, Bool.false_or]
    rcases starts with starts | starts
    · rw [starts.plain, Bool.not_true, Bool.and_false, Bool.false_and]
    · rw [starts.plain, Bool.not_true, Bool.false_and, Bool.false_and]
  rw [decode, if_neg (by omega)]
  simp only [Int.toNat_natCast]
  rw [if_neg (by omega), if_neg nonzero, plain, Bool.not_false, if_pos rfl, if_neg (by omega)]

theorem decode_sound (input : Bytes) (maximum : Int) :
    (decode zlib input maximum).status ∈ [.invalid, .tooLarge] ∨
      ((decode zlib input maximum).data.length : Int) ≤ maximum ∧
        ((decode zlib input maximum).status = .decoded →
          input = [0, 0, 0, 0] ∧ (decode zlib input maximum).data = [] ∨
            zlib.stream zlib.start (input.drop 4) (decode zlib input maximum).data) := by
  rw [decode]
  dsimp only
  split_ifs with range large empty plain long
  · exact .inl (by decide)
  · exact .inl (by decide)
  · exact .inr ⟨by rw [List.length_nil]; omega, fun _ => .inl ⟨empty, rfl⟩⟩
  · exact .inl (by decide)
  · exact .inr ⟨by dsimp only; omega, nofun⟩
  · rcases inflateAll_sound zlib.start (input.drop 4) [] (Nat.zero_le maximum.toNat) with
      failed | ⟨rest, equation, within, stream⟩
    · exact .inl failed
    · rw [equation]
      exact .inr ⟨by dsimp only; omega, fun _ => .inr stream⟩

/-! ## A sample of zlib -/

-- Streams that are a header and the data itself; the state is the part of the header still to come.
def storedInflate (header input : Bytes) (room : Nat) : Inflated Bytes :=
  if header <+: input then
    let rest := input.drop header.length
    ⟨if rest.length ≤ room then .streamEnd else .ok, [], rest.drop room, rest.take room⟩
  else ⟨.error, header, input, []⟩

theorem storedInflate_append (header rest : Bytes) (room : Nat) : storedInflate header (header ++ rest) room =
    ⟨if rest.length ≤ room then .streamEnd else .ok, [], rest.drop room, rest.take room⟩ := by
  rw [storedInflate, if_pos (List.prefix_append _ _), List.drop_left]

theorem storedInflate_cases (header input : Bytes) (room : Nat) :
    storedInflate header input room = ⟨.error, header, input, []⟩ ∨ ∃ rest, input = header ++ rest := by
  by_cases starts : header <+: input
  · exact .inr (starts.imp fun _ => Eq.symm)
  · exact .inl (if_neg starts)

def storedZlib : Zlib where
  State := Bytes
  start := [0x78, 0x9c]
  inflate := storedInflate
  stream header input output := input = header ++ output
  produces header input room := by
    rcases storedInflate_cases header input room with failed | ⟨rest, rfl⟩
    · rw [failed]
      exact Nat.zero_le _
    · rw [storedInflate_append]
      exact List.length_take_le _ _
  consumes header input room := by
    rcases storedInflate_cases header input room with failed | ⟨rest, rfl⟩
    · rw [failed]
    · rw [storedInflate_append]
      exact (List.drop_suffix _ _).trans (List.suffix_append _ _)
  ends header input room ended := by
    rcases storedInflate_cases header input room with failed | ⟨rest, rfl⟩
    · rw [failed] at ended
      cases ended
    · rw [storedInflate_append]
      exact ⟨header ++ rest.take room, by rw [List.append_assoc, List.take_append_drop], rfl⟩
  continues header input room used ok split more output := by
    rcases storedInflate_cases header input room with failed | ⟨rest, rfl⟩
    · rw [failed] at ok
      cases ok
    · rw [storedInflate_append] at split ⊢
      have used : used = header ++ rest.take room :=
        List.append_cancel_right (split.symm.trans (by rw [List.append_assoc, List.take_append_drop]))
      rw [used, List.append_assoc, List.append_cancel_left_eq, List.append_cancel_left_eq]
      rfl
  completes header input room output stream positive := by
    subst stream
    rw [storedInflate_append]
    by_cases whole : output.length ≤ room
    · exact .inl ⟨if_pos whole, List.drop_of_length_le whole, List.take_of_length_le whole⟩
    · refine .inr ⟨if_neg whole, List.take_prefix _ _, .inl ?_⟩
      rw [Ne, List.take_eq_nil_iff]
      rintro (rfl | rfl)
      · exact absurd positive (by decide)
      · exact whole (Nat.zero_le _)

def storedCompressor : Compressor storedZlib where
  qCompress data := bigEndian data.length ++ 0x78 :: 0x9c :: data
  format data := .inr ⟨0x78, 0x9c, data, rfl, by decide, rfl, by
    rw [compressBound, List.length_cons, List.length_cons]
    omega⟩

theorem decode_inverts_qCompress (zlib : Zlib) (compressor : Compressor zlib) :
    (∀ maximum : Int, 0 ≤ maximum → maximum ≤ maximumDecodedBytes → ∀ data : Bytes, data.length ≤ maximum →
      decode zlib (compressor.qCompress data) maximum = ⟨.decoded, data⟩) ∧
    (∀ input maximum, (decode zlib input maximum).status ∈ [.decoded, .notCompressed] →
      (decode zlib input maximum).data.length ≤ maximum) ∧
    (∀ (input : Bytes) (maximum : Int), 0 ≤ maximum → maximum ≤ maximumDecodedBytes → input.length ≤ maximum →
      StartsAsText input ∨ StartsAsConfiguration input → decode zlib input maximum = ⟨.notCompressed, input⟩) ∧
    ∀ input maximum, (decode zlib input maximum).status = .decoded →
      input = [0, 0, 0, 0] ∧ (decode zlib input maximum).data = [] ∨
        zlib.stream zlib.start (input.drop 4) (decode zlib input maximum).data := by
  refine ⟨?qCompress, ?bounded, ?plain, ?stream⟩
  case qCompress =>
    intro maximum positive bounded data fits
    lift maximum to Nat using positive
    exact decode_qCompress compressor (Int.ofNat_le.mp bounded) (Int.ofNat_le.mp fits)
  case bounded =>
    intro input maximum given
    rcases @decode_sound zlib input maximum with failed | ⟨bounded, _⟩
    · have apart : ∀ status : Status, status ∈ [.invalid, .tooLarge] → status ∉ [.decoded, .notCompressed] := by
        intro status
        cases status <;> decide
      exact absurd given (apart _ failed)
    · exact bounded
  case plain =>
    intro input maximum positive bounded fits starts
    lift maximum to Nat using positive
    exact decode_plain (Int.ofNat_le.mp bounded) (Int.ofNat_le.mp fits) starts
  case stream =>
    intro input maximum decoded
    rcases decode_sound input maximum with failed | ⟨_, stream⟩
    · rw [decoded] at failed
      exact absurd failed (by decide)
    · exact stream decoded

theorem stored_decode_inverts_qCompress :
    decode storedZlib (storedCompressor.qCompress [0x61, 0x62]) 2 = ⟨.decoded, [0x61, 0x62]⟩ :=
  (decode_inverts_qCompress storedZlib storedCompressor).1 2 (by decide) (by decide) _ (by decide)

theorem empty_decodes_without_stream : (decode storedZlib [0, 0, 0, 0] 0).status = .decoded ∧
    ∀ data, ¬ storedZlib.stream storedZlib.start (([0, 0, 0, 0] : Bytes).drop 4) data :=
  ⟨by decide +kernel, fun _ => nofun⟩

end Amnezia.Utils.ConfigPayloadCodec
