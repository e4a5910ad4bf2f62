import Amnezia.Ipc.OpenVpnReader
import Amnezia.Lib.Json
import Mathlib.Algebra.Group.Int.Defs
import Mathlib.Data.List.Infix

/-! # The reply of the control service -/

namespace Amnezia.Migration.Transport
open Lib
open Ipc (Bytes ascii isBlankByte)

/-- What is asked of Qt: `QByteArray::toInt` and `toLongLong`, and the object of a JSON document that
parses without an error. -/
structure Qt where
  toInt : Bytes → Option Int
  toLongLong : Bytes → Option Int
  object : Bytes → Option JsonObject

inductive State where
  | pending | complete | failed
  deriving DecidableEq

structure ControlReply where
  state : State := .pending
  reason : String := ""
  httpStatus : Int := 0
  payload : JsonObject := []

def fail (reason : String) (httpStatus : Int) : ControlReply := { state := .failed, reason, httpStatus }

def trimmed (bytes : Bytes) : Bytes := (bytes.dropWhile isBlankByte).rdropWhile isBlankByte

def toLower (byte : UInt8) : UInt8 := if 65 ≤ byte ∧ byte ≤ 90 then byte + 32 else byte

def indexOf (pattern : Bytes) : Bytes → Option Nat
  | [] => if pattern = [] then some 0 else none
  | byte :: rest =>
    if pattern.isPrefixOf (byte :: rest) then some 0 else (indexOf pattern rest).map (· + 1)

def emptyLine : Bytes := ascii "\r\n\r\n"

def isField (name : String) (header : Bytes) : Bool := (ascii name).isPrefixOf (header.map toLower)

def statusLine (block : Bytes) : List Bytes := (trimmed ((block.splitOn 10).headD [])).splitOn 32

def fields (block : Bytes) : List Bytes := (block.splitOn 10).tail

variable (qt : Qt) (limit : Int32)

-- The loop over the headers; `none` is the length -1.
def readLength : Option Int → List Bytes → Except String (Option Int)
  | length, [] => .ok length
  | length, header :: headers =>
    if isField "transfer-encoding:" header then .error "control_response_transfer_encoding"
    else if isField "content-length:" header then
      match qt.toLongLong (trimmed (header.drop 15)) with
      | none => .error "control_response_invalid_length"
      | some parsed =>
        if length ≠ none ∨ parsed ≤ 0 ∨ limit.toInt < parsed then
          .error "control_response_invalid_length"
        else readLength (some parsed) headers
    else readLength length headers

def readHeaders (block : Bytes) : Except ControlReply Int :=
  let status := statusLine block
  if status.length < 3 ∨ status.getD 0 [] ∉ [ascii "HTTP/1.0", ascii "HTTP/1.1"] ∨
      (status.getD 1 []).length ≠ 3 then
    .error (fail "control_response_invalid_status" 0)
  else
    let valid := qt.toInt (status.getD 1 [])
    let httpStatus := valid.getD 0
    if valid = none ∨ httpStatus < 100 ∨ 599 < httpStatus then
      .error (fail "control_response_invalid_status" httpStatus)
    else if httpStatus ≠ 200 then .error (fail "control_http_rejected" httpStatus)
    else
      match readLength qt limit none (fields block) with
      | .error reason => .error (fail reason httpStatus)
      | .ok none => .error (fail "control_response_missing_length" httpStatus)
      | .ok (some length) => .ok length

-- The sizes are compared without the block and the empty line, which both sides of the source have.
def readReply (block body : Bytes) : ControlReply :=
  if 8192 < block.length then fail "control_response_headers_too_large" 0
  else
    match readHeaders qt limit block with
    | .error reply => reply
    | .ok length =>
      if (body.length : Int) < length then { httpStatus := 200 }
      else if (body.length : Int) ≠ length then fail "control_response_extra_bytes" 200
      else
        match qt.object body with
        | none => fail "control_response_invalid_json" 200
        | some payload => { state := .complete, httpStatus := 200, payload }

-- The limit plus 8192 is a 32-bit sum, which is taken to wrap where it overflows.
def parseControlReply (bytes : Bytes) : ControlReply :=
  if (limit + 8192).toInt < bytes.length then fail "control_response_too_large" 0
  else
    match indexOf emptyLine bytes with
    | none => {}
    | some boundary => readReply qt limit (bytes.take boundary) (bytes.drop (boundary + 4))

def replyState (bytes : Bytes) : State := (parseControlReply qt limit bytes).state

/-- A header block ends at the first empty line. -/
def IsBlock (block : Bytes) : Prop := ¬ emptyLine <:+: block ++ emptyLine.dropLast

def lengths (headers : List Bytes) : List (Option Int) :=
  (headers.filter (isField "content-length:")).map fun header => qt.toLongLong (trimmed (header.drop 15))

structure HasStatus (block : Bytes) : Prop where
  parts : 3 ≤ (statusLine block).length
  version : (statusLine block).getD 0 [] ∈ [ascii "HTTP/1.0", ascii "HTTP/1.1"]
  digits : ((statusLine block).getD 1 []).length = 3
  success : qt.toInt ((statusLine block).getD 1 []) = some 200

/-- No transfer encoding, and exactly one length, which is within the limit. -/
def States (headers : List Bytes) (length : Int) : Prop :=
  (∀ header ∈ headers, isField "transfer-encoding:" header = false) ∧
    lengths qt headers = [some length] ∧ 1 ≤ length ∧ length ≤ limit.toInt

def WellFormed (bytes : Bytes) : Prop :=
  ∃ block body, bytes = block ++ emptyLine ++ body ∧ IsBlock block ∧ block.length ≤ 8192 ∧
    HasStatus qt block ∧ States qt limit (fields block) body.length ∧
    bytes.length ≤ limit.toInt + 8192 ∧ (qt.object body).isSome = true

variable {qt limit} {bytes block body more : Bytes} {boundary : Nat} {length : Int}

theorem indexOf_cons {pattern : Bytes} (byte : UInt8) (rest : Bytes) : indexOf pattern (byte :: rest) =
    if pattern.isPrefixOf (byte :: rest) then some 0 else (indexOf pattern rest).map (· + 1) := rfl

theorem front_begins (block body : Bytes) : block ++ emptyLine.dropLast <+: block ++ emptyLine ++ body := by
  rw [List.append_assoc, List.prefix_append_right_inj]
  exact (List.dropLast_prefix _).trans (List.prefix_append _ _)

theorem indexOf_block (isBlock : IsBlock block) (body : Bytes) :
    indexOf emptyLine (block ++ emptyLine ++ body) = some block.length := by
  induction block with
  | nil => rfl
  | cons byte block ih =>
    rw [IsBlock, List.cons_append, List.infix_cons_iff, not_or] at isBlock
    rw [List.cons_append, List.cons_append, indexOf_cons, if_neg, ih isBlock.2]
    · rfl
    · intro here
      -- A mark that begins inside the block ends before the last byte of the empty line.
      refine isBlock.1 (List.prefix_of_prefix_length_le (List.isPrefixOf_iff_prefix.mp here)
        (front_begins (byte :: block) body) ?_)
      have : emptyLine.length = emptyLine.dropLast.length + 1 := rfl
      simp only [List.length_cons, List.length_append]
      omega

theorem block_of_indexOf (found : indexOf emptyLine bytes = some boundary) :
    ∃ block body, bytes = block ++ emptyLine ++ body ∧ IsBlock block := by
  induction bytes generalizing boundary with
  | nil => cases found
  | cons byte rest ih =>
    rw [indexOf_cons] at found
    split_ifs at found with here
    · obtain ⟨body, same⟩ := List.isPrefixOf_iff_prefix.mp here
      exact ⟨[], body, same.symm, by unfold IsBlock; decide +kernel⟩
    · obtain ⟨index, later, -⟩ := Option.map_eq_some_iff.mp found
      obtain ⟨block, body, rfl, isBlock⟩ := ih later
      refine ⟨byte :: block, body, rfl, ?_⟩
      rw [IsBlock, List.cons_append, List.infix_cons_iff, not_or]
      refine ⟨fun first => here (List.isPrefixOf_iff_prefix.mpr (first.trans ?_)), isBlock⟩
      exact front_begins (byte :: block) body

theorem readHeaders_error {reply : ControlReply}
    (refused : readHeaders qt limit block = .error reply) : reply.state = .failed := by
  unfold readHeaders at refused
  dsimp only at refused
  split_ifs at refused
  · cases refused; rfl
  · cases refused; rfl
  · cases refused; rfl
  · split at refused <;> cases refused <;> rfl

theorem readLength_ok {headers : List Bytes} {known : Option Int} :
    readLength qt limit known headers = .ok (some length) ↔
      (∀ header ∈ headers, isField "transfer-encoding:" header = false) ∧
        (known.map some).toList ++ lengths qt headers = [some length] ∧
        (known = none → 1 ≤ length ∧ length ≤ limit.toInt) := by
  induction headers generalizing known with
  | nil => cases known <;> simp [readLength, lengths]
  | cons header headers ih =>
    rw [readLength, List.forall_mem_cons]
    by_cases encoded : isField "transfer-encoding:" header = true
    · simp [encoded]
    rw [if_neg encoded]
    by_cases sized : isField "content-length:" header = true
    · have first : lengths qt (header :: headers) =
          qt.toLongLong (trimmed (header.drop 15)) :: lengths qt headers := by
        rw [lengths, List.filter_cons_of_pos sized]
        rfl
      rw [if_pos sized, first]
      cases qt.toLongLong (trimmed (header.drop 15)) with
      | none => cases known <;> simp
      | some parsed =>
        dsimp only
        split_ifs with refused
        · refine iff_of_false nofun ?_
          rintro ⟨-, same, range⟩
          cases known with
          | some known => simp at same
          | none =>
            have within := range rfl
            cases (List.cons.inj same).1
            simp at refused
            omega
        · simp only [not_or, not_not, Int.not_le, Int.not_lt] at refused
          obtain ⟨rfl, low, high⟩ := refused
          rw [ih]
          constructor
          · rintro ⟨plain, same, -⟩
            refine ⟨⟨eq_false_of_ne_true encoded, plain⟩, same, fun _ => ?_⟩
            cases (List.cons.inj same).1
            exact ⟨low, high⟩
          · rintro ⟨plain, same, -⟩
            exact ⟨plain.2, same, nofun⟩
    · rw [if_neg sized, ih, lengths, lengths, List.filter_cons_of_neg sized]
      simp [encoded]

theorem readHeaders_ok : readHeaders qt limit block = .ok length ↔
    HasStatus qt block ∧ States qt limit (fields block) length := by
  have loop : States qt limit (fields block) length ↔
      readLength qt limit none (fields block) = .ok (some length) := by
    rw [readLength_ok]
    simp [States]
  rw [loop]
  unfold readHeaders
  dsimp only
  constructor
  · intro accepted
    split_ifs at accepted with line range other
    simp only [not_or, Nat.not_lt, not_not] at line range other
    obtain ⟨status, read⟩ := Option.ne_none_iff_exists'.mp range.1
    rw [read] at other
    have success : status = 200 := other
    refine ⟨⟨line.1, line.2.1, line.2.2, success ▸ read⟩, ?_⟩
    split at accepted
    · cases accepted
    · cases accepted
    · cases accepted
      assumption
  · rintro ⟨status, lengths⟩
    have line : ¬ ((statusLine block).length < 3 ∨
        (statusLine block).getD 0 [] ∉ [ascii "HTTP/1.0", ascii "HTTP/1.1"] ∨
        ((statusLine block).getD 1 []).length ≠ 3) := by
      simp only [not_or, Nat.not_lt, not_not]
      exact ⟨status.parts, status.version, status.digits⟩
    rw [if_neg line, status.success, if_neg (by simp), if_neg (by simp), lengths]

abbrev tooLarge (limit : Int32) (bytes : Bytes) : Prop := (limit + 8192).toInt < bytes.length

theorem replyState_large (large : tooLarge limit bytes) : replyState qt limit bytes = .failed := by
  rw [replyState, parseControlReply, if_pos large]
  rfl

theorem replyState_block (isBlock : IsBlock block) (small : ¬ tooLarge limit (block ++ emptyLine ++ body)) :
    replyState qt limit (block ++ emptyLine ++ body) = (readReply qt limit block body).state := by
  have front : (block ++ emptyLine ++ body).take block.length = block := by
    rw [List.append_assoc, List.take_left]
  have back : (block ++ emptyLine ++ body).drop (block.length + 4) = body := List.drop_left' (by simp; rfl)
  rw [replyState, parseControlReply, if_neg small, indexOf_block isBlock]
  dsimp only
  rw [front, back]

theorem tooLarge_append (large : tooLarge limit bytes) (more : Bytes) : tooLarge limit (bytes ++ more) := by
  rw [tooLarge, List.length_append]
  omega

/-- Without a header block nothing is decided; with one, further bytes belong to the body. -/
theorem replyState_append (small : ¬ tooLarge limit (bytes ++ more)) : replyState qt limit bytes = .pending ∨
    ∃ block body, bytes = block ++ emptyLine ++ body ∧ IsBlock block ∧
      replyState qt limit bytes = (readReply qt limit block body).state ∧
      replyState qt limit (bytes ++ more) = (readReply qt limit block (body ++ more)).state := by
  have fits : ¬ tooLarge limit bytes := fun larger => small (tooLarge_append larger more)
  cases found : indexOf emptyLine bytes with
  | none =>
    refine .inl ?_
    rw [replyState, parseControlReply, if_neg fits, found]
  | some boundary =>
    obtain ⟨block, body, rfl, isBlock⟩ := block_of_indexOf found
    refine .inr ⟨block, body, rfl, isBlock, replyState_block isBlock fits, ?_⟩
    rw [List.append_assoc] at small ⊢
    exact replyState_block isBlock small

theorem readReply_complete : (readReply qt limit block body).state = .complete ↔
    block.length ≤ 8192 ∧ readHeaders qt limit block = .ok (body.length : Int) ∧
      (qt.object body).isSome = true := by
  unfold readReply
  split_ifs with long
  · exact iff_of_false nofun fun all => absurd all.1 (Nat.not_le.mpr long)
  cases headers : readHeaders qt limit block with
  | error reply => simp [readHeaders_error headers]
  | ok length =>
    dsimp only
    split_ifs with short other
    · refine iff_of_false nofun fun all => ?_
      have same := Except.ok.inj all.2.1
      omega
    · exact iff_of_false nofun fun all => other (Except.ok.inj all.2.1).symm
    · cases qt.object body <;> simp_all [fail]

theorem readReply_append (ended : (readReply qt limit block body).state ≠ .pending) (longer : more ≠ []) :
    (readReply qt limit block (body ++ more)).state = .failed := by
  have grows := List.length_pos_iff.mpr longer
  unfold readReply at ended ⊢
  split_ifs with long
  · rfl
  rw [if_neg long] at ended
  cases headers : readHeaders qt limit block with
  | error reply => exact readHeaders_error headers
  | ok length =>
    rw [headers] at ended
    dsimp only at ended ⊢
    rw [List.length_append]
    have reached : ¬ (body.length : Int) < length := fun short => ended (by rw [if_pos short])
    rw [if_neg (by omega), if_pos (by omega)]
    rfl

theorem readReply_cut (ended : (readReply qt limit block (body ++ more)).state = .complete)
    (longer : more ≠ []) : (readReply qt limit block body).state = .pending := by
  have grows := List.length_pos_iff.mpr longer
  obtain ⟨short, headers, -⟩ := readReply_complete.mp ended
  rw [readReply, if_neg (Nat.not_lt.mpr short), headers]
  dsimp only
  rw [List.length_append, if_pos (by omega)]

/-- The decisions on a growing buffer agree, and a reply is complete exactly when it is well formed. -/
def Streams (qt : Qt) (limit : Int32) (bytes : Bytes) : Prop :=
  (replyState qt limit bytes = .complete →
      (∀ front, front <+: bytes → front ≠ bytes → replyState qt limit front = .pending) ∧
        ∀ longer, bytes <+: longer → longer ≠ bytes → replyState qt limit longer = .failed) ∧
    (replyState qt limit bytes = .failed →
      ∀ longer, bytes <+: longer → replyState qt limit longer = .failed) ∧
    (replyState qt limit bytes = .complete ↔ WellFormed qt limit bytes)

theorem ended_append (ended : replyState qt limit bytes ≠ .pending) (longer : more ≠ []) :
    replyState qt limit (bytes ++ more) = .failed := by
  by_cases large : tooLarge limit (bytes ++ more)
  · exact replyState_large large
  rcases replyState_append large with pending | ⟨block, body, -, -, here, there⟩
  · exact absurd pending ended
  · rw [here] at ended
    exact there.trans (readReply_append ended longer)

theorem small_of_complete (complete : replyState qt limit bytes = .complete) : ¬ tooLarge limit bytes := by
  intro large
  rw [replyState_large large] at complete
  cases complete

theorem pending_of_complete (longer : more ≠ []) (complete : replyState qt limit (bytes ++ more) = .complete) :
    replyState qt limit bytes = .pending := by
  rcases replyState_append (small_of_complete complete) with pending | ⟨block, body, -, -, here, there⟩
  · exact pending
  · exact here.trans (readReply_cut (there.symm.trans complete) longer)

theorem complete_iff (fits : limit.toInt + 8192 < 2 ^ 31) :
    replyState qt limit bytes = .complete ↔ WellFormed qt limit bytes := by
  have least := limit.le_toInt
  have sum : (limit + 8192).toInt = limit.toInt + 8192 := by
    rw [Int32.toInt_add, Int.bmod_def]
    simp only [Int32.reduceToInt]
    omega
  constructor
  · intro complete
    have small := small_of_complete complete
    rcases @replyState_append qt limit bytes [] (by simpa using small) with
      pending | ⟨block, body, rfl, isBlock, here, -⟩
    · rw [pending] at complete
      cases complete
    · rw [here, readReply_complete, readHeaders_ok] at complete
      obtain ⟨short, ⟨status, states⟩, isObject⟩ := complete
      rw [tooLarge, sum, Int.not_lt] at small
      exact ⟨block, body, rfl, isBlock, short, status, states, small, isObject⟩
  · rintro ⟨block, body, rfl, isBlock, short, status, states, small, isObject⟩
    rw [← sum, ← Int.not_lt] at small
    rw [replyState_block isBlock small, readReply_complete, readHeaders_ok]
    exact ⟨short, ⟨status, states⟩, isObject⟩

theorem tooLarge_of_overflow (overflow : 2 ^ 31 ≤ limit.toInt + 8192) (bytes : Bytes) :
    tooLarge limit bytes := by
  have most := limit.toInt_lt
  have sum : (limit + 8192).toInt = limit.toInt + 8192 - 2 ^ 32 := by
    rw [Int32.toInt_add, Int.bmod_def]
    simp only [Int32.reduceToInt]
    omega
  rw [tooLarge, sum]
  omega

theorem control_reply_streams_iff (qt : Qt) (limit : Int32) (bytes : Bytes) :
    Streams qt limit bytes ↔
      limit.toInt + 8192 < 2 ^ 31 ∨ ¬ WellFormed qt limit bytes := by
  have extended {longer : Bytes} (ended : replyState qt limit bytes ≠ .pending)
      (begins : bytes <+: longer) (proper : longer ≠ bytes) :
      replyState qt limit longer = .failed := by
    obtain ⟨more, rfl⟩ := begins
    exact ended_append ended fun nothing => proper (by rw [nothing, List.append_nil])
  constructor
  · rintro ⟨-, -, complete⟩
    refine (Int.lt_or_le _ _).imp_right fun overflow wellFormed => ?_
    have done := complete.mpr wellFormed
    rw [replyState_large (tooLarge_of_overflow overflow bytes)] at done
    cases done
  · intro condition
    refine ⟨fun complete => ⟨?_, fun longer => extended (by simp [complete])⟩, fun failed longer begins => ?_, ?_⟩
    · rintro front ⟨more, rfl⟩ proper
      exact pending_of_complete (fun nothing => proper (by rw [nothing, List.append_nil])) complete
    · by_cases same : longer = bytes
      · rw [same, failed]
      · exact extended (by simp [failed]) begins same
    · rcases Int.lt_or_le (limit.toInt + 8192) (2 ^ 31) with fits | overflow
      · exact complete_iff fits
      · rw [replyState_large (tooLarge_of_overflow overflow bytes)]
        exact iff_of_false nofun (condition.resolve_left (Int.not_lt.mpr overflow))

def readDecimal (digits : Bytes) : Option Int :=
  if digits ≠ [] ∧ digits.all fun digit => 48 ≤ digit && digit ≤ 57 then
    some (digits.foldl (fun value digit => value * 10 + (digit.toNat - 48)) 0)
  else none

def plainQt : Qt where
  toInt := readDecimal
  toLongLong := readDecimal
  object body := if body = ascii "\x7b\x7d" then some [] else none

/-- With the largest limit the sum overflows, and a good reply is too large. -/
theorem good_reply_fails_at_largest_limit :
    ¬ Streams plainQt 2147483647 (ascii "HTTP/1.0 200 OK\r\nContent-Length: 2\r\n\r\n\x7b\x7d") := by
  rintro ⟨-, -, complete⟩
  have refused := complete.mpr ⟨ascii "HTTP/1.0 200 OK\r\nContent-Length: 2", ascii "\x7b\x7d",
    by decide +kernel, by unfold IsBlock; decide +kernel, by decide +kernel,
    ⟨by decide +kernel, by decide +kernel, by decide +kernel, by decide +kernel⟩,
    ⟨by decide +kernel, by decide +kernel, by decide +kernel, by decide +kernel⟩,
    by decide +kernel, by decide +kernel⟩
  rw [replyState_large (tooLarge_of_overflow (by decide) _)] at refused
  cases refused

end Amnezia.Migration.Transport
