import Mathlib.Data.List.Forall2

/-! # UTF-8 text -/

namespace Amnezia.Lib.Utf8

def isContinuation (byte : UInt8) : Bool := 0x80 ≤ byte && byte < 0xC0

def scalar (least value : Nat) : Option Char :=
  if valid : least ≤ value ∧ value.isValidChar then some (Char.ofNatAux value valid.2) else none

def low (byte : UInt8) : Nat := byte.toNat % 64

def decode : List UInt8 → Option (List Char)
  | [] => some []
  | first :: rest =>
    if first < 0x80 then (decode rest).map (Char.ofUInt8 first :: ·)
    else match rest with
      | [] => none
      | second :: rest =>
        if !isContinuation second then none
        else if 0xC0 ≤ first && first < 0xE0 then do
          let char ← scalar 0x80 (first.toNat % 32 * 64 + low second)
          (decode rest).map (char :: ·)
        else match rest with
          | [] => none
          | third :: rest =>
            if !isContinuation third then none
            else if 0xE0 ≤ first && first < 0xF0 then do
              let char ← scalar 0x800 ((first.toNat % 16 * 64 + low second) * 64 + low third)
              (decode rest).map (char :: ·)
            else match rest with
              | [] => none
              | fourth :: rest =>
                if !isContinuation fourth then none
                else if 0xF0 ≤ first && first < 0xF8 then do
                  let char ← scalar 0x10000
                    (((first.toNat % 8 * 64 + low second) * 64 + low third) * 64 + low fourth)
                  (decode rest).map (char :: ·)
                else none

/-- Bytes and characters in step: ASCII one to one, everything else outside ASCII on both sides. -/
inductive Encodes : List UInt8 → List Char → Prop
  | nil : Encodes [] []
  | ascii {byte : UInt8} {char : Char} {bytes : List UInt8} {chars : List Char} (small : byte.toNat < 128)
      (same : char.toNat = byte.toNat) (rest : Encodes bytes chars) : Encodes (byte :: bytes) (char :: chars)
  | wide {front : List UInt8} {char : Char} {bytes : List UInt8} {chars : List Char} (present : front ≠ [])
      (high : ∀ byte ∈ front, 128 ≤ byte.toNat) (outside : 128 ≤ char.toNat) (rest : Encodes bytes chars) :
      Encodes (front ++ bytes) (char :: chars)

variable {char : Char} {chars : List Char} {bytes : List UInt8}

theorem toNat_of_scalar {least value : Nat} (found : scalar least value = some char) :
    least ≤ char.toNat := by
  by_cases valid : least ≤ value ∧ value.isValidChar
  · rw [scalar, dif_pos valid] at found
    cases found
    exact valid.1
  · rw [scalar, dif_neg valid] at found
    cases found

theorem high_of_isContinuation {byte : UInt8} (continues : isContinuation byte = true) : 128 ≤ byte.toNat := by
  simp only [isContinuation, Bool.and_eq_true, decide_eq_true_eq] at continues
  exact continues.1

theorem encodes_wide (front : List UInt8) {rest : List UInt8} {least value : Nat} (present : front ≠ [])
    (high : ∀ byte ∈ front, 128 ≤ byte.toNat) (large : 128 ≤ least)
    (ih : ∀ chars, decode rest = some chars → Encodes rest chars)
    (decoded : (do let char ← scalar least value; (decode rest).map (char :: ·)) = some chars) :
    Encodes (front ++ rest) chars := by
  obtain ⟨char, found, decoded⟩ := Option.bind_eq_some_iff.mp decoded
  obtain ⟨tail, rests, rfl⟩ := Option.map_eq_some_iff.mp decoded
  exact .wide present high (Nat.le_trans large (toNat_of_scalar found)) (ih tail rests)

theorem encodes_of_decode (bytes : List UInt8) (chars : List Char) (decoded : decode bytes = some chars) :
    Encodes bytes chars := by
  have leading {byte : UInt8} (large : ¬ byte < 0x80) : 128 ≤ byte.toNat := Nat.not_lt.mp large
  have following {byte : UInt8} (continues : ¬ (!isContinuation byte) = true) : 128 ≤ byte.toNat :=
    high_of_isContinuation (by simpa using continues)
  fun_induction decode bytes generalizing chars with
  | case1 => cases decoded; exact .nil
  | case2 first rest small ih =>
    obtain ⟨tail, rests, rfl⟩ := Option.map_eq_some_iff.mp decoded
    have bound : first.toNat < 128 := small
    exact .ascii bound rfl (ih tail rests)
  | case5 first large second rest second' range ih =>
    exact encodes_wide [first, second] nofun
      (by simpa using ⟨leading large, following second'⟩) (by decide) ih decoded
  | case8 first large second second' _ third rest third' range ih =>
    exact encodes_wide [first, second, third] nofun
      (by simpa using ⟨leading large, following second', following third'⟩) (by decide) ih decoded
  | case11 first large second second' _ third third' _ fourth rest fourth' range ih =>
    exact encodes_wide [first, second, third, fourth] nofun
      (by simpa using ⟨leading large, following second', following third', following fourth'⟩)
      (by decide) ih decoded
  | _ => cases decoded

theorem splitOn_append_of_notMem {α : Type} [BEq α] [LawfulBEq α] {sep : α} {front : List α}
    (absent : sep ∉ front) (rest : List α) :
    (front ++ rest).splitOn sep = (rest.splitOn sep).modifyHead (front ++ ·) := by
  induction front with
  | nil => exact (List.modifyHead_id ▸ rfl)
  | cons a front ih =>
    rw [List.mem_cons, not_or] at absent
    rw [List.cons_append, List.splitOn_eq_splitOnP, List.splitOnP_cons_eq_if_modifyHead,
      ← List.splitOn_eq_splitOnP, ih absent.2, if_neg (by simpa using Ne.symm absent.1)]
    simp [List.modifyHead_modifyHead, Function.comp_def]

theorem forall₂_modifyHead {α β : Type} {R : α → β → Prop} {f : α → α} {g : β → β} {left : List α}
    {right : List β} (related : List.Forall₂ R left right) (heads : ∀ a b, R a b → R (f a) (g b)) :
    List.Forall₂ R (left.modifyHead f) (right.modifyHead g) := by
  cases related with
  | nil => exact .nil
  | cons head tail => exact .cons (heads _ _ head) tail

theorem char_eq_iff (char other : Char) : char = other ↔ char.toNat = other.toNat :=
  ⟨congrArg Char.toNat, fun same => by rw [← Char.ofNat_toNat char, same, Char.ofNat_toNat]⟩

theorem Encodes.lines (encodes : Encodes bytes chars) :
    List.Forall₂ Encodes (bytes.splitOn 10) (chars.splitOn '\n') := by
  have feed : '\n'.toNat = 10 := rfl
  induction encodes with
  | nil => exact .cons .nil .nil
  | @ascii byte char bytes chars small same rest ih =>
    rw [List.splitOn_eq_splitOnP, List.splitOn_eq_splitOnP, List.splitOnP_cons_eq_if_modifyHead,
      List.splitOnP_cons_eq_if_modifyHead, ← List.splitOn_eq_splitOnP, ← List.splitOn_eq_splitOnP]
    have both : char = '\n' ↔ byte = 10 := by
      rw [char_eq_iff, same, feed, ← UInt8.toNat_inj]
      rfl
    simp only [beq_iff_eq, both]
    split_ifs
    · exact .cons .nil ih
    · exact forall₂_modifyHead ih fun _ _ => .ascii small same
  | @wide front char bytes chars present high outside rest ih =>
    have noFeed : (10 : UInt8) ∉ front := fun member => absurd (high 10 member) (by decide)
    have notFeed : '\n' ∉ [char] := by
      rw [List.mem_singleton, char_eq_iff]
      omega
    rw [splitOn_append_of_notMem noFeed, ← List.singleton_append, splitOn_append_of_notMem notFeed]
    exact forall₂_modifyHead ih fun _ _ => .wide present high outside

def toBytes (text : List Char) : List UInt8 := text.map fun char => UInt8.ofNat char.toNat

def isAscii (char : Char) : Bool := char.toNat < 128

theorem toNat_ofNat_ascii (small : char.toNat < 128) : (UInt8.ofNat char.toNat).toNat = char.toNat := by
  rw [UInt8.toNat_ofNat']
  omega

theorem toBytes_injective {left right : List Char} (leftAscii : ∀ char ∈ left, isAscii char = true)
    (rightAscii : ∀ char ∈ right, isAscii char = true) (same : toBytes left = toBytes right) : left = right := by
  have each (char : Char) (ascii : isAscii char = true) :
      Char.ofNat (UInt8.ofNat char.toNat).toNat = char := by
    rw [toNat_ofNat_ascii (of_decide_eq_true ascii), Char.ofNat_toNat]
  have back (text : List Char) (ascii : ∀ char ∈ text, isAscii char = true) :
      (toBytes text).map (fun byte => Char.ofNat byte.toNat) = text := by
    rw [toBytes, List.map_map]
    exact (List.map_congr_left fun char member => each char (ascii char member)).trans (List.map_id text)
  rw [← back left leftAscii, same, back right rightAscii]

theorem Encodes.split {front back : List Char} (encodes : Encodes bytes (front ++ back)) :
    ∃ frontBytes backBytes, bytes = frontBytes ++ backBytes ∧ Encodes frontBytes front ∧ Encodes backBytes back := by
  induction front generalizing bytes with
  | nil => exact ⟨[], bytes, rfl, .nil, encodes⟩
  | cons char front ih =>
    rw [List.cons_append] at encodes
    cases encodes with
    | ascii small same rest =>
      obtain ⟨frontBytes, backBytes, rfl, left, right⟩ := ih rest
      exact ⟨_ :: frontBytes, backBytes, rfl, .ascii small same left, right⟩
    | wide present high outside rest =>
      obtain ⟨frontBytes, backBytes, rfl, left, right⟩ := ih rest
      exact ⟨_ ++ frontBytes, backBytes, (List.append_assoc ..).symm, .wide present high outside left, right⟩

theorem Encodes.eq_toBytes (encodes : Encodes bytes chars)
    (ascii : ∀ char ∈ chars, isAscii char = true) : bytes = toBytes chars := by
  induction encodes with
  | nil => rfl
  | ascii small same _ ih =>
    rw [ih fun char member => ascii char (List.mem_cons_of_mem _ member), toBytes, toBytes, List.map_cons, same]
    simp
  | wide _ _ outside _ _ =>
    have small := of_decide_eq_true (ascii _ List.mem_cons_self)
    omega

theorem Encodes.head_high (encodes : Encodes bytes (char :: chars)) (outside : 128 ≤ char.toNat) :
    ∃ byte rest, bytes = byte :: rest ∧ 128 ≤ byte.toNat := by
  cases encodes with
  | ascii small same _ => omega
  | @wide front _ _ _ present high _ _ =>
    obtain ⟨byte, front', rfl⟩ := List.exists_cons_of_ne_nil present
    exact ⟨byte, front' ++ _, rfl, high byte List.mem_cons_self⟩

theorem decode_cons_of_lt {byte : UInt8} (small : byte < 0x80) (rest : List UInt8) :
    decode (byte :: rest) = (decode rest).map (Char.ofUInt8 byte :: ·) := by
  rw [decode.eq_def]
  exact if_pos small

theorem decode_toBytes {text : List Char} (ascii : ∀ char ∈ text, isAscii char = true) :
    decode (toBytes text) = some text := by
  induction text with
  | nil => rfl
  | cons char text ih =>
    have small := of_decide_eq_true (ascii char List.mem_cons_self)
    have byte := toNat_ofNat_ascii small
    have first : UInt8.ofNat char.toNat < 0x80 := by
      rw [UInt8.lt_iff_toNat_lt, byte]
      exact small
    have same : Char.ofUInt8 (UInt8.ofNat char.toNat) = char := (char_eq_iff _ _).mpr byte
    rw [toBytes, List.map_cons, decode_cons_of_lt first, ← toBytes,
      ih fun other member => ascii other (List.mem_cons_of_mem _ member), same]
    rfl

end Amnezia.Lib.Utf8
