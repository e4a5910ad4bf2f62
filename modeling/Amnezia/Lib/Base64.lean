import Mathlib.Tactic.Common

/-! # Base64 -/

namespace Amnezia.Lib.Base64

def alphabet : List Char :=
  "ABCDEFGHIJKLMNOPQRSTUVWXYZabcdefghijklmnopqrstuvwxyz0123456789+/".toList

def digit (value : Nat) : Char := alphabet.getD value '='

def digits (value : Nat) : List Char :=
  [digit (value / 262144), digit (value / 4096 % 64), digit (value / 64 % 64), digit (value % 64)]

def encode : List UInt8 → List Char
  | [] => []
  | [first] => (digits (first.toNat * 65536)).take 2 ++ ['=', '=']
  | [first, second] => (digits (first.toNat * 65536 + second.toNat * 256)).take 3 ++ ['=']
  | first :: second :: third :: bytes =>
    digits (first.toNat * 65536 + second.toNat * 256 + third.toNat) ++ encode bytes

def valueOf (char : Char) : Option Nat := alphabet.idxOf? char

def bytes (value : Nat) : List UInt8 :=
  [UInt8.ofNat (value / 65536), UInt8.ofNat (value / 256 % 256), UInt8.ofNat (value % 256)]

def decode : List Char → Option (List UInt8)
  | [] => some []
  | [first, second, '=', '='] => do
      return (bytes ((← valueOf first) * 262144 + (← valueOf second) * 4096)).take 1
  | [first, second, third, '='] => do
      return (bytes ((← valueOf first) * 262144 + (← valueOf second) * 4096 + (← valueOf third) * 64)).take 2
  | first :: second :: third :: fourth :: chars => do
      let group := bytes ((← valueOf first) * 262144 + (← valueOf second) * 4096 +
        (← valueOf third) * 64 + (← valueOf fourth))
      return group ++ (← decode chars)
  | _ => none

example : decode (encode [0, 255, 17, 4]) = some [0, 255, 17, 4] := by decide +kernel

end Amnezia.Lib.Base64
