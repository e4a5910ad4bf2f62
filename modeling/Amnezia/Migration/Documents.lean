import Amnezia.Lib.Base64
import Amnezia.Lib.Json
import Amnezia.Ipc.ProcessArguments
import Mathlib.Algebra.Order.Ring.Rat

/-!
# The documents of an AWG migration

The server enrols a peer with a bootstrap reply that pins its signer; everything later is an envelope
that this signer has signed. Hashing, signatures and the JSON parser are given.
-/

namespace Amnezia.Migration
open Lib

structure Services (Hash : Type) where
  -- SHA-256 of the compact text of an object, of a text, and of bytes
  digest : JsonObject → Hash
  hash : String → Hash
  hashBytes : List UInt8 → Hash
  hex : Hash → String
  verifySignature : (key message signature : List UInt8) → Bool
  fromJson : List UInt8 → Option Json
  digest_injective : Function.Injective digest

variable {Hash : Type} (services : Services Hash)

def schema : Int := 1

def maximumDocumentBytes : Nat := 32768

def maximumGeneration : Rat := 9007199254740991

def parameterKeys : List String :=
  ["Jc", "Jmin", "Jmax", "S1", "S2", "S3", "S4", "H1", "H2", "H3", "H4",
    "I1", "I2", "I3", "I4", "I5", "HeaderProtectionKey", "ContentPaddingAddition",
    "RekeyAfterTime", "RekeyTimeout", "RejectAfterTime", "KeepaliveTimeout",
    "MaxHandshakeAttempts", "RandomTrailers", "DisableCookies"]

-- `QString::size` counts UTF-16 units.
def size (text : String) : Nat :=
  text.toList.foldl (fun count char => count + if char.toNat < 0x10000 then 1 else 2) 0

-- `section(separator, 0, 0)` and `section(separator, 1)`
def sectionBefore (separator : Char) (text : String) : String :=
  String.ofList (text.toList.takeWhile (· ≠ separator))

def sectionAfter (separator : Char) (text : String) : String :=
  String.ofList ((text.toList.dropWhile (· ≠ separator)).drop 1)

def trimmed (text : String) : String := String.ofList (Ipc.trimmed text.toList)

def toInt (text : String) : Option Int := Ipc.toInt text.toList

-- What `$` leaves of the subject: it matches before a line feed that ends it.
def patternBody (text : String) : List Char :=
  if text.toList.getLast? = some '\n' then text.toList.dropLast else text.toList

def isDigit (char : Char) : Bool := '0' ≤ char && char ≤ '9'

-- `^[A-Za-z0-9.-]{1,253}:([0-9]{1,5})$`
def endpointPort (endpoint : String) : Option Int :=
  let host := (patternBody endpoint).takeWhile (· ≠ ':')
  match (patternBody endpoint).dropWhile (· ≠ ':') with
  | [] => none
  | _ :: port =>
    if 1 ≤ host.length ∧ host.length ≤ 253 ∧
        host.all (fun char => char.isAlphanum || char = '.' || char = '-') ∧
        1 ≤ port.length ∧ port.length ≤ 5 ∧ port.all isDigit then
      toInt (String.ofList port)
    else none

-- `^[0-9.]{7,15}(/[0-9]{1,2})?$`
def isAddressPattern (address : String) : Bool :=
  let host := (patternBody address).takeWhile (· ≠ '/')
  7 ≤ host.length && host.length ≤ 15 && host.all (fun char => isDigit char || char = '.') &&
    match (patternBody address).dropWhile (· ≠ '/') with
    | [] => true
    | _ :: bits => 1 ≤ bits.length && bits.length ≤ 2 && bits.all isDigit

def strictBase64 (value : String) (expectedBytes : Option Nat) : List UInt8 :=
  match Base64.decode value.toList with
  | none => []
  | some decoded =>
    if Base64.encode decoded ≠ value.toList ∨ expectedBytes.any (decoded.length ≠ ·) then [] else decoded

theorem strictBase64_empty (count : Nat) : strictBase64 "" (some count) = [] := by
  unfold strictBase64
  simp only [String.toList_empty, Base64.decode]
  split
  · rfl
  · rfl

theorem strictBase64_known {text : String} {count : Nat} (decoded : strictBase64 text (some count) ≠ []) :
    text ≠ "" := by
  intro empty
  rw [empty, strictBase64_empty] at decoded
  exact decoded rfl

def sourceFields : List String :=
  parameterKeys ++ ["hostName", "port", "client_ip", "client_pub_key", "server_pub_key"]

def identityOf (client : JsonObject) : JsonObject :=
  sourceFields.foldl (fun (identity : JsonObject) name =>
    match client.find name with
    | some value => JsonObject.insert identity name value
    | none => identity) []

def sourceFingerprint (client : JsonObject) : String :=
  let identity := identityOf client
  let preshared := client.text "psk_key"
  let complete : JsonObject :=
    if preshared ≠ "" then
      identity.insert "pskHash" (.string (services.hex (services.hash preshared)))
    else identity
  services.hex (services.digest complete)

def verifyEnvelope (envelope : JsonObject) (pinnedKey : List UInt8) : Option JsonObject :=
  if !envelope.hasExactKeys ["payload", "signature"] ∨ pinnedKey.length ≠ 32 then none
  else if !(envelope.value "payload").isString ∨ !(envelope.value "signature").isString ∨
      size (envelope.text "payload") > maximumDocumentBytes * 2 then none
  else
    let bytes := strictBase64 (envelope.text "payload") none
    let signature := strictBase64 (envelope.text "signature") (some 64)
    if bytes = [] ∨ bytes.length > maximumDocumentBytes ∨ signature = [] then none
    else if !services.verifySignature pinnedKey bytes signature then none
    else
      match services.fromJson bytes with
      | some (.object payload) => some payload
      | _ => none

theorem verifyEnvelope_key {envelope payload : JsonObject} {key : List UInt8}
    (verified : verifyEnvelope services envelope key = some payload) : key.length = 32 := by
  unfold verifyEnvelope at verified
  split at verified
  · cases verified
  · rename_i accepted
    simp only [not_or, ne_eq, not_not] at accepted
    exact accepted.2

structure Binding where
  serverPublicKey : String
  peerPublicKey : String
  containerId : String
  sourceFingerprint : String
  nonce : String
  highestGeneration : Int

def truncate (value : Rat) : Int := value.num.tdiv value.den

def isValidParameter (member : String × Json) : Bool :=
  parameterKeys.contains member.1 && member.2.isString && size (member.2.toString "") ≤ 4096 &&
    (member.2.toString "").toList.all fun char => char ≠ '\n' && char ≠ '\r'

def isValidPadding (parameters : JsonObject) (name : String) : Bool :=
  (toInt (parameters.text name)).any fun value => 12 ≤ value && value ≤ 65535

def offerChecks (offer : JsonObject) (binding : Binding) (now : Int) : List (Bool × String) :=
  let generation := (offer.value "generation").toDouble (-1)
  let target := offer.object "target"
  let parameters := target.object "parameters"
  let challenge := offer.object "challenge"
  [(!offer.hasExactKeys ["schema", "serverPublicKey", "peerPublicKey", "containerId",
      "sourceFingerprint", "nonce", "generation", "expiresAt", "target", "challenge"], "offer_fields"),
    ((offer.value "schema").toInt (-1) ≠ schema, "offer_schema"),
    (generation ≤ binding.highestGeneration ∨ generation > maximumGeneration ∨
      generation ≠ truncate generation, "offer_generation"),
    ((offer.value "expiresAt").toDouble (-1) ≤ now, "offer_expired"),
    (offer.text "serverPublicKey" ≠ binding.serverPublicKey ∨
      offer.text "peerPublicKey" ≠ binding.peerPublicKey ∨
      offer.text "containerId" ≠ binding.containerId ∨
      offer.text "sourceFingerprint" ≠ binding.sourceFingerprint ∨
      offer.text "nonce" ≠ binding.nonce, "offer_binding"),
    (!target.hasExactKeys ["endpoint", "clientAddress", "parameters"], "target_fields"),
    (!(endpointPort (target.text "endpoint")).any (fun port => 1 ≤ port && port ≤ 65535),
      "endpoint_invalid"),
    (!isAddressPattern (target.text "clientAddress"), "address_invalid"),
    (parameters = [], "parameters_empty"),
    (!parameters.all isValidParameter, "parameter_invalid"),
    (strictBase64 (parameters.text "HeaderProtectionKey") (some 32) = [], "header_key_invalid"),
    (!(["S1", "S2", "S3", "S4"].all (isValidPadding parameters)), "padding_invalid"),
    (!challenge.hasExactKeys ["address", "port", "nonce"] ∨ challenge.text "nonce" = "",
      "challenge_fields")]

def validateOffer (offer : JsonObject) (binding : Binding) (now : Int) : Except String Unit :=
  match (offerChecks offer binding now).find? (·.1) with
  | some check => .error check.2
  | none => .ok ()

variable {offer : JsonObject} {binding : Binding}

theorem validateOffer_checks {now : Int}
    (valid : validateOffer offer binding now = .ok ()) :
    ∀ check ∈ offerChecks offer binding now, check.1 = false := by
  intro check listed
  cases found : (offerChecks offer binding now).find? (·.1) with
  | some rejected => simp [validateOffer, found] at valid
  | none => simpa using List.find?_eq_none.mp found check listed

theorem validateOffer_generation {now : Int}
    (sane : -1 ≤ binding.highestGeneration) (valid : validateOffer offer binding now = .ok ()) :
    ∃ generation : Int, offer.value "generation" = .number generation ∧
      binding.highestGeneration < generation ∧ (generation : Rat) ≤ maximumGeneration := by
  have passed := validateOffer_checks valid
  simp only [offerChecks, List.forall_mem_cons] at passed
  obtain ⟨-, -, accepted, -⟩ := passed
  simp only [decide_eq_false_iff_not, not_or, not_le, gt_iff_lt, not_lt, ne_eq, not_not] at accepted
  obtain ⟨above, bounded, whole⟩ := accepted
  cases found : offer.value "generation" with
  | number value =>
    simp only [found, Json.toDouble] at above bounded whole
    refine ⟨truncate value, by rw [← whole], ?_, whole ▸ bounded⟩
    rw [whole] at above
    exact_mod_cast above
  | null | bool | string | array | object =>
    simp only [found, Json.toDouble] at above
    have : binding.highestGeneration < -1 := by exact_mod_cast above
    omega

end Amnezia.Migration
