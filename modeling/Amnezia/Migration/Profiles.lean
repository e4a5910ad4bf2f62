import Amnezia.Migration.Recovery

/-! # Profiles -/

namespace Amnezia.Migration
open Lib

inductive ConfigType where
  | amneziaFreeV2
  | amneziaFreeV3
  | amneziaPremiumV1
  | amneziaPremiumV2
  | selfHosted
  | externalPremium
  | selfHostedAdmin
  | selfHostedUser
  | native
  | invalid
  deriving DecidableEq, Repr

inductive Repository where
  | shipped
  | stub
  deriving DecidableEq, Repr

structure Setting (Hash : Type) extends Services Hash where
  serverId : String
  repository : Repository
  configTypeFromJson : JsonObject → ConfigType
  toJson : JsonObject → String

variable {Hash : Type} (setting : Setting Hash)

def client (connection : JsonObject) : JsonObject := connection.object "awg_config_data"

def endpointParts (endpoint : String) : List Char × List Char :=
  let reversed := endpoint.toList.reverse
  (((reversed.dropWhile (· ≠ ':')).drop 1).reverse, (reversed.takeWhile (· ≠ ':')).reverse)

def replaceParameters (members parameters : JsonObject) : JsonObject :=
  parameters.foldl (fun (members : JsonObject) parameter =>
      JsonObject.insert members parameter.1 parameter.2)
    (parameterKeys.foldl JsonObject.remove members)

def patchLine (endpoint address : String) (parameters : JsonObject) (line : String) : List String :=
  let key := trimmed (sectionBefore '=' line)
  if parameterKeys.contains key then []
  else if key = "Endpoint" then ["Endpoint = " ++ endpoint]
  else if key = "Address" ∧
      sectionBefore '/' (trimmed (sectionAfter '=' line)) ≠ sectionBefore '/' address then
    ["Address = " ++ address]
  else if trimmed line = "[Interface]" then
    line :: parameters.map fun parameter => parameter.1 ++ " = " ++ parameter.2.toString ""
  else [line]

def splitLines (text : String) : List String := (text.toList.splitOn '\n').map String.ofList

def patchClient (current offer : JsonObject) : JsonObject :=
  let target := offer.object "target"
  let endpoint := target.text "endpoint"
  let address := target.text "clientAddress"
  let parameters := target.object "parameters"
  let (host, port) := endpointParts endpoint
  if host = [] then []
  else
    let located := (current.insert "hostName" (.string (String.ofList host))).insert "port"
      (.number ((Ipc.toInt port).getD 0))
    let addressed : JsonObject :=
      if sectionBefore '/' (located.text "client_ip") ≠ sectionBefore '/' address then
        located.insert "client_ip" (.string address)
      else located
    let patched := replaceParameters addressed parameters
    let lines := (splitLines (patched.text "config")).flatMap (patchLine endpoint address parameters)
    patched.insert "config" (.string ("\n".intercalate lines))

inductive Patch where
  | untouched
  | patched (container : Json)
  | broken

def patchContainer (defaultContainer : Option Json) (offer : JsonObject) (item : Json) : Patch :=
  let container := item.toObject
  let awg := container.object "awg"
  if container.find "container" ≠ defaultContainer ∨ awg = [] then .untouched
  else
    let cached := ((setting.fromJson (Ipc.ascii (awg.text "last_config"))).getD .null).toObject
    if cached = [] then .untouched
    else
      let changed := patchClient cached offer
      if changed = [] then .broken
      else
        let parameters := (offer.object "target").object "parameters"
        let renewed := replaceParameters (awg.insert "last_config" (.string (setting.toJson changed))) parameters
        let port := String.ofList (Ipc.number ((changed.value "port").toInt 0))
        .patched (.object (container.insert "awg" (.object
          ((renewed.insert "protocol_version" (.string "3.1")).insert "port" (.string port)))))

def patchContainers (defaultContainer : Option Json) (offer : JsonObject) : List Json → Option (List Json × Bool)
  | [] => some ([], false)
  | container :: containers =>
    match patchContainer setting defaultContainer offer container,
      patchContainers defaultContainer offer containers with
    | .untouched, some (others, patched) => some (container :: others, patched)
    | .patched changed, some (others, _) => some (changed :: others, true)
    | _, _ => none

def committedProfile (profile offer : JsonObject) : JsonObject :=
  match patchContainers setting (profile.find "defaultContainer") offer
      (profile.value "containers").toArray with
  | some (containers, true) => profile.insert "containers" (.array containers)
  | _ => []

def withoutStorageServerId (profile : JsonObject) : JsonObject := profile.remove "storageServerId"

def embedStorageServerId (serverId : String) (profile : JsonObject) : JsonObject :=
  profile.insert "storageServerId" (.string serverId)

def IsStripped (profile : JsonObject) : Prop := withoutStorageServerId profile = profile

theorem isStripped_withoutStorageServerId (profile : JsonObject) :
    IsStripped (withoutStorageServerId profile) := by
  simp [IsStripped, withoutStorageServerId, JsonObject.remove]

theorem isStripped_committedProfile {profile : JsonObject} (stripped : IsStripped profile)
    (offer : JsonObject) : IsStripped (committedProfile setting profile offer) := by
  unfold committedProfile
  split
  · exact JsonObject.remove_insert (by decide) stripped
  · rfl

variable [DecidableEq Hash]

def swappedProfile (previous : JsonObject) (expectedHash : Option Hash) (replacement : JsonObject) :
    Option JsonObject :=
  match setting.repository with
  | .shipped =>
    let stored := embedStorageServerId setting.serverId previous
    if some (setting.digest stored) ≠ expectedHash ∨
        setting.configTypeFromJson (withoutStorageServerId replacement) ≠
          setting.configTypeFromJson (withoutStorageServerId stored) then none
    else some (withoutStorageServerId replacement)
  | .stub => if some (setting.digest previous) ≠ expectedHash then none else some replacement

theorem swappedProfile_cases {setting : Setting Hash} {previous replacement after : JsonObject}
    {expected : Option Hash} (swapped : swappedProfile setting previous expected replacement = some after) :
    (setting.repository = .shipped ∧ after = withoutStorageServerId replacement ∧
        expected = some (setting.digest (embedStorageServerId setting.serverId previous))) ∨
      (setting.repository = .stub ∧ after = replacement ∧ expected = some (setting.digest previous)) := by
  unfold swappedProfile at swapped
  cases kind : setting.repository with
  | shipped =>
    simp only [kind, Option.ite_none_left_eq_some, not_or, ne_eq, not_not, Option.some.injEq] at swapped
    exact .inl ⟨rfl, swapped.2.symm, swapped.1.1.symm⟩
  | stub =>
    simp only [kind, Option.ite_none_left_eq_some, ne_eq, not_not, Option.some.injEq] at swapped
    exact .inr ⟨rfl, swapped.2.symm, swapped.1.symm⟩

theorem embedStorageServerId_not_stripped (serverId : String) (profile : JsonObject) :
    ¬IsStripped (embedStorageServerId serverId profile) := by
  intro stripped
  have absent := JsonObject.remove_eq_self.mp stripped
  exact absent _ (JsonObject.mem_insert_self profile _ _) rfl

end Amnezia.Migration
