import Amnezia.Headless.UpdateRules
import Amnezia.Lib.Runs

/-! # Runs of the headless updater -/

namespace Amnezia.Headless
open Lib Procedure

variable {Content : Type} (services : Services Content)

structure Check (Content : Type) where
  profile : Profile
  currentVersion : String
  surroundings : Surroundings Content

def Check.run (check : Check Content) : Action Content Result :=
  checkAndApply services check.profile check.currentVersion check.surroundings

def Check.answer (check : Check Content) : Option Parsed :=
  let manifestUrl := services.parseUrl check.profile.updateManifestUrl
  let reply := check.surroundings.manifest
  match verifyTrustedKey check.surroundings.files check.profile.updatePublicKeyPath with
  | .error _ => none
  | .ok pinnedPublicKey =>
    let anchor := ⟨check.profile.updatePublicKeyPath, pinnedPublicKey, check.surroundings.filesAfter⟩
    if check.profile.autoUpdate ∧ check.profile.updateManifestUrl ≠ "" ∧
        check.profile.updatePublicKeyPath ≠ "" ∧ safeUpdateUrl services check.profile manifestUrl ∧
        reply.finished ∧ samePinnedUrl manifestUrl reply.url ∧ !reply.failed ∧ reply.successful ∧
        !check.surroundings.manifestTooLarge ∧ reply.body ≠ [] ∧
        reply.body.length ≤ maximumManifestBytes then
      some (parseManifest services reply.body manifestUrl check.profile anchor check.currentVersion)
    else none

def candidatePair (candidate : Candidate) (reply : Reply Content) : Option (Pair Content) :=
  if reply.finished ∧ samePinnedUrl candidate.url reply.url ∧ !reply.failed ∧ reply.successful ∧
      (services.size reply.body : Int) = candidate.size ∧ services.sha256 reply.body = candidate.sha256 then
    (services.members reply.body).bind (payloadOf services)
  else none

def boot : Action Content Unit := do
  remember fun _ => {}
  initializeState services

def World.fresh (installed : Pair Content) : World Content where
  disk := ⟨none, none, none, none, ∅, installed, 0⟩
  memory := {}
  pairs := [installed]
  renames := []

structure Process (Content : Type) where
  running : Bool
  world : World Content

inductive Move (Content : Type) where
  | boot
  | check (given : Check Content)
  | rollback
  | acknowledge (verifiedTargetVersion : String) (surroundings : Surroundings Content)
  | quit

namespace Move

def report : Move Content → Action Content (Option Result)
  | .boot => do
      Headless.boot services
      return none
  | .check given => do
      let result ← given.run services
      return some result
  | .rollback => do
      let result ← Headless.rollback services
      return some result
  | .acknowledge verifiedTargetVersion surroundings => do
      let result ← acknowledgeStoppedRollback services verifiedTargetVersion surroundings
      return some result
  | .quit => return none

def needsProcess : Move Content → Bool
  | .boot | .acknowledge _ _ => false
  | .check _ | .rollback | .quit => true

def leavesProcess : Move Content → Bool
  | .boot | .check _ | .rollback => true
  | .acknowledge _ _ | .quit => false

end Move

inductive Step (allowed : Outcome → Prop) : Process Content → Move Content → Process Content → Prop where
  | finish {process : Process Content} {move : Move Content} (outcomes : List Outcome)
      (fine : ∀ outcome ∈ outcomes, allowed outcome) (ready : process.running = move.needsProcess) :
      Step allowed process move
        ⟨move.leavesProcess, (move.report services process.world outcomes).world⟩
  | stop {process : Process Content} {move : Move Content} {stopped : World Content}
      (outcomes : List Outcome) (fine : ∀ outcome ∈ outcomes, allowed outcome)
      (ready : process.running = move.needsProcess)
      (passed : stopped ∈ (move.report services process.world outcomes).history) :
      Step allowed process move ⟨false, stopped⟩

variable {services} {before after : Process Content}

theorem Step.keeps {conditions : Conditions (World Content) Outcome}
    {move : Move Content} (step : Step services conditions.allowed before move after)
    (ensured : Ensures conditions (move.report services) (fun _ => conditions.invariant) before.world) :
    conditions.invariant after.world := by
  cases step with
  | finish outcomes fine ready => exact (ensured outcomes fine).2.1
  | stop outcomes fine ready passed => exact (ensured outcomes fine).1 _ passed

theorem Step.keeps_rough {invariant : World Content → Prop}
    {move : Move Content} (step : Step services (fun _ => True) before move after)
    (ensured : Ensures (rough invariant) (move.report services) (fun _ => invariant) before.world) :
    invariant after.world :=
  Step.keeps (show Step services (rough invariant).allowed before move after from step) ensured

/-! ## A sample

Three binaries, each also the archive of its version, and a server that publishes the versions. -/

inductive Sample where
  | old | new | newer
  deriving DecidableEq

namespace Sample

def digest : Sample → String
  | .old => "0000000000000000000000000000000000000000000000000000000000000001"
  | .new => "0000000000000000000000000000000000000000000000000000000000000002"
  | .newer => "0000000000000000000000000000000000000000000000000000000000000003"

def version : Sample → String
  | .old => "1.0.0.1"
  | .new => "1.0.0.2"
  | .newer => "1.0.0.3"

def url : Url := ⟨true, false, "https", "", "10.0.0.1", -1, "/", "", false⟩

def payload (sample : Sample) : Json :=
  .object [("schema", .number 1), ("version", .string sample.version), ("autoInstall", .bool true),
    ("platforms", .object [(headlessPlatform, .object [("url", .string "u"), ("size", .number 5),
      ("sha256", .string sample.digest), ("format", .string "amnezia-headless-tar-v1")])]),
    ("headlessProvisioning", .object [("url", .string "u"), ("sha256", .string sample.digest),
      ("size", .number 5), ("format", .string "amnezia-headless-provisioning-tar-v1"),
      ("version", .string sample.version), ("packageManifestSha256", .string sample.digest),
      ("checksumsSha256", .string sample.digest), ("packageVersion", .string sample.version),
      ("packageFiles", .array (provisioningFiles.map Json.string))])]

def envelope (text : String) : Json :=
  .object [("schema", .string "amnezia-selfhosted-update-v1"), ("signatureAlgorithm", .string "Ed25519"),
    ("payload", .string text),
    ("signature", .string "AAAAAAAAAAAAAAAAAAAAAAAAAAAAAAAAAAAAAAAAAAAAAAAAAAAAAAAAAAAAAAAA")]

def provided : Services Sample where
  size _ := 5
  sha256 := digest
  injective := by
    intro left right same
    cases left <;> cases right <;> first
      | rfl
      | exact absurd same (by decide)
  valid content := by cases content <;> decide +kernel
  runsHere _ _ := true
  fromJson bytes :=
    if bytes = [1] then some (envelope "AA")
    else if bytes = [2] then some (envelope "AB")
    else if bytes = [0x41, 0x41] then some (payload .new)
    else if bytes = [0x41, 0x42] then some (payload .newer)
    else none
  fromBase64 _ bytes := bytes
  toBase64 _ bytes := bytes
  verifySignature _ _ _ := true
  parseUrl _ := url
  resolved _ url := url
  hostAddress _ := .ipv6
  keyHash bytes := bytes
  members content := some [⟨true, "amneziad", content⟩, ⟨true, "amnezia-cli", content⟩]

def profile : Profile := ⟨true, "u", trustedUpdatePublicKeyPath, []⟩

def key : KeyFile := ⟨trustedUpdatePublicKeyPath, true, false, 0, false, false, 1, some [1]⟩

def check (manifest : Bytes) (status : Int) (running artifact : Sample) : Check Sample where
  profile := profile
  currentVersion := running.version
  surroundings := {
    files := fun _ => key
    filesAfter := fun _ => key
    manifest := ⟨true, url, false, status, manifest⟩
    manifestTooLarge := false
    artifact := ⟨true, url, false, 200, artifact⟩ }

def start : World Sample where
  disk := ⟨none, none, none, none, ∅, ⟨.old, .old⟩, 0⟩
  memory := {}
  pairs := [⟨.old, .old⟩]
  renames := []

def started : World Sample := (Move.boot.report provided (.fresh ⟨.old, .old⟩) []).world

def updated : Executed (World Sample) Outcome (Option Result) :=
  (Move.check (check [1] 200 .old .new)).report provided started []

end Sample

end Amnezia.Headless
