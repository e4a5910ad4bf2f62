import Amnezia.Updater.Receipt

/-!
# Signed payloads and the release policy

The payload is given as its fields; a check on the form of a field that nothing else reads (the set of
keys, the channel, the cohort salt) is part of `wellFormed`. SHA-256, the parser and the tests on URLs
are given.
-/

namespace Amnezia.Updater

abbrev Bytes := List UInt8

structure ArtifactDocument (Digest : Type) where
  urlOrPath : String
  sha256 : Option Digest
  size : Option Int
  openExternally : Bool
  deriving DecidableEq

-- A value of `platforms` that is not an object is none.
abbrev Platforms (Digest : Type) := List (String × Option (ArtifactDocument Digest))

structure RollbackDocument (Digest : Type) where
  version : Option Version
  platforms : Platforms Digest
  deriving DecidableEq

structure PolicyDocument (Digest : Type) where
  wellFormed : Bool
  generation : Int
  rolloutPercentage : Int
  minimumVersion : Option Version
  maximumVersion : Option Version
  healthDeadlineSeconds : Int
  generatedAt : Int
  expiresAt : Int
  previousVersion : Option Version
  rollback : Option (RollbackDocument Digest)
  deriving DecidableEq

structure Document (Digest : Type) where
  schema : Int
  releasePolicy : Entry (PolicyDocument Digest)
  version : Option Version
  platforms : Option (Platforms Digest)
  deriving DecidableEq

structure Artifact (Digest : Type) where
  platform : String
  url : String
  sha256 : Option Digest
  size : Int
  openExternally : Bool
  deriving DecidableEq

structure ReleasePolicy (Digest : Type) where
  generation : Int
  healthDeadlineSeconds : Int
  expiresAt : Int
  rollbackVersion : Option Version
  rollbackArtifact : Option (Artifact Digest)
  deriving DecidableEq

structure Environment (Digest : Type) where
  sha256 : Bytes → Digest
  sha256_injective : Function.Injective sha256
  decode : Bytes → Option (Document Digest)
  platformCandidates : List String
  resolvedArtifactUrl : String → String → Option String
  isHttpOrHttpsUrl : String → Bool
  isAllowedExternalUpdateUrl : String → Bool
  samePinnedUrl : String → String → Bool
  inCohort : Int → Bool

def versionBefore : Version → Version → Bool
  | _, [] => false
  | [], _ :: _ => true
  | first :: firsts, second :: seconds =>
    first < second || (first = second && versionBefore firsts seconds)

def maximumSafeJsonInteger : Int := 9007199254740991

variable {Digest : Type} (environment : Environment Digest)

def platformValue (platforms : Platforms Digest) (platform : String) : Option (ArtifactDocument Digest) :=
  (platforms.find? fun entry => entry.1 = platform).bind Prod.snd

def payloadHasPlatformCandidate (platforms : Option (Platforms Digest)) : Bool :=
  environment.platformCandidates.any fun platform =>
    (platforms.getD []).any fun entry => entry.1 = platform

def artifactSize (document : ArtifactDocument Digest) : Int :=
  match document.size with
  | some size => if 1 ≤ size && size ≤ maximumSafeJsonInteger then size else -1
  | none => -1

def artifactUsable (artifact : Artifact Digest) : Bool :=
  if artifact.openExternally then environment.isAllowedExternalUpdateUrl artifact.url
  else artifact.sha256.isSome && environment.isHttpOrHttpsUrl artifact.url && 0 < artifact.size

def candidateArtifact (manifestUrl : String) (platforms : Platforms Digest) (platform : String) :
    Option (Artifact Digest) := do
  let document ← platformValue platforms platform
  let url ← environment.resolvedArtifactUrl manifestUrl document.urlOrPath
  let artifact : Artifact Digest :=
    ⟨platform, url, document.sha256, artifactSize document, document.openExternally⟩
  if artifactUsable environment artifact then some artifact else none

def selectSelfHostedArtifact (manifestUrl : String) (platforms : Platforms Digest) :
    Option (Artifact Digest) :=
  environment.platformCandidates.findSome? (candidateArtifact environment manifestUrl platforms)

inductive ReleasePolicyResult where
  | invalid
  | stale
  | ineligible
  | eligible
  deriving DecidableEq, Repr

def outside (minimum maximum : Option Version) (version : Version) : Bool :=
  minimum.any (versionBefore version ·) || maximum.any (versionBefore · version)

def policyRollback (manifestUrl : String) (document : PolicyDocument Digest) :
    Option (Option Version × Option (Artifact Digest)) :=
  match document.rollback with
  | none => some (none, none)
  | some rollback =>
    if document.previousVersion = none || rollback.version = none ||
        rollback.version ≠ document.previousVersion || rollback.platforms = [] then none
    else if payloadHasPlatformCandidate environment (some rollback.platforms) then
      (selectSelfHostedArtifact environment manifestUrl rollback.platforms).map fun artifact =>
        (rollback.version, some artifact)
    else some (rollback.version, none)

def policyFieldsValid (document : PolicyDocument Digest) (releaseVersion : Version) : Bool :=
  document.wellFormed && 1 ≤ document.generation && document.generation ≤ maximumSafeJsonInteger &&
    0 ≤ document.rolloutPercentage && document.rolloutPercentage ≤ 100 &&
    !(document.minimumVersion.any fun minimum =>
      document.maximumVersion.any fun maximum => versionBefore maximum minimum) &&
    minimumHealthDeadlineSeconds ≤ document.healthDeadlineSeconds &&
    document.healthDeadlineSeconds ≤ maximumHealthDeadlineSeconds &&
    document.generatedAt < document.expiresAt &&
    !(document.previousVersion.any fun previous => !versionBefore previous releaseVersion)

def evaluateReleasePolicy (manifestUrl : String) (document : PolicyDocument Digest)
    (releaseVersion running : Version) (generationFloor now : Int) :
    ReleasePolicyResult × Option (ReleasePolicy Digest) :=
  if !policyFieldsValid document releaseVersion then (.invalid, none)
  else
    match policyRollback environment manifestUrl document with
    | none => (.invalid, none)
    | some (rollbackVersion, rollbackArtifact) =>
      let policy : ReleasePolicy Digest :=
        ⟨document.generation, document.healthDeadlineSeconds, document.expiresAt, rollbackVersion,
          rollbackArtifact⟩
      if document.generation < generationFloor then (.stale, some policy)
      else if document.expiresAt ≤ now then (.ineligible, some policy)
      else if outside document.minimumVersion document.maximumVersion running then
        (.ineligible, some policy)
      else if document.rolloutPercentage = 0 then (.ineligible, some policy)
      else if document.rolloutPercentage < 100 && !environment.inCohort document.rolloutPercentage then
        (.ineligible, some policy)
      else (.eligible, some policy)

inductive GenerationBindingDisposition where
  | invalidCandidate
  | stale
  | missingPayloadBinding
  | conflictingPayload
  | acceptExisting
  | acceptAdvance
  deriving DecidableEq, Repr

def evaluateGenerationBinding [DecidableEq Digest] (candidateGeneration : Int)
    (candidatePayloadSha256 : Digest) (highestObservedGeneration persistedGeneration : Int)
    (persistedPayloadSha256 : Option Digest) : GenerationBindingDisposition :=
  let generationFloor := max highestObservedGeneration persistedGeneration
  if candidateGeneration ≤ 0 then .invalidCandidate
  else if candidateGeneration < generationFloor then .stale
  else if generationFloor < candidateGeneration then .acceptAdvance
  else
    match persistedPayloadSha256 with
    | none => .missingPayloadBinding
    | some persisted =>
      if persistedGeneration ≠ candidateGeneration then .missingPayloadBinding
      else if persisted ≠ candidatePayloadSha256 then .conflictingPayload
      else .acceptExisting

def rollbackPolicyBindingMatches [DecidableEq Digest] (receiptGeneration : Int)
    (receiptPayloadSha256 : Option Digest) (acceptedGeneration : Int)
    (acceptedPayloadSha256 : Option Digest) : Bool :=
  0 < receiptGeneration && receiptGeneration = acceptedGeneration && receiptPayloadSha256.isSome &&
    receiptPayloadSha256 = acceptedPayloadSha256

def automaticRollbackRunningVersionAllowed (runningVersion : Version)
    (targetVersion rollbackVersion : Entry Version) : Bool :=
  targetVersion = .value runningVersion && rollbackVersion ≠ .value runningVersion

inductive RollbackLeaseDisposition where
  | invalid
  | acquire
  | wait
  | recover
  | exhausted
  deriving DecidableEq, Repr

def evaluateRollbackLease (now : Int) (leaseExpiresAt : Option Int)
    (recoveryCount maximumRecoveries : Int) : RollbackLeaseDisposition :=
  if recoveryCount < 0 || maximumRecoveries < 0 || maximumRecoveries < recoveryCount then .invalid
  else
    match leaseExpiresAt with
    | none => if recoveryCount = 0 then .acquire else .invalid
    | some leaseExpiresAt =>
      if now < leaseExpiresAt then .wait
      else if recoveryCount < maximumRecoveries then .recover
      else .exhausted

def rollbackArtifactFromReceipt (receipt : Receipt Digest) : Option (Artifact Digest) :=
  if receipt.rollback.version.get?.isNone then none
  else
    let artifact : Artifact Digest :=
      ⟨receipt.rollback.platform, receipt.rollback.url, receipt.rollback.sha256.get?,
        receipt.rollback.size.get?.getD 0, receipt.rollback.openExternally⟩
    if !environment.platformCandidates.contains artifact.platform || artifact.url = "" then none
    else if artifactUsable environment artifact then some artifact
    else none

end Amnezia.Updater
