import Amnezia.Migration.Documents

/-!
# The migration journal and its recovery rules

An empty text or object in a journal is one that is missing, and so is the epoch zero.
-/

namespace Amnezia.Migration
open Lib

variable {Hash : Type}

inductive JournalState where
  | enrolling
  | enrolled
  | staged
  | trial
  | committing
  | ackPending
  | committed
  | rolledBack
  | recoveryRequired
  | expired
  | secretStoreUnavailable
  deriving DecidableEq, Repr

structure Authorization (Hash : Type) where
  sourceHash : Hash
  generation : Rat
  targetHash : Hash
  signingPublicKey : String
  previousNonceHash : Hash
  previousGrantHash : Hash
  cleanupToken : String
  cleanupEpoch : Nat
  deriving DecidableEq

structure Failure where
  reason : String
  httpStatus : Int
  failedAt : Int
  deriving DecidableEq

structure Journal (Hash : Type) where
  state : Option JournalState := none
  sourceHash : Option Hash := none
  sourceFingerprint : String := ""
  nonce : String := ""
  grant : String := ""
  grantExpiresAt : Rat := 0
  signingPublicKey : String := ""
  containerId : String := ""
  serverPublicKey : String := ""
  peerPublicKey : String := ""
  offer : JsonObject := []
  stagedGeneration : Option Rat := none
  stagedTargetHash : Option Hash := none
  highestGeneration : Option Rat := none
  challengeReceipt : JsonObject := []
  candidateHash : Option Hash := none
  recoveryAuthorization : Option (Authorization Hash) := none
  lastRecoveryCleanupToken : String := ""
  lastRecoveryCleanupEpoch : Nat := 0
  capabilityConfirmed : Bool := false
  lastFailure : Option Failure := none
  lastRequestAt : Option Int := none
  deriving DecidableEq

def isGeneration (generation : Rat) : Bool :=
  0 < generation && generation ≤ maximumGeneration && generation = generation.floor

def cleanupAuthorizationAllowed (token expectedToken : String) (teardownEpoch : Nat)
    (lastCleanupToken : String) : Bool :=
  token ≠ "" && token = expectedToken && teardownEpoch ≠ 0 && token ≠ lastCleanupToken

def generationOf (offer : JsonObject) : Option Rat :=
  match offer.value "generation" with
  | .number generation => some generation
  | _ => none

def recoveryJournalForTrial (journal : Journal Hash) (generation : Option Rat) : Journal Hash :=
  { journal with
    highestGeneration := generation
    recoveryAuthorization := none
    state := some .trial }

variable [DecidableEq Hash] (services : Services Hash)

def rollbackRecoveryAllowed (currentHash : Hash) (sourceHash candidateHash : Option Hash) : Bool :=
  some currentHash = sourceHash && (candidateHash = none || candidateHash ≠ some currentHash)

def createRecoveryAuthorization (journal : Journal Hash) : Option (Authorization Hash) :=
  let generation := (journal.offer.value "generation").toDouble (-1)
  let targetHash := services.digest (journal.offer.object "target")
  match journal.sourceHash with
  | none => none
  | some sourceHash =>
    if journal.signingPublicKey = "" ∨ journal.nonce = "" ∨ journal.grant = "" ∨
        journal.lastRecoveryCleanupToken = "" ∨ journal.lastRecoveryCleanupEpoch = 0 ∨
        journal.offer.object "target" = [] ∨ !isGeneration generation ∨
        generation ≠ journal.highestGeneration.getD (-2) ∨
        generation ≠ journal.stagedGeneration.getD (-3) ∨
        some targetHash ≠ journal.stagedTargetHash then none
    else some
      { sourceHash := sourceHash
        generation := generation
        targetHash := targetHash
        signingPublicKey := journal.signingPublicKey
        previousNonceHash := services.hash journal.nonce
        previousGrantHash := services.hash journal.grant
        cleanupToken := journal.lastRecoveryCleanupToken
        cleanupEpoch := journal.lastRecoveryCleanupEpoch }

def sameGenerationRecoveryAllowed (journal : Journal Hash) (offer : JsonObject) (currentSourceHash : Hash) :
    Bool :=
  match journal.recoveryAuthorization with
  | none => false
  | some authorization =>
    authorization.cleanupEpoch ≠ 0 &&
      authorization.cleanupToken ≠ "" &&
      authorization.cleanupToken = journal.lastRecoveryCleanupToken &&
      authorization.cleanupEpoch = journal.lastRecoveryCleanupEpoch &&
      authorization.sourceHash = currentSourceHash &&
      some authorization.sourceHash = journal.sourceHash &&
      authorization.signingPublicKey ≠ "" &&
      authorization.signingPublicKey = journal.signingPublicKey &&
      isGeneration authorization.generation &&
      authorization.generation = journal.highestGeneration.getD (-2) &&
      authorization.generation = journal.stagedGeneration.getD (-4) &&
      authorization.generation = (offer.value "generation").toDouble (-3) &&
      offer.object "target" ≠ [] &&
      authorization.targetHash = services.digest (offer.object "target") &&
      some authorization.targetHash = journal.stagedTargetHash &&
      journal.nonce ≠ "" && journal.nonce = offer.text "nonce" && journal.grant ≠ "" &&
      services.hash journal.nonce ≠ authorization.previousNonceHash &&
      services.hash journal.grant ≠ authorization.previousGrantHash

def recoveryJournalAfterCleanup (journal : Journal Hash) (token : String) (epoch : Nat) : Journal Hash :=
  let confirmed := { journal with lastRecoveryCleanupToken := token, lastRecoveryCleanupEpoch := epoch }
  { confirmed with
    grant := ""
    grantExpiresAt := 0
    nonce := ""
    offer := []
    challengeReceipt := []
    candidateHash := none
    recoveryAuthorization := createRecoveryAuthorization services confirmed
    state := some .rolledBack }

end Amnezia.Migration
