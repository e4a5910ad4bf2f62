import Mathlib.Algebra.Ring.Int.Defs
import Mathlib.Tactic.Common

/-!
# Health receipts of the updater

Times are in milliseconds. A text that only goes to the user (channel, reasons, `rollbackLastError..`) is
left out.
-/

namespace Amnezia.Updater

abbrev Version := List Nat

-- A key that is not there, one whose value does not parse, or a value.
inductive Entry (α : Type) where
  | absent
  | malformed
  | value (content : α)
  deriving DecidableEq, Repr

namespace Entry

variable {α : Type}

def contains : Entry α → Bool
  | .absent => false
  | _ => true

def get? : Entry α → Option α
  | .value content => some content
  | _ => none

-- `receipt.insert(key, receipt.take(other))` inserts an invalid value for a key that is not there.
def taken : Entry α → Entry α
  | .absent => .malformed
  | entry => entry

end Entry

inductive HealthState where
  | pending
  | failed
  deriving DecidableEq, Repr

inductive RollbackState where
  | leased
  | confirmationPending
  deriving DecidableEq, Repr

inductive Origin where
  | manual
  | automatic
  deriving DecidableEq, Repr

structure Offer (Digest : Type) where
  version : Entry Version := .absent
  platform : String := ""
  url : String := ""
  sha256 : Entry Digest := .absent
  size : Entry Int := .absent
  openExternally : Bool := false
  deriving DecidableEq

structure Receipt (Digest : Type) where
  schema : Entry Int := .absent
  receiptId : Entry Nat := .absent
  policyGeneration : Entry Int := .absent
  policyPayloadSha256 : Entry Digest := .absent
  policyExpiresAt : Entry Int := .absent
  targetVersion : Entry Version := .absent
  sourceVersion : Entry Version := .absent
  installerStartedAt : Entry Int := .absent
  healthDeadlineSeconds : Entry Int := .absent
  deadlineAt : Entry Int := .absent
  healthState : Entry HealthState := .absent
  failedAt : Entry Int := .absent
  rollback : Offer Digest := {}
  rollbackState : Entry RollbackState := .absent
  rollbackIntentId : Entry Nat := .absent
  rollbackOrigin : Entry Origin := .absent
  rollbackLeaseId : Entry Nat := .absent
  rollbackLeaseAcquiredAt : Entry Int := .absent
  rollbackLeaseExpiresAt : Entry Int := .absent
  rollbackRecoveryCount : Entry Int := .absent
  rollbackHandoffLeaseId : Entry Nat := .absent
  rollbackRequestedAt : Entry Int := .absent
  rollbackSourceInstallerStartedAt : Entry Int := .absent
  rollbackSourceHealthDeadlineSeconds : Entry Int := .absent
  rollbackSourceDeadlineAt : Entry Int := .absent
  automaticRollbackPreHandoffFailureCount : Entry Int := .absent
  automaticRollbackNextAttemptAt : Entry Int := .absent
  automaticRollbackLastErrorAt : Entry Int := .absent
  automaticRollbackTerminalAt : Entry Int := .absent
  rollbackConfirmationFailureCount : Entry Int := .absent
  deriving DecidableEq

def addSecs (time seconds : Int) : Int := time + 1000 * seconds

def healthReceiptSchema : Int := 2

def minimumHealthDeadlineSeconds : Int := 60

def maximumHealthDeadlineSeconds : Int := 24 * 60 * 60

def rollbackConfirmationTimeoutSeconds : Int := 30 * 60

def rollbackIntentLeaseSeconds : Int := 25 * 60 + 60

def maximumAutomaticRollbackRecoveries : Int := 1

def maximumAutomaticRollbackConfirmationFailures : Int := 1

def maximumAutomaticRollbackPreHandoffFailures : Int := 3

def automaticRollbackRetryDelaySeconds (failureCount : Int) : Int :=
  15 * 2 ^ (max 1 (min failureCount maximumAutomaticRollbackPreHandoffFailures) - 1).toNat

namespace Receipt

variable {Digest : Type}

def failureCount (receipt : Receipt Digest) : Int :=
  receipt.automaticRollbackPreHandoffFailureCount.get?.getD 0

def hasLease (receipt : Receipt Digest) : Bool :=
  receipt.rollbackLeaseId.contains || receipt.rollbackLeaseAcquiredAt.contains ||
    receipt.rollbackLeaseExpiresAt.contains

def windowValid (started seconds deadline : Entry Int) : Bool :=
  match started.get?, seconds.get?, deadline.get? with
  | some started, some seconds, some deadline =>
    minimumHealthDeadlineSeconds ≤ seconds && seconds ≤ maximumHealthDeadlineSeconds &&
      started < deadline && deadline ≤ addSecs started (seconds + 1)
  | _, _, _ => false

def identityValid (receipt : Receipt Digest) : Bool :=
  receipt.schema = .value healthReceiptSchema && receipt.policyGeneration.get?.any (0 < ·) &&
    receipt.receiptId.get?.isSome && receipt.policyPayloadSha256.get?.isSome &&
    receipt.targetVersion.get?.isSome && receipt.sourceVersion.get?.isSome &&
    receipt.policyExpiresAt.get?.isSome

def retryValid (receipt : Receipt Digest) : Bool :=
  !receipt.automaticRollbackNextAttemptAt.contains ||
    (0 < receipt.failureCount && receipt.failureCount < maximumAutomaticRollbackPreHandoffFailures &&
      !receipt.automaticRollbackTerminalAt.contains &&
      match receipt.automaticRollbackNextAttemptAt.get?, receipt.automaticRollbackLastErrorAt.get? with
      | some retryAt, some lastErrorAt =>
        lastErrorAt < retryAt &&
          retryAt ≤ addSecs lastErrorAt (automaticRollbackRetryDelaySeconds receipt.failureCount + 1)
      | _, _ => false)

def countersValid (receipt : Receipt Digest) : Bool :=
  (!receipt.automaticRollbackPreHandoffFailureCount.contains ||
    receipt.automaticRollbackPreHandoffFailureCount.get?.any fun count =>
      0 < count && count ≤ maximumAutomaticRollbackPreHandoffFailures) &&
    receipt.retryValid &&
    (!receipt.automaticRollbackTerminalAt.contains || receipt.automaticRollbackTerminalAt.get?.isSome)

def pendingValid (receipt : Receipt Digest) : Bool :=
  !(receipt.failedAt.contains || receipt.rollbackRequestedAt.contains || receipt.rollbackState.contains ||
    receipt.rollbackIntentId.contains || receipt.hasLease || receipt.rollbackHandoffLeaseId.contains ||
    receipt.automaticRollbackPreHandoffFailureCount.contains ||
    receipt.automaticRollbackNextAttemptAt.contains || receipt.automaticRollbackTerminalAt.contains)

def idleValid (receipt : Receipt Digest) : Bool :=
  !receipt.rollbackRequestedAt.contains && !receipt.rollbackIntentId.contains && !receipt.hasLease &&
    !receipt.rollbackHandoffLeaseId.contains

def intentValid (receipt : Receipt Digest) : Bool :=
  receipt.rollbackIntentId.get?.isSome && receipt.rollbackOrigin.get?.isSome

def recoveryCount (receipt : Receipt Digest) : Int := receipt.rollbackRecoveryCount.get?.getD 0

def leaseValid (receipt : Receipt Digest) : Bool :=
  !receipt.rollbackRequestedAt.contains && !receipt.rollbackHandoffLeaseId.contains &&
    !(receipt.rollbackOrigin = .value .automatic && receipt.automaticRollbackNextAttemptAt.contains) &&
    receipt.rollbackLeaseId.get?.isSome &&
    (match receipt.rollbackLeaseAcquiredAt.get?, receipt.rollbackLeaseExpiresAt.get? with
      | some acquiredAt, some expiresAt =>
        acquiredAt < expiresAt && expiresAt ≤ addSecs acquiredAt (rollbackIntentLeaseSeconds + 1)
      | _, _ => false) &&
    receipt.rollbackRecoveryCount ≠ .malformed && 0 ≤ receipt.recoveryCount &&
    receipt.recoveryCount ≤ maximumAutomaticRollbackRecoveries

def handoffValid (receipt : Receipt Digest) : Bool :=
  !receipt.hasLease && receipt.rollbackHandoffLeaseId.get?.isSome &&
    !receipt.automaticRollbackNextAttemptAt.contains &&
    match receipt.rollbackRequestedAt.get?, receipt.failedAt.get? with
    | some requestedAt, some failedAt =>
      failedAt ≤ requestedAt && receipt.installerStartedAt = .value requestedAt
    | _, _ => false

end Receipt

variable {Digest : Type} [DecidableEq Digest]

def phaseValid (receipt : Receipt Digest) : Bool :=
  match receipt.healthState with
  | .absent | .value .pending => receipt.pendingValid
  | .malformed => false
  | .value .failed =>
    receipt.failedAt.get?.isSome &&
      match receipt.rollbackState with
      | .absent => receipt.idleValid
      | .malformed => false
      | .value .leased => receipt.intentValid && receipt.leaseValid
      | .value .confirmationPending => receipt.intentValid && receipt.handoffValid

def isPendingHealthReceiptValid (receipt : Receipt Digest) : Bool :=
  receipt.identityValid &&
    Receipt.windowValid receipt.installerStartedAt receipt.healthDeadlineSeconds receipt.deadlineAt &&
    receipt.countersValid && phaseValid receipt

namespace Receipt

def withoutLease (receipt : Receipt Digest) : Receipt Digest :=
  { receipt with
    rollbackState := .absent
    rollbackIntentId := .absent
    rollbackOrigin := .absent
    rollbackLeaseId := .absent
    rollbackLeaseAcquiredAt := .absent
    rollbackLeaseExpiresAt := .absent
    rollbackRecoveryCount := .absent }

def withoutHandoff (receipt : Receipt Digest) : Receipt Digest :=
  { receipt.withoutLease with rollbackRequestedAt := .absent, rollbackHandoffLeaseId := .absent }

def restoreSource (receipt : Receipt Digest) : Receipt Digest :=
  if receipt.rollbackSourceInstallerStartedAt.contains then
    { receipt with
      installerStartedAt := receipt.rollbackSourceInstallerStartedAt
      healthDeadlineSeconds := receipt.rollbackSourceHealthDeadlineSeconds.taken
      deadlineAt := receipt.rollbackSourceDeadlineAt.taken
      rollbackSourceInstallerStartedAt := .absent
      rollbackSourceHealthDeadlineSeconds := .absent
      rollbackSourceDeadlineAt := .absent }
  else receipt

-- `finishPendingHealthReceipt` without clearing
def failHealth (now : Int) (receipt : Receipt Digest) : Receipt Digest :=
  { receipt with healthState := .value .failed, failedAt := .value now }

-- `claimRollbackIntent`
def claim (now : Int) (origin : Origin) (intentId leaseId : Nat) (receipt : Receipt Digest) : Receipt Digest :=
  { receipt with
    rollbackState := .value .leased
    rollbackIntentId := .value intentId
    rollbackOrigin := .value origin
    rollbackLeaseId := .value leaseId
    rollbackLeaseAcquiredAt := .value now
    rollbackLeaseExpiresAt := .value (addSecs now rollbackIntentLeaseSeconds)
    rollbackRecoveryCount := .value 0
    automaticRollbackNextAttemptAt :=
      if origin = .automatic then .absent else receipt.automaticRollbackNextAttemptAt }

-- `recoverAutomaticRollbackLease`
def recover (now : Int) (leaseId : Nat) (receipt : Receipt Digest) : Receipt Digest :=
  { receipt with
    rollbackLeaseId := .value leaseId
    rollbackLeaseAcquiredAt := .value now
    rollbackLeaseExpiresAt := .value (addSecs now rollbackIntentLeaseSeconds)
    rollbackRecoveryCount := .value (receipt.recoveryCount + 1) }

def exhaust (now : Int) (receipt : Receipt Digest) : Receipt Digest :=
  { receipt.withoutLease with
    automaticRollbackTerminalAt := .value now
    automaticRollbackLastErrorAt := .value now }

def saveSource (receipt : Receipt Digest) : Receipt Digest :=
  if receipt.rollbackSourceInstallerStartedAt.contains then receipt
  else
    { receipt with
      rollbackSourceInstallerStartedAt := receipt.installerStartedAt
      rollbackSourceHealthDeadlineSeconds := receipt.healthDeadlineSeconds
      rollbackSourceDeadlineAt := receipt.deadlineAt }

-- `recordRollbackHandoff`: the rollback gets a window of its own.
def handOff (now : Int) (leaseId : Nat) (receipt : Receipt Digest) : Receipt Digest :=
  { receipt.saveSource with
    rollbackRequestedAt := .value now
    rollbackState := .value .confirmationPending
    rollbackHandoffLeaseId := .value leaseId
    installerStartedAt := .value now
    healthDeadlineSeconds := .value rollbackConfirmationTimeoutSeconds
    deadlineAt := .value (addSecs now rollbackConfirmationTimeoutSeconds)
    rollbackLeaseId := .absent
    rollbackLeaseAcquiredAt := .absent
    rollbackLeaseExpiresAt := .absent
    automaticRollbackNextAttemptAt := .absent }

def isAutomatic (receipt : Receipt Digest) : Bool := receipt.rollbackOrigin = .value .automatic

def nextFailureCount (receipt : Receipt Digest) : Int :=
  min maximumAutomaticRollbackPreHandoffFailures (receipt.failureCount + 1)

def retriesAutomatically (permanentValidationFailure : Bool) (receipt : Receipt Digest) : Bool :=
  receipt.isAutomatic && !permanentValidationFailure &&
    receipt.nextFailureCount < maximumAutomaticRollbackPreHandoffFailures

def countFailure (now : Int) (permanentValidationFailure : Bool) (receipt : Receipt Digest) :
    Receipt Digest :=
  if receipt.isAutomatic then
    if receipt.retriesAutomatically permanentValidationFailure then
      { receipt with
        automaticRollbackLastErrorAt := .value now
        automaticRollbackPreHandoffFailureCount := .value receipt.nextFailureCount
        automaticRollbackTerminalAt := .absent
        automaticRollbackNextAttemptAt :=
          .value (addSecs now (automaticRollbackRetryDelaySeconds receipt.nextFailureCount)) }
    else
      { receipt with
        automaticRollbackLastErrorAt := .value now
        automaticRollbackPreHandoffFailureCount := .value receipt.nextFailureCount
        automaticRollbackNextAttemptAt := .absent
        automaticRollbackTerminalAt := .value now }
  else receipt

-- `recordRollbackHandoffFailure`
def failHandoff (now : Int) (permanentValidationFailure : Bool) (receipt : Receipt Digest) :
    Receipt Digest :=
  (receipt.restoreSource.countFailure now permanentValidationFailure).withoutHandoff

def confirmationFailures (receipt : Receipt Digest) : Int :=
  min maximumAutomaticRollbackConfirmationFailures (receipt.rollbackConfirmationFailureCount.get?.getD 0 + 1)

-- `refreshPendingUpdateHealth`: the rollback version did not become active in time.
def missConfirmation (now : Int) (receipt : Receipt Digest) : Receipt Digest :=
  let restored := receipt.restoreSource
  let counted := { restored with rollbackConfirmationFailureCount := .value receipt.confirmationFailures }
  let ended :=
    if maximumAutomaticRollbackConfirmationFailures ≤ receipt.confirmationFailures then
      { counted with automaticRollbackTerminalAt := .value now, automaticRollbackLastErrorAt := .value now }
    else counted
  ended.withoutHandoff

end Receipt

end Amnezia.Updater
