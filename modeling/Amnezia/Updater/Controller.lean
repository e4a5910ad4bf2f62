import Amnezia.Lib.Interruptions
import Amnezia.Updater.Policy

/-!
# The updater of the desktop client

Each write of a setting takes effect or fails without one, and the process may stop after it. A failed
write makes the next reads of its key empty, since the cache then holds an invalid value. A timer is a
label that may come at any time. `m_handoffReceiptPrepared` is set and reset within one handler, so it is
passed as a value. The gateway channel and Android are left out.
-/

namespace Amnezia.Updater
open Lib Procedure

/-! ## Settings -/

structure Setting (α : Type) where
  stored : Option α := none
  -- the cache holds an invalid value
  poisoned : Bool := false

namespace Setting

variable {α : Type}

def read (setting : Setting α) : Option α := if setting.poisoned then none else setting.stored

def reload (setting : Setting α) : Setting α := { setting with poisoned := false }

end Setting

inductive Outcome where
  | done
  | failed
  deriving DecidableEq, Repr

instance : Inhabited Outcome := ⟨.done⟩

def Setting.write {α : Type} (setting : Setting α) (content : Option α) : Outcome → Setting α
  | .done => ⟨content, false⟩
  | .failed => { setting with poisoned := true }

structure Settings (Digest : Type) where
  generation : Setting Int := {}
  payload : Setting Digest := {}
  receipt : Setting (Receipt Digest) := {}

/-! ## The state of the process -/

structure Attempt where
  receiptId : Nat
  intentId : Nat
  leaseId : Nat
  deriving DecidableEq, Repr

inductive IntentKind where
  | update (id : Nat)
  | rollback (attempt : Attempt)
  deriving DecidableEq, Repr

structure InstallIntent (Digest : Type) where
  kind : IntentKind
  targetVersion : Option Version
  platform : String
  url : String
  sha256 : Option Digest
  size : Int
  policyGeneration : Int
  policyPayloadSha256 : Option Digest
  consumed : Bool := false
  deriving DecidableEq

structure Memory (Digest : Type) where
  running : Version := []
  highestObservedPolicyGeneration : Int := 0
  updateCheckRunning : Bool := false
  version : Option Version := none
  selectedArtifact : Option (Artifact Digest) := none
  selectedReleasePolicy : Option (ReleasePolicy Digest) := none
  useSelfHostedArtifact : Bool := false
  installIntent : Option (InstallIntent Digest) := none
  rollbackInstallAttempt : Bool := false
  selfHostedInstallInProgress : Bool := false
  download : Option String := none
  queue : List Attempt := []

structure Launch (Digest : Type) where
  content : Bytes
  rollback : Bool
  policyGeneration : Int
  now : Int
  receipt : Option (Receipt Digest)

inductive Event (Digest : Type) where
  | verified (payload : Bytes)
  | accepted (payload : Bytes)
  | stored (receipt : Receipt Digest)
  | cleared
  | claimed (attempt : Attempt) (origin : Origin) (now : Int)
  | recovered (attempt : Attempt)
  | queued (attempt : Attempt)
  | running (attempt : Attempt)
  | handedOff (attempt : Attempt)
  | failed (receiptId : Entry Nat) (now : Int)
  -- with the receipt, if it is the download of a rollback
  | downloading (receipt : Option (Receipt Digest))
  | launched (launch : Launch Digest)

structure World (Digest : Type) where
  settings : Settings Digest
  memory : Memory Digest
  live : Bool
  clock : Int
  nextId : Nat
  log : List (Event Digest)

abbrev Action (Digest α : Type) := Procedure (World Digest) Outcome α

variable {Digest α : Type}

def consult (view : Memory Digest → α) : Action Digest α := read fun world => view world.memory

def remember (change : Memory Digest → Memory Digest) : Action Digest Unit :=
  update fun world => { world with memory := change world.memory }

def report (event : Event Digest) : Action Digest Unit :=
  update fun world => { world with log := world.log ++ [event] }

def createUuid : Action Digest Nat := fun world outcomes =>
  ⟨world.nextId, { world with nextId := world.nextId + 1 }, outcomes, []⟩

/-! ## `SecureAppSettingsRepository` -/

def lastAcceptedPolicyGeneration : Action Digest Int :=
  read fun world => max 0 (world.settings.generation.read.getD 0)

def lastAcceptedPolicyPayloadSha256 : Action Digest (Option Digest) :=
  read fun world => world.settings.payload.read

def pendingHealthReceipt : Action Digest (Option (Receipt Digest)) :=
  read fun world => world.settings.receipt.read

def World.writeGeneration (world : World Digest) (generation : Int) (outcome : Outcome) : World Digest :=
  { world with settings := { world.settings with
      generation := world.settings.generation.write (some generation) outcome } }

def World.writePayload (world : World Digest) (payload : Digest) (outcome : Outcome) : World Digest :=
  { world with settings := { world.settings with
      payload := world.settings.payload.write (some payload) outcome } }

def World.writeReceipt (world : World Digest) (receipt : Receipt Digest) (meaning : List (Event Digest))
    (outcome : Outcome) : World Digest :=
  { world with
    settings := { world.settings with receipt := world.settings.receipt.write (some receipt) outcome }
    log := if outcome = .done then world.log ++ .stored receipt :: meaning else world.log }

def World.removeReceipt (world : World Digest) (outcome : Outcome) : World Digest :=
  { world with
    settings := { world.settings with receipt := world.settings.receipt.write none outcome }
    log := if outcome = .done then world.log ++ [.cleared] else world.log }

def World.reloaded (world : World Digest) : World Digest :=
  { world with settings := ⟨world.settings.generation.reload, world.settings.payload.reload,
      world.settings.receipt.reload⟩ }

def World.restarted (world : World Digest) : World Digest :=
  { world.reloaded with memory := {}, live := false }

def writeGeneration (generation : Int) : Action Digest Unit :=
  perform fun world outcome => (world.writeGeneration generation outcome, ())

def writePayload (payload : Digest) : Action Digest Unit :=
  perform fun world outcome => (world.writePayload payload outcome, ())

def setPendingHealthReceipt (receipt : Receipt Digest) (meaning : List (Event Digest)) :
    Action Digest Unit :=
  perform fun world outcome => (world.writeReceipt receipt meaning outcome, ())

def clearPendingHealthReceipt : Action Digest Unit :=
  perform fun world outcome => (world.removeReceipt outcome, ())

-- The digest is written after the generation.
def setLastAcceptedPolicy [DecidableEq Digest] (generation : Int) (payloadSha256 : Digest) :
    Action Digest Unit := do
  let currentGeneration ← lastAcceptedPolicyGeneration
  let currentSha256 ← lastAcceptedPolicyPayloadSha256
  if generation ≤ 0 || generation < currentGeneration ||
      (generation = currentGeneration && currentSha256.any (· ≠ payloadSha256)) then return
  else do
    writeGeneration generation
    writePayload payloadSha256

def setLastAcceptedPolicyGeneration (generation : Int) : Action Digest Unit := do
  let currentGeneration ← lastAcceptedPolicyGeneration
  if generation ≤ currentGeneration then return else writeGeneration generation

def clearStoredSettings : Action Digest Unit := perform fun world _ => (world.reloaded, ())

def clearSettings [DecidableEq Digest] : Action Digest Unit := do
  let policyGeneration ← lastAcceptedPolicyGeneration
  let policyPayloadSha256 ← lastAcceptedPolicyPayloadSha256
  let receipt ← pendingHealthReceipt
  clearStoredSettings
  (if 0 < policyGeneration then
    match policyPayloadSha256 with
    | some payloadSha256 => setLastAcceptedPolicy policyGeneration payloadSha256
    | none => setLastAcceptedPolicyGeneration policyGeneration
  else return)
  match receipt with
  | some receipt => setPendingHealthReceipt receipt []
  | none => return

variable [DecidableEq Digest] (environment : Environment Digest)

def receiptMatchesAcceptedPolicy (receipt : Receipt Digest) : Action Digest Bool := do
  let acceptedGeneration ← lastAcceptedPolicyGeneration
  let acceptedPayloadSha256 ← lastAcceptedPolicyPayloadSha256
  return rollbackPolicyBindingMatches (receipt.policyGeneration.get?.getD 0)
    receipt.policyPayloadSha256.get? acceptedGeneration acceptedPayloadSha256

/-! ## Leases -/

def claimable (running : Version) (receipt : Receipt Digest) : Bool :=
  isPendingHealthReceiptValid receipt && receipt.healthState = .value .failed &&
    !receipt.rollbackState.contains &&
    automaticRollbackRunningVersionAllowed running receipt.targetVersion receipt.rollback.version &&
    (rollbackArtifactFromReceipt environment receipt).any fun artifact => !artifact.openExternally

def automaticallyClaimable (now : Int) (receipt : Receipt Digest) : Bool :=
  receipt.automaticRollbackPreHandoffFailureCount ≠ .malformed &&
    receipt.failureCount < maximumAutomaticRollbackPreHandoffFailures &&
    !receipt.automaticRollbackTerminalAt.contains &&
    !(receipt.automaticRollbackNextAttemptAt.get?.any (now < ·))

def storeClaim (now : Int) (origin : Origin) (receipt : Receipt Digest) : Action Digest Attempt := do
  let intentId ← createUuid
  let leaseId ← createUuid
  let attempt : Attempt := ⟨receipt.receiptId.get?.getD 0, intentId, leaseId⟩
  setPendingHealthReceipt (receipt.claim now origin intentId leaseId) [.claimed attempt origin now]
  return attempt

def claimRollbackIntent (now : Int) (origin : Origin) : Action Digest (Option Attempt) := do
  let running ← consult (·.running)
  let receipt ← pendingHealthReceipt
  match receipt with
  | none => return none
  | some receipt => do
    let bound ← receiptMatchesAcceptedPolicy receipt
    if !claimable environment running receipt || !bound ||
        (origin = .automatic && !automaticallyClaimable now receipt) then return none
    else do
      let attempt ← storeClaim now origin receipt
      let persisted ← pendingHealthReceipt
      if persisted.any fun persisted => isPendingHealthReceiptValid persisted &&
          persisted.receiptId = receipt.receiptId &&
          persisted.rollbackIntentId = .value attempt.intentId &&
          persisted.rollbackLeaseId = .value attempt.leaseId then return some attempt
      else return none

def enqueue (attempt : Attempt) : Action Digest Unit :=
  update fun world =>
    { world with
      memory := { world.memory with queue := world.memory.queue ++ [attempt] }
      log := world.log ++ [.queued attempt] }

def ownsLease (memory : Memory Digest) (receipt : Receipt Digest) : Bool :=
  memory.selfHostedInstallInProgress && memory.rollbackInstallAttempt &&
    memory.installIntent.any fun intent => intent.consumed &&
      match intent.kind with
      | .update _ => false
      | .rollback attempt => receipt.receiptId = .value attempt.receiptId &&
          receipt.rollbackIntentId = .value attempt.intentId &&
          receipt.rollbackLeaseId = .value attempt.leaseId

def storeRecovery (now : Int) (receipt : Receipt Digest) : Action Digest Attempt := do
  let leaseId ← createUuid
  let attempt : Attempt :=
    ⟨receipt.receiptId.get?.getD 0, receipt.rollbackIntentId.get?.getD 0, leaseId⟩
  setPendingHealthReceipt (receipt.recover now leaseId) [.recovered attempt]
  return attempt

def recoverAutomaticRollbackLease (now : Int) (receipt : Receipt Digest) : Action Digest Unit := do
  let memory ← consult id
  if !isPendingHealthReceiptValid receipt || receipt.rollbackState ≠ .value .leased ||
      !receipt.isAutomatic || ownsLease memory receipt then return
  else
    match evaluateRollbackLease now receipt.rollbackLeaseExpiresAt.get? receipt.recoveryCount
        maximumAutomaticRollbackRecoveries with
    | .exhausted => setPendingHealthReceipt (receipt.exhaust now) []
    | .recover => do
      let attempt ← storeRecovery now receipt
      let persisted ← pendingHealthReceipt
      if persisted.any fun persisted => isPendingHealthReceiptValid persisted &&
          persisted.rollbackIntentId = receipt.rollbackIntentId &&
          persisted.rollbackLeaseId = .value attempt.leaseId then enqueue attempt
      else return
    | _ => return

def automaticRollbackSuits (running : Version) (receipt : Receipt Digest) : Bool :=
  ((rollbackArtifactFromReceipt environment receipt).any fun artifact => !artifact.openExternally) &&
    receipt.rollback.version = receipt.sourceVersion &&
    automaticRollbackRunningVersionAllowed running receipt.targetVersion receipt.rollback.version

def claimAutomatically (now : Int) : Action Digest Unit := do
  let attempt ← claimRollbackIntent environment now .automatic
  match attempt with
  | some attempt => enqueue attempt
  | none => return

def scheduleAutomaticRollbackIfEligible (now : Int) : Action Digest Unit := do
  let memory ← consult id
  let receipt ← pendingHealthReceipt
  match receipt with
  | none => return
  | some receipt =>
    if memory.selfHostedInstallInProgress || memory.rollbackInstallAttempt ||
        !isPendingHealthReceiptValid receipt || receipt.healthState ≠ .value .failed ||
        receipt.rollbackRequestedAt.contains then return
    else if receipt.rollbackState = .value .leased then
      if receipt.isAutomatic then recoverAutomaticRollbackLease now receipt else return
    else if receipt.rollbackState.contains || receipt.automaticRollbackTerminalAt.contains then return
    else if receipt.automaticRollbackNextAttemptAt.get?.any (now < ·) then return
    else if !automaticRollbackSuits environment memory.running receipt then return
    else do
      let bound ← receiptMatchesAcceptedPolicy receipt
      if bound then claimAutomatically environment now else return

-- What the timer of `scheduleAutomaticRollbackRetry` runs, with the values it captured.
def automaticRollbackRetry (now : Int) (receiptId : Nat) (failureCount retryAt : Int) : Action Digest Unit := do
  let current ← pendingHealthReceipt
  match current with
  | none => return
  | some current =>
    if !isPendingHealthReceiptValid current || current.receiptId ≠ .value receiptId ||
        current.rollbackState.contains || current.automaticRollbackTerminalAt.contains ||
        current.failureCount ≠ failureCount || current.automaticRollbackNextAttemptAt ≠ .value retryAt ||
        now < retryAt then return
    else scheduleAutomaticRollbackIfEligible environment now

/-! ## The health of the running version -/

def finishPendingHealthReceipt (now : Int) (receipt : Receipt Digest) (clear : Bool) : Action Digest Unit :=
  if clear then clearPendingHealthReceipt else setPendingHealthReceipt (receipt.failHealth now) []

def keepsForRollback (running : Version) (receipt : Receipt Digest) : Bool :=
  (rollbackArtifactFromReceipt environment receipt).isSome && receipt.rollback.version ≠ .value running

def failRunningVersion (now : Int) (receipt : Receipt Digest) : Action Digest Unit := do
  let running ← consult (·.running)
  let keep := keepsForRollback environment running receipt
  finishPendingHealthReceipt now receipt (!keep)
  if keep then scheduleAutomaticRollbackIfEligible environment now else return

def refreshConfirmation (now : Int) (receipt : Receipt Digest) : Action Digest Unit := do
  let running ← consult (·.running)
  if receipt.deadlineAt.get?.any (now < ·) then return
  else if receipt.rollback.version = .value running then finishPendingHealthReceipt now receipt true
  else setPendingHealthReceipt (receipt.missConfirmation now) []

def refreshLease (now : Int) (receipt : Receipt Digest) : Action Digest Unit :=
  if receipt.isAutomatic then recoverAutomaticRollbackLease now receipt
  else if receipt.rollbackLeaseExpiresAt.get?.any (now < ·) then return
  else setPendingHealthReceipt receipt.withoutLease []

def refreshFailed (now : Int) (receipt : Receipt Digest) : Action Digest Unit := do
  let running ← consult (·.running)
  if receipt.rollbackState = .value .confirmationPending then refreshConfirmation now receipt
  else if receipt.rollbackState = .value .leased then refreshLease now receipt
  else if receipt.rollback.version = .value running then finishPendingHealthReceipt now receipt true
  else scheduleAutomaticRollbackIfEligible environment now

def refreshPendingUpdateHealth (now : Int) : Action Digest Unit := do
  let receipt ← pendingHealthReceipt
  match receipt with
  | none => return
  | some receipt =>
    if !isPendingHealthReceiptValid receipt then clearPendingHealthReceipt
    else if receipt.healthState = .value .failed then refreshFailed environment now receipt
    else if receipt.deadlineAt.get?.any (now < ·) then return
    else failRunningVersion environment now receipt

def markRunningVersionUnhealthy (now : Int) : Action Digest Unit := do
  let running ← consult (·.running)
  let receipt ← pendingHealthReceipt
  match receipt with
  | none => return
  | some receipt =>
    if !isPendingHealthReceiptValid receipt || receipt.healthState = .value .failed ||
        receipt.targetVersion ≠ .value running then return
    else failRunningVersion environment now receipt

def confirmRunningVersionHealthy (now : Int) : Action Digest Unit := do
  let running ← consult (·.running)
  let receipt ← pendingHealthReceipt
  match receipt with
  | none => return
  | some receipt =>
    if !isPendingHealthReceiptValid receipt || receipt.deadlineAt.get?.any (· ≤ now) then
      refreshPendingUpdateHealth environment now
    else if receipt.rollbackState = .value .confirmationPending && receipt.rollbackRequestedAt.contains &&
        receipt.rollback.version = .value running then finishPendingHealthReceipt now receipt true
    else if receipt.healthState = .value .failed then return
    else if receipt.targetVersion = .value running then finishPendingHealthReceipt now receipt true
    else if receipt.sourceVersion = .value running then return
    else markRunningVersionUnhealthy environment now

/-! ## Intents and the selection -/

def Memory.cleared (memory : Memory Digest) : Memory Digest :=
  { memory with
    installIntent := none
    selectedArtifact := none
    selectedReleasePolicy := none
    useSelfHostedArtifact := false
    version := none
    rollbackInstallAttempt := false }

def clearInstallSelection : Action Digest Unit := remember Memory.cleared

def policyGeneration (policy : Option (ReleasePolicy Digest)) : Int :=
  (policy.map ReleasePolicy.generation).getD 0

def updateIntent (id : Nat) (memory : Memory Digest) (artifact : Artifact Digest)
    (acceptedPayloadSha256 : Option Digest) : InstallIntent Digest where
  kind := .update id
  targetVersion := memory.version
  platform := artifact.platform
  url := artifact.url
  sha256 := artifact.sha256
  size := artifact.size
  policyGeneration := policyGeneration memory.selectedReleasePolicy
  policyPayloadSha256 :=
    if 0 < policyGeneration memory.selectedReleasePolicy then acceptedPayloadSha256 else none

-- `armRollbackInstallIntent`
def rollbackIntent (receipt : Receipt Digest) (artifact : Artifact Digest) (attempt : Attempt) :
    InstallIntent Digest where
  kind := .rollback attempt
  targetVersion := receipt.rollback.version.get?
  platform := artifact.platform
  url := artifact.url
  sha256 := artifact.sha256
  size := artifact.size
  policyGeneration := receipt.policyGeneration.get?.getD 0
  policyPayloadSha256 := receipt.policyPayloadSha256.get?

def Receipt.leasedBy (receipt : Receipt Digest) (attempt : Attempt) : Bool :=
  receipt.rollbackState = .value .leased && receipt.receiptId = .value attempt.receiptId &&
    receipt.rollbackIntentId = .value attempt.intentId && receipt.rollbackLeaseId = .value attempt.leaseId

def InstallIntent.describes (intent : InstallIntent Digest) (memory : Memory Digest) : Bool :=
  memory.useSelfHostedArtifact && intent.targetVersion = memory.version &&
    memory.selectedArtifact.any fun artifact =>
      intent.platform = artifact.platform && intent.url = artifact.url &&
        intent.sha256 = artifact.sha256 && intent.size = artifact.size

def updateIntentMatches (intent : InstallIntent Digest) : Action Digest Bool := do
  let memory ← consult id
  if memory.rollbackInstallAttempt ||
      intent.policyGeneration ≠ policyGeneration memory.selectedReleasePolicy then return false
  else do
    let acceptedGeneration ← lastAcceptedPolicyGeneration
    let acceptedPayloadSha256 ← lastAcceptedPolicyPayloadSha256
    return intent.policyGeneration = 0 || rollbackPolicyBindingMatches intent.policyGeneration
      intent.policyPayloadSha256 acceptedGeneration acceptedPayloadSha256

def rollbackIntentMatches (attempt : Attempt) : Action Digest Bool := do
  let memory ← consult id
  let receipt ← pendingHealthReceipt
  match receipt with
  | none => return false
  | some receipt => do
    let bound ← receiptMatchesAcceptedPolicy receipt
    return memory.rollbackInstallAttempt && isPendingHealthReceiptValid receipt && bound &&
      receipt.leasedBy attempt && receipt.targetVersion = .value memory.running

def installIntentMatchesSelection : Action Digest Bool := do
  let memory ← consult id
  match memory.installIntent with
  | none => return false
  | some intent =>
    if !intent.describes memory then return false
    else
      match intent.kind with
      | .update _ => updateIntentMatches intent
      | .rollback attempt => rollbackIntentMatches attempt

/-! ## Handoff receipts -/

def entryOf {α : Type} : Option α → Entry α
  | some content => .value content
  | none => .malformed

def ReleasePolicy.offer (policy : ReleasePolicy Digest) : Offer Digest :=
  match policy.rollbackArtifact with
  | none => {}
  | some artifact =>
    ⟨entryOf policy.rollbackVersion, artifact.platform, artifact.url, entryOf artifact.sha256,
      .value artifact.size, artifact.openExternally⟩

-- `recordInstallerHandoffReceipt`
def handoffReceipt (now : Int) (receiptId : Nat) (memory : Memory Digest) (policy : ReleasePolicy Digest)
    (acceptedPayloadSha256 : Digest) : Receipt Digest where
  schema := .value healthReceiptSchema
  receiptId := .value receiptId
  targetVersion := entryOf memory.version
  sourceVersion := .value memory.running
  policyGeneration := .value policy.generation
  policyPayloadSha256 := .value acceptedPayloadSha256
  policyExpiresAt := .value policy.expiresAt
  installerStartedAt := .value now
  healthDeadlineSeconds := .value policy.healthDeadlineSeconds
  deadlineAt := .value (addSecs now policy.healthDeadlineSeconds)
  healthState := .value .pending
  rollback := policy.offer

def storeHandoffReceipt (now : Int) (policy : ReleasePolicy Digest) (acceptedPayloadSha256 : Digest) :
    Action Digest (Receipt Digest) := do
  let memory ← consult id
  let receiptId ← createUuid
  let receipt := handoffReceipt now receiptId memory policy acceptedPayloadSha256
  setPendingHealthReceipt receipt []
  return receipt

def supersede (now : Int) : Action Digest Unit := do
  let memory ← consult id
  let existing ← pendingHealthReceipt
  match existing with
  | none => return
  | some existing =>
    if isPendingHealthReceiptValid existing && existing.targetVersion.get? ≠ memory.version then
      finishPendingHealthReceipt now existing true
    else return

def bindHandoffReceipt (now : Int) (policy : ReleasePolicy Digest) : Action Digest Bool := do
  let acceptedGeneration ← lastAcceptedPolicyGeneration
  let acceptedPayloadSha256 ← lastAcceptedPolicyPayloadSha256
  match acceptedPayloadSha256 with
  | none => return false
  | some acceptedPayloadSha256 =>
    if acceptedGeneration ≠ policy.generation then return false
    else do
      let receipt ← storeHandoffReceipt now policy acceptedPayloadSha256
      let persisted ← pendingHealthReceipt
      return persisted.any fun persisted => isPendingHealthReceiptValid persisted &&
        persisted.targetVersion = receipt.targetVersion && persisted.receiptId = receipt.receiptId &&
        persisted.policyGeneration = receipt.policyGeneration &&
        persisted.policyPayloadSha256 = receipt.policyPayloadSha256 &&
        persisted.installerStartedAt = receipt.installerStartedAt

def recordInstallerHandoffReceipt (now : Int) : Action Digest Bool := do
  let memory ← consult id
  match memory.selectedReleasePolicy with
  | none => return false
  | some policy =>
    if policy.generation ≤ 0 || policy.healthDeadlineSeconds ≤ 0 || policy.expiresAt ≤ now then
      return false
    else do
      supersede now
      bindHandoffReceipt now policy

def handoffAllowed (now : Int) (running : Version) (intent : InstallIntent Digest) (attempt : Attempt)
    (receipt : Receipt Digest) : Bool :=
  isPendingHealthReceiptValid receipt && receipt.leasedBy attempt &&
    receipt.targetVersion = .value running &&
    ((rollbackArtifactFromReceipt environment receipt).any fun artifact =>
      artifact.platform = intent.platform && artifact.url = intent.url &&
        artifact.sha256 = intent.sha256 && artifact.size = intent.size) &&
    !(receipt.rollbackLeaseExpiresAt.get?.any (· ≤ now))

def storeRollbackHandoff (now : Int) (attempt : Attempt) (receipt : Receipt Digest) :
    Action Digest Bool := do
  setPendingHealthReceipt (receipt.handOff now attempt.leaseId) [.handedOff attempt]
  let persisted ← pendingHealthReceipt
  let stored := persisted.any fun persisted => isPendingHealthReceiptValid persisted &&
    persisted.rollbackRequestedAt = .value now && persisted.rollbackIntentId = .value attempt.intentId &&
    persisted.receiptId = .value attempt.receiptId &&
    persisted.rollbackHandoffLeaseId = .value attempt.leaseId
  (if stored then refreshPendingUpdateHealth environment now else return)
  return stored

def recordRollbackHandoff (now : Int) : Action Digest Bool := do
  let memory ← consult id
  let receipt ← pendingHealthReceipt
  match memory.installIntent, receipt with
  | some intent, some receipt =>
    match intent.kind with
    | .update _ => return false
    | .rollback attempt => do
      let bound ← receiptMatchesAcceptedPolicy receipt
      if !intent.consumed || !bound ||
          !handoffAllowed environment now memory.running intent attempt receipt then return false
      else storeRollbackHandoff environment now attempt receipt
  | _, _ => return false

def Receipt.heldBy (receipt : Receipt Digest) (attempt : Attempt) : Bool :=
  receipt.receiptId = .value attempt.receiptId && receipt.rollbackIntentId = .value attempt.intentId &&
    ((receipt.rollbackState = .value .leased && receipt.rollbackLeaseId = .value attempt.leaseId) ||
      (receipt.rollbackState = .value .confirmationPending &&
        receipt.rollbackHandoffLeaseId = .value attempt.leaseId))

def recordRollbackHandoffFailure (now : Int) (attempt : Attempt) (permanentValidationFailure : Bool) :
    Action Digest Unit := do
  let receipt ← pendingHealthReceipt
  match receipt with
  | none => return
  | some receipt =>
    if !isPendingHealthReceiptValid receipt || !receipt.heldBy attempt then return
    else
      setPendingHealthReceipt (receipt.failHandoff now permanentValidationFailure)
        (if receipt.isAutomatic then [.failed receipt.receiptId now] else [])

def recordIntentFailure (now : Int) : Action Digest Unit := do
  let memory ← consult id
  match memory.installIntent.map InstallIntent.kind with
  | some (.rollback attempt) => recordRollbackHandoffFailure now attempt false
  | _ => return

/-! ## The installer -/

def prepareSelfHostedInstallerHandoff (now : Int) : Action Digest Bool := do
  let memory ← consult id
  if memory.rollbackInstallAttempt then recordRollbackHandoff environment now
  else if policyGeneration memory.selectedReleasePolicy ≤ 0 then return true
  else recordInstallerHandoffReceipt now

def cancelPreparedSelfHostedInstallerHandoff (now : Int) : Action Digest Unit := do
  let memory ← consult id
  if memory.rollbackInstallAttempt then recordIntentFailure now
  else if policyGeneration memory.selectedReleasePolicy ≤ 0 then return
  else do
    let receipt ← pendingHealthReceipt
    if receipt.any fun receipt => receipt.targetVersion.get? = memory.version then
      clearPendingHealthReceipt
    else return

def releaseInstaller : Action Digest Unit :=
  remember fun memory =>
    { memory.cleared with selfHostedInstallInProgress := false, download := none }

def finishSelfHostedInstallerAttempt (now : Int) (prepared started : Bool) : Action Digest Unit := do
  let memory ← consult id
  (if started then
    if prepared then return
    else if memory.rollbackInstallAttempt then do
      let _ ← recordRollbackHandoff environment now
    else do
      let _ ← recordInstallerHandoffReceipt now
  else if prepared then cancelPreparedSelfHostedInstallerHandoff now
  else if memory.rollbackInstallAttempt then recordIntentFailure now
  else return)
  releaseInstaller

def policyExpired (now : Int) (memory : Memory Digest) : Bool :=
  !memory.rollbackInstallAttempt && 0 < policyGeneration memory.selectedReleasePolicy &&
    memory.selectedReleasePolicy.any fun policy => policy.expiresAt ≤ now

def reportLaunch (now : Int) (content : Bytes) : Action Digest Unit :=
  update fun world =>
    { world with log := world.log ++ [.launched
        ⟨content, world.memory.rollbackInstallAttempt,
          policyGeneration world.memory.selectedReleasePolicy, now, world.settings.receipt.stored⟩] }

def launchDownloadedArtifact (now : Int) (content : Bytes) (launched : Bool) : Action Digest Unit := do
  let memory ← consult id
  if policyExpired now memory then finishSelfHostedInstallerAttempt environment now false false
  else do
    let prepared ← prepareSelfHostedInstallerHandoff environment now
    if prepared then do
      reportLaunch now content
      finishSelfHostedInstallerAttempt environment now true launched
    else finishSelfHostedInstallerAttempt environment now false false

structure Downloaded where
  fetched : Bool
  url : String
  content : Bytes
  committed : Bool
  launched : Bool

def contentVerified (downloaded : Downloaded) (artifact : Artifact Digest) : Bool :=
  environment.samePinnedUrl artifact.url downloaded.url &&
    artifact.sha256 = some (environment.sha256 downloaded.content) &&
    (artifact.size < 0 || artifact.size = downloaded.content.length)

def downloadFinished (now : Int) (downloaded : Downloaded) : Action Digest Unit := do
  let memory ← consult id
  if memory.download.isNone then return
  else if downloaded.fetched && downloaded.committed &&
      memory.selectedArtifact.any (contentVerified environment downloaded) then
    launchDownloadedArtifact environment now downloaded.content downloaded.launched
  else finishSelfHostedInstallerAttempt environment now false false

def beginDownload (url : Option String) : Action Digest Unit :=
  update fun world =>
    { world with
      memory := { world.memory with download := url }
      log := world.log ++ [.downloading
        (if world.memory.rollbackInstallAttempt then world.settings.receipt.read else none)] }

-- `staged` is whether the staging file could be opened.
def startArtifactDownload (now : Int) (staged : Bool) : Action Digest Bool := do
  let memory ← consult id
  let url := (memory.selectedArtifact.map Artifact.url).getD ""
  if staged && url ≠ "" then do
    beginDownload (some url)
    return true
  else do
    beginDownload none
    finishSelfHostedInstallerAttempt environment now false false
    return false

def openArtifactExternally (now : Int) (opened : Bool) : Action Digest Bool := do
  let prepared ← prepareSelfHostedInstallerHandoff environment now
  let memory ← consult id
  let started := prepared && opened &&
    memory.selectedArtifact.any fun artifact => environment.isAllowedExternalUpdateUrl artifact.url
  finishSelfHostedInstallerAttempt environment now prepared started
  return started

def Memory.consumed (memory : Memory Digest) : Memory Digest :=
  { memory with
    installIntent := memory.installIntent.map fun intent => { intent with consumed := true }
    selfHostedInstallInProgress := true }

structure Platform where
  staged : Bool
  opened : Bool

def runInstaller (now : Int) (platform : Platform) : Action Digest Bool := do
  let memory ← consult id
  if !memory.useSelfHostedArtifact || memory.selfHostedInstallInProgress then return false
  else do
    let current ← installIntentMatchesSelection
    if memory.installIntent.any (·.consumed) || !current || policyExpired now memory then do
      clearInstallSelection
      return false
    else do
      remember Memory.consumed
      if memory.selectedArtifact.any (·.openExternally) then
        openArtifactExternally environment now platform.opened
      else startArtifactDownload environment now platform.staged

/-! ## Rollbacks -/

def takeRollbackSelection (receipt : Receipt Digest) (artifact : Artifact Digest) (attempt : Attempt) :
    Action Digest Unit :=
  remember fun memory =>
    { memory with
      selectedArtifact := some artifact
      version := receipt.rollback.version.get?
      useSelfHostedArtifact := true
      rollbackInstallAttempt := true
      installIntent := some (rollbackIntent receipt artifact attempt) }

def installRollback (now : Int) (platform : Platform) (receipt : Receipt Digest)
    (artifact : Artifact Digest) (attempt : Attempt) : Action Digest Unit := do
  takeRollbackSelection receipt artifact attempt
  let started ← runInstaller environment now platform
  if started then return
  else do
    recordRollbackHandoffFailure now attempt false
    let memory ← consult id
    if memory.rollbackInstallAttempt then clearInstallSelection else return

def runPendingRollbackWithIntent (now : Int) (platform : Platform) (attempt : Attempt) :
    Action Digest Unit := do
  let memory ← consult id
  let receipt ← pendingHealthReceipt
  match receipt with
  | none => return
  | some receipt =>
    if !receipt.leasedBy attempt then return
    else if !isPendingHealthReceiptValid receipt || receipt.rollbackLeaseExpiresAt.get?.any (· ≤ now) then
      refreshPendingUpdateHealth environment now
    else do
      let bound ← receiptMatchesAcceptedPolicy receipt
      match rollbackArtifactFromReceipt environment receipt with
      | none => recordRollbackHandoffFailure now attempt true
      | some artifact =>
        if !bound || receipt.targetVersion ≠ .value memory.running || artifact.openExternally then
          recordRollbackHandoffFailure now attempt true
        else installRollback environment now platform receipt artifact attempt

-- `getRollbackActionMetadata`
def rollbackAvailable (now : Int) (memory : Memory Digest) (receipt : Receipt Digest) : Bool :=
  receipt.rollbackState ≠ .value .leased && isPendingHealthReceiptValid receipt &&
    (rollbackArtifactFromReceipt environment receipt).isSome &&
    receipt.rollback.version ≠ .value memory.running && receipt.targetVersion = .value memory.running &&
    !receipt.rollbackRequestedAt.contains && !memory.selfHostedInstallInProgress &&
    (receipt.deadlineAt.get?.any (· ≤ now) || receipt.healthState = .value .failed)

def runPendingRollback (now : Int) (platform : Platform) : Action Digest Unit := do
  let memory ← consult id
  let receipt ← pendingHealthReceipt
  match receipt with
  | none => return
  | some receipt => do
    let bound ← receiptMatchesAcceptedPolicy receipt
    if !bound || !rollbackAvailable environment now memory receipt then return
    else do
      let attempt ← claimRollbackIntent environment now .manual
      match attempt with
      | none => return
      | some attempt => do
        report (.running attempt)
        runPendingRollbackWithIntent environment now platform attempt

def dequeue (attempt : Attempt) : Action Digest Unit :=
  update fun world =>
    { world with
      memory := { world.memory with queue := world.memory.queue.erase attempt }
      log := world.log ++ [.running attempt] }

def runQueued (now : Int) (platform : Platform) (attempt : Attempt) : Action Digest Unit := do
  let memory ← consult id
  if attempt ∈ memory.queue then do
    dequeue attempt
    runPendingRollbackWithIntent environment now platform attempt
  else return

/-! ## Manifests -/

inductive ManifestProcessResult where
  | invalid
  | stale
  | noUpdate
  | updateAvailable
  deriving DecidableEq, Repr

structure Selection (Digest : Type) where
  version : Version
  artifact : Artifact Digest
  policy : Option (ReleasePolicy Digest)

def accept (payload : Bytes) (generation : Int) : Action Digest Unit :=
  update fun world =>
    { world with
      memory := { world.memory with highestObservedPolicyGeneration := generation }
      log := world.log ++ [.accepted payload] }

def advancePolicyGeneration (payload : Bytes) (generation : Int) :
    Action Digest GenerationBindingDisposition := do
  setLastAcceptedPolicy generation (environment.sha256 payload)
  let storedGeneration ← lastAcceptedPolicyGeneration
  let storedSha256 ← lastAcceptedPolicyPayloadSha256
  if storedGeneration = generation && storedSha256 = some (environment.sha256 payload) then do
    accept payload generation
    return .acceptAdvance
  else return .invalidCandidate

def acceptPolicyGeneration (payload : Bytes) (generation : Int) :
    Action Digest GenerationBindingDisposition := do
  let highest ← consult (·.highestObservedPolicyGeneration)
  let persistedGeneration ← lastAcceptedPolicyGeneration
  let persistedSha256 ← lastAcceptedPolicyPayloadSha256
  match evaluateGenerationBinding generation (environment.sha256 payload) highest persistedGeneration
      persistedSha256 with
  | .acceptExisting => do
    accept payload (max highest persistedGeneration)
    return .acceptExisting
  | .acceptAdvance => advancePolicyGeneration environment payload generation
  | refused => return refused

def examineRelease (manifestUrl : String) (running : Version) (document : Document Digest)
    (version : Version) (policy : Option (ReleasePolicy Digest)) :
    Except ManifestProcessResult (Selection Digest) :=
  if !payloadHasPlatformCandidate environment document.platforms then .error .noUpdate
  else
    match selectSelfHostedArtifact environment manifestUrl (document.platforms.getD []) with
    | none => .error .invalid
    | some artifact =>
      if versionBefore running version then .ok ⟨version, artifact, policy⟩ else .error .noUpdate

def examinePolicy (manifestUrl : String) (running : Version) (payload : Bytes) (document : Document Digest)
    (version : Version) (result : ReleasePolicyResult) (policy : ReleasePolicy Digest) :
    Action Digest (Except ManifestProcessResult (Selection Digest)) := do
  let disposition ← acceptPolicyGeneration environment payload policy.generation
  match disposition with
  | .stale | .missingPayloadBinding | .conflictingPayload => return .error .stale
  | .invalidCandidate => return .error .invalid
  | .acceptExisting | .acceptAdvance =>
    if result = .ineligible then return .error .noUpdate
    else return examineRelease environment manifestUrl running document version (some policy)

def examineDocument (now : Int) (manifestUrl : String) (payload : Bytes) (document : Document Digest) :
    Action Digest (Except ManifestProcessResult (Selection Digest)) := do
  let memory ← consult id
  let persistedGeneration ← lastAcceptedPolicyGeneration
  let generationFloor := max memory.highestObservedPolicyGeneration persistedGeneration
  match document.version with
  | none => return .error .invalid
  | some version =>
    if document.schema = 1 then
      if 0 < generationFloor || document.releasePolicy.contains then return .error .invalid
      else do
        report (.accepted payload)
        return examineRelease environment manifestUrl memory.running document version none
    else if document.schema = 2 then
      match document.releasePolicy.get? with
      | none => return .error .invalid
      | some policyDocument =>
        match evaluateReleasePolicy environment manifestUrl policyDocument version memory.running
            generationFloor now with
        | (.invalid, _) | (_, none) => return .error .invalid
        | (.stale, _) => return .error .stale
        | (result, some policy) =>
          examinePolicy environment manifestUrl memory.running payload document version result policy
    else return .error .invalid

def examineManifest (now : Int) (manifestUrl : String) (payload : Option Bytes) :
    Action Digest (Except ManifestProcessResult (Selection Digest)) :=
  match payload with
  | none => return .error .invalid
  | some payload => do
    report (.verified payload)
    match environment.decode payload with
    | none => return .error .invalid
    | some document => examineDocument environment now manifestUrl payload document

def selectUpdate (selection : Selection Digest) : Action Digest Unit := do
  remember fun memory =>
    { memory with
      version := some selection.version
      selectedArtifact := some selection.artifact
      useSelfHostedArtifact := true
      selectedReleasePolicy := selection.policy }
  let id ← createUuid
  let acceptedPayloadSha256 ← lastAcceptedPolicyPayloadSha256
  remember fun memory =>
    { memory with
      installIntent := some (updateIntent id memory selection.artifact acceptedPayloadSha256) }

def processSelfHostedManifest (now : Int) (manifestUrl : String) (payload : Option Bytes) :
    Action Digest ManifestProcessResult := do
  let examined ← examineManifest environment now manifestUrl payload
  match examined with
  | .error result => return result
  | .ok selection => do
    selectUpdate selection
    return .updateAvailable

/-! ## Update checks -/

def checkForUpdates : Action Digest Unit := do
  let memory ← consult id
  if memory.updateCheckRunning || memory.selfHostedInstallInProgress then return
  else remember fun memory => { memory.cleared with updateCheckRunning := true }

def finishUpdateCheck : Action Digest Unit :=
  remember fun memory => { memory with updateCheckRunning := false }

-- `another` is whether there is a further manifest URL.
def manifestReply (now : Int) (manifestUrl : String) (payload : Option Bytes) (another : Bool) :
    Action Digest Unit := do
  let memory ← consult id
  if !memory.updateCheckRunning then return
  else do
    let result ← processSelfHostedManifest environment now manifestUrl payload
    if (result = .invalid || result = .stale) && another then return else finishUpdateCheck

/-! ## The program -/

def start (now : Int) (version : Version) : Action Digest Unit := do
  update fun world =>
    { world with
      live := true
      memory :=
        { running := version
          highestObservedPolicyGeneration := max 0 (world.settings.generation.read.getD 0) } }
  refreshPendingUpdateHealth environment now

inductive Request where
  | start (version : Version)
  | quit
  | check
  | reply (manifestUrl : String) (payload : Option Bytes) (another : Bool)
  | checkEnds
  | install (platform : Platform)
  | rollback (platform : Platform)
  | queued (platform : Platform) (attempt : Attempt)
  | downloaded (downloaded : Downloaded)
  | refresh
  | retry (receiptId : Nat) (failureCount retryAt : Int)
  | confirm
  | fail
  | clear

def handle (now : Int) : Request → Action Digest Unit
  | .start _ => return
  | .quit => update World.restarted
  | .check => checkForUpdates
  | .reply manifestUrl payload another => manifestReply environment now manifestUrl payload another
  | .checkEnds => finishUpdateCheck
  | .install platform => do
    let _ ← runInstaller environment now platform
  | .rollback platform => runPendingRollback environment now platform
  | .queued platform attempt => runQueued environment now platform attempt
  | .downloaded downloaded => downloadFinished environment now downloaded
  | .refresh => refreshPendingUpdateHealth environment now
  | .retry receiptId failureCount retryAt =>
    automaticRollbackRetry environment now receiptId failureCount retryAt
  | .confirm => confirmRunningVersionHealthy environment now
  | .fail => markRunningVersionUnhealthy environment now
  | .clear => clearSettings

def dispatch (now : Int) (request : Request) : Action Digest Unit := do
  let live ← read World.live
  if live then handle environment now request
  else
    match request with
    | .start version => start environment now version
    | _ => return

structure Label where
  now : Int
  request : Request

def program : Program (World Digest) Outcome Label where
  enter label := do
    update fun world => { world with clock := label.now }
    dispatch environment label.now label.request
  restart := World.restarted

end Amnezia.Updater
