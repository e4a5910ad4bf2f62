import Amnezia.Headless.UpdateManifest

/-! # The headless update manager -/

namespace Amnezia.Headless
open Lib Procedure

variable {Content : Type}

/-! ## Reading the state -/

def refuse (message : String) : Action Content Unit :=
  remember fun memory => { memory with
    stateValid := false
    lastState := .recoveryRequired
    lastError := message }

def demand (condition : Bool) (message : String) (next : Action Content Unit) : Action Content Unit :=
  if condition then next else refuse message

def validStates : List Code :=
  [.neverChecked, .disabled, .noUpdate, .noHeadlessArtifact, .unsupportedPayloadContract, .updateAvailable,
    .applied, .updated, .restartPending, .rollbackRestartPending, .rolledBack, .rollbackFailed,
    .recoveryRequired, .noRollback]

def Pair.all {α : Type} (check : α → Bool) (pair : Pair α) : Bool :=
  check pair.amneziad && check pair.amneziaCli

def validSize (size : Nat) : Bool := 1 ≤ size && (size : Int) ≤ maximumArtifactBytes

def Journal.ownsRollback (journal : Journal) : Bool :=
  journal.operation = .update && journal.phase ∈ [.prepared, .replaced, .restartPending]

variable (services : Services Content)

def verifyInstalled (hashes : Pair String) (sizes : Option (Pair Nat)) : Action Content Bool := do
  let first ← verifyManagedInstalledFile services .amneziad hashes.amneziad
    (sizes.map Pair.amneziad)
  if !first then return false
  else
    verifyManagedInstalledFile services .amneziaCli hashes.amneziaCli
      (sizes.map Pair.amneziaCli)

def directoryExists (directory : DirectoryName) : Action Content Bool :=
  look fun disk => (disk.directories.lookup directory).isSome

def settlePhase (journal : Journal) : Action Content Unit :=
  remember fun memory =>
    match journal.phase with
    | .acknowledged =>
      if memory.lastState ∈ [.restartPending, .rollbackRestartPending, .recoveryRequired] then
        { memory with
          stateValid := false
          lastState := .recoveryRequired
          lastError := "acknowledged transaction has an invalid final state" }
      else memory
    | .rollbackAcknowledged =>
      if memory.lastState = .rolledBack then memory
      else { memory with
        lastState := .recoveryRequired
        lastError := "headless update transaction requires recovery" }
    | .restartPending =>
      if memory.lastAppliedVersion ≠ "" ∧ memory.lastState ≠ .rollbackFailed then
        { memory with lastState := .restartPending }
      else { memory with
        lastState := .recoveryRequired
        lastError := "headless update transaction requires recovery" }
    | .rollbackRestartPending =>
      if memory.rollbackVersion ≠ "" ∧ memory.lastState ≠ .rollbackFailed then
        { memory with lastState := .rollbackRestartPending }
      else { memory with
        lastState := .recoveryRequired
        lastError := "headless update transaction requires recovery" }
    | .prepared | .replaced => { memory with
        lastState := .recoveryRequired
        lastError := "headless update transaction requires recovery" }

def checkPrevious (journal : Journal) (next : Action Content Unit) : Action Content Unit := do
  if journal.phase ≠ .rollbackRestartPending then next
  else
    match journal.previousDirectory with
    | none => refuse "rollback current-pair evidence is invalid"
    | some previous =>
      let present ← directoryExists previous
      let verified ← verifyPair services.toPlatform previous journal.previousHashes
      demand (present && verified) "rollback current-pair evidence is invalid" do
        remember fun memory => { memory with currentRollbackDirectory := some previous }
        let again ← verifyPair services.toPlatform previous journal.previousHashes
        demand (journal.previousHashes.any (Pair.all validSha256) && again)
          "rollback restart current-pair hash receipt is invalid" next

def takeRollbackFrom (journal : Journal) : Action Content Unit :=
  remember fun memory => { memory with
    rollbackDirectory := some journal.rollbackDirectory
    rollbackVersion := journal.currentVersion
    rollbackHashes := some journal.rollbackHashes
    lastAppliedVersion :=
      if journal.ownsRollback then journal.candidateVersion else memory.lastAppliedVersion }

def adoptRollback (journal : Journal) (next : Action Content Unit) : Action Content Unit := do
  let adopting ← consult fun memory => memory.rollbackDirectory.isNone || journal.ownsRollback
  let present ← directoryExists journal.rollbackDirectory
  demand present "headless transaction rollback path is outside the trusted update root" do
    demand (journal.rollbackHashes.all validSha256)
      "headless transaction journal rollback hash receipt is invalid" do
      (if adopting then takeRollbackFrom journal else return)
      let memory ← consult id
      demand (memory.rollbackDirectory = some journal.rollbackDirectory &&
          memory.rollbackVersion = journal.currentVersion &&
          memory.rollbackHashes = some journal.rollbackHashes)
        "headless rollback receipt is not bound to its transaction journal" do
        let verified ← verifyPair services.toPlatform journal.rollbackDirectory memory.rollbackHashes
        demand verified "headless transaction journal rollback evidence is unsafe" do
          let bound ← (if adopting && journal.phase ∉ [.rollbackRestartPending, .replaced, .prepared] then
            verifyInstalled services journal.candidateHashes none else pure true)
          demand bound "headless journal is not bound to the installed binary pair" do
            demand (validVersion memory.rollbackVersion)
              "headless transaction journal has incomplete rollback evidence" next

def checkAcknowledged (journal : Journal) (next : Action Content Unit) : Action Content Unit := do
  let memory ← consult id
  if journal.phase = .acknowledged then
    demand (validVersion memory.lastAppliedVersion && memory.lastAppliedVersion = journal.candidateVersion &&
        memory.lastState ∈ [.updated, .disabled, .noUpdate, .noHeadlessArtifact, .rolledBack, .rollbackFailed])
      "acknowledged journal candidate does not match state" do
      let installed ← verifyInstalled services journal.candidateHashes (some journal.candidateSizes)
      demand installed "acknowledged journal current evidence is invalid" next
  else if journal.phase = .rollbackAcknowledged then
    demand (journal.operation = .rollback && memory.lastState = .rolledBack &&
        validVersion memory.lastAppliedVersion && memory.lastAppliedVersion = journal.candidateVersion &&
        journal.candidateVersion = journal.currentVersion)
      "rollback acknowledgement does not match state" do
      let installed ← verifyInstalled services journal.candidateHashes (some journal.candidateSizes)
      demand installed "rollback acknowledgement current evidence is invalid" next
  else next

def checkIdentity (journal : Journal) (next : Action Content Unit) : Action Content Unit := do
  let lastAppliedVersion ← consult Memory.lastAppliedVersion
  let present ← directoryExists journal.transactionDirectory
  demand (present && validVersion journal.candidateVersion && validVersion journal.currentVersion &&
      (lastAppliedVersion = "" || journal.phase ≠ .restartPending || journal.ownsRollback ||
        lastAppliedVersion = journal.candidateVersion))
    "headless transaction journal identity is invalid" <|
    demand (!(journal.phase ∈ [.rollbackRestartPending, .rollbackAcknowledged]) ||
        journal.operation = .rollback)
      "headless rollback journal has no rollback operation identity" <|
      demand (match journal.operation with
          | .update => newerVersion journal.candidateVersion journal.currentVersion
          | .rollback => journal.candidateVersion = journal.currentVersion)
        "headless transaction journal is a replay or downgrade" <|
        demand (journal.candidateHashes.all validSha256 && journal.candidateSizes.all validSize)
          "headless transaction journal hash or size receipt is invalid" next

def loadJournal : Action Content Unit := do
  match ← inspect Disk.journal with
  | none => remember fun memory => { memory with stateValid := false, lastState := .recoveryRequired }
  | some journal =>
    checkIdentity journal <| checkAcknowledged services journal <| adoptRollback services journal <|
      checkPrevious services journal <| settlePhase journal

def resumeTransaction (receipt : StateFile) : Action Content Unit := do
  let journalExists ← look fun disk => disk.journal.isSome
  if journalExists then loadJournal services
  else if receipt.state ∈ [.restartPending, .rollbackRestartPending] then
    remember fun memory => { memory with
      lastState := .recoveryRequired
      lastError := "pending headless transaction has no journal" }

def checkRollback (receipt : StateFile) (next : Action Content Unit) : Action Content Unit := do
  match receipt.rollbackDirectory with
  | none =>
    demand (receipt.rollbackVersion = "" && receipt.rollbackHashes = none)
      "headless rollback receipt has incomplete identity" next
  | some rollback =>
    let present ← directoryExists rollback
    demand present "headless rollback receipt directory is missing" do
      demand (validVersion receipt.rollbackVersion)
        "headless rollback receipt is outside the trusted update root" do
        demand receipt.rollbackHashes.isSome "headless rollback receipt is incomplete" do
          let verified ← verifyPair services.toPlatform rollback receipt.rollbackHashes
          demand verified "headless rollback receipt binary is missing or unverifiable" next

def loadReceipt (receipt : StateFile) : Action Content Unit := do
  remember fun memory => { memory with
    lastAppliedVersion := receipt.lastAppliedVersion, lastState := receipt.state }
  demand (receipt.state ∈ validStates) "headless update state contains an unknown state" do
    remember fun memory => { memory with
      rollbackDirectory := receipt.rollbackDirectory
      rollbackVersion := receipt.rollbackVersion
      rollbackHashes := receipt.rollbackHashes
      lastError := receipt.lastError }
    demand (receipt.rollbackHashes.all (Pair.all validSha256))
      "headless rollback hash receipt is invalid" do
      checkRollback services receipt do
        demand (receipt.lastAppliedVersion = "" || validVersion receipt.lastAppliedVersion)
          "headless update receipt contains an invalid applied version" do
          demand (!(receipt.state ∈ [.applied, .updated, .rolledBack]) || receipt.lastAppliedVersion ≠ "")
            "completed headless update receipt has no applied version" do
            resumeTransaction services receipt

def loadState : Action Content Unit := do
  let stateExists ← look fun disk => disk.state.isSome
  if !stateExists then
    let journalExists ← look fun disk => disk.journal.isSome
    if journalExists then refuse "headless transaction journal exists without a state receipt"
  else
    match ← inspect Disk.state with
    | none => remember invalid
    | some receipt => loadReceipt services receipt

def loadRollbackReceipt : Action Content Bool := do
  let receiptExists ← look fun disk => disk.rollbackReceipt.isSome
  if !receiptExists then return true
  else
    match ← inspect Disk.rollbackReceipt with
    | none => return false
    | some receipt =>
      let present ← directoryExists receipt.rollbackDirectory
      let memory ← consult id
      if !present ∨ !validVersion receipt.rollbackVersion ∨
          memory.rollbackDirectory ≠ some receipt.rollbackDirectory ∨
          memory.rollbackVersion ≠ receipt.rollbackVersion ∨
          memory.rollbackHashes ≠ some receipt.rollbackHashes ∨
          !receipt.rollbackHashes.all validSha256 then return false
      else verifyPair services.toPlatform receipt.rollbackDirectory (some receipt.rollbackHashes)

def secureStorage : Action Content Unit := do
  let secured ← synchronize
  if secured then return else refuse "headless update directory cannot be created"

def confirmRollbackReceipt : Action Content Unit := do
  let memory ← consult id
  if !memory.stateValid ∨ memory.lastState = .unsupportedPayloadContract then return
  else if memory.rollbackDirectory.isSome then
    let loaded ← loadRollbackReceipt services
    if loaded then return else refuse "headless rollback receipt is invalid"
  else
    let receiptExists ← look fun disk => disk.rollbackReceipt.isSome
    if !receiptExists then return
    else
      let _ ← attempt fun disk => { disk with rollbackReceipt := none }
      return

def initializeState : Action Content Unit := do
  secureStorage
  loadState services
  collectGarbage
  remember fun memory =>
    if !memory.stateValid ∧ memory.lastError = "" then { memory with
      lastState := .recoveryRequired
      lastError := "headless update storage is not secure" }
    else memory
  confirmRollbackReceipt services

/-! ## Results -/

structure Result where
  ok : Bool
  code : Code
  message : String
  deriving DecidableEq

def cleanupRetryable (code : Code) : Action Content Bool := do
  let lastState ← consult Memory.lastState
  let journalExists ← look fun disk => disk.journal.isSome
  if code = .recoveryRequired ∧ stableUpdateState lastState ∧ journalExists then
    let journal ← inspect Disk.journal
    return journal.any fun journal => journal.phase.isAcknowledged
  else return false

def noteFailure (code : Code) (message : String) : Action Content Unit := do
  let retryable ← cleanupRetryable code
  if retryable then
    remember (withError message)
    saveOrInvalidate
  else if code = .recoveryRequired then
    remember fun memory => { memory with lastState := code, stateValid := false }
  else if code = .rollbackFailed ∨ code = .noRollback then
    remember fun memory => { memory with lastState := code }
  else
    remember fun memory =>
      if stableUpdateState memory.lastState ∨ memory.lastState ∈
          [.rollbackFailed, .recoveryRequired, .restartPending, .rollbackRestartPending] then memory
      else { memory with lastState := .neverChecked }

def invalidateUnless (saved : Bool) : Action Content Unit :=
  if saved then return
  else remember fun memory => { memory with stateValid := false, lastState := .recoveryRequired }

def failure (code : Code) (message : String) : Action Content Result := do
  noteFailure code message
  remember (withError message)
  if code = .unsupportedPayloadContract then return ⟨false, code, message⟩
  else
    let saved ← saveState
    invalidateUnless (saved || code = .updateInProgress)
    return ⟨false, code, message⟩

def writeRollbackReceipt : Action Content (Except String Unit) := do
  let memory ← consult id
  match memory.rollbackDirectory, memory.rollbackHashes with
  | some directory, some hashes =>
    if !validVersion memory.rollbackVersion then return .error "rollback receipt is incomplete"
    else
      let written ← commit fun disk => { disk with
        rollbackReceipt := some ⟨directory, memory.rollbackVersion, hashes⟩ }
      if written then return .ok () else return .error "rollback receipt cannot be persisted"
  | _, _ => return .error "rollback receipt is incomplete"

/-! ## Acknowledging a restart

A stage of a call lets it go on, or ends it with a result. -/

def stopWith (code : Code) (message : String) : Action Content (Except Result Unit) := do
  let result ← failure code message
  return .error result

def retireOrStop (fallback : String) : Action Content (Except Result Unit) := do
  match ← retireAcknowledgedJournal with
  | .ok () => return .ok ()
  | .error message => stopWith .recoveryRequired (orElse message fallback)

def acknowledgeUpdate : Action Content (Except Result Unit) := do
  remember fun memory => { memory with lastState := .updated }
  match ← inspect Disk.journal with
  | none =>
    stopWith .recoveryRequired "headless update acknowledgement journal is missing or invalid"
  | some journal =>
    let installed ← verifyInstalled services journal.candidateHashes (some journal.candidateSizes)
    if !journal.candidateSizes.all validSize ∨ !installed then
      stopWith .recoveryRequired "installed headless binary does not match the acknowledged candidate"
    else
      match ← writeJournal { journal with phase := .acknowledged } with
      | .error _ =>
        stopWith .recoveryRequired "headless update health acknowledgement could not be persisted"
      | .ok () =>
        let saved ← saveState
        if !saved then
          stopWith .recoveryRequired "headless update acknowledgement state could not be persisted"
        else
          match ← writeRollbackReceipt with
          | .error message =>
            stopWith .recoveryRequired
              (orElse message "headless rollback receipt could not be persisted")
          | .ok () =>
            retireOrStop "headless update acknowledgement evidence could not be retired"

def Journal.rolledBack (journal : Journal) (rollbackVersion : String) (hashes : Pair String)
    (sizes : Pair Nat) : Journal :=
  { journal with
    operation := .rollback
    phase := .rollbackAcknowledged
    candidateVersion := rollbackVersion
    currentVersion := rollbackVersion
    candidateHashes := hashes
    candidateSizes := sizes }

def recordRollback (journal : Option Journal) (rollbackVersion : String) (hashes : Option (Pair String)) :
    Action Content (Except Result Unit) := do
  match journal, hashes with
  | some journal, some hashes =>
    let sizes ← look fun disk => disk.installed.map services.size
    match ← writeJournal (journal.rolledBack rollbackVersion hashes sizes) with
    | .error message =>
      stopWith .recoveryRequired
        (orElse message "rollback acknowledgement journal could not be persisted")
    | .ok () => retireOrStop "rollback acknowledgement evidence could not be retired"
  | _, _ => stopWith .recoveryRequired "rollback acknowledgement journal is missing"

def acknowledgeRollback : Action Content (Except Result Unit) := do
  let memory ← consult id
  let installed ← verifyInstalled services
    ⟨hashOf memory.rollbackHashes .amneziad, hashOf memory.rollbackHashes .amneziaCli⟩ none
  if !installed then
    stopWith .recoveryRequired "rolled-back headless managed files failed post-restart health validation"
  else
    let journal ← inspect Disk.journal
    remember fun memory => { memory with lastState := .rolledBack, lastError := "" }
    let saved ← saveState
    if !saved then
      stopWith .recoveryRequired "rollback health acknowledgement state could not be persisted"
    else recordRollback services journal memory.rollbackVersion memory.rollbackHashes

/-! ## Checking for an update -/

-- The files as they are before the manifest is requested, and `filesAfter` once its reply is here.
structure Surroundings (Content : Type) where
  files : String → KeyFile
  filesAfter : String → KeyFile
  manifest : Reply Bytes
  manifestTooLarge : Bool
  artifact : Reply Content

def admitCheck : Action Content (Except Result Unit) := do
  let memory ← consult id
  if memory.updateInProgress then
    stopWith .updateInProgress "a headless update transaction is already in progress"
  else if memory.lastState = .unsupportedPayloadContract then
    stopWith .unsupportedPayloadContract
      "headless update receipt uses the retired three-file payload contract; run manual provisioning recovery"
  else if !memory.stateValid ∨ !checkableUpdateState memory.lastState then
    stopWith .recoveryRequired (orElse memory.lastError
      "headless update state is not stable; pending evidence requires recovery")
  else
    let journalExists ← look fun disk => disk.journal.isSome
    if !journalExists then return .ok ()
    else
      let journal ← inspect Disk.journal
      let admitted := journal.any fun journal => journal.phase.isAcknowledged ||
        (memory.lastState = .restartPending && journal.phase = .restartPending) ||
        (memory.lastState = .rollbackRestartPending && journal.phase = .rollbackRestartPending)
      if admitted then return .ok ()
      else
        stopWith .recoveryRequired
          "headless update transaction is not acknowledged; explicit rollback is required"

-- The state at the start of the call decides; an acknowledgement never leaves the other state pending.
def acknowledge (currentVersion : String) : Action Content (Except Result Unit) := do
  let memory ← consult id
  if memory.lastState = .restartPending then
    if memory.lastAppliedVersion = "" ∨ currentVersion ≠ memory.lastAppliedVersion then
      stopWith .recoveryRequired
        "pending headless update version does not match the running binary"
    else acknowledgeUpdate services
  else if memory.lastState = .rollbackRestartPending then
    if memory.rollbackVersion = "" ∨ currentVersion ≠ memory.rollbackVersion then
      stopWith .recoveryRequired
        "pending headless rollback version does not match the running binary"
    else acknowledgeRollback services
  else return .ok ()

def finishCleanup : Action Content (Except Result Unit) := do
  let lastState ← consult Memory.lastState
  let journalExists ← look fun disk => disk.journal.isSome
  if stableUpdateState lastState ∧ journalExists then
    retireOrStop "headless transaction journal requires recovery"
  else return .ok ()

def saveAs (state : Code) (message : String) (result : Result) : Action Content Result := do
  remember fun memory => { memory with lastState := state }
  let saved ← saveState
  if saved then return result else failure .recoveryRequired message

def downloadAndInstall (candidate : Candidate) (currentVersion : String) (artifact : Reply Content)
    (transaction : DirectoryName) : Action Content (Except String Unit) := do
  match ← download services candidate artifact with
  | .error message => return .error message
  | .ok archive =>
    match ← extract services candidate archive transaction with
    | .error message => return .error message
    | .ok () => install services.toPlatform candidate.version transaction currentVersion

def discardTransaction (transaction : DirectoryName) : Action Content Unit := do
  let journalExists ← look fun disk => disk.journal.isSome
  if journalExists then return
  else
    let marked ← writeGcMarker [.directory transaction]
    if marked then collectGarbage else return

def startTransaction (candidate : Candidate) (currentVersion : String) (artifact : Reply Content) :
    Action Content (Except (Code × String) Unit) := do
  let secured ← synchronize
  if !secured then
    return .error (.updateStorageUnavailable, "headless update storage is unavailable")
  else
    let uuid ← createUuid
    let transaction : DirectoryName := ⟨.transaction, uuid⟩
    let made ← makeDirectory transaction
    if !made then
      return .error (.updateStorageUnavailable, "headless update staging directory cannot be created")
    else
      match ← downloadAndInstall services candidate currentVersion artifact transaction with
      | .ok () => return .ok ()
      | .error message =>
        discardTransaction transaction
        let lastState ← consult Memory.lastState
        let code : Code := if lastState = .recoveryRequired then .recoveryRequired
          else if "update_runtime_incompatible:".isPrefixOf message then .updateRuntimeIncompatible
          else .updateInstallFailed
        return .error (code, orElse message "headless update installation failed")

def applyCandidate (candidate : Candidate) (currentVersion : String) (artifact : Reply Content) :
    Action Content Result := do
  if !candidate.autoInstall then
    saveAs .updateAvailable "headless update availability state could not be persisted"
      ⟨true, .updateAvailable, "a signed headless update is available"⟩
  else
    match ← startTransaction services candidate currentVersion artifact with
    | .error (code, message) => failure code message
    | .ok () =>
      remember fun memory =>
        if memory.lastState = .restartPending then memory
        else { memory with lastState := .applied, lastAppliedVersion := candidate.version }
      let lastState ← consult Memory.lastState
      let saved ← saveState
      if !saved then
        failure .recoveryRequired "headless update state could not be persisted after transaction"
      else return ⟨true, if lastState = .restartPending then .restartPending else .updated,
        "headless update transaction committed; restart health acknowledgement is pending"⟩

def handleManifest (profile : Profile) (currentVersion : String) (manifestUrl : Url) (anchor : TrustAnchor)
    (surroundings : Surroundings Content) : Action Content Result := do
  match parseManifest services surroundings.manifest.body manifestUrl profile anchor currentVersion with
  | .rejected code message =>
    remember (withError message)
    saveAs code "headless update state could not be persisted after parsing the manifest"
      ⟨false, code, message⟩
  | .nothing code message =>
    saveAs code "headless update state could not be persisted after parsing the manifest"
      ⟨true, code, message⟩
  | .available candidate => applyCandidate services candidate currentVersion surroundings.artifact

def requestManifest (profile : Profile) (currentVersion : String) (surroundings : Surroundings Content) :
    Action Content Result := do
  if !profile.autoUpdate ∨ profile.updateManifestUrl = "" ∨ profile.updatePublicKeyPath = "" then
    saveAs .disabled "headless disabled-update state could not be persisted"
      ⟨true, .disabled, "automatic updates are disabled"⟩
  else
    match verifyTrustedKey surroundings.files profile.updatePublicKeyPath with
    | .error message => failure .updateTrustInvalid message
    | .ok pinnedPublicKey =>
      let anchor := ⟨profile.updatePublicKeyPath, pinnedPublicKey, surroundings.filesAfter⟩
      let manifestUrl := services.parseUrl profile.updateManifestUrl
      let reply := surroundings.manifest
      if !safeUpdateUrl services profile manifestUrl then
        failure .updateTransportInvalid
          "automatic update manifest endpoint is not a pinned HTTPS or internal IPv4 HTTP URL"
      else if !reply.finished then
        failure .updateTimeout "headless update manifest request timed out"
      else if !samePinnedUrl manifestUrl reply.url then
        failure .updateRedirectRejected "headless update manifest final URL changed unexpectedly"
      else if reply.failed then
        failure .updateUnreachable "headless update manifest request failed"
      else if !reply.successful then
        failure .updateHttpError "headless update manifest returned an unexpected status"
      else if surroundings.manifestTooLarge ∨ reply.body = [] ∨
          reply.body.length > maximumManifestBytes then
        failure .updateManifestTooLarge "headless update manifest exceeds the byte limit"
      else handleManifest services profile currentVersion manifestUrl anchor surroundings

def checkAndApply (profile : Profile) (currentVersion : String) (surroundings : Surroundings Content) :
    Action Content Result := do
  match ← admitCheck with
  | .error result => return result
  | .ok () =>
    remember (withError "")
    match ← acknowledge services currentVersion with
    | .error result => return result
    | .ok () =>
      match ← finishCleanup with
      | .error result => return result
      | .ok () => requestManifest services profile currentVersion surroundings

/-! ## Rolling back -/

-- `unsaved` is what the state becomes when the failure cannot be saved.
def scheduleRestart (message : String) (unsaved : Code) : Action Content Result := do
  match ← restartService with
  | .ok () => return ⟨true, .rollbackRestartPending, message⟩
  | .error reason =>
    remember fun memory => { memory with lastState := .rollbackFailed, lastError := reason }
    let saved ← saveState
    (if saved then return
      else remember fun memory => { memory with stateValid := false, lastState := unsaved })
    return ⟨false, .rollbackFailed, "headless rollback service restart could not be scheduled"⟩

def retireBeforeRollback : Action Content (Except Result Unit) := do
  let journalExists ← look fun disk => disk.journal.isSome
  if !journalExists then return .ok ()
  else
    match ← inspect Disk.journal with
    | none => return .ok ()
    | some journal =>
      if !journal.phase.isAcknowledged then return .ok ()
      else
        match ← retireOrStop "headless acknowledgement cleanup requires recovery" with
        | .error result => return .error result
        | .ok () =>
          if journal.phase = .rollbackAcknowledged then
            return .error ⟨true, .noRollback, "headless acknowledged rollback cleanup completed"⟩
          else return .ok ()

def performRollback : Action Content Result := do
  let memory ← consult id
  if memory.rollbackDirectory = none then
    failure .noRollback "no verified headless rollback is available"
  else
    match ← restoreRollback services.toPlatform with
    | .error message =>
      let lastState ← consult Memory.lastState
      failure (if lastState = .recoveryRequired then .recoveryRequired else .rollbackFailed)
        (orElse message "headless rollback failed")
    | .ok () =>
      remember fun memory => { memory with
        lastState := .rollbackRestartPending, lastAppliedVersion := memory.rollbackVersion }
      let saved ← saveState
      if !saved then
        let message := "headless rollback state could not be persisted"
        remember fun memory => { memory with
          stateValid := false, lastState := .recoveryRequired, lastError := message }
        return ⟨false, .recoveryRequired, message⟩
      else
        scheduleRestart "headless rollback installed; restart health acknowledgement is pending"
          .recoveryRequired

def rollback : Action Content Result := do
  let memory ← consult id
  if memory.updateInProgress then
    failure .updateInProgress "a headless update transaction is already in progress"
  else if !memory.stateValid then
    return ⟨false, .recoveryRequired, orElse memory.lastError
      "headless update state is invalid; manual recovery is required"⟩
  else if memory.lastState = .unsupportedPayloadContract then
    failure .unsupportedPayloadContract
      "headless rollback receipt uses the retired three-file payload contract; run manual provisioning recovery"
  else
    match ← retireBeforeRollback with
    | .error result => return result
    | .ok () =>
      let memory ← consult id
      if memory.lastState = .recoveryRequired ∧ (memory.rollbackDirectory = none ∨
          !validVersion memory.rollbackVersion ∨ memory.rollbackHashes = none) then
        failure .recoveryRequired "headless update state is invalid; manual recovery is required"
      else
        remember (withError "")
        if memory.lastState = .rollbackRestartPending then
          let installed ← verifyInstalled services
            ⟨hashOf memory.rollbackHashes .amneziad, hashOf memory.rollbackHashes .amneziaCli⟩ none
          if installed then
            scheduleRestart "headless rollback restart was scheduled again" .rollbackFailed
          else performRollback services
        else performRollback services

-- The coordinator has stopped the service and checked which version is installed; the manager is a new one.
def acknowledgeStoppedRollback (verifiedTargetVersion : String) (surroundings : Surroundings Content) :
    Action Content Result := do
  if !validVersion verifiedTargetVersion then
    return ⟨false, .rollbackCoordinatorStorageInvalid,
      "rollback coordinator requires existing protected update storage"⟩
  else
    remember fun _ => {}
    initializeState services
    let memory ← consult id
    if !memory.stateValid ∨ memory.lastState ≠ .rollbackRestartPending ∨
        memory.rollbackVersion ≠ verifiedTargetVersion then
      return ⟨false, .rollbackCoordinatorPendingMismatch,
        "a matching genuine pending rollback is required"⟩
    else checkAndApply services ⟨false, "", "", []⟩ verifiedTargetVersion surroundings

end Amnezia.Headless
