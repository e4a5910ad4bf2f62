import Amnezia.Headless.UpdateStorage

/-! # The transactions of the headless updater -/

namespace Amnezia.Headless
open Lib Procedure

variable {Content α : Type}

structure Platform (Content : Type) extends Hashing Content where
  runsHere : Pair Content → String → Bool

instance : CoeOut (Platform Content) (Hashing Content) := ⟨Platform.toHashing⟩

variable (platform : Platform Content)

def orElse (message fallback : String) : String := if message = "" then fallback else message

def forManaged (step : ManagedFile → Action Content (Except String α)) :
    Action Content (Except String (Pair α)) := do
  match ← step .amneziad with
  | .error message => return .error message
  | .ok first =>
    match ← step .amneziaCli with
    | .error message => return .error message
    | .ok second => return .ok ⟨first, second⟩

def passAll : List String → Action Content (Option String)
  | [] => return none
  | message :: rest => do
      let passed ← synchronize
      if !passed then return some message else passAll rest

structure Replacement where
  error : Option String
  destinationRemoved : Bool

def renameOnto (name : ManagedFile) (content : Content) : Action Content Replacement :=
  perform fun world outcome =>
    let renamed := { world with
      disk := { world.disk with installed := world.disk.installed.set name content }
      renames := (name, content) :: world.renames }
    match outcome with
    | .done => (renamed, ⟨none, true⟩)
    | .failed => (world, ⟨some "headless update binary cannot be atomically replaced", false⟩)
    | .unsynced => (renamed, ⟨some "headless update destination cannot be durably synced", true⟩)

-- The source has been read as `content`; the copy beside the destination is hashed again, synced and
-- given its permissions before the rename.
def atomicReplace (content : Content) (name : ManagedFile) (expectedSha256 : String)
    (expectedSize : Option Nat) : Action Content Replacement := do
  let readable ← synchronize
  if !readable ∨ (expectedSha256 ≠ "" ∧
      (!validSha256 expectedSha256 ∨ platform.sha256 content ≠ expectedSha256)) ∨
      !expectedSize.all (· = platform.size content) then
    return ⟨some "headless update source failed expected hash or size verification", false⟩
  else
    match ← passAll ["headless update binary cannot be copied into place",
        "headless update private staging file failed expected hash or size verification",
        "headless update staging copy cannot be durably synced",
        "headless update temporary permissions cannot be restricted"] with
    | some message => return ⟨some message, false⟩
    | none => renameOnto name content

def stageCopy (directory : DirectoryName) (name : ManagedFile) : Action Content (Option Content) :=
  inspect fun disk => disk.file directory name

def restoreFromRollback (directory : DirectoryName) (hashes : Pair String) (name : ManagedFile) :
    Action Content Bool := do
  let verified ← verifyRollbackFile platform directory name (hashes.get name)
  if !verified then return false
  else
    match ← stageCopy directory name with
    | none => return false
    | some content =>
      if platform.sha256 content ≠ hashes.get name then return false
      else
        let replacement ← atomicReplace platform content name (hashes.get name)
          (some (platform.size content))
        return replacement.error.isNone

def saveOrInvalidate : Action Content Unit := do
  let saved ← saveState
  if !saved then remember fun memory => { memory with stateValid := false }

def requireRecovery (change : Memory → Memory) (message : String) : Action Content (Except String Unit) := do
  remember fun memory => { change memory with lastState := .recoveryRequired }
  saveOrInvalidate
  return .error message

def withError (message : String) (memory : Memory) : Memory := { memory with lastError := message }

def invalid (memory : Memory) : Memory := { memory with stateValid := false }

structure BackedUp where
  candidateHash : String
  candidateSize : Nat
  rollbackHash : String

def backUpManaged (transaction rollback : DirectoryName) (name : ManagedFile) :
    Action Content (Except String BackedUp) := do
  let candidate ← look fun disk => disk.file transaction name
  let candidateHash ← sha256ForFile platform transaction name
  if candidateHash = "" then return .error "headless candidate binary hash cannot be recorded"
  else
    let copied ← commit fun disk => disk.setFile rollback name (some (disk.installed.get name))
    if !copied then return .error "existing headless binary cannot be backed up"
    else
      let rollbackHash ← sha256ForFile platform rollback name
      if rollbackHash = "" then return .error "existing headless binary hash cannot be recorded"
      else return .ok ⟨candidateHash, (candidate.map platform.size).getD 0, rollbackHash⟩

def discardRollbackStaging (rollback : DirectoryName) : Action Content Unit := do
  let present ← look fun disk => (disk.directories.lookup rollback).isSome
  if !present then return
  else
    let marked ← writeGcMarker [.directory rollback]
    if marked then collectGarbage else return

def restoreReplaced (rollback : DirectoryName) (hashes : Pair String) :
    List ManagedFile → Action Content Bool
  | [] => return true
  | name :: rest => do
      let restored ← restoreFromRollback platform rollback hashes name
      if !restored then return false else restoreReplaced rollback hashes rest

def replaceManaged (transaction rollback : DirectoryName) (journal : Journal) (replaced : List ManagedFile) :
    List ManagedFile → Action Content (Except String Unit)
  | [] => return .ok ()
  | name :: rest => do
      let source ← inspect fun disk => disk.file transaction name
      match source.filter fun content => platform.sha256 content = journal.candidateHashes.get name &&
          platform.size content = journal.candidateSizes.get name with
      | none => requireRecovery invalid "headless candidate changed before replacement"
      | some content =>
        let replacement ← atomicReplace platform content name (journal.candidateHashes.get name)
          (some (journal.candidateSizes.get name))
        match replacement.error with
        | none => replaceManaged transaction rollback journal (replaced ++ [name]) rest
        | some message =>
          let undo := if replacement.destinationRemoved then replaced ++ [name] else replaced
          let restored ← restoreReplaced platform rollback journal.rollbackHashes undo
          if restored then return .error message
          else
            let both := "headless update failed and rollback also failed; recovery is required"
            requireRecovery (withError both) both

def restartService : Action Content (Except String Unit) := do
  match ← passAll ["systemd-run/systemctl is not installed for headless update restart",
      "headless service daemon-reload failed", "headless service restart failed"] with
  | some message => return .error message
  | none => return .ok ()

def publishInstall (journal : Journal) : Action Content (Except String Unit) := do
  match ← writeJournal { journal with phase := .replaced } with
  | .error _ =>
    requireRecovery id "headless update replacement receipt cannot be persisted; recovery is required"
  | .ok () =>
    remember fun memory => { memory with
      rollbackDirectory := some journal.rollbackDirectory
      rollbackVersion := journal.currentVersion }
    let receiptSaved ← saveState
    if !receiptSaved then
      requireRecovery (withError "headless update receipt cannot be persisted")
        "headless update receipt cannot be persisted"
    else
      remember fun memory => { memory with
        lastAppliedVersion := journal.candidateVersion
        lastState := .restartPending }
      match ← writeJournal { journal with phase := .restartPending } with
      | .error message =>
        requireRecovery (invalid ∘ withError message)
          (orElse message "headless restart transaction journal could not be persisted")
      | .ok () =>
        let pendingSaved ← saveState
        if !pendingSaved then
          requireRecovery (withError "headless restart receipt cannot be persisted")
            "headless restart receipt cannot be persisted"
        else
          match ← restartService with
          | .ok () => return .ok ()
          | .error message =>
            remember fun memory => { memory with lastState := .rollbackFailed, lastError := message }
            let failureSaved ← saveState
            if !failureSaved then
              remember fun memory => { memory with stateValid := false, lastState := .recoveryRequired }
            return .error message

def Disk.pairIn (disk : Disk Content) (directory : DirectoryName) : Option (Pair Content) := do
  let amneziad ← disk.file directory .amneziad
  let amneziaCli ← disk.file directory .amneziaCli
  return ⟨amneziad, amneziaCli⟩

def takeUpCandidate (transaction : DirectoryName) : Action Content Unit :=
  update fun world => { world with pairs := (world.disk.pairIn transaction).toList ++ world.pairs }

def validateCandidateRuntime (transaction : DirectoryName) (version : String) : Action Content Bool := do
  let accepted ← inspect fun disk =>
    (disk.pairIn transaction).map fun pair => platform.runsHere pair version
  return accepted.getD false

def preparedJournal (candidateVersion currentVersion : String) (transaction rollback : DirectoryName)
    (backedUp : Pair BackedUp) : Journal where
  operation := .update
  phase := .prepared
  candidateVersion := candidateVersion
  currentVersion := currentVersion
  transactionDirectory := transaction
  rollbackDirectory := rollback
  rollbackHashes := backedUp.map BackedUp.rollbackHash
  candidateHashes := backedUp.map BackedUp.candidateHash
  candidateSizes := backedUp.map BackedUp.candidateSize
  previousDirectory := none
  previousHashes := none
  previousSizes := none

def replaceUnderJournal (journal : Journal) : Action Content (Except String Unit) := do
  match ← replaceManaged platform journal.transactionDirectory journal.rollbackDirectory journal []
      managedPayloadFiles with
  | .error message => return .error message
  | .ok () => publishInstall journal

def installOverBackup (candidateVersion currentVersion : String) (transaction rollback : DirectoryName) :
    Action Content (Except String Unit) := do
  match ← forManaged (backUpManaged platform transaction rollback) with
  | .error message =>
    discardRollbackStaging rollback
    return .error message
  | .ok backedUp =>
    let staged ← synchronize
    if !staged then
      discardRollbackStaging rollback
      return .error "rollback directory cannot be durably staged"
    else
      let journal := preparedJournal candidateVersion currentVersion transaction rollback backedUp
      match ← writeJournal journal with
      | .error message =>
        discardRollbackStaging rollback
        return .error message
      | .ok () =>
        remember fun memory => { memory with rollbackHashes := some journal.rollbackHashes }
        replaceUnderJournal platform journal

def install (candidateVersion : String) (transaction : DirectoryName) (currentVersion : String) :
    Action Content (Except String Unit) := do
  takeUpCandidate transaction
  let runs ← validateCandidateRuntime platform transaction candidateVersion
  if !runs then return .error "update_runtime_incompatible:"
  else
    let uuid ← createUuid
    let rollback : DirectoryName := ⟨.rollback, uuid⟩
    let made ← makeDirectory rollback
    if !made then return .error "headless rollback directory cannot be created"
    else installOverBackup platform candidateVersion currentVersion transaction rollback

def Memory.forgetRollback (memory : Memory) : Memory :=
  { memory with
    rollbackDirectory := none
    rollbackVersion := ""
    rollbackHashes := none
    currentRollbackDirectory := none }

def Journal.garbage (journal : Journal) : List Garbage :=
  if journal.phase = .rollbackAcknowledged then
    .directory journal.transactionDirectory :: .directory journal.rollbackDirectory ::
      (journal.previousDirectory.toList.map Garbage.directory ++ [.rollbackReceipt])
  else [.directory journal.transactionDirectory]

def forgetRolledBack (journal : Journal) : Action Content Unit :=
  if journal.phase = .rollbackAcknowledged then remember Memory.forgetRollback else return

def recreateJournal (journal : Journal) : Action Content (Except String Unit) := do
  match ← writeJournal journal with
  | .ok () =>
    return .error "headless acknowledgement journal unlink was not durable; evidence was retained"
  | .error message =>
    let present ← look fun disk => disk.journal.isSome
    if !present ∧ journal.phase = .rollbackAcknowledged then
      remember fun memory => { memory with
        rollbackDirectory := some journal.rollbackDirectory
        rollbackVersion := journal.currentVersion
        rollbackHashes := some journal.rollbackHashes }
      let _ ← saveState
      return .error (orElse message "headless acknowledgement journal could not be recreated")
    else return .error (orElse message "headless acknowledgement journal could not be recreated")

def retireAcknowledgedJournal : Action Content (Except String Unit) := do
  let journalExists ← look fun disk => disk.journal.isSome
  if !journalExists then return .ok ()
  else
    match ← inspect Disk.journal with
    | none => return .error "headless acknowledgement journal cannot be opened"
    | some journal =>
      if !journal.phase.isAcknowledged then
        return .error "headless transaction journal is not acknowledged"
      else if (journal.phase = .acknowledged ∧ journal.operation ≠ .update) ∨
          (journal.phase = .rollbackAcknowledged ∧ journal.operation ≠ .rollback) then
        return .error "headless acknowledgement journal operation is invalid"
      else
        let marked ← writeGcMarker journal.garbage
        if !marked then
          return .error "headless acknowledgement garbage-collection marker cannot be persisted"
        else
          forgetRolledBack journal
          let saved ← saveState
          if !saved then
            let message := "headless acknowledgement cleanup state could not be persisted"
            remember fun memory => { memory with
              stateValid := false
              lastState := .recoveryRequired
              lastError := message }
            return .error message
          else
            let removed ← attempt fun disk => { disk with journal := none }
            if !removed then
              return .error "headless acknowledgement journal cannot be retired safely"
            else
              let removalSynced ← synchronize
              if !removalSynced then recreateJournal journal
              else
                collectGarbage
                return .ok ()

def Disk.sizes (hashing : Hashing Content) (disk : Disk Content) (directory : DirectoryName) : Pair Nat :=
  ⟨((disk.file directory .amneziad).map hashing.size).getD 0,
    ((disk.file directory .amneziaCli).map hashing.size).getD 0⟩

def hashOf (hashes : Option (Pair String)) (name : ManagedFile) : String :=
  (hashes.map fun pair => pair.get name).getD ""

def verifyPair (directory : DirectoryName) (hashes : Option (Pair String)) : Action Content Bool := do
  let first ← verifyRollbackFile platform directory .amneziad (hashOf hashes .amneziad)
  if !first then return false
  else verifyRollbackFile platform directory .amneziaCli (hashOf hashes .amneziaCli)

def giveUp (message : String) : Action Content (Except String α) := do
  let _ ← requireRecovery (invalid ∘ withError message) message
  return .error message

def freshRollbackJournal (rollback : DirectoryName) (hashes : Pair String) :
    Action Content (Except String Journal) := do
  let memory ← consult id
  if !validVersion memory.rollbackVersion ∨ !validVersion memory.lastAppliedVersion ∨
      memory.lastState ∉ [.updated, .applied, .disabled, .noUpdate, .rollbackFailed, .recoveryRequired] then
    giveUp "rollback transaction journal is missing and state is not a completed update receipt"
  else
    let uuid ← createUuid
    let made ← makeDirectory ⟨.recoveryReceipt, uuid⟩
    if !made then return .error "rollback recovery receipt directory cannot be created"
    else
      let sizes ← look fun disk => disk.sizes platform rollback
      return .ok {
        operation := .rollback
        phase := .acknowledged
        candidateVersion := memory.rollbackVersion
        currentVersion := memory.rollbackVersion
        transactionDirectory := ⟨.recoveryReceipt, uuid⟩
        rollbackDirectory := rollback
        rollbackHashes := hashes
        candidateHashes := hashes
        candidateSizes := sizes
        previousDirectory := none
        previousHashes := none
        previousSizes := none }

def rollbackJournal (rollback : DirectoryName) (hashes : Pair String) :
    Action Content (Except String Journal) := do
  let journalExists ← look fun disk => disk.journal.isSome
  if !journalExists then freshRollbackJournal platform rollback hashes
  else
    match ← inspect Disk.journal with
    | none => giveUp "rollback transaction journal is corrupt"
    | some journal => return .ok journal

def cleanupCurrentStaging (directory : DirectoryName) : Action Content Unit := do
  let present ← look fun disk => (disk.directories.lookup directory).isSome
  if !present then return
  else
    let removed ← removeRecursively directory
    if removed then return
    else
      let _ ← writeGcMarker [.directory directory]
      return

structure CurrentPair where
  directory : DirectoryName
  hashes : Pair String
  sizes : Option (Pair Nat)

def backUpCurrent (directory : DirectoryName) (name : ManagedFile) : Action Content (Except String String) := do
  let copied ← commit fun disk => disk.setFile directory name (some (disk.installed.get name))
  if !copied then return .error "current headless binary pair cannot be backed up"
  else
    let digest ← sha256ForFile platform directory name
    return .ok digest

def stageCurrentPair : Action Content (Except String CurrentPair) := do
  let uuid ← createUuid
  let directory : DirectoryName := ⟨.rollbackCurrent, uuid⟩
  let made ← makeDirectory directory
  if !made then
    return .error "current headless binary pair cannot be staged for rollback recovery"
  else
    match ← forManaged (backUpCurrent platform directory) with
    | .error message =>
      cleanupCurrentStaging directory
      return .error message
    | .ok hashes =>
      let staged ← synchronize
      if !staged then
        cleanupCurrentStaging directory
        return .error "current headless binary pair cannot be durably staged"
      else
        let sizes ← look fun disk => disk.sizes platform directory
        return .ok ⟨directory, hashes, some sizes⟩

def resumeCurrentPair (journal : Journal) : Action Content (Except String CurrentPair) := do
  match journal.previousDirectory, journal.previousHashes with
  | some directory, some hashes =>
    let present ← look fun disk => (disk.directories.lookup directory).isSome
    if !present then
      return .error "rollback restart receipt has unsafe current-pair evidence"
    else
      let verified ← verifyPair platform directory (some hashes)
      if !verified then
        return .error "rollback evidence failed containment, ownership or SHA-256 verification"
      else return .ok ⟨directory, hashes, journal.previousSizes⟩
  | _, _ => return .error "rollback restart receipt has unsafe current-pair evidence"

def restoreCurrent (current : CurrentPair) : List ManagedFile → Action Content Bool
  | [] => return true
  | name :: rest => do
      let restored ← (do
        match ← stageCopy current.directory name with
        | none => return false
        | some content =>
          let replacement ← atomicReplace platform content name (current.hashes.get name)
            (current.sizes.map fun sizes => sizes.get name)
          return replacement.error.isNone)
      let others ← restoreCurrent current rest
      return restored && others

def undoRollback (journal : Journal) (current : CurrentPair) (replaced : List ManagedFile)
    (message recovery : String) : Action Content (Except String Unit) := do
  let restored ← restoreCurrent platform current replaced
  if !restored then
    let _ ← requireRecovery (invalid ∘ withError recovery) message
    return .error message
  else
    match ← writeJournal { journal with phase := .replaced } with
    | .ok () => return .error message
    | .error receiptError =>
      let _ ← requireRecovery (invalid ∘ withError receiptError) message
      return .error message

structure RolledBack where
  replaced : List ManagedFile
  error : Option String

def rollBackManaged (rollback : DirectoryName) (hashes : Pair String) (replaced : List ManagedFile) :
    List ManagedFile → Action Content RolledBack
  | [] => return ⟨replaced, none⟩
  | name :: rest => do
      let verified ← verifyRollbackFile platform rollback name (hashes.get name)
      if !verified then
        return ⟨replaced, some "rollback evidence failed containment, ownership or SHA-256 verification"⟩
      else
        match ← stageCopy rollback name with
        | none => return ⟨replaced, some "rollback binary could not be staged"⟩
        | some content =>
          let replacement ← atomicReplace platform content name (hashes.get name)
            (some (platform.size content))
          match replacement.error with
          | none => rollBackManaged rollback hashes (replaced ++ [name]) rest
          | some message =>
            return ⟨if replacement.destinationRemoved then replaced ++ [name] else replaced,
              some message⟩

def replaceByRollback (journal : Journal) (current : CurrentPair) : Action Content (Except String Unit) := do
  let rolledBack ← rollBackManaged platform journal.rollbackDirectory journal.rollbackHashes []
    managedPayloadFiles
  match rolledBack.error with
  | some message =>
    undoRollback platform journal current rolledBack.replaced message
      "rollback failed and restoration of the current pair also failed"
  | none =>
    match ← writeJournal journal with
    | .ok () => return .ok ()
    | .error message =>
      undoRollback platform journal current rolledBack.replaced message
        "rollback journal failed and restoration of the current pair also failed"

def admitsRollback (journal : Journal) (rollback : DirectoryName) (hashes : Pair String)
    (rollbackVersion : String) : Bool :=
  journal.phase ≠ .rollbackAcknowledged && journal.rollbackDirectory = rollback &&
    journal.rollbackHashes = hashes && validVersion journal.candidateVersion &&
    validVersion journal.currentVersion && journal.currentVersion = rollbackVersion

def Journal.rollingBack (journal : Journal) (rollbackVersion : String) (hashes : Pair String) (sizes : Pair Nat)
    (current : CurrentPair) : Journal :=
  { journal with
    operation := .rollback
    phase := .rollbackRestartPending
    candidateVersion := rollbackVersion
    currentVersion := rollbackVersion
    rollbackHashes := hashes
    candidateHashes := hashes
    candidateSizes := sizes
    previousDirectory := some current.directory
    previousHashes := some current.hashes
    previousSizes := current.sizes }

def beginRollback (journal : Journal) (rollback : DirectoryName) (hashes : Pair String) :
    Action Content (Except String Unit) := do
  let resuming := journal.phase = .rollbackRestartPending
  match ← (if resuming then resumeCurrentPair platform journal else stageCurrentPair platform) with
  | .error message => return .error message
  | .ok current =>
    remember fun memory => { memory with currentRollbackDirectory := some current.directory }
    let rollbackVersion ← consult Memory.rollbackVersion
    let sizes ← look fun disk => disk.sizes platform rollback
    let journal := journal.rollingBack rollbackVersion hashes sizes current
    match ← writeJournal journal with
    | .error message =>
      cleanupCurrentStaging current.directory
      remember fun memory => { memory with currentRollbackDirectory := none }
      return .error message
    | .ok () => replaceByRollback platform journal current

def restoreRollback : Action Content (Except String Unit) := do
  let memory ← consult id
  match memory.rollbackDirectory with
  | none => return .error "no rollback directory is recorded"
  | some rollback =>
    let verified ← verifyPair platform rollback memory.rollbackHashes
    match memory.rollbackHashes.filter fun _ => verified with
    | none => giveUp "rollback evidence failed containment, ownership or SHA-256 verification"
    | some hashes =>
      match ← rollbackJournal platform rollback hashes with
      | .error message => return .error message
      | .ok journal =>
        if !admitsRollback journal rollback hashes memory.rollbackVersion then
          giveUp "rollback transaction journal is missing or invalid"
        else beginRollback platform journal rollback hashes

end Amnezia.Headless
