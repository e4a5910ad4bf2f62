import Amnezia.Lib.FiniteMap
import Amnezia.Lib.Procedures

/-!
# The storage of the headless updater

The receipts are written whole by a rename, so a stop leaves the old or the new one. Only the updater
writes them, so they are kept as records and not as JSON texts.
-/

namespace Amnezia.Headless
open Lib Procedure

inductive ManagedFile where
  | amneziad | amneziaCli
  deriving DecidableEq

def managedPayloadFiles : List ManagedFile := [.amneziad, .amneziaCli]

structure Pair (α : Type) where
  amneziad : α
  amneziaCli : α
  deriving DecidableEq

namespace Pair

variable {α β : Type}

def get (pair : Pair α) : ManagedFile → α
  | .amneziad => pair.amneziad
  | .amneziaCli => pair.amneziaCli

def set (pair : Pair α) (name : ManagedFile) (value : α) : Pair α :=
  match name with
  | .amneziad => { pair with amneziad := value }
  | .amneziaCli => { pair with amneziaCli := value }

def map (f : α → β) (pair : Pair α) : Pair β := ⟨f pair.amneziad, f pair.amneziaCli⟩

end Pair

-- The names of states and results: each constructor is a code of the source in camel case.
inductive Code where
  | neverChecked | disabled | noUpdate | noHeadlessArtifact | unsupportedPayloadContract | applied
  | updateAvailable | updated | rolledBack | noRollback
  | restartPending | rollbackRestartPending | rollbackFailed | recoveryRequired
  | invalidManifest | signatureInvalid | invalidCurrentVersion
  | updateInProgress | updateTrustInvalid | updateTransportInvalid | updateTimeout
  | updateRedirectRejected | updateUnreachable | updateHttpError | updateManifestTooLarge
  | updateStorageUnavailable | updateRuntimeIncompatible | updateInstallFailed
  | rollbackCoordinatorStorageInvalid | rollbackCoordinatorPendingMismatch
  deriving DecidableEq

def stableUpdateState (state : Code) : Bool :=
  state ∈ [.neverChecked, .disabled, .noUpdate, .noHeadlessArtifact, .unsupportedPayloadContract,
    .applied, .updateAvailable, .updated, .rolledBack, .noRollback]

def checkableUpdateState (state : Code) : Bool :=
  stableUpdateState state || state = .restartPending || state = .rollbackRestartPending

def validSha256 (value : String) : Bool :=
  value.toList.length = 64 && value.toList.all fun char =>
    ('0' ≤ char && char ≤ '9') || ('a' ≤ char && char ≤ 'f')

-- The zeros of the decimal digits in the basic plane; each is followed by the other nine.
def digitZeros : List Nat :=
  [0x30, 0x660, 0x6F0, 0x7C0, 0x966, 0x9E6, 0xA66, 0xAE6, 0xB66, 0xBE6, 0xC66, 0xCE6, 0xD66, 0xDE6, 0xE50,
    0xED0, 0xF20, 0x1040, 0x1090, 0x17E0, 0x1810, 0x1946, 0x19D0, 0x1A80, 0x1A90, 0x1B50, 0x1BB0, 0x1C40,
    0x1C50, 0xA620, 0xA8D0, 0xA900, 0xA9D0, 0xA9F0, 0xAA50, 0xABF0, 0xFF10]

def isDigit (char : Char) : Bool :=
  digitZeros.any fun first => first ≤ char.toNat && char.toNat ≤ first + 9

def decimalValue (digits : List Char) : Nat :=
  digits.foldl (fun value digit => value * 10 + (digit.toNat - 48)) 0

-- `QVersionNumber::fromString` reads ASCII digits, and stops at the first part it cannot read whole.
def segments : List (List Char) → List Nat
  | [] => []
  | part :: rest =>
    let digits := part.takeWhile Char.isDigit
    if digits = [] ∨ decimalValue digits > 2147483647 then []
    else if digits.length = part.length then decimalValue digits :: segments rest
    else [decimalValue digits]

def versionNumber (value : String) : List Nat := segments (value.toList.splitOn '.')

def validPart (part : List Char) : Bool :=
  part ≠ [] && !(1 < part.length && part.head? = some '0') && part.all isDigit

-- A part of digits holds no white space, so the text is trimmed.
def validVersion (value : String) : Bool :=
  (value.toList.splitOn '.').length = 4 && (value.toList.splitOn '.').all validPart && versionNumber value ≠ []

def newerVersion (next current : String) : Bool := versionNumber current < versionNumber next

structure Hashing (Content : Type) where
  size : Content → Nat
  sha256 : Content → String
  injective : Function.Injective sha256
  valid : ∀ content, validSha256 (sha256 content)

-- The private directories are `transaction-`, `rollback-`, `rollback-current-` and `recovery-receipt-`
-- with a unique number.
inductive DirectoryKind where
  | transaction | rollback | rollbackCurrent | recoveryReceipt
  deriving DecidableEq

structure DirectoryName where
  kind : DirectoryKind
  uuid : Nat
  deriving DecidableEq

structure StateFile where
  state : Code
  lastAppliedVersion : String
  rollbackDirectory : Option DirectoryName
  rollbackVersion : String
  rollbackHashes : Option (Pair String)
  lastError : String
  deriving DecidableEq

inductive Operation where
  | update | rollback
  deriving DecidableEq

inductive Phase where
  | prepared | replaced | restartPending | acknowledged | rollbackRestartPending | rollbackAcknowledged
  deriving DecidableEq

def Phase.isAcknowledged (phase : Phase) : Bool := phase = .acknowledged || phase = .rollbackAcknowledged

structure Journal where
  operation : Operation
  phase : Phase
  candidateVersion : String
  currentVersion : String
  transactionDirectory : DirectoryName
  rollbackDirectory : DirectoryName
  rollbackHashes : Pair String
  candidateHashes : Pair String
  candidateSizes : Pair Nat
  previousDirectory : Option DirectoryName
  previousHashes : Option (Pair String)
  previousSizes : Option (Pair Nat)
  deriving DecidableEq

structure RollbackReceipt where
  rollbackDirectory : DirectoryName
  rollbackVersion : String
  rollbackHashes : Pair String
  deriving DecidableEq

inductive Garbage where
  | directory (name : DirectoryName)
  | rollbackReceipt
  deriving DecidableEq

structure Disk (Content : Type) where
  state : Option StateFile
  journal : Option Journal
  rollbackReceipt : Option RollbackReceipt
  gcMarker : Option (List Garbage)
  directories : FiniteMap DirectoryName (Pair (Option Content))
  installed : Pair Content
  nextUuid : Nat

structure Memory where
  lastState : Code := .neverChecked
  lastAppliedVersion : String := ""
  lastError : String := ""
  rollbackDirectory : Option DirectoryName := none
  rollbackVersion : String := ""
  rollbackHashes : Option (Pair String) := none
  currentRollbackDirectory : Option DirectoryName := none
  stateValid : Bool := true
  updateInProgress : Bool := false

-- Beside the disk and the memory, two records of the run that the code does not have: the pairs that were
-- installed at the start or taken up as candidates, and what was renamed onto the managed paths.
structure World (Content : Type) where
  disk : Disk Content
  memory : Memory
  pairs : List (Pair Content)
  renames : List (ManagedFile × Content)

-- An operation succeeds, fails without effect, or takes effect but is reported as failed because its
-- `fsync` fails.
inductive Outcome where
  | done | failed | unsynced
  deriving DecidableEq

instance : Inhabited Outcome := ⟨.done⟩

abbrev Action (Content α : Type) := Procedure (World Content) Outcome α

variable {Content α : Type}

def consult (view : Memory → α) : Action Content α := read fun world => view world.memory

def remember (change : Memory → Memory) : Action Content Unit :=
  update fun world => { world with memory := change world.memory }

def look (view : Disk Content → α) : Action Content α := read fun world => view world.disk

def World.onDisk (world : World Content) (change : Disk Content → Disk Content) : World Content :=
  { world with disk := change world.disk }

def commit (change : Disk Content → Disk Content) : Action Content Bool :=
  perform fun world outcome =>
    match outcome with
    | .done => (world.onDisk change, true)
    | .failed => (world, false)
    | .unsynced => (world.onDisk change, false)

def attempt (change : Disk Content → Disk Content) : Action Content Bool :=
  perform fun world outcome =>
    match outcome with
    | .done => (world.onDisk change, true)
    | .failed | .unsynced => (world, false)

def synchronize : Action Content Bool := attempt id

def inspect (view : Disk Content → Option α) : Action Content (Option α) :=
  perform fun world outcome => (world, if outcome = .done then view world.disk else none)

def Disk.file (disk : Disk Content) (directory : DirectoryName) (name : ManagedFile) : Option Content :=
  (disk.directories.lookup directory).bind fun files => files.get name

def Disk.setFile (disk : Disk Content) (directory : DirectoryName) (name : ManagedFile)
    (content : Option Content) : Disk Content :=
  match disk.directories.lookup directory with
  | some files => { disk with directories := disk.directories.insert directory (files.set name content) }
  | none => disk

def Disk.freshUuid (disk : Disk Content) : Nat :=
  disk.directories.keys.foldr (fun directory bound => max bound (directory.uuid + 1)) disk.nextUuid

def createUuid : Action Content Nat := fun world outcomes =>
  ⟨world.disk.freshUuid, world.onDisk fun disk => { disk with nextUuid := disk.freshUuid + 1 }, outcomes, []⟩

-- `ensureSecureDirectory` for a directory that does not exist yet.
def makeDirectory (directory : DirectoryName) : Action Content Bool :=
  attempt fun disk => { disk with directories := disk.directories.insert directory ⟨none, none⟩ }

variable (hashing : Hashing Content)

def sha256ForFile (directory : DirectoryName) (name : ManagedFile) : Action Content String := do
  let digest ← inspect fun disk => (disk.file directory name).map hashing.sha256
  return digest.getD ""

def sha256ForInstalled (name : ManagedFile) : Action Content String := do
  let digest ← inspect fun disk => some (hashing.sha256 (disk.installed.get name))
  return digest.getD ""

def verifyRollbackFile (directory : DirectoryName) (name : ManagedFile) (expectedSha256 : String) :
    Action Content Bool := do
  let digest ← sha256ForFile hashing directory name
  return expectedSha256 ≠ "" && digest = expectedSha256

def verifyManagedInstalledFile (name : ManagedFile) (expectedSha256 : String) (expectedSize : Option Nat) :
    Action Content Bool := do
  let digest ← sha256ForInstalled hashing name
  let size ← look fun disk => hashing.size (disk.installed.get name)
  return validSha256 expectedSha256 && digest = expectedSha256 && expectedSize.all (· = size)

def Memory.receipt (memory : Memory) : StateFile where
  state := memory.lastState
  lastAppliedVersion := memory.lastAppliedVersion
  rollbackDirectory := memory.rollbackDirectory
  rollbackVersion := memory.rollbackVersion
  rollbackHashes := memory.rollbackHashes
  lastError := memory.lastError

def saveState : Action Content Bool := do
  let receipt ← consult Memory.receipt
  commit fun disk => { disk with state := some receipt }

def writeJournal (journal : Journal) : Action Content (Except String Unit) :=
  perform fun world outcome =>
    let written := world.onDisk fun disk => { disk with journal := some journal }
    match outcome with
    | .done => (written, .ok ())
    | .failed => (world, .error "headless update journal cannot be persisted")
    | .unsynced => (written, .error "")

def writeGcMarker (paths : List Garbage) : Action Content Bool := do
  if paths = [] then return false
  else
    let existing ← inspect Disk.gcMarker
    commit fun disk => { disk with gcMarker := some (existing.getD [] ∪ paths) }

def Journal.directories (journal : Journal) : List DirectoryName :=
  [journal.transactionDirectory, journal.rollbackDirectory] ++ journal.previousDirectory.toList

def removeRecursively (directory : DirectoryName) : Action Content Bool := do
  let first ← attempt fun disk => disk.setFile directory .amneziad none
  let second ← attempt fun disk => disk.setFile directory .amneziaCli none
  if first && second then
    attempt fun disk => { disk with directories := disk.directories.erase directory }
  else return false

def removeGarbage (referenced : List DirectoryName) : Garbage → Action Content Bool
  | .directory directory => do
      let present ← look fun disk => (disk.directories.lookup directory).isSome
      if !present then return true
      else if directory ∈ referenced then return false
      else removeRecursively directory
  | .rollbackReceipt => do
      let present ← look fun disk => disk.rollbackReceipt.isSome
      if !present then return true
      else attempt fun disk => { disk with rollbackReceipt := none }

def removeAllGarbage (referenced : List DirectoryName) : List Garbage → Action Content Bool
  | [] => return true
  | path :: rest => do
      let removed ← removeGarbage referenced path
      let others ← removeAllGarbage referenced rest
      return removed && others

def isDisposable (directory : DirectoryName) : Bool :=
  directory.kind = .transaction || directory.kind = .rollbackCurrent

def referencedDirectories : Action Content (Option (List DirectoryName)) := do
  let remembered ← consult fun memory =>
    memory.rollbackDirectory.toList ++ memory.currentRollbackDirectory.toList
  let journalExists ← look fun disk => disk.journal.isSome
  if !journalExists then return some remembered
  else
    let journal ← inspect Disk.journal
    return journal.map fun journal => remembered ++ journal.directories

def markedGarbage : Action Content (Option (List Garbage)) := do
  let markerExists ← look fun disk => disk.gcMarker.isSome
  if !markerExists then return some []
  else inspect Disk.gcMarker

def retireMarker (paths : List Garbage) : Action Content Unit := do
  let rootSynced ← synchronize
  if !rootSynced then return
  else
    let removed ← attempt fun disk => { disk with gcMarker := none }
    if !removed then return
    else
      let removalSynced ← synchronize
      if removalSynced then return
      else
        let _ ← writeGcMarker paths
        return

def collectGarbage : Action Content Unit := do
  match ← referencedDirectories with
  | none => return
  | some referenced =>
    match ← markedGarbage with
    | none => return
    | some marked =>
      let orphans ← look fun disk => disk.directories.keys.filter fun directory =>
        isDisposable directory && !(referenced.contains directory)
      let paths := marked ∪ orphans.map Garbage.directory
      let markerExists ← look fun disk => disk.gcMarker.isSome
      let recorded ← (if paths = [] then pure markerExists else writeGcMarker paths)
      if !recorded then return
      else
        let complete ← removeAllGarbage referenced paths
        if !complete then return else retireMarker paths

end Amnezia.Headless
