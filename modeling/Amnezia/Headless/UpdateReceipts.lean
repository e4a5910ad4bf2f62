import Amnezia.Headless.UpdateGarbage

/-! # What a new manager accepts -/

namespace Amnezia.Headless
open Lib Procedure

variable {Content α : Type} {world : World Content} {invariant : World Content → Prop}
  {conditions : Conditions (World Content) Outcome}

def Disk.Holds (hashing : Hashing Content) (disk : Disk Content) (directory : DirectoryName)
    (hashes : Pair String) : Prop :=
  ∀ name, (disk.file directory name).map hashing.sha256 = some (hashes.get name)

theorem Pair.ext_get {left right : Pair α} (same : ∀ name, left.get name = right.get name) : left = right := by
  obtain ⟨first, second⟩ := left
  obtain ⟨other, another⟩ := right
  have firstSame : first = other := same .amneziad
  have secondSame : second = another := same .amneziaCli
  rw [firstSame, secondSame]

@[simp] theorem Pair.get_map {β : Type} (f : α → β) (pair : Pair α) (name : ManagedFile) :
    (pair.map f).get name = f (pair.get name) := by
  cases name <;> rfl

section
variable (hashing : Hashing Content)

theorem Hashing.ne_empty (content : Content) : hashing.sha256 content ≠ "" := by
  intro empty
  have valid := hashing.valid content
  rw [empty] at valid
  exact absurd valid (by decide)

theorem digest_getD {digest : Option String} {expected : String} (nonempty : expected ≠ "")
    (same : digest.getD "" = expected) : digest = some expected := by
  cases digest with
  | none => exact absurd same.symm nonempty
  | some value => exact congrArg some same

theorem sha256ForFile_ensures (directory : DirectoryName) (name : ManagedFile)
    (held : conditions.invariant world) :
    Ensures conditions (sha256ForFile hashing directory name) (fun digest later => later = world ∧
      (digest ≠ "" → (world.disk.file directory name).map hashing.sha256 = some digest)) world := by
  refine .bind (Ensures.inspect held (.pure ⟨rfl, fun nonempty => ?_⟩) (.pure ⟨rfl, fun nonempty => ?_⟩))
  · exact digest_getD nonempty rfl
  · exact absurd rfl nonempty

theorem verifyRollbackFile_ensures (directory : DirectoryName) (name : ManagedFile) (expected : String)
    (held : conditions.invariant world) :
    Ensures conditions (verifyRollbackFile hashing directory name expected) (fun verified later =>
      later = world ∧ (verified = true →
        (world.disk.file directory name).map hashing.sha256 = some expected)) world := by
  refine .call (sha256ForFile_ensures hashing directory name held) ?_
  rintro digest later ⟨rfl, found⟩
  refine .pure ⟨rfl, fun verified => ?_⟩
  simp only [Bool.and_eq_true, decide_eq_true_eq] at verified
  obtain ⟨nonempty, rfl⟩ := verified
  exact found nonempty

theorem verifyManagedInstalledFile_ensures (name : ManagedFile) (expected : String) (size : Option Nat)
    (held : conditions.invariant world) :
    Ensures conditions (verifyManagedInstalledFile hashing name expected size) (fun verified later =>
      later = world ∧ (verified = true → hashing.sha256 (world.disk.installed.get name) = expected)) world := by
  refine .bind (.bind (Ensures.inspect held ?_ ?_))
  · refine .pure (.bind (Ensures.look (.pure ⟨rfl, fun verified => ?_⟩)))
    simp only [Bool.and_eq_true, decide_eq_true_eq] at verified
    exact verified.1.2
  · refine .pure (.bind (Ensures.look (.pure ⟨rfl, fun verified => ?_⟩)))
    simp only [Bool.and_eq_true, decide_eq_true_eq] at verified
    obtain ⟨⟨valid, rfl⟩, -⟩ := verified
    exact absurd valid (by decide)

end

section
variable (platform : Platform Content)

theorem verifyPair_ensures (directory : DirectoryName) (hashes : Option (Pair String))
    (held : conditions.invariant world) :
    Ensures conditions (verifyPair platform directory hashes) (fun verified later => later = world ∧
      (verified = true → ∃ pair, hashes = some pair ∧ world.disk.Holds platform directory pair))
      world := by
  refine .call (verifyRollbackFile_ensures platform.toHashing directory _ _ held) ?_
  rintro first later ⟨rfl, firstFound⟩
  cases first with
  | false => exact .pure ⟨rfl, fun verified => absurd verified Bool.false_ne_true⟩
  | true =>
    refine (verifyRollbackFile_ensures platform.toHashing directory _ _ held).mono ?_
    rintro second later ⟨rfl, secondFound⟩
    refine ⟨rfl, fun verified => ?_⟩
    have firstFound := firstFound rfl
    have secondFound := secondFound verified
    cases hashes with
    | none =>
      obtain ⟨content, -, empty⟩ := Option.map_eq_some_iff.mp firstFound
      exact absurd empty (platform.ne_empty content)
    | some pair =>
      refine ⟨pair, rfl, fun name => ?_⟩
      cases name with
      | amneziad => exact firstFound
      | amneziaCli => exact secondFound

end

section
variable (services : Services Content)

theorem verifyInstalled_ensures (hashes : Pair String) (sizes : Option (Pair Nat))
    (held : conditions.invariant world) :
    Ensures conditions (verifyInstalled services hashes sizes) (fun verified later => later = world ∧
      (verified = true → world.disk.installed.map services.sha256 = hashes)) world := by
  refine .call (verifyManagedInstalledFile_ensures services.toHashing _ _ _ held) ?_
  rintro first later ⟨rfl, firstFound⟩
  cases first with
  | false => exact .pure ⟨rfl, fun verified => absurd verified Bool.false_ne_true⟩
  | true =>
    refine (verifyManagedInstalledFile_ensures services.toHashing _ _ _ held).mono ?_
    rintro second later ⟨rfl, secondFound⟩
    refine ⟨rfl, fun verified => Pair.ext_get fun name => ?_⟩
    cases name with
    | amneziad => exact firstFound rfl
    | amneziaCli => exact secondFound verified

theorem loadRollbackReceipt_ensures (held : conditions.invariant world) :
    Ensures conditions (loadRollbackReceipt services) (fun _ later => later = world) world := by
  refine .bind (Ensures.look ?_)
  split
  · exact .pure rfl
  · refine .bind (Ensures.inspect held ?_ (.pure rfl))
    split
    · exact .pure rfl
    · refine .bind (Ensures.look (.bind (Ensures.consult ?_)))
      split
      · exact .pure rfl
      · exact (verifyPair_ensures services.toPlatform _ _ held).mono fun _ _ both => both.1

end

variable {after : Bool → World Content → Prop}

namespace smooth

variable (hashing : Hashing Content) {directory : DirectoryName}

theorem sha256ForFile {name : ManagedFile} {after : String → World Content → Prop} (held : invariant world)
    (here : after (((world.disk.file directory name).map hashing.sha256).getD "") world) :
    Ensures (smooth invariant) (sha256ForFile hashing directory name) after world :=
  .bind (smooth.inspect held (.pure here))

theorem verifyRollbackFile {name : ManagedFile} {expected : String} (held : invariant world)
    (here : after (decide ((world.disk.file directory name).map hashing.sha256 = some expected)) world) :
    Ensures (smooth invariant) (verifyRollbackFile hashing directory name expected) after world := by
  refine .bind (sha256ForFile hashing held (.pure ?_))
  convert here using 1
  rw [Bool.eq_iff_iff, Bool.and_eq_true, decide_eq_true_eq, decide_eq_true_eq, decide_eq_true_eq]
  constructor
  · rintro ⟨nonempty, same⟩
    exact digest_getD nonempty same
  · intro found
    obtain ⟨content, -, rfl⟩ := Option.map_eq_some_iff.mp found
    rw [found]
    exact ⟨hashing.ne_empty content, rfl⟩

theorem verifyPair (platform : Platform Content) {hashes : Option (Pair String)} (held : invariant world)
    (here : ∀ verified, (verified = true ↔
      ∃ pair, hashes = some pair ∧ world.disk.Holds platform directory pair) → after verified world) :
    Ensures (smooth invariant) (verifyPair platform directory hashes) after world := by
  have holds : (∃ pair, hashes = some pair ∧ world.disk.Holds platform directory pair) ↔
      ∀ name, (world.disk.file directory name).map platform.sha256 = some (hashOf hashes name) := by
    cases hashes with
    | some pair =>
      constructor
      · rintro ⟨other, same, found⟩
        cases same
        exact found
      · exact fun found => ⟨pair, rfl, found⟩
    | none =>
      constructor
      · rintro ⟨other, same, -⟩
        contradiction
      · intro found
        obtain ⟨content, -, empty⟩ := Option.map_eq_some_iff.mp (found .amneziad)
        exact absurd empty (platform.ne_empty content)
  rw [holds] at here
  refine .bind (verifyRollbackFile platform.toHashing held ?_)
  split
  · next missing =>
    refine .pure (here false ⟨fun impossible => absurd impossible Bool.false_ne_true, fun found => ?_⟩)
    simp [found .amneziad] at missing
  · next first =>
    refine verifyRollbackFile platform.toHashing held (here _ ?_)
    rw [decide_eq_true_eq]
    refine ⟨fun second name => ?_, fun found => found .amneziaCli⟩
    cases name with
    | amneziad => simpa using first
    | amneziaCli => exact second

end smooth

def World.refused (world : World Content) (message : String) : World Content :=
  { world with memory := { world.memory with
      stateValid := false
      lastState := .recoveryRequired
      lastError := message } }

variable {next : Action Content Unit}

theorem Ensures.demand {condition : Bool} {message : String}
    {after : Unit → World Content → Prop} (passed : condition = true → Ensures conditions next after world)
    (failed : condition = false → after () (world.refused message)) :
    Ensures conditions (demand condition message next) after world := by
  cases condition with
  | true => exact passed rfl
  | false =>
    change Ensures conditions (refuse message) after world
    exact Ensures.update (failed rfl)

def KeepsRollback (hashing : Hashing Content) (disk : Disk Content) :
    Option DirectoryName → String → Option (Pair String) → Prop
  | none, version, hashes => version = "" ∧ hashes = none
  | some directory, version, hashes =>
    validVersion version ∧ ∃ pair, hashes = some pair ∧ disk.Holds hashing directory pair

structure StateFile.Accepted (hashing : Hashing Content) (disk : Disk Content) (receipt : StateFile) : Prop where
  known : receipt.state ∈ validStates
  rollback : KeepsRollback hashing disk receipt.rollbackDirectory receipt.rollbackVersion
    receipt.rollbackHashes
  version : receipt.lastAppliedVersion = "" ∨ validVersion receipt.lastAppliedVersion
  completed : receipt.state ∈ [.applied, .updated, .rolledBack] → receipt.lastAppliedVersion ≠ ""

def Memory.loaded (memory : Memory) (receipt : StateFile) : Memory :=
  { memory with
    lastAppliedVersion := receipt.lastAppliedVersion
    lastState := receipt.state
    rollbackDirectory := receipt.rollbackDirectory
    rollbackVersion := receipt.rollbackVersion
    rollbackHashes := receipt.rollbackHashes
    lastError := receipt.lastError }

def Memory.Backs (memory : Memory) (receipt : RollbackReceipt) : Prop :=
  memory.rollbackDirectory = some receipt.rollbackDirectory ∧
    memory.rollbackVersion = receipt.rollbackVersion ∧ memory.rollbackHashes = some receipt.rollbackHashes

section
variable {hashing : Hashing Content} {disk : Disk Content} {directory : DirectoryName} {hashes : Pair String}

theorem Disk.Holds.present (holds : disk.Holds hashing directory hashes) :
    (disk.directories.lookup directory).isSome := by
  have found := holds .amneziad
  unfold Disk.file at found
  cases lookup : disk.directories.lookup directory with
  | none => simp [lookup] at found
  | some files => rfl

theorem Disk.Holds.valid (holds : disk.Holds hashing directory hashes) : hashes.all validSha256 = true := by
  have each (name : ManagedFile) : validSha256 (hashes.get name) = true := by
    obtain ⟨content, -, same⟩ := Option.map_eq_some_iff.mp (holds name)
    rw [← same]
    exact hashing.valid content
  exact Bool.and_eq_true_iff.mpr ⟨each .amneziad, each .amneziaCli⟩

theorem KeepsRollback.valid {rollback : Option DirectoryName} {version : String}
    {hashes : Option (Pair String)} (keeps : KeepsRollback hashing disk rollback version hashes) :
    hashes.all (Pair.all validSha256) = true := by
  cases rollback with
  | none =>
    rw [keeps.2]
    rfl
  | some directory =>
    obtain ⟨-, pair, rfl, holds⟩ := keeps
    exact holds.valid

end

namespace smooth

variable (services : Services Content) {receipt : StateFile}

theorem checkRollback {after : Unit → World Content → Prop} (held : invariant world)
    (passed : KeepsRollback services world.disk receipt.rollbackDirectory receipt.rollbackVersion
      receipt.rollbackHashes → Ensures (smooth invariant) next after world)
    (failed : ¬KeepsRollback services world.disk receipt.rollbackDirectory receipt.rollbackVersion
      receipt.rollbackHashes → ∀ message, after () (world.refused message)) :
    Ensures (smooth invariant) (checkRollback services receipt next) after world := by
  unfold Headless.checkRollback
  cases named : receipt.rollbackDirectory with
  | none =>
    rw [named] at passed failed
    refine Ensures.demand (fun complete => passed ?_) fun incomplete => failed ?_ _
    · simpa [KeepsRollback] using complete
    · rintro ⟨noVersion, noHashes⟩
      simp [noVersion, noHashes] at incomplete
  | some rollback =>
    rw [named] at passed failed
    refine .bind (Ensures.look (Ensures.demand (fun present => ?_) fun absent => failed ?_ _))
    · refine Ensures.demand (fun version => ?_) fun noVersion => failed ?_ _
      · refine Ensures.demand (fun some => ?_) fun none => failed ?_ _
        · refine .bind (verifyPair services.toPlatform held fun verified holds => ?_)
          refine Ensures.demand (fun yes => passed ⟨version, holds.mp yes⟩) fun no => failed ?_ _
          rintro ⟨-, kept⟩
          simp [holds.mpr kept] at no
        · rintro ⟨-, pair, same, -⟩
          simp [same] at none
      · rintro ⟨version, -⟩
        simp [version] at noVersion
    · rintro ⟨-, pair, -, holds⟩
      simp [holds.present] at absent

theorem loadReceipt {after : Unit → World Content → Prop}
    (held : ∀ memory, invariant { world with memory := memory })
    (accepted : receipt.Accepted services world.disk → Ensures (smooth invariant)
      (resumeTransaction services receipt) after { world with memory := world.memory.loaded receipt })
    (refused : ¬receipt.Accepted services world.disk → ∀ memory message,
      memory.updateInProgress = world.memory.updateInProgress →
      after () (World.refused { world with memory := memory } message)) :
    Ensures (smooth invariant) (loadReceipt services receipt) after world := by
  refine .bind (Ensures.remember (Ensures.demand (fun known => ?_) fun unknown => refused ?_ _ _ rfl))
  · refine .bind (Ensures.remember (Ensures.demand (fun valid => ?_) fun invalid => refused ?_ _ _ rfl))
    · refine checkRollback services (held _) (fun kept => ?_) fun lost message => refused ?_ _ _ rfl
      · refine Ensures.demand (fun version => ?_) fun noVersion => refused ?_ _ _ rfl
        · refine Ensures.demand (fun completed => accepted ⟨?_, kept, ?_, ?_⟩) fun incomplete => refused ?_ _ _ rfl
          · simpa using known
          · simpa using version
          · intro finished
            simpa [finished] using completed
          · intro fine
            simp only [Bool.or_eq_false_iff, Bool.not_eq_false', decide_eq_true_eq,
              decide_eq_false_iff_not, not_not] at incomplete
            exact fine.completed incomplete.1 incomplete.2
        · intro fine
          rcases fine.version with empty | valid
          · simp [empty] at noVersion
          · simp [valid] at noVersion
      · exact fun fine => lost fine.rollback
    · intro fine
      simp [fine.rollback.valid] at invalid
  · intro fine
    simp [fine.known] at unknown

theorem loadRollbackReceipt (held : invariant world)
    (keeps : KeepsRollback services world.disk world.memory.rollbackDirectory
      world.memory.rollbackVersion world.memory.rollbackHashes)
    (here : ∀ loaded, (loaded = true ↔ ∀ receipt ∈ world.disk.rollbackReceipt, world.memory.Backs receipt) →
      after loaded world) :
    Ensures (smooth invariant) (loadRollbackReceipt services) after world := by
  refine .bind (Ensures.look ?_)
  cases present : world.disk.rollbackReceipt with
  | none =>
    rw [present] at here
    exact .pure (here true ⟨fun _ _ listed => absurd listed (Option.not_mem_none _), fun _ => rfl⟩)
  | some receipt =>
    rw [present] at here
    refine .bind (smooth.inspect held ?_)
    rw [present]
    refine .bind (Ensures.look (.bind (Ensures.consult ?_)))
    split
    · next mismatch =>
      refine .pure (here false ⟨fun impossible => absurd impossible Bool.false_ne_true, fun each => ?_⟩)
      obtain ⟨named, version, hashes⟩ := each receipt rfl
      rw [named] at keeps
      obtain ⟨valid, pair, same, holds⟩ := keeps
      rw [hashes, Option.some.injEq] at same
      rw [version] at valid
      subst same
      simp [named, version, hashes, valid, holds.valid, holds.present] at mismatch
    · next matched =>
      simp only [not_or, not_not, ne_eq] at matched
      obtain ⟨-, -, named, version, hashes, -⟩ := matched
      rw [id_eq] at named version hashes
      have backs : world.memory.Backs receipt := ⟨named, version, hashes⟩
      rw [named] at keeps
      obtain ⟨-, pair, same, holds⟩ := keeps
      rw [hashes, Option.some.injEq] at same
      subst same
      refine verifyPair services.toPlatform held fun verified iff => here verified ?_
      refine ⟨fun _ other listed => ?_, fun _ => iff.mpr ⟨_, rfl, holds⟩⟩
      rw [← Option.some.inj listed]
      exact backs

end smooth

end Amnezia.Headless
