import Amnezia.Headless.UpdateGuard

/-! # Transactions keep the guard -/

namespace Amnezia.Headless
open Lib Procedure

variable {Content α : Type} {genuine : Pair Content → Prop} {world later : World Content}
  {hashing : Hashing Content}

/-! ## Properties that the bookkeeping keeps -/

structure Framed (property : World Content → Prop) : Prop where
  noting : ∀ world memory, property world → memory.rollbackHashes = world.memory.rollbackHashes →
    memory.rollbackDirectory = world.memory.rollbackDirectory → property { world with memory := memory }
  saving : ∀ world, property world →
    property (world.onDisk fun disk => { disk with state := some world.memory.receipt })
  collecting : ∀ world later, property world → Collected world later → property later

def Noting (change : Memory → Memory) : Prop :=
  ∀ memory, (change memory).rollbackHashes = memory.rollbackHashes ∧
    (change memory).rollbackDirectory = memory.rollbackDirectory

theorem Guarded.framed (hashing : Hashing Content) (genuine : Pair Content → Prop) :
    Framed (Guarded hashing genuine) where
  noting _ _ guarded hashes directory := guarded.noting hashes directory
  saving _ guarded := guarded.saving
  collecting _ _ guarded collected := guarded.collected collected

structure GuardedBy (hashing : Hashing Content) (genuine : Pair Content → Prop)
    (fact : Option Journal → Pair Content → List (Pair Content) → Prop) (world : World Content) : Prop where
  guarded : Guarded hashing genuine world
  fact : fact world.disk.journal world.disk.installed world.pairs

section
variable {fact : Option Journal → Pair Content → List (Pair Content) → Prop}

theorem GuardedBy.framed : Framed (GuardedBy hashing genuine fact) where
  noting _ _ kept hashes directory := ⟨kept.guarded.noting hashes directory, kept.fact⟩
  saving _ kept := ⟨kept.guarded.saving, kept.fact⟩
  collecting _ _ kept collected := by
    refine ⟨kept.guarded.collected collected, ?_⟩
    rw [collected.same]
    exact kept.fact

theorem GuardedBy.along {procedure : Action Content α} (kept : GuardedBy hashing genuine fact world)
    (keeps : Keeps (rough (GuardedBy hashing genuine fact)) procedure) :
    Ensures (rough (Guarded hashing genuine)) procedure (fun _ => GuardedBy hashing genuine fact) world :=
  rough.keeping keeps (fun _ => GuardedBy.guarded) kept

end

section
variable {property : World Content → Prop}

namespace Framed

variable (framed : Framed property)
include framed

variable {change : Memory → Memory}

theorem remember (notes : Noting change := by exact fun _ => ⟨rfl, rfl⟩) :
    Keeps (rough property) (remember change : Action Content Unit) :=
  Keeps.remember fun world held => framed.noting world _ held (notes _).1 (notes _).2

theorem saveState : Keeps (rough property) (saveState : Action Content Bool) :=
  Keeps.saveState framed.saving

theorem saveOrInvalidate : Keeps (rough property) (saveOrInvalidate : Action Content Unit) := by
  refine framed.saveState.bind fun saved => .ite ?_ (.pure _)
  exact framed.remember

theorem collectGarbage : Keeps (rough property) (collectGarbage : Action Content Unit) :=
  fun world held => ((collectGarbage_within world).mono fun _ later => framed.collecting world later held).weaken
    fun later => framed.collecting world later held

theorem writeGcMarker (paths : List Garbage) : Keeps (rough property) (writeGcMarker paths : Action Content Bool) :=
  fun world held => ((writeGcMarker_within paths (.refl world)).mono
    fun _ later => framed.collecting world later held).weaken fun later => framed.collecting world later held

theorem discardRollbackStaging (directory : DirectoryName) :
    Keeps (rough property) (discardRollbackStaging directory : Action Content Unit) := by
  refine (Keeps.look _).bind fun present => .ite (.pure _) ?_
  exact (framed.writeGcMarker _).bind fun marked => .ite framed.collectGarbage (.pure _)

variable {message : String}

theorem requireRecovery (held : property world) (notes : Noting change := by exact fun _ => ⟨rfl, rfl⟩) :
    Ensures (rough property) (requireRecovery change message)
      (fun result later => property later ∧ result = .error message) world := by
  refine .bind (Ensures.remember ?_)
  exact .call (framed.saveOrInvalidate _ (framed.noting world _ held (notes _).1 (notes _).2))
    fun _ _ kept => .pure ⟨kept, rfl⟩

theorem requireRecovery_failed {success : World Content → Prop}
    (held : property world) (notes : Noting change := by exact fun _ => ⟨rfl, rfl⟩) :
    Ensures (rough property) (Headless.requireRecovery change message)
      (fun result later => property later ∧ (result = .ok () → success later)) world :=
  (framed.requireRecovery held notes).mono fun _ _ both =>
    ⟨both.1, fun ok => nomatch both.2.symm.trans ok⟩

theorem requireRecovery_keeps (notes : Noting change := by exact fun _ => ⟨rfl, rfl⟩) :
    Keeps (rough property) (Headless.requireRecovery change message : Action Content (Except String Unit)) :=
  fun _ held => (framed.requireRecovery held notes).mono fun _ _ => And.left

theorem giveUp (held : property world) :
    Ensures (rough property) (giveUp message : Action Content (Except String α))
      (fun result later => property later ∧ result = .error message) world :=
  .call (framed.requireRecovery held) fun _ _ both => .pure ⟨both.1, rfl⟩

end Framed

end

/-! ## Replacing files -/

def Replacing (world later : World Content) : Prop :=
  later = { world with
    disk := { world.disk with installed := later.disk.installed }
    renames := later.renames }

theorem Replacing.refl (world : World Content) : Replacing world world := rfl

theorem Replacing.trans {middle : World Content} (first : Replacing world middle)
    (second : Replacing middle later) : Replacing world later := by
  unfold Replacing at first second ⊢
  rw [second, first]

theorem Replacing.renamed (world : World Content) (name : ManagedFile) (content : Content) :
    Replacing world (world.renamed name content) := rfl

theorem Replacing.journal (replacing : Replacing world later) : later.disk.journal = world.disk.journal := by
  rw [replacing]

theorem Underway.replacing (underway : Underway world) (replacing : Replacing world later) : Underway later := by
  obtain ⟨journal, present, pending⟩ := underway
  exact ⟨journal, replacing.journal.trans present, pending⟩

structure Installs (hashing : Hashing Content) (hashes : Pair String) (names : List ManagedFile)
    (before after : Pair Content) : Prop where
  hashed : ∀ name ∈ names, hashing.sha256 (after.get name) = hashes.get name
  others : ∀ name ∉ names, after.get name = before.get name

variable {name : ManagedFile} {content : Content}

section
variable {hashes : Pair String} {before middle after : Pair Content}

theorem Installs.nil : Installs hashing hashes [] before before :=
  ⟨fun _ listed => absurd listed List.not_mem_nil, fun _ _ => rfl⟩

theorem Installs.cons {names : List ManagedFile} (fresh : name ∉ names)
    (hashed : hashing.sha256 content = hashes.get name) (set : middle = before.set name content)
    (rest : Installs hashing hashes names middle after) : Installs hashing hashes (name :: names) before after where
  hashed other listed := by
    rcases List.mem_cons.mp listed with rfl | later
    · rw [rest.others other fresh, set, Pair.get_set_self, hashed]
    · exact rest.hashed other later
  others other unlisted := by
    rw [List.mem_cons, not_or] at unlisted
    rw [rest.others other unlisted.2, set, Pair.get_set, if_neg unlisted.1]

theorem Installs.known {pairs : List (Pair Content)}
    (installs : Installs hashing hashes managedPayloadFiles before after)
    (known : Known hashing pairs hashes) : after ∈ pairs := by
  have matched : after.map hashing.sha256 = hashes := by
    refine Pair.ext_get fun name => ?_
    rw [Pair.get_map]
    exact installs.hashed name (by cases name <;> decide)
  rw [← matched] at known
  exact known.mem

end

section
variable (platform : Platform Content)

theorem stageCopy_ensures {conditions : Conditions (World Content) Outcome} (directory : DirectoryName)
    (name : ManagedFile) (held : conditions.invariant world) :
    Ensures conditions (stageCopy directory name) (fun staged later => later = world ∧
      ∀ content, staged = some content → world.disk.file directory name = some content) world :=
  Ensures.inspect held ⟨rfl, fun _ same => same⟩
    ⟨rfl, fun _ impossible => absurd impossible.symm (Option.some_ne_none _)⟩

section

variable (guarded : Guarded platform genuine world)
include guarded

section

variable (underway : Underway world)
include underway

theorem atomicReplace_guarded (fine : FileOf genuine name content) (expected : String) (size : Option Nat) :
    Secures platform genuine (atomicReplace platform content name expected size)
      (fun replacement later => Replacing world later ∧
        (replacement.error = none → later.disk.installed = world.disk.installed.set name content ∧
          (expected ≠ "" → platform.sha256 content = expected))) world := by
  refine (atomicReplace_ensures platform content name expected size guarded
    (guarded.renaming underway fine)).mono ?_
  rintro replacement later (⟨rfl, failed⟩ | ⟨rfl, hashed⟩)
  · exact ⟨guarded, .refl later, fun fine => absurd fine failed⟩
  · exact ⟨guarded.renaming underway fine, .renamed world name content, fun _ => ⟨rfl, hashed⟩⟩

theorem restoreFromRollback_guarded (directory : DirectoryName) (hashes : Pair String) (name : ManagedFile) :
    Secures platform genuine (restoreFromRollback platform directory hashes name)
      (fun _ later => Replacing world later) world := by
  refine .call (verifyRollbackFile_ensures platform.toHashing _ _ _ guarded) ?_
  rintro verified later ⟨rfl, -⟩
  split
  · exact .pure ⟨guarded, .refl later⟩
  · refine .call (stageCopy_ensures directory name guarded) ?_
    rintro (_ | content) later ⟨rfl, found⟩
    · exact .pure ⟨guarded, .refl later⟩
    · dsimp only
      split
      · exact .pure ⟨guarded, .refl later⟩
      · have fine := guarded.files directory name content (found content rfl)
        exact .call (atomicReplace_guarded platform guarded underway fine _ _)
          fun _ _ both => .pure ⟨both.1, both.2.1⟩

theorem restoreReplaced_guarded (directory : DirectoryName) (hashes : Pair String) (names : List ManagedFile) :
    Secures platform genuine (restoreReplaced platform directory hashes names)
      (fun _ later => Replacing world later) world := by
  induction names generalizing world with
  | nil => exact .pure ⟨guarded, .refl world⟩
  | cons name rest ih =>
    refine .call (restoreFromRollback_guarded platform guarded underway directory hashes name) ?_
    rintro restored later ⟨kept, replacing⟩
    split
    · exact .pure ⟨kept, replacing⟩
    · exact (ih kept (underway.replacing replacing)).mono fun _ _ both => ⟨both.1, replacing.trans both.2⟩

theorem replaceManaged_guarded
    (transaction rollback : DirectoryName) (journal : Journal) (replaced names : List ManagedFile)
    (distinct : names.Nodup) :
    Secures platform genuine
      (replaceManaged platform transaction rollback journal replaced names)
      (fun result later => result = .ok () → Replacing world later ∧
        Installs platform journal.candidateHashes names world.disk.installed later.disk.installed) world := by
  have framed := Guarded.framed platform genuine
  induction names generalizing world replaced with
  | nil => exact .pure ⟨guarded, fun _ => ⟨.refl world, .nil⟩⟩
  | cons name rest ih =>
    obtain ⟨fresh, distinctRest⟩ := List.nodup_cons.mp distinct
    refine .call (stageCopy_ensures transaction name guarded) ?_
    rintro source later ⟨rfl, found⟩
    cases chosen : source.filter fun content => platform.sha256 content = journal.candidateHashes.get name &&
        platform.size content = journal.candidateSizes.get name with
    | none => exact framed.requireRecovery_failed guarded
    | some content =>
      rw [Option.filter_eq_some_iff] at chosen
      obtain ⟨same, matched⟩ := chosen
      have hashed : platform.sha256 content = journal.candidateHashes.get name := by
        simp only [Bool.and_eq_true, decide_eq_true_eq] at matched
        exact matched.1
      have fine := guarded.files transaction name content (found content same)
      refine .call (atomicReplace_guarded platform guarded underway fine _ _) ?_
      rintro replacement middle ⟨kept, replacing, installed⟩
      cases outcome : replacement.error with
      | none =>
        refine (ih kept (underway.replacing replacing) (replaced ++ [name]) distinctRest).mono ?_
        rintro result last ⟨keptLast, success⟩
        refine ⟨keptLast, fun ok => ?_⟩
        obtain ⟨replacingLast, installs⟩ := success ok
        exact ⟨replacing.trans replacingLast, .cons fresh hashed (installed outcome).1 installs⟩
      | some message =>
        refine .call (restoreReplaced_guarded platform kept (underway.replacing replacing) _ _ _) ?_
        rintro restored last ⟨keptLast, -⟩
        split
        · exact .pure ⟨keptLast, fun impossible => by contradiction⟩
        · exact framed.requireRecovery_failed keptLast

end

end

/-! ## Installing a candidate -/

abbrev Publishing (hashing : Hashing Content) (genuine : Pair Content → Prop) (journal : Journal)
    (start : World Content) : World Content → Prop :=
  GuardedBy hashing genuine fun stored installed pairs =>
    (∃ phase, stored = some { journal with phase := phase }) ∧ installed = start.disk.installed ∧ pairs = start.pairs

namespace Publishing

variable {journal : Journal} {start : World Content}

theorem fits (kept : Publishing hashing genuine journal start world) (phase : Phase) :
    Journal.Fits hashing world { journal with phase := phase } := by
  obtain ⟨other, present⟩ := kept.fact.1
  exact (kept.guarded.fits _ present).atPhase phase

theorem writeJournal {phase : Phase} (pending : phase.isAcknowledged = false) :
    Keeps (rough (Publishing hashing genuine journal start))
      (writeJournal { journal with phase := phase } : Action Content (Except String Unit)) := by
  refine Keeps.writeJournal fun world kept => ⟨?_, ⟨phase, rfl⟩, kept.fact.2⟩
  exact kept.guarded.journaling (kept.fits phase) fun done => absurd done (by rw [pending]; decide)

theorem naming {memory : Memory} (kept : Publishing hashing genuine journal start world)
    (hashes : memory.rollbackHashes = world.memory.rollbackHashes)
    (directory : memory.rollbackDirectory = some journal.rollbackDirectory) :
    Publishing hashing genuine journal start { world with memory := memory } := by
  refine ⟨kept.guarded.onMemory (hashes ▸ kept.guarded.remembered) fun named listed => ?_, kept.fact⟩
  rw [directory] at listed
  rw [← Option.some.inj listed]
  exact (kept.fits .prepared).rollbackKind

end Publishing

theorem restartService_keeps (conditions : Conditions (World Content) Outcome) :
    Keeps conditions (restartService : Action Content (Except String Unit)) := by
  refine (Keeps.passAll _).bind fun failed => ?_
  cases failed with
  | none => exact .pure _
  | some message => exact .pure _

theorem publishInstall_keeps (hashing : Hashing Content) (genuine : Pair Content → Prop)
    (journal : Journal) (start : World Content) :
    Keeps (rough (Publishing hashing genuine journal start)) (publishInstall journal) := by
  have framed : Framed (Publishing hashing genuine journal start) := GuardedBy.framed
  refine (Publishing.writeJournal rfl).bind fun replaced => ?_
  cases replaced with
  | error message => exact framed.requireRecovery_keeps
  | ok =>
    refine Keeps.bind (Keeps.remember ?_) fun _ => framed.saveState.bind fun saved => ?_
    · exact fun world kept => kept.naming rfl rfl
    refine .ite framed.requireRecovery_keeps (Keeps.bind framed.remember fun _ => ?_)
    refine (Publishing.writeJournal rfl).bind fun pending => ?_
    cases pending with
    | error message => exact framed.requireRecovery_keeps
    | ok =>
      refine framed.saveState.bind fun saved => .ite framed.requireRecovery_keeps ?_
      refine (restartService_keeps _).bind fun restarted => ?_
      cases restarted with
      | ok => exact .pure _
      | error message =>
        refine Keeps.bind framed.remember fun _ => framed.saveState.bind fun saved => ?_
        exact .ite (Keeps.bind framed.remember fun _ => .pure _) (.pure _)

/-! ## Backing up the installed files -/

structure Filling (directory : DirectoryName) (world later : World Content) : Prop where
  same : Aside world later
  others : ∀ other, other ≠ directory →
    later.disk.directories.lookup other = world.disk.directories.lookup other
  present : (world.disk.directories.lookup directory).isSome → (later.disk.directories.lookup directory).isSome

namespace Filling

variable {directory : DirectoryName}

theorem refl (directory : DirectoryName) (world : World Content) : Filling directory world world :=
  ⟨rfl, fun _ _ => rfl, fun present => present⟩

theorem trans {middle : World Content} (first : Filling directory world middle)
    (second : Filling directory middle later) : Filling directory world later where
  same := by rw [second.same, first.same]
  others other different := (second.others other different).trans (first.others other different)
  present there := second.present (first.present there)

theorem setFile (world : World Content) (directory : DirectoryName) (name : ManagedFile)
    (content : Option Content) :
    Filling directory world (world.onDisk fun disk => disk.setFile directory name content) where
  same := by rw [World.onDisk, Disk.setFile_eq]
  others other different := Disk.lookup_setFile_of_ne different
  present there := by
    obtain ⟨files, found⟩ := Option.isSome_iff_exists.mp there
    simp only [World.onDisk, Disk.setFile, found, AList.lookup_insert, Option.isSome_some]

theorem insert (world : World Content) (directory : DirectoryName) (files : Pair (Option Content)) :
    Filling directory world
      (world.onDisk fun disk => { disk with directories := disk.directories.insert directory files }) where
  same := rfl
  others other different := AList.lookup_insert_ne different
  present _ := by simp [World.onDisk]

theorem files (filling : Filling directory world later)
    (before : ∀ other name content, world.disk.file other name = some content → FileOf genuine name content)
    (fine : ∀ name content, later.disk.file directory name = some content → FileOf genuine name content)
    (other : DirectoryName) (name : ManagedFile) (content : Content)
    (found : later.disk.file other name = some content) : FileOf genuine name content := by
  by_cases same : other = directory
  · exact fine name content (same ▸ found)
  · refine before other name content ?_
    rw [← found, Disk.file, Disk.file, filling.others other same]

theorem guarded (filling : Filling directory world later)
    (guarded : Guarded hashing genuine world)
    (unnamed : ∀ journal ∈ world.disk.journal, journal.rollbackDirectory ≠ directory)
    (fine : ∀ name content, later.disk.file directory name = some content → FileOf genuine name content) :
    Guarded hashing genuine later :=
  guarded.aside filling.same (fun journal listed => filling.others _ (unnamed journal listed))
    (filling.files guarded.files fine)

end Filling

def World.backedUp (world : World Content) (directory : DirectoryName) (name : ManagedFile) : World Content :=
  world.onDisk fun disk => disk.setFile directory name (some (disk.installed.get name))

variable {directory : DirectoryName}

theorem Guarded.backingUp (guarded : Guarded hashing genuine world)
    (unnamed : ∀ journal ∈ world.disk.journal, journal.rollbackDirectory ≠ directory)
    (name : ManagedFile) : Guarded hashing genuine (world.backedUp directory name) := by
  refine (Filling.setFile world directory name _).guarded guarded unnamed fun other content found => ?_
  cases present : world.disk.directories.lookup directory with
  | none =>
    rw [World.onDisk, Disk.setFile, present] at found
    exact guarded.files directory other content found
  | some files =>
    rw [World.onDisk, Disk.file_setFile present] at found
    split at found
    · next same =>
      rw [same, ← Option.some.inj found]
      exact guarded.installed name
    · exact guarded.files directory other content found

theorem World.file_backedUp
    (present : (world.disk.directories.lookup directory).isSome) (name other : ManagedFile) :
    (world.backedUp directory name).disk.file directory other =
      if other = name then some (world.disk.installed.get name) else world.disk.file directory other := by
  obtain ⟨files, found⟩ := Option.isSome_iff_exists.mp present
  rw [World.backedUp, World.onDisk, Disk.file_setFile found]

section
variable (platform : Platform Content)

variable {transaction rollback : DirectoryName}

theorem backUpManaged_guarded (guarded : Guarded platform genuine world)
    (unnamed : ∀ journal ∈ world.disk.journal, journal.rollbackDirectory ≠ rollback)
    (present : (world.disk.directories.lookup rollback).isSome) (name : ManagedFile) :
    Secures platform genuine (backUpManaged platform transaction rollback name)
      (fun result later => Filling rollback world later ∧
        ∀ backedUp, result = .ok backedUp → later = world.backedUp rollback name ∧
          (world.disk.file transaction name).map platform.sha256 = some backedUp.candidateHash ∧
          backedUp.rollbackHash = platform.sha256 (world.disk.installed.get name)) world := by
  refine .bind (Ensures.look ?_)
  refine .call (sha256ForFile_ensures platform.toHashing transaction name guarded) ?_
  rintro candidateHash later ⟨rfl, candidate⟩
  split
  · exact .pure ⟨guarded, .refl _ later, nofun⟩
  · next nonempty =>
    have copied := guarded.backingUp unnamed name
    have filling := Filling.setFile later rollback name (some (later.disk.installed.get name))
    refine .bind (Ensures.commit guarded copied ?_ ?_ ?_)
    · refine .call (sha256ForFile_ensures platform.toHashing rollback name copied) ?_
      rintro rollbackHash middle ⟨rfl, found⟩
      split
      · exact .pure ⟨copied, filling, nofun⟩
      · next hashed =>
        refine .pure ⟨copied, filling, fun backedUp same => ?_⟩
        cases Except.ok.inj same
        have content := found hashed
        rw [show (World.onDisk _ _).disk.file rollback name = _ from World.file_backedUp present name name,
          if_pos rfl, Option.map_some] at content
        exact ⟨rfl, candidate nonempty, (Option.some.inj content).symm⟩
    · exact .pure ⟨guarded, .refl _ later, nofun⟩
    · exact .pure ⟨copied, filling, nofun⟩

structure BackedUpPair (hashing : Hashing Content) (transaction rollback : DirectoryName)
    (world later : World Content) (backedUp : Pair BackedUp) : Prop where
  copies : ∀ name, later.disk.file rollback name = some (world.disk.installed.get name)
  candidates : ∀ name, (world.disk.file transaction name).map hashing.sha256 =
    some ((backedUp.get name).candidateHash)
  hashes : ∀ name, (backedUp.get name).rollbackHash = hashing.sha256 (world.disk.installed.get name)

theorem backUpPair_guarded (different : transaction ≠ rollback)
    (guarded : Guarded platform genuine world)
    (unnamed : ∀ journal ∈ world.disk.journal, journal.rollbackDirectory ≠ rollback)
    (present : (world.disk.directories.lookup rollback).isSome) :
    Secures platform genuine
      (forManaged (backUpManaged platform transaction rollback))
      (fun result later => Filling rollback world later ∧
        ∀ backedUp, result = .ok backedUp →
          BackedUpPair platform transaction rollback world later backedUp) world := by
  refine .call (backUpManaged_guarded platform guarded unnamed present .amneziad) ?_
  rintro (message | first) middle ⟨kept, filling, done⟩
  · exact .pure ⟨kept, filling, nofun⟩
  · have unnamedMiddle : ∀ journal ∈ middle.disk.journal, journal.rollbackDirectory ≠ rollback := by
      rw [filling.same]
      exact unnamed
    refine .call (backUpManaged_guarded platform kept unnamedMiddle (filling.present present) .amneziaCli) ?_
    rintro (message | second) later ⟨keptLater, fillingLater, doneLater⟩
    · exact .pure ⟨keptLater, filling.trans fillingLater, nofun⟩
    · refine .pure ⟨keptLater, filling.trans fillingLater, fun backedUp same => ?_⟩
      cases Except.ok.inj same
      obtain ⟨rfl, firstCandidate, firstHash⟩ := done first rfl
      obtain ⟨rfl, secondCandidate, secondHash⟩ := doneLater second rfl
      have installed : (world.backedUp rollback .amneziad).disk.installed = world.disk.installed := by
        rw [filling.same]
      have staged : (world.backedUp rollback .amneziad).disk.file transaction .amneziaCli =
          world.disk.file transaction .amneziaCli := Disk.file_setFile_of_ne different
      rw [staged] at secondCandidate
      rw [installed] at secondHash
      constructor
      case copies =>
        intro name
        rw [World.file_backedUp (filling.present present), World.file_backedUp present, installed]
        cases name with
        | amneziad => rfl
        | amneziaCli => rfl
      case candidates =>
        intro name
        cases name with
        | amneziad => exact firstCandidate
        | amneziaCli => exact secondCandidate
      case hashes =>
        intro name
        cases name with
        | amneziad => exact firstHash
        | amneziaCli => exact secondHash

theorem Guarded.numbering (guarded : Guarded hashing genuine world) (number : Nat) :
    Guarded hashing genuine (world.onDisk fun disk => { disk with nextUuid := number }) :=
  guarded.aside rfl (fun _ _ => rfl) guarded.files

theorem Guarded.inserting (guarded : Guarded hashing genuine world) {files : Pair (Option Content)}
    (unnamed : ∀ journal ∈ world.disk.journal, journal.rollbackDirectory ≠ directory)
    (fine : ∀ name content, files.get name = some content → FileOf genuine name content) :
    Guarded hashing genuine
      (world.onDisk fun disk => { disk with directories := disk.directories.insert directory files }) := by
  refine (Filling.insert world directory files).guarded guarded unnamed fun name content found => ?_
  rw [World.onDisk, Disk.file_insert, if_pos rfl] at found
  exact fine name content found

theorem FileOf.ofNone
    (found : (⟨none, none⟩ : Pair (Option Content)).get name = some content) : FileOf genuine name content := by
  cases name <;> contradiction

theorem pairIn_of_hashes {disk : Disk Content}
    {hashes : Pair String} (holds : disk.Holds hashing directory hashes) :
    ∃ pair, disk.pairIn directory = some pair ∧ pair.map hashing.sha256 = hashes := by
  obtain ⟨first, foundFirst, firstHash⟩ := Option.map_eq_some_iff.mp (holds .amneziad)
  obtain ⟨second, foundSecond, secondHash⟩ := Option.map_eq_some_iff.mp (holds .amneziaCli)
  refine ⟨⟨first, second⟩, by simp [Disk.pairIn, foundFirst, foundSecond], Pair.ext_get fun name => ?_⟩
  cases name with
  | amneziad => exact firstHash
  | amneziaCli => exact secondHash

theorem BackedUpPair.fits {backedUp : Pair BackedUp}
    (pair : BackedUpPair hashing transaction rollback world later backedUp)
    (filling : Filling rollback world later) (known : world.disk.installed ∈ world.pairs)
    (takenUp : ∀ candidate, world.disk.pairIn transaction = some candidate → candidate ∈ world.pairs)
    (kind : rollback.kind = .rollback) (candidateVersion currentVersion : String) :
    (preparedJournal candidateVersion currentVersion transaction rollback backedUp).Fits hashing later := by
  have pairs : later.pairs = world.pairs := by rw [filling.same]
  constructor
  case holds =>
    intro name
    rw [preparedJournal, pair.copies, Pair.get_map, pair.hashes]
    rfl
  case rollbackKnown =>
    refine ⟨world.disk.installed, pairs ▸ known, Pair.ext_get fun name => ?_⟩
    rw [preparedJournal, Pair.get_map, Pair.get_map, pair.hashes]
  case candidateKnown =>
    have holds : world.disk.Holds hashing transaction (backedUp.map BackedUp.candidateHash) := by
      intro name
      rw [pair.candidates, Pair.get_map]
    obtain ⟨candidate, found, hashes⟩ := pairIn_of_hashes holds
    exact ⟨candidate, pairs ▸ takenUp candidate found, hashes⟩
  case rollbackKind => exact kind
  case previousKind => exact fun _ listed => nomatch listed

theorem replaceUnderJournal_guarded {journal : Journal} (guarded : Guarded platform genuine world)
    (present : world.disk.journal = some journal) (pending : journal.phase.isAcknowledged = false) :
    Settles platform genuine (replaceUnderJournal platform journal) world := by
  refine .call (replaceManaged_guarded platform guarded ⟨journal, present, pending⟩ _ _ journal [] managedPayloadFiles
    (by decide)) ?_
  rintro (message | _) later ⟨kept, success⟩
  · exact .pure ⟨kept, nofun⟩
  · obtain ⟨replacing, installs⟩ := success rfl
    have journaled := replacing.journal.trans present
    have publishing : Publishing platform genuine journal later later :=
      ⟨kept, ⟨journal.phase, journaled⟩, rfl, rfl⟩
    refine rough.weaken ((publishInstall_keeps platform.toHashing genuine journal later later publishing).mono ?_)
      fun _ => GuardedBy.guarded
    intro result last published
    refine ⟨published.guarded, fun _ => ?_⟩
    rw [published.fact.2.1, published.fact.2.2]
    exact installs.known (kept.fits journal journaled).candidateKnown

variable {candidateVersion currentVersion : String}

theorem installOverBackup_guarded
    (guarded : Guarded platform genuine world) (noJournal : world.disk.journal = none)
    (takenUp : ∀ candidate, world.disk.pairIn transaction = some candidate → candidate ∈ world.pairs)
    (different : transaction ≠ rollback) (kind : rollback.kind = .rollback)
    (present : (world.disk.directories.lookup rollback).isSome) :
    Settles platform genuine
      (installOverBackup platform candidateVersion currentVersion transaction rollback) world := by
  have framed := Guarded.framed platform genuine
  have discarded {later : World Content} {message : String} (kept : Guarded platform.toHashing genuine later) :
      Settles platform genuine (do
          discardRollbackStaging rollback
          return .error message) later :=
    .call (framed.discardRollbackStaging rollback later kept)
      fun _ _ kept => .pure ⟨kept, nofun⟩
  have unnamed : ∀ journal ∈ world.disk.journal, journal.rollbackDirectory ≠ rollback := by
    rw [noJournal]
    exact fun _ listed => nomatch listed
  refine .call (backUpPair_guarded platform different guarded unnamed present) ?_
  rintro (message | backedUp) later ⟨kept, filling, done⟩
  · exact discarded kept
  refine .bind (Ensures.synchronize kept fun staged => ?_)
  split
  · exact discarded kept
  have fits := (done backedUp rfl).fits filling (guarded.unjournaled noJournal) takenUp kind candidateVersion
    currentVersion
  have written := kept.journaling fits fun done => absurd done Bool.false_ne_true
  refine .bind (Ensures.writeJournal kept written ?_ (fun message => discarded kept) (discarded written))
  refine .bind (Ensures.remember ?_)
  refine replaceUnderJournal_guarded platform (written.onMemory ?_ written.rememberedKind) rfl rfl
  intro hashes listed
  rw [← Option.some.inj listed]
  exact fits.rollbackKnown

theorem install_guarded (guarded : Guarded platform genuine world) (noJournal : world.disk.journal = none)
    (staging : transaction.kind = .transaction) (fine : ∀ pair ∈ world.disk.pairIn transaction, genuine pair) :
    Settles platform genuine
      (install platform candidateVersion transaction currentVersion) world := by
  have takenUp := guarded.takingUp fun pair listed => fine pair (Option.mem_toList.mp listed)
  have numbered := takenUp.numbering (world.disk.freshUuid + 1)
  have unnamed (directory : DirectoryName) :
      ∀ journal ∈ world.disk.journal, journal.rollbackDirectory ≠ directory := by
    rw [noJournal]
    exact fun _ listed => nomatch listed
  have different : transaction ≠ ⟨.rollback, world.disk.freshUuid⟩ := by
    intro same
    rw [same] at staging
    contradiction
  have made := numbered.inserting (unnamed ⟨.rollback, world.disk.freshUuid⟩) fun _ _ => .ofNone
  refine .bind (.update (.bind (.bind (Ensures.inspect takenUp (.pure ?_) (.pure ?_)))))
  case refine_2 => exact .pure ⟨takenUp, nofun⟩
  split
  · exact .pure ⟨takenUp, nofun⟩
  refine .bind (Ensures.createUuid (.bind (Ensures.attempt numbered made ?_ ?_)))
  case refine_2 => exact .pure ⟨numbered, nofun⟩
  refine installOverBackup_guarded platform made noJournal (fun candidate found => ?_) different rfl
    (by simp [World.onDisk])
  refine List.mem_append_left _ ?_
  rw [Option.mem_toList, ← found]
  exact (Disk.pairIn_congr (AList.lookup_insert_ne different)).symm

end

end

end Amnezia.Headless
