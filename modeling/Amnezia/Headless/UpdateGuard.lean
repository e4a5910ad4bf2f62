import Amnezia.Headless.UpdateReceipts

/-! # Whatever fails, the installed pair can be repaired -/

namespace Amnezia.Headless
open Lib Procedure

variable {Content α : Type}

def Known (hashing : Hashing Content) (pairs : List (Pair Content)) (hashes : Pair String) : Prop :=
  ∃ pair ∈ pairs, pair.map hashing.sha256 = hashes

structure Journal.Fits (hashing : Hashing Content) (world : World Content) (journal : Journal) : Prop where
  holds : world.disk.Holds hashing journal.rollbackDirectory journal.rollbackHashes
  rollbackKnown : Known hashing world.pairs journal.rollbackHashes
  candidateKnown : Known hashing world.pairs journal.candidateHashes
  rollbackKind : journal.rollbackDirectory.kind = .rollback
  previousKind : ∀ directory ∈ journal.previousDirectory, directory.kind = .rollbackCurrent

def FileOf (genuine : Pair Content → Prop) (name : ManagedFile) (content : Content) : Prop :=
  ∃ pair, genuine pair ∧ pair.get name = content

structure Guarded (hashing : Hashing Content) (genuine : Pair Content → Prop) (world : World Content) :
    Prop where
  fits : ∀ journal ∈ world.disk.journal, journal.Fits hashing world
  acknowledged : ∀ journal ∈ world.disk.journal, journal.phase.isAcknowledged = true →
    world.disk.installed ∈ world.pairs
  unjournaled : world.disk.journal = none → world.disk.installed ∈ world.pairs
  remembered : ∀ hashes ∈ world.memory.rollbackHashes, Known hashing world.pairs hashes
  rememberedKind : ∀ directory ∈ world.memory.rollbackDirectory, directory.kind = .rollback
  saved : ∀ receipt ∈ world.disk.state, (∀ hashes ∈ receipt.rollbackHashes, Known hashing world.pairs hashes) ∧
    ∀ directory ∈ receipt.rollbackDirectory, directory.kind = .rollback
  files : ∀ directory name content, world.disk.file directory name = some content → FileOf genuine name content
  installed : ∀ name, FileOf genuine name (world.disk.installed.get name)
  renamed : ∀ entry ∈ world.renames, FileOf genuine entry.1 entry.2
  taken : ∀ pair ∈ world.pairs, genuine pair

abbrev Secures (hashing : Hashing Content) (genuine : Pair Content → Prop) (procedure : Action Content α)
    (after : α → World Content → Prop) (world : World Content) : Prop :=
  Ensures (rough (Guarded hashing genuine)) procedure
    (fun value later => Guarded hashing genuine later ∧ after value later) world

abbrev Settles {ε : Type} (hashing : Hashing Content) (genuine : Pair Content → Prop)
    (procedure : Action Content (Except ε Unit)) (world : World Content) : Prop :=
  Secures hashing genuine procedure (fun result later => result = .ok () → later.disk.installed ∈ later.pairs) world

variable {hashing : Hashing Content} {genuine : Pair Content → Prop} {world later : World Content}

theorem Known.mem {pair : Pair Content} {pairs : List (Pair Content)}
    (known : Known hashing pairs (pair.map hashing.sha256)) : pair ∈ pairs := by
  obtain ⟨other, listed, same⟩ := known
  have equal : other = pair := by
    refine Pair.ext_get fun name => hashing.injective ?_
    have found := congrArg (Pair.get · name) same
    simpa using found
  rwa [equal] at listed

theorem Known.mono {pairs more : List (Pair Content)} {hashes : Pair String}
    (known : Known hashing pairs hashes) (subset : pairs ⊆ more) : Known hashing more hashes := by
  obtain ⟨pair, listed, same⟩ := known
  exact ⟨pair, subset listed, same⟩

theorem Disk.Holds.frame {disk other : Disk Content} {directory : DirectoryName} {hashes : Pair String}
    (holds : disk.Holds hashing directory hashes)
    (same : other.directories.lookup directory = disk.directories.lookup directory) :
    other.Holds hashing directory hashes := by
  intro name
  rw [← holds name, Disk.file, Disk.file, same]

variable {journal : Journal}

theorem Journal.Fits.frame (fits : journal.Fits hashing world)
    (same : later.disk.directories.lookup journal.rollbackDirectory =
      world.disk.directories.lookup journal.rollbackDirectory)
    (pairs : later.pairs = world.pairs) : journal.Fits hashing later :=
  { fits with
    holds := fits.holds.frame same
    rollbackKnown := pairs ▸ fits.rollbackKnown
    candidateKnown := pairs ▸ fits.candidateKnown }

theorem Journal.Fits.atPhase (fits : journal.Fits hashing world) (phase : Phase) :
    Journal.Fits hashing world { journal with phase := phase } :=
  { fits with }

abbrev Aside (world later : World Content) : Prop :=
  later = { world with disk := { world.disk with
    rollbackReceipt := later.disk.rollbackReceipt
    gcMarker := later.disk.gcMarker
    nextUuid := later.disk.nextUuid
    directories := later.disk.directories } }

namespace Guarded

variable {memory : Memory}

section

variable (guarded : Guarded hashing genuine world)
include guarded

theorem onMemory (hashes : ∀ hashes ∈ memory.rollbackHashes, Known hashing world.pairs hashes)
    (directory : ∀ directory ∈ memory.rollbackDirectory, directory.kind = .rollback) :
    Guarded hashing genuine { world with memory := memory } :=
  { guarded with
    fits journal listed := (guarded.fits journal listed).frame rfl rfl
    remembered := hashes
    rememberedKind := directory }

theorem noting (hashes : memory.rollbackHashes = world.memory.rollbackHashes)
    (directory : memory.rollbackDirectory = world.memory.rollbackDirectory) :
    Guarded hashing genuine { world with memory := memory } :=
  guarded.onMemory (hashes ▸ guarded.remembered) (directory ▸ guarded.rememberedKind)

theorem forgetting (hashes : memory.rollbackHashes = none) (directory : memory.rollbackDirectory = none) :
    Guarded hashing genuine { world with memory := memory } :=
  guarded.onMemory (fun _ listed => by rw [hashes] at listed; contradiction)
    (fun _ listed => by rw [directory] at listed; contradiction)

theorem saving :
    Guarded hashing genuine
      (world.onDisk fun disk => { disk with state := some world.memory.receipt }) :=
  { guarded with
    fits journal listed := (guarded.fits journal listed).frame rfl rfl
    saved receipt listed := by
      cases Option.some.inj listed
      exact ⟨guarded.remembered, guarded.rememberedKind⟩ }

theorem journaling (fits : journal.Fits hashing world)
    (acknowledged : journal.phase.isAcknowledged = true → world.disk.installed ∈ world.pairs) :
    Guarded hashing genuine (world.onDisk fun disk => { disk with journal := some journal }) :=
  { guarded with
    fits other listed := by
      cases Option.some.inj listed
      exact fits.frame rfl rfl
    acknowledged other listed := by
      cases Option.some.inj listed
      exact acknowledged
    unjournaled absent := by contradiction }

theorem unjournaling (known : world.disk.installed ∈ world.pairs) :
    Guarded hashing genuine (world.onDisk fun disk => { disk with journal := none }) :=
  { guarded with
    fits other listed := by contradiction
    acknowledged other listed := by contradiction
    unjournaled _ := known }

theorem aside (same : Aside world later)
    (kept : ∀ journal ∈ world.disk.journal, later.disk.directories.lookup journal.rollbackDirectory =
      world.disk.directories.lookup journal.rollbackDirectory)
    (files : ∀ directory name content, later.disk.file directory name = some content → FileOf genuine name content) :
    Guarded hashing genuine later := by
  rw [same]
  exact
    { guarded with
      fits := fun other listed => (guarded.fits other listed).frame (kept other listed) rfl
      files := files }

theorem collected (collected : Collected world later) :
    Guarded hashing genuine later := by
  refine guarded.aside (by rw [collected.same]) (fun journal listed => collected.kept _ ?_)
    fun directory name content found =>
      guarded.files directory name content (collected.files directory name content found)
  have present : world.disk.journal = some journal := listed
  simp [World.named, present, Journal.directories]

theorem takingUp {more : List (Pair Content)} (fine : ∀ pair ∈ more, genuine pair) :
    Guarded hashing genuine { world with pairs := more ++ world.pairs } := by
  have wider : world.pairs ⊆ more ++ world.pairs := fun _ listed => List.mem_append_right more listed
  exact
    { guarded with
      fits := fun journal listed =>
        have fits := guarded.fits journal listed
        { fits with
          rollbackKnown := fits.rollbackKnown.mono wider
          candidateKnown := fits.candidateKnown.mono wider }
      acknowledged := fun journal listed done => wider (guarded.acknowledged journal listed done)
      unjournaled := fun absent => wider (guarded.unjournaled absent)
      remembered := fun hashes listed => (guarded.remembered hashes listed).mono wider
      saved := fun receipt listed => ⟨fun hashes recorded =>
        ((guarded.saved receipt listed).1 hashes recorded).mono wider, (guarded.saved receipt listed).2⟩
      taken := fun pair listed => (List.mem_append.mp listed).elim (fine pair) (guarded.taken pair) }

end

end Guarded

def World.renamed (world : World Content) (name : ManagedFile) (content : Content) : World Content :=
  { world with
    disk := { world.disk with installed := world.disk.installed.set name content }
    renames := (name, content) :: world.renames }

def Underway (world : World Content) : Prop :=
  ∃ journal, world.disk.journal = some journal ∧ journal.phase.isAcknowledged = false

theorem Guarded.renaming (guarded : Guarded hashing genuine world) (underway : Underway world)
    {name : ManagedFile} {content : Content} (fine : FileOf genuine name content) :
    Guarded hashing genuine (world.renamed name content) := by
  obtain ⟨journal, present, pending⟩ := underway
  refine
    { guarded with
      fits := fun other listed => (guarded.fits other listed).frame rfl rfl
      acknowledged := fun other listed done => ?_
      unjournaled := fun absent => absurd (present.symm.trans absent) (Option.some_ne_none _)
      installed := fun other => ?_
      renamed := fun entry listed => ?_ }
  · have same : other = journal := Option.some.inj (listed.symm.trans present)
    rw [same, pending] at done
    contradiction
  · unfold World.renamed
    rw [Pair.get_set]
    split
    · next same => exact same ▸ fine
    · exact guarded.installed other
  · rcases List.mem_cons.mp listed with rfl | earlier
    · exact fine
    · exact guarded.renamed entry earlier

section
variable {conditions : Conditions (World Content) Outcome} (platform : Platform Content)

theorem passAll_ensures (messages : List String) (held : conditions.invariant world) :
    Ensures conditions (passAll messages) (fun _ later => later = world) world := by
  have same : Keeps (conditions.keeping (· = world)) (passAll messages : Action Content (Option String)) :=
    Keeps.passAll messages
  exact (same world rfl).weaken fun _ equal => equal ▸ held

theorem atomicReplace_ensures (content : Content) (name : ManagedFile) (expected : String) (size : Option Nat)
    (held : conditions.invariant world) (changed : conditions.invariant (world.renamed name content)) :
    Ensures conditions (atomicReplace platform content name expected size) (fun replacement later =>
      (later = world ∧ replacement.error ≠ none) ∨
        (later = world.renamed name content ∧ (expected ≠ "" → platform.sha256 content = expected))) world := by
  refine .bind (Ensures.synchronize held fun readable => ?_)
  split
  · exact .pure (.inl ⟨rfl, Option.some_ne_none _⟩)
  · next passed =>
    have hashed : expected ≠ "" → platform.sha256 content = expected := by
      intro nonempty
      simp only [not_or, not_and, not_not] at passed
      exact (passed.2.1 nonempty).2
    refine .call (passAll_ensures _ held) ?_
    rintro (_ | message) later rfl
    · refine Ensures.perform fun outcome _ => ?_
      cases outcome with
      | done => exact ⟨changed, .inr ⟨rfl, hashed⟩⟩
      | failed => exact ⟨held, .inl ⟨rfl, Option.some_ne_none _⟩⟩
      | unsynced => exact ⟨changed, .inr ⟨rfl, hashed⟩⟩
    · exact .pure (.inl ⟨rfl, Option.some_ne_none _⟩)

end

end Amnezia.Headless
