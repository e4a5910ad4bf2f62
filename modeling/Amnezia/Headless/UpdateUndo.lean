import Amnezia.Headless.UpdateRepair

/-! # Retiring a journal and rolling back keep the guard -/

namespace Amnezia.Headless
open Lib Procedure

variable {Content α : Type} {genuine : Pair Content → Prop} {world later : World Content}
  {hashing : Hashing Content}

abbrev GuardedWith (hashing : Hashing Content) (genuine : Pair Content → Prop) (journal : Option Journal) :
    World Content → Prop :=
  GuardedBy hashing genuine fun stored _ _ => stored = journal

theorem recreateJournal_guarded {journal : Journal} (guarded : Guarded hashing genuine world)
    (fits : journal.Fits hashing world) (known : world.disk.installed ∈ world.pairs) :
    Secures hashing genuine (recreateJournal journal)
      (fun result _ => ∃ message, result = .error message) world := by
  have framed := Guarded.framed hashing genuine
  have written := guarded.journaling fits fun _ => known
  have failed {later : World Content} {message : String} (kept : Guarded hashing genuine later)
      (fits : journal.Fits hashing later) :
      Secures hashing genuine (do
          let present ← look fun disk => disk.journal.isSome
          if !present ∧ journal.phase = .rollbackAcknowledged then
            remember fun memory => { memory with
              rollbackDirectory := some journal.rollbackDirectory
              rollbackVersion := journal.currentVersion
              rollbackHashes := some journal.rollbackHashes }
            let _ ← saveState
            return .error (orElse message "headless acknowledgement journal could not be recreated")
          else return .error (orElse message "headless acknowledgement journal could not be recreated"))
        (fun (result : Except String Unit) last =>
          ∃ message, result = .error message) later := by
    refine .bind (Ensures.look ?_)
    split
    · refine .bind (Ensures.remember (.call (framed.saveState _ (kept.onMemory ?_ ?_))
        fun _ _ saved => .pure ⟨saved, _, rfl⟩))
      · intro hashes listed
        rw [← Option.some.inj listed]
        exact fits.rollbackKnown
      · intro directory listed
        rw [← Option.some.inj listed]
        exact fits.rollbackKind
    · exact .pure ⟨kept, _, rfl⟩
  refine .bind (Ensures.writeJournal guarded written (.pure ⟨written, _, rfl⟩) (fun _ => failed guarded fits) ?_)
  exact failed written (fits.frame rfl rfl)

theorem forgetRolledBack_keeps (journal : Journal) (journaled : Option Journal) :
    Keeps (rough (GuardedWith hashing genuine journaled)) (forgetRolledBack journal) := by
  refine .ite (Keeps.remember fun world kept => ?_) (.pure _)
  exact ⟨kept.guarded.forgetting rfl rfl, kept.fact⟩

theorem removeJournal_guarded {journal : Journal} (kept : GuardedWith hashing genuine (some journal) world)
    (acknowledged : journal.phase.isAcknowledged = true) :
    Secures hashing genuine (do
        let removed ← attempt fun disk => { disk with journal := none }
        if !removed then
          return .error "headless acknowledgement journal cannot be retired safely"
        else
          let removalSynced ← synchronize
          if !removalSynced then recreateJournal journal
          else
            collectGarbage
            return .ok ())
      (fun result later => (result = .ok () → later.disk.journal = none)) world := by
  have known := kept.guarded.acknowledged journal kept.fact acknowledged
  have removed := kept.guarded.unjournaling known
  refine .bind (Ensures.attempt kept.guarded removed ?_ (.pure ⟨kept.guarded, nofun⟩))
  refine .bind (Ensures.synchronize removed fun removalSynced => ?_)
  split
  · have fits : journal.Fits hashing (world.onDisk fun disk => { disk with journal := none }) :=
      (kept.guarded.fits journal kept.fact).frame rfl rfl
    refine (recreateJournal_guarded removed fits known).mono ?_
    rintro result later ⟨keptLater, message, rfl⟩
    exact ⟨keptLater, nofun⟩
  · have unjournaled : GuardedWith hashing genuine none (world.onDisk fun disk => { disk with journal := none }) :=
      ⟨removed, rfl⟩
    refine .call (unjournaled.along GuardedBy.framed.collectGarbage) ?_
    exact fun _ later collected => .pure ⟨collected.guarded, fun _ => collected.fact⟩

theorem retireAcknowledgedJournal_guarded (guarded : Guarded hashing genuine world) :
    Secures hashing genuine retireAcknowledgedJournal
      (fun result later => (result = .ok () → later.disk.journal = none)) world := by
  have refused {later : World Content} {message : String} (kept : Guarded hashing genuine later) :
      Secures hashing genuine (pure (.error message))
        (fun (result : Except String Unit) last =>
          (result = .ok () → last.disk.journal = none)) later :=
    .pure ⟨kept, nofun⟩
  refine .bind (Ensures.look ?_)
  cases present : world.disk.journal with
  | none => exact .pure ⟨guarded, fun _ => present⟩
  | some journal =>
    refine .bind (Ensures.inspect guarded ?_ (refused guarded))
    rw [present]
    dsimp only
    split
    · exact refused guarded
    split
    · exact refused guarded
    next acknowledged _ =>
      have framed : Framed (GuardedWith hashing genuine (some journal)) := GuardedBy.framed
      have journaled : GuardedWith hashing genuine (some journal) world := ⟨guarded, present⟩
      have acknowledged : journal.phase.isAcknowledged = true := by simpa using acknowledged
      refine .call (journaled.along (framed.writeGcMarker _)) ?_
      intro marked later kept
      split
      · exact refused kept.guarded
      refine .call (kept.along (forgetRolledBack_keeps journal _)) ?_
      intro _ forgotten keptForgotten
      refine .call (keptForgotten.along framed.saveState) ?_
      intro saved last keptSaved
      split
      · exact .bind (Ensures.remember (refused (keptSaved.guarded.noting rfl rfl)))
      · exact removeJournal_guarded keptSaved acknowledged

structure Staged (world later : World Content) : Prop where
  same : Aside world later
  kept : ∀ directory, directory.kind = .rollback →
    later.disk.directories.lookup directory = world.disk.directories.lookup directory

structure GuardedStaged (hashing : Hashing Content) (genuine : Pair Content → Prop)
    (start world : World Content) : Prop where
  guarded : Guarded hashing genuine world
  staged : Staged start world

namespace GuardedStaged

variable {start : World Content} {directory : DirectoryName}

theorem refl (guarded : Guarded hashing genuine world) : GuardedStaged hashing genuine world world :=
  ⟨guarded, rfl, fun _ _ => rfl⟩

theorem unnamed (guarded : Guarded hashing genuine world) (kind : directory.kind ≠ .rollback) :
    ∀ journal ∈ world.disk.journal, journal.rollbackDirectory ≠ directory := by
  rintro journal listed rfl
  exact kind (guarded.fits journal listed).rollbackKind

section

variable (kept : GuardedStaged hashing genuine start world)
include kept

theorem aside (same : Aside world later) (others : ∀ directory, directory.kind = .rollback →
      later.disk.directories.lookup directory = world.disk.directories.lookup directory)
    (files : ∀ directory name content, later.disk.file directory name = some content → FileOf genuine name content) :
    GuardedStaged hashing genuine start later where
  guarded := kept.guarded.aside same
    (fun journal listed => others _ (kept.guarded.fits journal listed).rollbackKind) files
  staged := by
    refine ⟨?_, fun directory rollback => (others directory rollback).trans (kept.staged.kept directory rollback)⟩
    rw [same, kept.staged.same]

theorem number (number : Nat) :
    GuardedStaged hashing genuine start (world.onDisk fun disk => { disk with nextUuid := number }) :=
  kept.aside rfl (fun _ _ => rfl) kept.guarded.files

theorem mark (marker : Option (List Garbage)) :
    GuardedStaged hashing genuine start (world.onDisk fun disk => { disk with gcMarker := marker }) :=
  kept.aside rfl (fun _ _ => rfl) kept.guarded.files

section

variable (kind : directory.kind ≠ .rollback)
include kind

theorem fill (filling : Filling directory world later)
    (fine : ∀ name content, later.disk.file directory name = some content → FileOf genuine name content) :
    GuardedStaged hashing genuine start later := by
  refine kept.aside filling.same (fun other rollback => filling.others other ?_)
    (filling.files kept.guarded.files fine)
  rintro rfl
  exact kind rollback

theorem dropFile (name : ManagedFile) :
    GuardedStaged hashing genuine start (world.onDisk fun disk => disk.setFile directory name none) :=
  kept.fill kind (Filling.setFile world directory name none) fun other content found =>
    kept.guarded.files directory other content (Disk.file_of_setFile_none found)

theorem backUp (name : ManagedFile) : GuardedStaged hashing genuine start (world.backedUp directory name) := by
  have guarded := kept.guarded.backingUp (unnamed kept.guarded kind) name
  exact kept.fill kind (Filling.setFile world directory name _) (guarded.files directory)

theorem insert :
    GuardedStaged hashing genuine start (world.onDisk fun disk =>
      { disk with directories := disk.directories.insert directory ⟨none, none⟩ }) := by
  refine kept.fill kind (Filling.insert world directory ⟨none, none⟩) fun name content found => ?_
  rw [World.onDisk, Disk.file_insert, if_pos rfl] at found
  exact .ofNone found

theorem erase :
    GuardedStaged hashing genuine start (world.onDisk fun disk =>
      { disk with directories := disk.directories.erase directory }) := by
  refine kept.aside rfl (fun other rollback => AList.lookup_erase_ne ?_) fun other name content found => ?_
  · rintro rfl
    exact kind rollback
  · simp only [World.onDisk, Disk.file] at found
    by_cases same : other = directory
    · rw [same, AList.lookup_erase] at found
      contradiction
    · rw [AList.lookup_erase_ne same] at found
      exact kept.guarded.files other name content found

end

end

theorem cleanup (kind : directory.kind ≠ .rollback) :
    Keeps (rough (GuardedStaged hashing genuine start)) (cleanupCurrentStaging directory) := by
  have drop (name : ManagedFile) : Keeps (rough (GuardedStaged hashing genuine start))
      (attempt fun disk => disk.setFile directory name none) :=
    Keeps.attempt fun _ kept => kept.dropFile kind name
  have removal : Keeps (rough (GuardedStaged hashing genuine start)) (removeRecursively directory) :=
    (drop _).bind fun _ => (drop _).bind fun _ => .ite (Keeps.attempt fun _ kept => kept.erase kind) (.pure _)
  have marking : Keeps (rough (GuardedStaged hashing genuine start)) (writeGcMarker [.directory directory]) :=
    .ite (.pure _) ((Keeps.inspect _).bind fun _ => Keeps.commit fun _ kept => kept.mark _)
  exact (Keeps.look _).bind fun _ => .ite (.pure _)
    (removal.bind fun _ => .ite (.pure _) (marking.bind fun _ => .pure _))

end GuardedStaged

section
variable (platform : Platform Content)

theorem backUpCurrent_keeps {start : World Content} {directory : DirectoryName} (kind : directory.kind ≠ .rollback)
    (name : ManagedFile) :
    Keeps (rough (GuardedStaged platform genuine start)) (backUpCurrent platform directory name) := by
  refine Keeps.bind (Keeps.commit ?_) fun copied => .ite (.pure _) ?_
  · exact fun _ kept => kept.backUp kind name
  exact ((Keeps.inspect _).bind fun _ => .pure _).bind fun _ => .pure _

variable {conditions : Conditions (World Content) Outcome}

theorem forManaged_keeps
    {step : ManagedFile → Action Content (Except String α)} (each : ∀ name, Keeps conditions (step name)) :
    Keeps conditions (forManaged step) := by
  refine (each _).bind fun first => ?_
  cases first with
  | error message => exact .pure _
  | ok first =>
    refine (each _).bind fun second => ?_
    cases second with
    | error message => exact .pure _
    | ok second => exact .pure _

theorem stageCurrentPair_guarded (guarded : Guarded platform genuine world) :
    Ensures (rough (Guarded platform genuine)) (stageCurrentPair platform)
      (fun result later => GuardedStaged platform genuine world later ∧
        ∀ current, result = .ok current → current.directory.kind = .rollbackCurrent) world := by
  refine rough.weaken ?_ fun _ (kept : GuardedStaged platform.toHashing genuine world _) => kept.guarded
  have kind : DirectoryName.kind ⟨.rollbackCurrent, world.disk.freshUuid⟩ ≠ .rollback :=
    show DirectoryKind.rollbackCurrent ≠ .rollback by decide
  have numbered := (GuardedStaged.refl guarded).number (world.disk.freshUuid + 1)
  refine .bind (Ensures.createUuid (.bind (Ensures.attempt numbered (numbered.insert kind) ?_ ?_)))
  case refine_2 => exact .pure ⟨numbered, nofun⟩
  have abandon {later : World Content} {message : String}
      (kept : GuardedStaged platform.toHashing genuine world later) :
      Ensures (rough (GuardedStaged platform genuine world)) (do
          cleanupCurrentStaging ⟨.rollbackCurrent, world.disk.freshUuid⟩
          return .error message)
        (fun (result : Except String CurrentPair) last => GuardedStaged platform genuine world last ∧
          ∀ current, result = .ok current → current.directory.kind = .rollbackCurrent) later :=
    .call (GuardedStaged.cleanup kind later kept) fun _ _ kept => .pure ⟨kept, nofun⟩
  refine .call (forManaged_keeps (backUpCurrent_keeps platform kind) _ (numbered.insert kind)) ?_
  rintro (message | hashes) later kept
  · exact abandon kept
  · refine .bind (Ensures.synchronize kept fun staged => ?_)
    split
    · exact abandon kept
    · refine .bind (Ensures.look (.pure ⟨kept, fun current same => ?_⟩))
      rw [← Except.ok.inj same]

variable {journal : Journal} {rollback : DirectoryName} {hashes : Pair String}

theorem resumeCurrentPair_ensures (held : conditions.invariant world) :
    Ensures conditions (resumeCurrentPair platform journal) (fun result later => later = world ∧
      ∀ current, result = .ok current → some current.directory = journal.previousDirectory) world := by
  unfold resumeCurrentPair
  split
  · next directory hashes named _ =>
    refine .bind (Ensures.look ?_)
    split
    · exact .pure ⟨rfl, nofun⟩
    · refine .call (verifyPair_ensures platform _ _ held) ?_
      rintro verified later ⟨rfl, -⟩
      split
      · exact .pure ⟨rfl, nofun⟩
      · refine .pure ⟨rfl, fun current same => ?_⟩
        rw [← Except.ok.inj same, named]
  · exact .pure ⟨rfl, nofun⟩

section

variable (guarded : Guarded platform genuine world)
include guarded

theorem restoreCurrent_guarded (underway : Underway world)
    (current : CurrentPair) (names : List ManagedFile) :
    Secures platform genuine (restoreCurrent platform current names)
      (fun _ later => Replacing world later) world := by
  induction names generalizing world with
  | nil => exact .pure ⟨guarded, .refl world⟩
  | cons name rest ih =>
    have continued {restored : Bool} {later : World Content} (kept : Guarded platform.toHashing genuine later)
        (replacing : Replacing world later) :
        Secures platform genuine (do
            let others ← restoreCurrent platform current rest
            return restored && others)
          (fun _ last => Replacing world last) later :=
      .call (ih kept (underway.replacing replacing)) fun _ _ both =>
        .pure ⟨both.1, replacing.trans both.2⟩
    refine .bind (.call (stageCopy_ensures current.directory name guarded) ?_)
    rintro (_ | content) later ⟨rfl, found⟩
    · exact .pure (continued guarded (.refl later))
    · have fine := guarded.files current.directory name content (found content rfl)
      exact .call (atomicReplace_guarded platform guarded underway fine _ _)
        fun _ _ both => .pure (continued both.1 both.2.1)

theorem rollBackManaged_guarded (underway : Underway world)
    (rollback : DirectoryName) (hashes : Pair String) (replaced names : List ManagedFile)
    (distinct : names.Nodup) :
    Secures platform genuine (rollBackManaged platform rollback hashes replaced names)
      (fun rolledBack later => Replacing world later ∧
        (rolledBack.error = none →
          Installs platform hashes names world.disk.installed later.disk.installed)) world := by
  have failed {start later : World Content} {replaced : List ManagedFile} {message : String}
      {fact : World Content → Prop} (kept : Guarded platform.toHashing genuine later)
      (replacing : Replacing start later) :
      Secures platform genuine (pure ⟨replaced, some message⟩)
        (fun (rolledBack : RolledBack) last =>
          Replacing start last ∧ (rolledBack.error = none → fact last)) later :=
    .pure ⟨kept, replacing, nofun⟩
  induction names generalizing world replaced with
  | nil => exact .pure ⟨guarded, .refl world, fun _ => .nil⟩
  | cons name rest ih =>
    obtain ⟨fresh, distinctRest⟩ := List.nodup_cons.mp distinct
    refine .call (verifyRollbackFile_ensures platform.toHashing _ _ _ guarded) ?_
    rintro verified later ⟨rfl, hashed⟩
    split
    · exact failed guarded (.refl later)
    · next passed =>
      refine .call (stageCopy_ensures rollback name guarded) ?_
      rintro (_ | content) later ⟨rfl, found⟩
      · exact failed guarded (.refl later)
      · have fine := guarded.files rollback name content (found content rfl)
        have content : platform.sha256 content = hashes.get name := by
          have same := hashed (by simpa using passed)
          rw [found content rfl] at same
          exact Option.some.inj same
        refine .call (atomicReplace_guarded platform guarded underway fine _ _) ?_
        rintro replacement middle ⟨kept, replacing, installed⟩
        cases outcome : replacement.error with
        | some message => exact failed kept replacing
        | none =>
          refine (ih kept (underway.replacing replacing) (replaced ++ [name]) distinctRest).mono ?_
          rintro rolledBack last ⟨keptLast, replacingLast, success⟩
          exact ⟨keptLast, replacing.trans replacingLast,
            fun ok => .cons fresh content (installed outcome).1 (success ok)⟩

theorem undoRollback_guarded
    (present : world.disk.journal = some journal) (pending : journal.phase.isAcknowledged = false)
    (current : CurrentPair) (replaced : List ManagedFile) (message recovery : String) :
    Secures platform genuine
      (undoRollback platform journal current replaced message recovery)
      (fun result _ => result = .error message) world := by
  have framed := Guarded.framed platform genuine
  have failed {later : World Content} {error : String} (kept : Guarded platform.toHashing genuine later) :
      Secures platform genuine (do
          let _ ← requireRecovery (invalid ∘ withError error) message
          return .error message)
        (fun (result : Except String Unit) last =>
          result = .error message) later :=
    .call (framed.requireRecovery kept) fun _ _ both => .pure ⟨both.1, rfl⟩
  refine .call (restoreCurrent_guarded platform guarded ⟨journal, present, pending⟩ current replaced) ?_
  rintro restored later ⟨kept, replacing⟩
  split
  · exact failed kept
  · have journaled := replacing.journal.trans present
    have written := kept.journaling ((kept.fits journal journaled).atPhase .replaced)
      fun done => absurd done Bool.false_ne_true
    exact .bind (Ensures.writeJournal kept written (.pure ⟨written, rfl⟩) (fun _ => failed kept) (failed written))

theorem replaceByRollback_guarded
    (present : world.disk.journal = some journal) (pending : journal.phase.isAcknowledged = false)
    (current : CurrentPair) :
    Settles platform genuine (replaceByRollback platform journal current) world := by
  refine .call (rollBackManaged_guarded platform guarded ⟨journal, present, pending⟩ journal.rollbackDirectory
    journal.rollbackHashes [] managedPayloadFiles (by decide)) ?_
  rintro rolledBack later ⟨kept, replacing, success⟩
  have journaled := replacing.journal.trans present
  have undone {last : World Content} {message recovery : String}
      (keptLast : Guarded platform.toHashing genuine last) (same : last.disk.journal = some journal) :
      Settles platform genuine
        (undoRollback platform journal current rolledBack.replaced message recovery) last :=
    (undoRollback_guarded platform keptLast same pending current _ _ _).mono fun _ _ both =>
      ⟨both.1, fun ok => nomatch both.2.symm.trans ok⟩
  cases outcome : rolledBack.error with
  | some message => exact undone kept journaled
  | none =>
    have fits := kept.fits journal journaled
    have written := kept.journaling fits fun done => absurd done (by rw [pending]; decide)
    refine .bind (Ensures.writeJournal kept written (.pure ⟨written, fun _ => ?_⟩)
      (fun _ => undone kept journaled) (undone written rfl))
    exact (success outcome).known fits.rollbackKnown

theorem beginRollback_guarded (holds : world.disk.Holds platform rollback hashes)
    (known : Known platform world.pairs hashes) (kind : rollback.kind = .rollback)
    (named : journal.rollbackDirectory = rollback)
    (previous : ∀ directory ∈ journal.previousDirectory, directory.kind = .rollbackCurrent) :
    Settles platform genuine (beginRollback platform journal rollback hashes) world := by
  have taken : Ensures (rough (Guarded platform genuine))
      (if journal.phase = .rollbackRestartPending then resumeCurrentPair platform journal
        else stageCurrentPair platform)
      (fun result later => GuardedStaged platform genuine world later ∧
        ∀ current, result = .ok current → current.directory.kind = .rollbackCurrent) world := by
    split
    · refine (resumeCurrentPair_ensures platform guarded).mono ?_
      rintro result later ⟨rfl, resumed⟩
      exact ⟨.refl guarded, fun current same => previous _ (resumed current same).symm⟩
    · exact stageCurrentPair_guarded platform guarded
  refine .call taken ?_
  rintro (message | current) later ⟨kept, staged⟩
  · exact .pure ⟨kept.guarded, nofun⟩
  · have pairs : later.pairs = world.pairs := by rw [kept.staged.same]
    refine .bind (Ensures.remember (.bind (Ensures.consult (.bind (Ensures.look ?_)))))
    have noted : Guarded platform genuine { later with memory := { later.memory with
        currentRollbackDirectory := some current.directory } } := kept.guarded.noting rfl rfl
    have fits (version : String) (sizes : Pair Nat) :
        (journal.rollingBack version hashes sizes current).Fits platform { later with
          memory := { later.memory with currentRollbackDirectory := some current.directory } } := by
      constructor
      case holds =>
        rw [Journal.rollingBack, named]
        exact holds.frame (kept.staged.kept rollback kind)
      case rollbackKnown => exact pairs ▸ known
      case candidateKnown => exact pairs ▸ known
      case rollbackKind => exact named ▸ kind
      case previousKind =>
        intro directory listed
        rw [← Option.some.inj listed]
        exact staged current rfl
    have written := noted.journaling (fits later.memory.rollbackVersion (later.disk.sizes platform rollback))
      fun done => absurd done Bool.false_ne_true
    have abandoned {last : World Content} {message : String} (kept : Guarded platform.toHashing genuine last) :
        Settles platform genuine (do
            cleanupCurrentStaging current.directory
            remember fun memory => { memory with currentRollbackDirectory := none }
            return .error message) last := by
      have cleaning : Keeps (rough (GuardedStaged platform genuine last))
          (cleanupCurrentStaging current.directory) :=
        GuardedStaged.cleanup (by rw [staged current rfl]; decide)
      refine .call (rough.keeping cleaning (fun _ => GuardedStaged.guarded) (.refl kept)) fun _ final cleaned => ?_
      exact .bind (Ensures.remember (.pure ⟨cleaned.guarded.noting rfl rfl, nofun⟩))
    refine .bind (Ensures.writeJournal noted written ?_ (fun _ => abandoned noted) (abandoned written))
    exact replaceByRollback_guarded platform written rfl rfl current

theorem freshRollbackJournal_guarded :
    Secures platform genuine (freshRollbackJournal platform rollback hashes)
      (fun result later => ∀ journal, result = .ok journal →
        Staged world later ∧ journal.previousDirectory = none) world := by
  have framed := Guarded.framed platform genuine
  refine .bind (Ensures.consult ?_)
  split
  · refine (framed.giveUp guarded).mono ?_
    rintro result later ⟨kept, rfl⟩
    exact ⟨kept, fun _ => nofun⟩
  · have kind : DirectoryName.kind ⟨.recoveryReceipt, world.disk.freshUuid⟩ ≠ .rollback :=
      show DirectoryKind.recoveryReceipt ≠ .rollback by decide
    have numbered := (GuardedStaged.refl guarded).number (world.disk.freshUuid + 1)
    have made := numbered.insert kind
    refine .bind (Ensures.createUuid (.bind (Ensures.attempt numbered.guarded made.guarded ?_ ?_)))
    · refine .bind (Ensures.look (.pure ⟨made.guarded, fun journal same => ⟨made.staged, ?_⟩⟩))
      rw [← Except.ok.inj same]
    · exact .pure ⟨numbered.guarded, fun _ => nofun⟩

theorem rollbackJournal_guarded :
    Secures platform genuine (rollbackJournal platform rollback hashes)
      (fun result later => ∀ journal, result = .ok journal →
        Staged world later ∧ ∀ directory ∈ journal.previousDirectory, directory.kind = .rollbackCurrent) world := by
  have framed := Guarded.framed platform genuine
  have gaveUp : Secures platform genuine
      (giveUp "rollback transaction journal is corrupt")
      (fun (result : Except String Journal) later =>
        ∀ journal, result = .ok journal → Staged world later ∧
          ∀ directory ∈ journal.previousDirectory, directory.kind = .rollbackCurrent) world := by
    refine (framed.giveUp guarded).mono ?_
    rintro result later ⟨kept, rfl⟩
    exact ⟨kept, fun _ => nofun⟩
  refine .bind (Ensures.look ?_)
  cases present : world.disk.journal with
  | none =>
    refine (freshRollbackJournal_guarded platform guarded).mono ?_
    rintro result later ⟨kept, fresh⟩
    refine ⟨kept, fun journal same => ⟨(fresh journal same).1, ?_⟩⟩
    rw [(fresh journal same).2]
    exact fun _ listed => nomatch listed
  | some journal =>
    refine .bind (Ensures.inspect guarded ?_ gaveUp)
    rw [present]
    refine .pure ⟨guarded, fun other same => ⟨⟨rfl, fun _ _ => rfl⟩, ?_⟩⟩
    rw [← Except.ok.inj same]
    exact (guarded.fits journal present).previousKind

theorem restoreRollback_guarded :
    Settles platform genuine (restoreRollback platform) world := by
  have framed := Guarded.framed platform genuine
  have gaveUp {later : World Content} {message : String} (kept : Guarded platform.toHashing genuine later) :
      Settles platform genuine (giveUp message) later := by
    refine (framed.giveUp kept).mono ?_
    rintro result last ⟨keptLast, rfl⟩
    exact ⟨keptLast, nofun⟩
  refine .bind (Ensures.consult ?_)
  rw [id_eq]
  cases named : world.memory.rollbackDirectory with
  | none => exact .pure ⟨guarded, nofun⟩
  | some rollback =>
    refine .call (verifyPair_ensures platform rollback _ guarded) ?_
    rintro verified later ⟨rfl, holds⟩
    cases chosen : later.memory.rollbackHashes.filter fun _ => verified with
    | none => exact gaveUp guarded
    | some hashes =>
      rw [Option.filter_eq_some_iff] at chosen
      obtain ⟨pair, recorded, found⟩ := holds chosen.2
      have same : pair = hashes := Option.some.inj (recorded.symm.trans chosen.1)
      subst same
      refine .call (rollbackJournal_guarded platform guarded) ?_
      rintro (message | journal) last ⟨kept, taken⟩
      · exact .pure ⟨kept, nofun⟩
      · obtain ⟨staged, previous⟩ := taken journal rfl
        have pairs : last.pairs = later.pairs := by rw [staged.same]
        have kind := guarded.rememberedKind rollback named
        dsimp only
        split
        · exact gaveUp kept
        · next admitted =>
          simp only [admitsRollback, Bool.not_eq_true, Bool.not_eq_false', Bool.and_eq_true,
            decide_eq_true_eq] at admitted
          refine beginRollback_guarded platform kept (found.frame (staged.kept rollback kind)) ?_ kind
            admitted.1.1.1.1.2 previous
          rw [pairs]
          exact guarded.remembered pair recorded

end

end

end Amnezia.Headless
