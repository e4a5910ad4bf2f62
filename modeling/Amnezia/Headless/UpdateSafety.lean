import Amnezia.Headless.UpdateRuns
import Amnezia.Headless.UpdateUndo

/-! # Every run keeps the guard -/

namespace Amnezia.Headless
open Lib Procedure

variable {Content α : Type} {genuine : Pair Content → Prop} {world later : World Content}
  {hashing : Hashing Content}

/-! ## Results -/

namespace Framed

variable {property : World Content → Prop} (framed : Framed property)
include framed

theorem noteFailure (code : Code) (message : String) :
    Keeps (rough property) (noteFailure code message : Action Content Unit) := by
  have retryable : Keeps (rough property) (cleanupRetryable code : Action Content Bool) :=
    (Keeps.consult _).bind fun _ => (Keeps.look _).bind fun _ =>
      .ite ((Keeps.inspect _).bind fun _ => .pure _) (.pure _)
  refine retryable.bind fun _ => .ite (Keeps.bind framed.remember fun _ => framed.saveOrInvalidate) ?_
  refine .ite framed.remember (.ite framed.remember (framed.remember fun memory => ?_))
  split <;> exact ⟨rfl, rfl⟩

theorem failure (code : Code) (message : String) (held : property world) :
    Ensures (rough property) (failure code message)
      (fun result later => property later ∧ result.ok = false) world := by
  have noted : Keeps (rough property) (Headless.remember (withError message) : Action Content Unit) :=
    framed.remember
  refine .call (framed.noteFailure code message world held) fun _ middle kept => ?_
  refine .call (noted middle kept) fun _ later keptLater => ?_
  split
  · exact .pure ⟨keptLater, rfl⟩
  · refine .call (framed.saveState later keptLater) fun saved last keptLast => ?_
    have invalidated : Keeps (rough property) (invalidateUnless (saved || code = .updateInProgress)) :=
      .ite (.pure _) framed.remember
    exact .call (invalidated last keptLast) fun _ _ kept => .pure ⟨kept, rfl⟩

theorem stopWith (code : Code) (message : String) (held : property world) :
    Ensures (rough property) (stopWith code message)
      (fun stage later => property later ∧ ∃ result, stage = .error result ∧ result.ok = false) world :=
  .call (framed.failure code message held) fun result _ both => .pure ⟨both.1, result, rfl, both.2⟩

end Framed

def Safe (hashing : Hashing Content) (genuine : Pair Content → Prop) (result : Result)
    (later : World Content) : Prop :=
  Guarded hashing genuine later ∧ (result.ok = true → later.disk.installed ∈ later.pairs)

structure Passes (hashing : Hashing Content) (genuine : Pair Content → Prop)
    (fact : World Content → Prop) (stage : Except Result Unit) (later : World Content) : Prop where
  guarded : Guarded hashing genuine later
  ended : ∀ result, stage = .error result → result.ok = true → later.disk.installed ∈ later.pairs
  passed : stage = .ok () → fact later

abbrev Finishes (hashing : Hashing Content) (genuine : Pair Content → Prop) (action : Action Content Result)
    (world : World Content) : Prop :=
  Ensures (rough (Guarded hashing genuine)) action (Safe hashing genuine) world

abbrev Admits (hashing : Hashing Content) (genuine : Pair Content → Prop) (fact : World Content → Prop)
    (stage : Action Content (Except Result Unit)) (world : World Content) : Prop :=
  Ensures (rough (Guarded hashing genuine)) stage (Passes hashing genuine fact) world

theorem failure_safe (guarded : Guarded hashing genuine world) (code : Code) (message : String) :
    Finishes hashing genuine (failure code message) world :=
  ((Guarded.framed hashing genuine).failure code message guarded).mono fun _ _ both =>
    ⟨both.1, fun ok => absurd ok (by rw [both.2]; decide)⟩

theorem stopWith_passes {fact : World Content → Prop} (guarded : Guarded hashing genuine world) (code : Code)
    (message : String) :
    Admits hashing genuine fact (stopWith code message) world := by
  refine ((Guarded.framed hashing genuine).stopWith code message guarded).mono ?_
  rintro stage later ⟨kept, result, rfl, failed⟩
  refine ⟨kept, fun other same ok => ?_, nofun⟩
  rw [← Except.error.inj same, failed] at ok
  contradiction

/-! ## Acknowledging a restart -/

def NoJournal (world : World Content) : Prop := world.disk.journal = none

theorem retireOrStop_passes (guarded : Guarded hashing genuine world) (fallback : String) :
    Admits hashing genuine NoJournal (retireOrStop fallback) world := by
  refine .call (retireAcknowledgedJournal_guarded guarded) ?_
  rintro (message | _) later ⟨kept, retired⟩
  · exact stopWith_passes kept _ _
  · exact .pure ⟨kept, nofun, fun _ => retired rfl⟩

theorem writeRollbackReceipt_keeps :
    Keeps (rough (Guarded hashing genuine)) writeRollbackReceipt := by
  refine (Keeps.consult _).bind fun memory => ?_
  split
  · refine .ite (.pure _) (Keeps.bind (Keeps.commit fun world guarded => ?_) fun _ => .ite (.pure _) (.pure _))
    exact guarded.aside rfl (fun _ _ => rfl) guarded.files
  · exact .pure _

section
variable (services : Services Content)

theorem acknowledgeUpdate_passes (guarded : Guarded services genuine world) :
    Admits services genuine NoJournal (acknowledgeUpdate services) world := by
  have framed := Guarded.framed services genuine
  have noted : Guarded services genuine { world with memory := { world.memory with lastState := .updated } } :=
    guarded.noting rfl rfl
  refine .bind (Ensures.remember (.bind (Ensures.inspect noted ?_ (stopWith_passes noted _ _))))
  cases present : world.disk.journal with
  | none => exact stopWith_passes noted _ _
  | some journal =>
    refine .call (verifyInstalled_ensures services _ _ noted) ?_
    rintro verified later ⟨rfl, matched⟩
    split
    · exact stopWith_passes noted _ _
    · next accepted =>
      simp only [not_or, Bool.not_eq_true, Bool.not_eq_false'] at accepted
      have fits := noted.fits journal present
      have known := fits.candidateKnown
      rw [← matched accepted.2] at known
      have written := noted.journaling (fits.atPhase .acknowledged) fun _ => known.mem
      refine .bind (Ensures.writeJournal noted written ?_ (fun _ => stopWith_passes noted _ _)
        (stopWith_passes written _ _))
      refine .call (framed.saveState _ written) fun saved later kept => ?_
      split
      · exact stopWith_passes kept _ _
      · refine .call (writeRollbackReceipt_keeps later kept) ?_
        rintro (message | _) last keptLast
        · exact stopWith_passes keptLast _ _
        · exact retireOrStop_passes keptLast _

theorem recordRollback_passes {journal : Option Journal} {version : String} {hashes : Option (Pair String)}
    (guarded : Guarded services genuine world)
    (read : journal = none ∨ journal = world.disk.journal)
    (recorded : ∀ pair ∈ hashes, Known services world.pairs pair)
    (known : world.disk.installed ∈ world.pairs) :
    Admits services genuine NoJournal (recordRollback services journal version hashes) world := by
  unfold recordRollback
  split
  · next journal pair =>
    have present : world.disk.journal = some journal := (read.resolve_left (Option.some_ne_none _)).symm
    have fits := guarded.fits journal present
    have rolledBack (sizes : Pair Nat) :
        (journal.rolledBack version pair sizes).Fits services world :=
      { fits with candidateKnown := recorded pair rfl }
    refine .bind (Ensures.look ?_)
    have written := guarded.journaling (rolledBack (world.disk.installed.map services.size)) fun _ => known
    exact .bind (Ensures.writeJournal guarded written (retireOrStop_passes written _)
      (fun _ => stopWith_passes guarded _ _) (stopWith_passes written _ _))
  · exact stopWith_passes guarded _ _

theorem known_of_rollbackHashes (guarded : Guarded hashing genuine world)
    (matched : world.disk.installed.map hashing.sha256 =
      ⟨hashOf world.memory.rollbackHashes .amneziad, hashOf world.memory.rollbackHashes .amneziaCli⟩) :
    world.disk.installed ∈ world.pairs := by
  cases recorded : world.memory.rollbackHashes with
  | none =>
    rw [recorded] at matched
    have empty := congrArg Pair.amneziad matched
    exact absurd empty (hashing.ne_empty _)
  | some hashes =>
    rw [recorded] at matched
    have known := guarded.remembered hashes recorded
    rw [show hashes = world.disk.installed.map hashing.sha256 from matched.symm] at known
    exact known.mem

theorem acknowledgeRollback_passes (guarded : Guarded services genuine world) :
    Admits services genuine NoJournal (acknowledgeRollback services) world := by
  refine .bind (Ensures.consult (.call (verifyInstalled_ensures services _ _ guarded) ?_))
  rintro verified later ⟨rfl, matched⟩
  rw [id_eq] at matched ⊢
  split
  · exact stopWith_passes guarded _ _
  next accepted =>
  have known := known_of_rollbackHashes guarded (matched (by simpa using accepted))
  have noted : Guarded services genuine
      { later with memory := { later.memory with lastState := .rolledBack, lastError := "" } } :=
    guarded.noting rfl rfl
  have recording (journal : Option Journal) (read : journal = none ∨ journal = later.disk.journal) :
      Admits services genuine NoJournal (do
          let saved ← saveState
          if !saved then
            stopWith .recoveryRequired "rollback health acknowledgement state could not be persisted"
          else recordRollback services journal later.memory.rollbackVersion later.memory.rollbackHashes)
        { later with memory := { later.memory with lastState := .rolledBack, lastError := "" } } := by
    refine .bind (Ensures.saveState noted noted.saving (stopWith_passes noted _ _) fun saved => ?_)
    split
    · exact stopWith_passes noted.saving _ _
    · exact recordRollback_passes services noted.saving read guarded.remembered known
  exact .bind (Ensures.inspect guarded (.bind (Ensures.remember (recording _ (.inr rfl))))
    (.bind (Ensures.remember (recording none (.inl rfl)))))

/-! ## Stages of a check -/

theorem admitCheck_passes (guarded : Guarded hashing genuine world) :
    Admits hashing genuine (fun later => checkableUpdateState later.memory.lastState = true) admitCheck world := by
  refine .bind (Ensures.consult ?_)
  rw [id_eq]
  split
  · exact stopWith_passes guarded _ _
  split
  · exact stopWith_passes guarded _ _
  split
  · exact stopWith_passes guarded _ _
  next accepted =>
  simp only [not_or, Bool.not_eq_true, Bool.not_eq_false'] at accepted
  have admitted : Admits hashing genuine (fun later => checkableUpdateState later.memory.lastState = true)
      (pure (.ok ())) world :=
    .pure ⟨guarded, nofun, fun _ => accepted.2⟩
  refine .bind (Ensures.look ?_)
  split
  · exact admitted
  · refine .bind (Ensures.inspect guarded ?_ ?_)
    all_goals
      dsimp only
      split
      · exact admitted
      · exact stopWith_passes guarded _ _

theorem stable_of_checkable {state : Code} (checkable : checkableUpdateState state = true)
    (restarted : state ≠ .restartPending) (rolledBack : state ≠ .rollbackRestartPending) :
    stableUpdateState state = true := by
  simpa [checkableUpdateState, restarted, rolledBack] using checkable

theorem acknowledge_passes (guarded : Guarded services genuine world)
    (checkable : checkableUpdateState world.memory.lastState = true) (currentVersion : String) :
    Admits services genuine (fun later => stableUpdateState later.memory.lastState = true ∨ NoJournal later)
      (acknowledge services currentVersion) world := by
  have retired {stage : Action Content (Except Result Unit)}
      (passes : Admits services genuine NoJournal stage world) :
      Admits services genuine (fun later =>
          stableUpdateState later.memory.lastState = true ∨ NoJournal later) stage world :=
    passes.mono fun _ _ passed => ⟨passed.guarded, passed.ended, fun ok => .inr (passed.passed ok)⟩
  refine .bind (Ensures.consult ?_)
  rw [id_eq]
  split
  · split
    · exact stopWith_passes guarded _ _
    · exact retired (acknowledgeUpdate_passes services guarded)
  split
  · split
    · exact stopWith_passes guarded _ _
    · exact retired (acknowledgeRollback_passes services guarded)
  next restarted rolledBack =>
    exact .pure ⟨guarded, nofun,
      fun _ => .inl (stable_of_checkable checkable restarted rolledBack)⟩

theorem finishCleanup_passes (guarded : Guarded hashing genuine world)
    (settled : stableUpdateState world.memory.lastState = true ∨ NoJournal world) :
    Admits hashing genuine NoJournal finishCleanup world := by
  refine .bind (Ensures.consult (.bind (Ensures.look ?_)))
  split
  · exact retireOrStop_passes guarded _
  next finished =>
    refine .pure ⟨guarded, nofun, fun _ => ?_⟩
    rcases settled with stable | none
    · cases present : world.disk.journal with
      | none => exact present
      | some journal => exact absurd ⟨stable, by rw [present]; rfl⟩ finished
    · exact none

/-! ## Replies -/

abbrev GuardedKnown (hashing : Hashing Content) (genuine : Pair Content → Prop) : World Content → Prop :=
  GuardedBy hashing genuine fun _ installed pairs => installed ∈ pairs

theorem saveAs_safe (kept : GuardedKnown hashing genuine world) (state : Code) (message : String)
    (result : Result) :
    Finishes hashing genuine (saveAs state message result) world := by
  have framed : Framed (GuardedKnown hashing genuine) := GuardedBy.framed
  have noting : Keeps (rough (GuardedKnown hashing genuine))
      (remember fun memory => { memory with lastState := state }) := framed.remember
  refine .call (kept.along noting) fun _ later noted => ?_
  refine .call (noted.along framed.saveState) fun saved last keptLast => ?_
  split
  · exact .pure ⟨keptLast.guarded, fun _ => keptLast.fact⟩
  · exact failure_safe keptLast.guarded _ _

def Fine (genuine : Pair Content → Prop) (candidate : Candidate) (artifact : Reply Content) : Prop :=
  ∀ pair, candidatePair services candidate artifact = some pair → genuine pair

variable {candidate : Candidate} {artifact : Reply Content} {currentVersion : String}
variable {check : Check Content}

section

variable (kept : GuardedWith services.toHashing genuine none world)
include kept

section

variable (fine : Fine services genuine candidate artifact)
include fine

theorem downloadAndInstall_guarded {transaction : DirectoryName} (staging : transaction.kind = .transaction) :
    Settles services genuine
      (downloadAndInstall services candidate currentVersion artifact transaction) world := by
  have failed {later : World Content} {message : String} (kept : Guarded services.toHashing genuine later) :
      Settles services genuine (pure (.error message)) later :=
    .pure ⟨kept, nofun⟩
  have unnamed : ∀ journal ∈ world.disk.journal, journal.rollbackDirectory ≠ transaction := by
    rw [kept.fact]
    exact fun _ listed => nomatch listed
  refine .bind (.bind (Ensures.synchronize kept.guarded fun stored => ?_))
  split
  case isFalse => exact .pure (failed kept.guarded)
  case isTrue accepted =>
    refine .pure (.bind ?_)
    unfold extract
    split
    · exact .pure (failed kept.guarded)
    refine .call (passAll_ensures _ kept.guarded) ?_
    rintro (_ | message) later rfl
    · dsimp only
      cases payload : (services.members artifact.body).bind (payloadOf services) with
      | none => exact .pure (failed kept.guarded)
      | some pair =>
        have listed : candidatePair services candidate artifact = some pair := by
          rw [candidatePair, if_pos accepted.2, payload]
        have contents (name : ManagedFile) (content : Content)
            (found : (pair.map some).get name = some content) : FileOf genuine name content := by
          rw [Pair.get_map] at found
          exact ⟨pair, fine pair listed, Option.some.inj found⟩
        have extracted := kept.guarded.inserting unnamed contents
        refine .bind (Ensures.commit kept.guarded extracted (.pure ?_) (.pure (failed kept.guarded))
          (.pure (failed extracted)))
        refine install_guarded services.toPlatform extracted kept.fact staging fun other staged => ?_
        have same : pair = other := by
          simpa [Disk.pairIn, World.onDisk, Disk.file_insert, Pair.get, Pair.map] using staged
        exact same ▸ fine pair listed
    · exact .pure (failed kept.guarded)

theorem startTransaction_guarded :
    Settles services genuine
      (startTransaction services candidate currentVersion artifact) world := by
  have framed := Guarded.framed services genuine
  have unnamed : ∀ journal ∈ world.disk.journal,
      journal.rollbackDirectory ≠ ⟨.transaction, world.disk.freshUuid⟩ := by
    rw [kept.fact]
    exact fun _ listed => nomatch listed
  have numbered := kept.guarded.numbering (world.disk.freshUuid + 1)
  have made := numbered.inserting unnamed fun _ _ => .ofNone
  refine .bind (Ensures.synchronize kept.guarded fun secured => ?_)
  split
  · exact .pure ⟨kept.guarded, nofun⟩
  refine .bind (Ensures.createUuid (.bind (Ensures.attempt numbered made ?_ ?_)))
  case refine_2 => exact .pure ⟨numbered, nofun⟩
  refine .call (downloadAndInstall_guarded services ⟨made, kept.fact⟩ fine rfl) ?_
  rintro (message | _) later ⟨keptLater, installed⟩
  · have discarding : Ensures (rough (Guarded services genuine))
        (discardTransaction ⟨.transaction, world.disk.freshUuid⟩) (fun _ => Guarded services genuine)
        later :=
      ((discardTransaction_within _ later).mono fun _ last => framed.collecting later last keptLater).weaken
        fun last => framed.collecting later last keptLater
    refine .call discarding fun _ last keptLast => .bind (Ensures.consult (.pure ⟨keptLast, ?_⟩))
    exact nofun
  · exact .pure ⟨keptLater, fun _ => installed rfl⟩

theorem applyCandidate_safe :
    Finishes services genuine
      (applyCandidate services candidate currentVersion artifact) world := by
  unfold applyCandidate
  split
  · exact saveAs_safe ⟨kept.guarded, kept.guarded.unjournaled kept.fact⟩ _ _ _
  · refine .call (startTransaction_guarded services kept fine) ?_
    rintro (⟨code, message⟩ | _) later ⟨keptLater, installed⟩
    · exact failure_safe keptLater _ _
    · have framed : Framed (GuardedKnown services genuine) := GuardedBy.framed
      have noting : Keeps (rough (GuardedKnown services genuine)) (remember fun memory =>
          if memory.lastState = .restartPending then memory
          else { memory with lastState := .applied, lastAppliedVersion := candidate.version }) := by
        refine framed.remember fun memory => ?_
        split <;> exact ⟨rfl, rfl⟩
      refine .call (GuardedBy.along ⟨keptLater, installed rfl⟩ noting) ?_
      refine fun _ noted keptNoted => .bind (Ensures.consult ?_)
      refine .call (keptNoted.along framed.saveState) ?_
      intro saved last keptLast
      split
      · exact failure_safe keptLast.guarded _ _
      · exact .pure ⟨keptLast.guarded, fun _ => keptLast.fact⟩

end

theorem handleManifest_safe {manifestUrl : Url} {anchor : TrustAnchor}
    (fine : ∀ candidate, parseManifest services check.surroundings.manifest.body manifestUrl check.profile anchor
      check.currentVersion = .available candidate → Fine services genuine candidate check.surroundings.artifact) :
    Finishes services genuine
      (handleManifest services check.profile check.currentVersion manifestUrl anchor check.surroundings) world := by
  have known : GuardedKnown services genuine world :=
    ⟨kept.guarded, kept.guarded.unjournaled kept.fact⟩
  unfold handleManifest
  split
  · next code message parsed =>
    have noted : GuardedKnown services genuine { world with memory := withError message world.memory } :=
      GuardedBy.framed.noting world _ known rfl rfl
    exact .bind (Ensures.remember (saveAs_safe noted _ _ _))
  · exact saveAs_safe known _ _ _
  · next candidate parsed => exact applyCandidate_safe services kept (fine candidate parsed)

end

def Check.Fine (genuine : Pair Content → Prop) (check : Check Content) : Prop :=
  ∀ candidate, check.answer services = some (.available candidate) →
    Headless.Fine services genuine candidate check.surroundings.artifact

theorem requestManifest_safe (kept : GuardedWith services.toHashing genuine none world)
    (fine : check.Fine services genuine) :
    Finishes services genuine
      (requestManifest services check.profile check.currentVersion check.surroundings) world := by
  have known : GuardedKnown services genuine world :=
    ⟨kept.guarded, kept.guarded.unjournaled kept.fact⟩
  have stopped (code : Code) (message : String) : Finishes services genuine
      (failure code message) world :=
    failure_safe kept.guarded code message
  unfold requestManifest
  split
  · exact saveAs_safe known _ _ _
  next enabled =>
  cases anchored : verifyTrustedKey check.surroundings.files check.profile.updatePublicKeyPath with
  | error message => exact stopped _ _
  | ok pinnedPublicKey =>
    dsimp only
    split
    · exact stopped _ _
    split
    · exact stopped _ _
    split
    · exact stopped _ _
    split
    · exact stopped _ _
    split
    · exact stopped _ _
    split
    · exact stopped _ _
    · refine handleManifest_safe services kept fun candidate parsed => fine candidate ?_
      rw [← parsed]
      simp_all [Check.answer]

theorem run_safe (guarded : Guarded services genuine world)
    (fine : check.Fine services genuine) :
    Finishes services genuine (check.run services) world := by
  have ended {result : Result} {later : World Content} {fact : World Content → Prop}
      (passes : Passes services genuine fact (.error result) later) :
      Finishes services genuine (pure result) later :=
    .pure ⟨passes.guarded, passes.ended result rfl⟩
  refine .call (admitCheck_passes guarded) ?_
  rintro (result | _) admitted passes
  · exact ended passes
  have noted : Guarded services genuine { admitted with memory := withError "" admitted.memory } :=
    passes.guarded.noting rfl rfl
  refine .bind (Ensures.remember ?_)
  refine .call (acknowledge_passes services noted (passes.passed rfl) check.currentVersion) ?_
  rintro (result | _) acknowledged passesAcknowledged
  · exact ended passesAcknowledged
  refine .call (finishCleanup_passes passesAcknowledged.guarded (passesAcknowledged.passed rfl)) ?_
  rintro (result | _) finished passesFinished
  · exact ended passesFinished
  exact requestManifest_safe services ⟨passesFinished.guarded, passesFinished.passed rfl⟩ fine

/-! ## A new process -/

structure Loading (hashing : Hashing Content) (genuine : Pair Content → Prop)
    (start world : World Content) : Prop where
  guarded : Guarded hashing genuine world
  same : world = { start with memory := world.memory }

abbrev Loads (hashing : Hashing Content) (genuine : Pair Content → Prop) (start : World Content)
    (procedure : Action Content α) : Prop :=
  Keeps (rough (Loading hashing genuine start)) procedure

namespace Loading

variable {start : World Content}

theorem noting (kept : Loading hashing genuine start world) {memory : Memory}
    (hashes : memory.rollbackHashes = world.memory.rollbackHashes)
    (directory : memory.rollbackDirectory = world.memory.rollbackDirectory) :
    Loading hashing genuine start { world with memory := memory } := by
  refine ⟨kept.guarded.noting hashes directory, ?_⟩
  rw [kept.same]

variable {change : Memory → Memory}

theorem remember (notes : Noting change := by exact fun _ => ⟨rfl, rfl⟩) :
    Loads hashing genuine start (remember change : Action Content Unit) :=
  Keeps.remember fun _ kept => kept.noting (notes _).1 (notes _).2

theorem adopting (kept : Loading hashing genuine start world) {memory : Memory}
    (hashes : ∀ hashes ∈ memory.rollbackHashes, Known hashing start.pairs hashes)
    (directory : ∀ directory ∈ memory.rollbackDirectory, directory.kind = .rollback) :
    Loading hashing genuine start { world with memory := memory } := by
  have pairs : world.pairs = start.pairs := by rw [kept.same]
  refine ⟨kept.guarded.onMemory (pairs ▸ hashes) directory, ?_⟩
  rw [kept.same]

variable {next : Action Content Unit}

theorem demand {condition : Bool} {message : String} (kept : Loads hashing genuine start next) :
    Loads hashing genuine start (demand condition message next) :=
  .ite kept remember

theorem verifyPair (platform : Platform Content) (directory : DirectoryName) (hashes : Option (Pair String)) :
    Loads hashing genuine start (verifyPair platform directory hashes) :=
  fun _ kept => (verifyPair_ensures platform directory hashes kept).mono fun _ _ both => both.1 ▸ kept

theorem verifyInstalled (hashes : Pair String) (sizes : Option (Pair Nat)) :
    Loads hashing genuine start (verifyInstalled services hashes sizes) :=
  fun _ kept => (verifyInstalled_ensures services hashes sizes kept).mono fun _ _ both => both.1 ▸ kept

theorem settlePhase (journal : Journal) :
    Loads hashing genuine start (settlePhase journal : Action Content Unit) := by
  refine remember fun memory => ?_
  constructor <;> cases journal.phase <;> dsimp only <;> split <;> rfl

theorem checkPrevious (journal : Journal) (kept : Loads hashing genuine start next) :
    Loads hashing genuine start (checkPrevious services journal next) := by
  refine .ite kept ?_
  split
  · exact remember
  · refine (Keeps.look _).bind fun _ => (verifyPair _ _ _).bind fun _ => demand ?_
    exact Keeps.bind remember fun _ => (verifyPair _ _ _).bind fun _ => demand kept

theorem adopt (hashes : ∀ memory, ∀ hashes ∈ (change memory).rollbackHashes, Known hashing start.pairs hashes)
    (directory : ∀ memory, ∀ directory ∈ (change memory).rollbackDirectory, directory.kind = .rollback) :
    Loads hashing genuine start (Headless.remember change : Action Content Unit) :=
  Keeps.remember fun _ kept => kept.adopting (hashes _) (directory _)

theorem adoptRollback {journal : Journal} (guarded : Guarded hashing genuine start)
    (present : start.disk.journal = some journal)
    (kept : Loads hashing genuine start next) :
    Loads hashing genuine start (adoptRollback services journal next) := by
  have fits := guarded.fits journal present
  refine (Keeps.consult _).bind fun adopting => (Keeps.look _).bind fun _ => demand (demand ?_)
  refine Keeps.bind (.ite (adopt ?_ ?_) (.pure _)) fun _ => ?_
  · rintro memory hashes recorded
    rw [← Option.some.inj recorded]
    exact fits.rollbackKnown
  · rintro memory directory named
    rw [← Option.some.inj named]
    exact fits.rollbackKind
  · refine (Keeps.consult _).bind fun memory => demand ((verifyPair _ _ _).bind fun _ => demand ?_)
    exact Keeps.bind (.ite (verifyInstalled services _ _) (.pure _)) fun _ => demand (demand kept)

theorem checkAcknowledged (journal : Journal) (kept : Loads hashing genuine start next) :
    Loads hashing genuine start (checkAcknowledged services journal next) := by
  refine (Keeps.consult _).bind fun memory => ?_
  refine .ite (demand ((verifyInstalled services _ _).bind fun _ => demand kept)) (.ite ?_ kept)
  exact demand ((verifyInstalled services _ _).bind fun _ => demand kept)

theorem checkIdentity (journal : Journal) (kept : Loads hashing genuine start next) :
    Loads hashing genuine start (checkIdentity journal next) :=
  (Keeps.consult _).bind fun _ => (Keeps.look _).bind fun _ => demand (demand (demand (demand kept)))

theorem loadJournal (guarded : Guarded hashing genuine start) :
    Loads hashing genuine start (loadJournal services) := by
  intro world loading
  have missing : Ensures (rough (Loading hashing genuine start))
      (Headless.remember fun memory => { memory with stateValid := false, lastState := .recoveryRequired })
      (fun _ => Loading hashing genuine start) world :=
    Ensures.remember (loading.noting rfl rfl)
  refine .bind (Ensures.inspect loading ?_ missing)
  have same : world.disk.journal = start.disk.journal := by rw [loading.same]
  rw [same]
  split
  · exact missing
  · next journal present =>
    exact checkIdentity journal (checkAcknowledged services journal (adoptRollback services guarded present
      (checkPrevious services journal (settlePhase journal)))) world loading

theorem resumeTransaction (guarded : Guarded hashing genuine start) (receipt : StateFile) :
    Loads hashing genuine start (resumeTransaction services receipt) :=
  (Keeps.look _).bind fun _ => .ite (loadJournal services guarded) (.ite remember (.pure _))

theorem checkRollback (receipt : StateFile) (kept : Loads hashing genuine start next) :
    Loads hashing genuine start (checkRollback services receipt next) := by
  unfold Headless.checkRollback
  split
  · exact demand kept
  · exact (Keeps.look _).bind fun _ =>
      demand (demand (demand ((verifyPair _ _ _).bind fun _ => demand kept)))

theorem loadReceipt (guarded : Guarded hashing genuine start) {receipt : StateFile}
    (present : start.disk.state = some receipt) :
    Loads hashing genuine start (loadReceipt services receipt) := by
  have saved := guarded.saved receipt present
  refine Keeps.bind remember fun _ => demand ?_
  refine Keeps.bind (adopt (fun _ => saved.1) fun _ => saved.2) fun _ => demand ?_
  exact checkRollback services receipt (demand (demand (resumeTransaction services guarded receipt)))

theorem loadState (guarded : Guarded hashing genuine start) :
    Loads hashing genuine start (loadState services) := by
  refine (Keeps.look _).bind fun _ => .ite ((Keeps.look _).bind fun _ => .ite remember (.pure _)) ?_
  intro world loading
  have unread : Ensures (rough (Loading hashing genuine start)) (Headless.remember invalid)
      (fun _ => Loading hashing genuine start) world :=
    Ensures.remember (loading.noting rfl rfl)
  refine .bind (Ensures.inspect loading ?_ unread)
  have same : world.disk.state = start.disk.state := by rw [loading.same]
  rw [same]
  split
  · exact unread
  · next receipt present => exact loadReceipt services guarded present world loading

end Loading

theorem loadState_guarded : Keeps (rough (Guarded services genuine)) (loadState services) := by
  intro world guarded
  have loading : Loading services genuine world world := ⟨guarded, rfl⟩
  exact (rough.keeping (Loading.loadState services guarded) (fun _ => Loading.guarded) loading).mono
    fun _ _ => Loading.guarded

theorem confirmRollbackReceipt_guarded :
    Keeps (rough (Guarded services genuine)) (confirmRollbackReceipt services) := by
  have framed := Guarded.framed services genuine
  have loaded : Keeps (rough (Guarded services genuine)) (loadRollbackReceipt services) :=
    fun world guarded => (loadRollbackReceipt_ensures services guarded).mono fun _ _ same => same ▸ guarded
  refine (Keeps.consult _).bind fun memory => .ite (.pure _) (.ite ?_ ?_)
  · exact loaded.bind fun _ => .ite (.pure _) framed.remember
  · refine (Keeps.look _).bind fun _ => .ite (.pure _)
      (Keeps.bind (Keeps.attempt fun world guarded => ?_) fun _ => .pure _)
    exact guarded.aside rfl (fun _ _ => rfl) guarded.files

theorem initializeState_guarded :
    Keeps (rough (Guarded services genuine)) (initializeState services) := by
  have framed := Guarded.framed services genuine
  have secured : Keeps (rough (Guarded services genuine)) secureStorage :=
    Keeps.synchronize.bind fun _ => .ite (.pure _) framed.remember
  refine secured.bind fun _ => (loadState_guarded services).bind fun _ => framed.collectGarbage.bind fun _ => ?_
  refine Keeps.bind (framed.remember fun memory => ?_) fun _ => confirmRollbackReceipt_guarded services
  split <;> exact ⟨rfl, rfl⟩

theorem boot_guarded : Keeps (rough (Guarded services genuine)) (boot services) :=
  Keeps.bind (Keeps.remember fun _ guarded => guarded.forgetting rfl rfl) fun _ => initializeState_guarded services

/-! ## Rolling back -/

theorem scheduleRestart_safe (kept : GuardedKnown hashing genuine world) (message : String) (unsaved : Code) :
    Finishes hashing genuine (scheduleRestart message unsaved) world := by
  have framed : Framed (GuardedKnown hashing genuine) := GuardedBy.framed
  have keeps : Keeps (rough (GuardedKnown hashing genuine)) (scheduleRestart message unsaved) := by
    refine (restartService_keeps _).bind fun restarted => ?_
    cases restarted with
    | ok => exact .pure _
    | error reason =>
      refine Keeps.bind framed.remember fun _ => framed.saveState.bind fun saved => ?_
      exact Keeps.bind (.ite (.pure _) framed.remember) fun _ => .pure _
  exact (kept.along keeps).mono fun _ _ last =>
    ⟨last.guarded, fun _ => last.fact⟩

theorem retireBeforeRollback_passes (guarded : Guarded hashing genuine world) :
    Admits hashing genuine (fun _ => True) retireBeforeRollback world := by
  have goesOn {later : World Content} (kept : Guarded hashing genuine later) :
      Admits hashing genuine (fun _ => True) (pure (.ok ())) later :=
    .pure ⟨kept, nofun, fun _ => trivial⟩
  refine .bind (Ensures.look ?_)
  split
  · exact goesOn guarded
  refine .bind (Ensures.inspect guarded ?_ (goesOn guarded))
  split
  · exact goesOn guarded
  split
  · exact goesOn guarded
  refine .call (retireOrStop_passes guarded _) ?_
  rintro (result | _) later passes
  · exact .pure ⟨passes.guarded, passes.ended,
      nofun⟩
  · have known := passes.guarded.unjournaled (passes.passed rfl)
    dsimp only
    split
    · exact .pure ⟨passes.guarded, fun _ _ _ => known, nofun⟩
    · exact goesOn passes.guarded

section

variable (guarded : Guarded services genuine world)
include guarded

theorem performRollback_safe :
    Finishes services genuine (performRollback services) world := by
  refine .bind (Ensures.consult ?_)
  split
  · exact failure_safe guarded _ _
  refine .call (restoreRollback_guarded services.toPlatform guarded) ?_
  rintro (message | _) later ⟨kept, restored⟩
  · exact .bind (Ensures.consult (failure_safe kept _ _))
  have known : GuardedKnown services genuine { later with memory := { later.memory with
      lastState := .rollbackRestartPending, lastAppliedVersion := later.memory.rollbackVersion } } :=
    ⟨kept.noting rfl rfl, restored rfl⟩
  have framed : Framed (GuardedKnown services genuine) := GuardedBy.framed
  refine .bind (Ensures.remember ?_)
  refine .call (known.along framed.saveState) fun saved last keptLast => ?_
  split
  · refine .bind (Ensures.remember (.pure ⟨keptLast.guarded.noting rfl rfl, fun impossible => ?_⟩))
    exact absurd impossible Bool.false_ne_true
  · exact scheduleRestart_safe keptLast _ _

theorem rollback_safe :
    Finishes services genuine (rollback services) world := by
  refine .bind (Ensures.consult ?_)
  split
  · exact failure_safe guarded _ _
  split
  · exact .pure ⟨guarded, fun impossible => absurd impossible Bool.false_ne_true⟩
  split
  · exact failure_safe guarded _ _
  refine .call (retireBeforeRollback_passes guarded) ?_
  rintro (result | _) later passes
  · exact .pure ⟨passes.guarded, passes.ended result rfl⟩
  refine .bind (Ensures.consult ?_)
  rw [id_eq]
  split
  · exact failure_safe passes.guarded _ _
  have noted : Guarded services genuine { later with memory := withError "" later.memory } :=
    passes.guarded.noting rfl rfl
  refine .bind (Ensures.remember ?_)
  split
  · refine .call (verifyInstalled_ensures services _ _ noted) ?_
    rintro installed last ⟨rfl, matched⟩
    split
    · next verified =>
      exact scheduleRestart_safe ⟨noted, known_of_rollbackHashes noted (matched verified)⟩ _ _
    · exact performRollback_safe services noted
  · exact performRollback_safe services noted

theorem acknowledgeStoppedRollback_safe (verifiedTargetVersion : String) (surroundings : Surroundings Content) :
    Finishes services genuine
      (acknowledgeStoppedRollback services verifiedTargetVersion surroundings) world := by
  have refused {later : World Content} {code : Code} {message : String}
      (kept : Guarded services.toHashing genuine later) :
      Finishes services genuine (pure ⟨false, code, message⟩) later :=
    .pure ⟨kept, fun impossible => absurd impossible Bool.false_ne_true⟩
  unfold acknowledgeStoppedRollback
  split
  · exact refused guarded
  · refine .bind (Ensures.remember ?_)
    refine .call (initializeState_guarded services _ (guarded.forgetting rfl rfl)) fun _ later kept => ?_
    refine .bind (Ensures.consult ?_)
    split
    · exact refused kept
    · have disabled : Check.Fine services genuine
          ⟨⟨false, "", "", []⟩, verifiedTargetVersion, surroundings⟩ := by
        intro candidate answered
        simp only [Check.answer] at answered
        split at answered <;> simp at answered
      have safe := run_safe services kept disabled
      unfold Check.run at safe
      exact safe

end

end

end Amnezia.Headless
