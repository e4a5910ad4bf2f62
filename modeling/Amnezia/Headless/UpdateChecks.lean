import Amnezia.Headless.UpdateReceipts
import Amnezia.Headless.UpdateRuns

/-! # Checks that install nothing -/

namespace Amnezia.Headless
open Lib Procedure

variable {Content : Type} (services : Services Content) {world : World Content}

/-! ## Events -/

def Check.request (check : Check Content) : Action Content Result :=
  requestManifest services check.profile check.currentVersion check.surroundings

inductive Event (Content : Type) where
  | restart
  | request (check : Check Content)

def World.restarting (world : World Content) : World Content := { world with memory := {} }

def restarted (world : World Content) : World Content := (initializeState services world.restarting []).world

namespace Event

def after (world : World Content) : Event Content → World Content
  | .restart => restarted services world
  | .request check => (check.run services world []).world

def code (world : World Content) : Event Content → Option Code
  | .restart => none
  | .request check => some (check.run services world []).value.code

end Event

def Check.rejected (check : Check Content) : Bool :=
  match check.answer services with
  | some (.rejected _ _) => true
  | _ => false

def Check.installs (check : Check Content) : Bool :=
  match check.answer services with
  | some (.available candidate) =>
    candidate.autoInstall && (candidatePair services candidate check.surroundings.artifact).any fun pair =>
      services.runsHere pair candidate.version
  | _ => false

/-! ## Settled states -/

def Disk.receipt (disk : Disk Content) : StateFile := disk.state.getD ({} : Memory).receipt

structure Settled (world : World Content) : Prop where
  valid : world.memory.stateValid = true
  idle : world.memory.updateInProgress = false
  stable : stableUpdateState world.memory.lastState = true
  supported : world.memory.lastState ≠ .unsupportedPayloadContract
  noJournal : world.disk.journal = none
  accepted : world.memory.receipt.Accepted services world.disk
  saved : world.disk.receipt = { world.memory.receipt with
    state := world.disk.receipt.state, lastError := world.disk.receipt.lastError }
  savedAccepted : world.disk.receipt.Accepted services world.disk
  savedStable : stableUpdateState world.disk.receipt.state = true
  savedSupported : world.disk.receipt.state ≠ .unsupportedPayloadContract
  backed : world.memory.rollbackDirectory.isSome → ∀ receipt ∈ world.disk.rollbackReceipt,
    world.memory.Backs receipt

def World.cleared (world : World Content) : World Content :=
  { world with memory := withError "" world.memory }

abbrev Ends {α : Type} (action : Action Content α) (after : α → World Content → Prop)
    (world : World Content) : Prop :=
  Ensures (smooth fun _ => True) action after world

section
variable {services}

theorem admitCheck_settled (settled : Settled services world) (outcomes : List Outcome) :
    admitCheck world outcomes = ⟨.ok (), world, outcomes, []⟩ := by
  have checkable : checkableUpdateState world.memory.lastState = true := by
    simp [checkableUpdateState, settled.stable]
  unfold admitCheck consult look
  rw [read_bind]
  simp only [id_eq, settled.idle, settled.supported, settled.valid, checkable, Bool.false_eq_true,
    if_false, Bool.not_true, or_self]
  rw [read_bind, settled.noJournal]
  rfl

theorem acknowledge_stable (stable : stableUpdateState world.memory.lastState = true)
    (currentVersion : String) (outcomes : List Outcome) :
    acknowledge services currentVersion world outcomes = ⟨.ok (), world, outcomes, []⟩ := by
  unfold acknowledge consult
  rw [read_bind, if_neg, if_neg]
  · rfl
  all_goals
    intro pending
    rw [id_eq] at pending
    rw [pending] at stable
    exact absurd stable (by decide)

theorem finishCleanup_noJournal (noJournal : world.disk.journal = none) (outcomes : List Outcome) :
    finishCleanup world outcomes = ⟨.ok (), world, outcomes, []⟩ := by
  unfold finishCleanup consult look
  rw [read_bind, read_bind, if_neg]
  · rfl
  · simp [noJournal]

theorem run_settled (settled : Settled services world) (check : Check Content) (outcomes : List Outcome) :
    check.run services world outcomes = check.request services world.cleared outcomes := by
  have stable : stableUpdateState world.cleared.memory.lastState = true := settled.stable
  have noJournal : world.cleared.disk.journal = none := settled.noJournal
  unfold Check.run checkAndApply
  rw [bind_of_quiet (admitCheck_settled settled outcomes)]
  refine (update_bind _ _ _ _).trans ?_
  refine (bind_of_quiet (acknowledge_stable stable check.currentVersion outcomes) _).trans ?_
  exact bind_of_quiet (finishCleanup_noJournal noJournal outcomes) _

/-! ## What keeps a state settled -/

variable {hashing : Hashing Content} {disk later : Disk Content}

theorem KeepsRollback.frame {rollback : Option DirectoryName} {version : String} {hashes : Option (Pair String)}
    (keeps : KeepsRollback hashing disk rollback version hashes)
    (same : ∀ directory ∈ rollback, ∀ files, disk.directories.lookup directory = some files →
      later.directories.lookup directory = some files) :
    KeepsRollback hashing later rollback version hashes := by
  cases rollback with
  | none => exact keeps
  | some directory =>
    obtain ⟨valid, pair, rfl, holds⟩ := keeps
    obtain ⟨files, present⟩ := Option.isSome_iff_exists.mp holds.present
    refine ⟨valid, pair, rfl, fun name => ?_⟩
    rw [← holds name, Disk.file, Disk.file, present, same directory rfl files present]

variable {receipt : StateFile}

theorem StateFile.Accepted.frame (accepted : receipt.Accepted hashing disk)
    (same : ∀ directory ∈ receipt.rollbackDirectory, ∀ files,
      disk.directories.lookup directory = some files → later.directories.lookup directory = some files) :
    receipt.Accepted hashing later :=
  { accepted with rollback := accepted.rollback.frame same }

theorem Settled.frame {later : World Content} (settled : Settled services world)
    (memory : later.memory = world.memory) (state : later.disk.state = world.disk.state)
    (journal : later.disk.journal = world.disk.journal)
    (receipt : later.disk.rollbackReceipt = world.disk.rollbackReceipt ∨ later.disk.rollbackReceipt = none)
    (same : ∀ directory ∈ world.memory.rollbackDirectory, ∀ files,
      world.disk.directories.lookup directory = some files →
      later.disk.directories.lookup directory = some files) : Settled services later := by
  have saved : later.disk.receipt = world.disk.receipt := congrArg (Option.getD · _) state
  have named : world.disk.receipt.rollbackDirectory = world.memory.rollbackDirectory := by
    rw [settled.saved]
    rfl
  constructor
  case valid => exact memory ▸ settled.valid
  case idle => exact memory ▸ settled.idle
  case stable => exact memory ▸ settled.stable
  case supported => exact memory ▸ settled.supported
  case noJournal => exact journal.trans settled.noJournal
  case accepted =>
    rw [memory]
    exact settled.accepted.frame same
  case saved =>
    rw [saved, memory]
    exact settled.saved
  case savedAccepted =>
    rw [saved]
    apply settled.savedAccepted.frame
    rw [named]
    exact same
  case savedStable => exact saved ▸ settled.savedStable
  case savedSupported => exact saved ▸ settled.savedSupported
  case backed =>
    intro named backing listed
    rw [memory] at named ⊢
    rcases receipt with kept | dropped
    · rw [kept] at listed
      exact settled.backed named backing listed
    · rw [dropped] at listed
      contradiction

theorem Settled.collected {later : World Content} (settled : Settled services world)
    (collected : Collected world later) : Settled services later := by
  have memory : later.memory = world.memory := by rw [collected.same]
  have state : later.disk.state = world.disk.state := by rw [collected.same]
  have journal : later.disk.journal = world.disk.journal := by rw [collected.same]
  refine settled.frame memory state journal collected.receipt fun directory named files present => ?_
  rw [collected.kept directory ?_, present]
  simp only [World.named, List.mem_append, Option.mem_toList]
  exact .inl (.inl named)

variable {state code : Code} {currentVersion : String} {candidate : Candidate}
variable {artifact : Reply Content} {before : World Content}

theorem validStates_of_stable (stable : stableUpdateState state = true) : state ∈ validStates := by
  cases state <;> revert stable <;> decide

theorem StateFile.Accepted.restate (accepted : receipt.Accepted hashing disk) (message : String)
    (stable : stableUpdateState state = true)
    (completed : state ∈ [.applied, .updated, .rolledBack] → receipt.lastAppliedVersion ≠ "") :
    StateFile.Accepted hashing disk { receipt with state := state, lastError := message } :=
  { accepted with
    known := validStates_of_stable stable
    completed := completed }

section

variable (settled : Settled services world)
include settled

theorem Settled.saved_as (message : String)
    (stable : stableUpdateState state = true) (supported : state ≠ .unsupportedPayloadContract)
    (completed : state ∈ [.applied, .updated, .rolledBack] → world.memory.lastAppliedVersion ≠ "") :
    Settled services { world with
      memory := { world.memory with lastState := state, lastError := message }
      disk := { world.disk with
        state := some { world.memory.receipt with state := state, lastError := message } } } := by
  have accepted (later : Disk Content) (same : later.directories = world.disk.directories) :=
    (settled.accepted.restate message stable completed).frame
      fun (directory : DirectoryName) _ files present =>
        (show later.directories.lookup directory = some files from same ▸ present)
  exact {
    valid := settled.valid
    idle := settled.idle
    stable := stable
    supported := supported
    noJournal := settled.noJournal
    accepted := accepted _ rfl
    saved := rfl
    savedAccepted := accepted _ rfl
    savedStable := stable
    savedSupported := supported
    backed := settled.backed }

theorem Settled.cleared : Settled services world.cleared :=
  { settled with
    accepted := settled.accepted.restate "" settled.stable settled.accepted.completed
    saved := settled.saved }

/-! ## The ends of a check -/

theorem saveAs_settled {message : String} {result : Result}
    (stable : stableUpdateState state = true) (supported : state ≠ .unsupportedPayloadContract)
    (closing : state ∉ [.applied, .updated, .rolledBack]) :
    Ends (saveAs state message result)
      (fun answer later => answer = result ∧ Settled services later) world := by
  refine .bind (Ensures.remember (.bind (smooth.saveState trivial (.pure ⟨rfl, ?_⟩))))
  exact settled.saved_as world.memory.lastError stable supported fun closed => absurd closed closing

theorem failure_settled {message : String}
    (plain : code ∉ [.recoveryRequired, .rollbackFailed, .noRollback, .unsupportedPayloadContract]) :
    Ends (failure code message)
      (fun answer later => answer.code = code ∧ Settled services later) world := by
  simp only [List.mem_cons, List.not_mem_nil, or_false, not_or] at plain
  obtain ⟨noRecovery, noFailed, noRollback, noUnsupported⟩ := plain
  refine .bind (.bind (.bind (Ensures.consult (.bind (Ensures.look ?_)))))
  rw [if_neg fun retryable => noRecovery retryable.1]
  refine .pure ?_
  rw [if_neg Bool.false_ne_true, if_neg noRecovery, if_neg fun final => final.elim noFailed noRollback]
  refine Ensures.remember (.bind (Ensures.remember ?_))
  rw [if_neg noUnsupported, if_pos (.inl settled.stable)]
  refine .bind (smooth.saveState trivial (.bind (.pure (.pure ⟨rfl, ?_⟩))))
  exact settled.saved_as message settled.stable settled.supported settled.accepted.completed

end

/-! ## Replies -/

def Parsed.Coded : Parsed → Prop
  | .rejected code _ => code ∈ [.invalidManifest, .signatureInvalid, .invalidCurrentVersion]
  | .nothing code _ => code ∈ [.noUpdate, .noHeadlessArtifact]
  | .available _ => True

theorem Parsed.Coded.ite {condition : Prop} [Decidable condition] {first second : Parsed}
    (yes : first.Coded) (no : second.Coded) : (if condition then first else second).Coded := by
  split
  · exact yes
  · exact no

theorem rejected_coded (message : String)
    (listed : code ∈ [.invalidManifest, .signatureInvalid, .invalidCurrentVersion]) :
    (Parsed.rejected code message).Coded := listed

theorem parseArtifact_coded (profile : Profile) (manifestUrl : Url) (payload artifact : JsonObject)
    (version : String) : (parseArtifact services profile manifestUrl payload artifact version).Coded := by
  unfold parseArtifact
  refine .ite (rejected_coded _ (by decide)) ?_
  split
  · exact rejected_coded _ (by decide)
  · refine .ite (rejected_coded _ (by decide)) ?_
    split
    · exact rejected_coded _ (by decide)
    · exact .ite (rejected_coded _ (by decide)) trivial

theorem parsePayload_coded (profile : Profile) (manifestUrl : Url) (currentVersion : String)
    (payload : JsonObject) : (parsePayload services profile manifestUrl currentVersion payload).Coded := by
  unfold parsePayload
  refine .ite (rejected_coded _ (by decide)) (.ite (rejected_coded _ (by decide)) ?_)
  refine .ite (rejected_coded _ (by decide)) (.ite (rejected_coded _ (by decide)) ?_)
  refine .ite (rejected_coded _ (by decide)) (.ite ?_ (.ite (rejected_coded _ (by decide)) (.ite ?_ ?_)))
  · exact List.mem_cons_self
  · exact List.mem_cons_of_mem _ List.mem_cons_self
  · exact parseArtifact_coded ..

theorem parseManifest_coded (manifest : Bytes) (manifestUrl : Url) (profile : Profile) (anchor : TrustAnchor)
    (currentVersion : String) :
    (parseManifest services manifest manifestUrl profile anchor currentVersion).Coded := by
  unfold parseManifest parseSigned
  split
  · refine .ite (rejected_coded _ (by decide)) (.ite (rejected_coded _ (by decide)) ?_)
    split
    · exact rejected_coded _ (by decide)
    · refine .ite (rejected_coded _ (by decide)) ?_
      split
      · exact parsePayload_coded ..
      · exact rejected_coded _ (by decide)
  · exact rejected_coded _ (by decide)

/-! ## A transaction that is given up before anything is installed -/

theorem Settled.rollback_ne_fresh (settled : Settled services world) {directory : DirectoryName}
    (fresh : world.disk.directories.lookup directory = none) :
    directory ∉ world.memory.rollbackDirectory := by
  intro named
  have kept := settled.accepted.rollback
  have same : world.memory.receipt.rollbackDirectory = some directory := named
  rw [same] at kept
  obtain ⟨-, pair, -, holds⟩ := kept
  have present := holds.present
  simp [fresh] at present

variable {transaction : DirectoryName}

theorem Settled.insert (settled : Settled services world)
    (unnamed : transaction ∉ world.memory.rollbackDirectory) (files : Pair (Option Content)) :
    Settled services (world.onDisk fun disk =>
      { disk with directories := disk.directories.insert transaction files }) := by
  refine settled.frame rfl rfl rfl (.inl rfl) fun directory named others present => ?_
  rw [← present]
  apply AList.lookup_insert_ne
  rintro rfl
  exact unnamed named

variable {invariant : World Content → Prop}

theorem passAll_smooth (held : invariant world) (messages : List String)
    {after : Option String → World Content → Prop} (here : after none world) :
    Ensures (smooth invariant) (passAll messages) after world := by
  induction messages with
  | nil => exact .pure here
  | cons message rest ih => exact .bind (smooth.synchronize held ih)

theorem pairIn_insert (disk : Disk Content) (directory : DirectoryName) (pair : Pair Content) :
    Disk.pairIn { disk with directories := disk.directories.insert directory (pair.map some) } directory =
      some pair := by
  simp [Disk.pairIn, Disk.file_insert, Pair.map, Pair.get]

theorem install_refused {candidateVersion : String}
    {pair : Pair Content} (staged : world.disk.pairIn transaction = some pair)
    (refused : services.runsHere pair candidateVersion = false)
    (held : invariant { world with pairs := pair :: world.pairs }) :
    Ensures (smooth invariant) (install services.toPlatform candidateVersion transaction currentVersion)
      (fun result later => later = { world with pairs := pair :: world.pairs } ∧
        result = .error "update_runtime_incompatible:") world := by
  refine .bind (.update (.bind (.bind ?_)))
  rw [staged]
  refine smooth.inspect held (.pure ?_)
  rw [staged, Option.map_some, Option.getD_some, refused]
  exact .pure ⟨rfl, rfl⟩

section

variable (settled : Settled services world)
include settled

theorem downloadAndInstall_settled (unnamed : transaction ∉ world.memory.rollbackDirectory)
    (refused : ((candidatePair services candidate artifact).any fun pair =>
      services.runsHere pair candidate.version) = false) :
    Ends (downloadAndInstall services candidate currentVersion artifact transaction)
      (fun result later => Settled services later ∧ ∃ message, result = .error message) world := by
  refine .bind (.bind (smooth.synchronize trivial ?_))
  split
  case isFalse => exact .pure (.pure ⟨settled, _, rfl⟩)
  case isTrue accepted =>
    obtain ⟨-, accepted⟩ := accepted
    rw [candidatePair, if_pos accepted] at refused
    refine .pure (.bind ?_)
    unfold extract
    rw [if_neg (by simp [accepted.2.2.2.2])]
    refine .bind (passAll_smooth trivial _ ?_)
    dsimp only
    cases payload : (services.members artifact.body).bind (payloadOf services) with
    | none => exact .pure (.pure ⟨settled, _, rfl⟩)
    | some pair =>
      rw [payload] at refused
      refine .bind (smooth.commit trivial (.pure ?_))
      refine (install_refused (pairIn_insert _ _ pair) refused trivial).mono ?_
      rintro result later ⟨rfl, rfl⟩
      exact ⟨(settled.insert unnamed _).frame rfl rfl rfl (.inl rfl) fun _ _ _ present => present, _, rfl⟩

theorem startTransaction_settled (refused : ((candidatePair services candidate artifact).any fun pair =>
      services.runsHere pair candidate.version) = false) :
    Ends (startTransaction services candidate currentVersion artifact)
      (fun result later => Settled services later ∧ ∃ code message, result = .error (code, message) ∧
        code ∈ [.updateInstallFailed, .updateRuntimeIncompatible]) world := by
  refine .bind (smooth.synchronize trivial (.bind (Ensures.createUuid ?_)))
  have numbered : Settled services
      (world.onDisk fun disk => { disk with nextUuid := disk.freshUuid + 1 }) :=
    settled.frame rfl rfl rfl (.inl rfl) fun _ _ _ present => present
  have unnamed : ⟨.transaction, world.disk.freshUuid⟩ ∉ world.memory.rollbackDirectory :=
    settled.rollback_ne_fresh (Disk.lookup_of_fresh le_rfl)
  refine .bind (smooth.attempt trivial ?_)
  refine .call (downloadAndInstall_settled (numbered.insert unnamed _) unnamed refused) ?_
  rintro result later ⟨settledLater, message, rfl⟩
  refine .call ((discardTransaction_within _ later).weaken fun _ _ => trivial) fun _ last collected => ?_
  have settledLast := settledLater.collected collected
  refine .bind (Ensures.consult (.pure ⟨settledLast, _, _, rfl, ?_⟩))
  rw [if_neg fun recovering => absurd settledLast.stable (by rw [recovering]; decide)]
  split <;> decide

theorem applyCandidate_settled
    (refused : (candidate.autoInstall && (candidatePair services candidate artifact).any fun pair =>
      services.runsHere pair candidate.version) = false) :
    Ends (applyCandidate services candidate currentVersion artifact)
      (fun answer later => answer.code ≠ .recoveryRequired ∧ Settled services later) world := by
  unfold applyCandidate
  cases automatic : candidate.autoInstall with
  | false =>
    refine (saveAs_settled settled rfl (by decide) (by decide)).mono ?_
    rintro answer later ⟨rfl, kept⟩
    exact ⟨by decide, kept⟩
  | true =>
    rw [automatic, Bool.true_and] at refused
    refine .call (startTransaction_settled settled refused) ?_
    rintro result later ⟨kept, code, message, rfl, listed⟩
    refine (failure_settled kept ?_).mono ?_
    · revert listed
      cases code <;> decide
    · rintro answer last ⟨rfl, keptLast⟩
      refine ⟨?_, keptLast⟩
      intro recovering
      rw [recovering] at listed
      exact absurd listed (by decide)

end

/-! ## One check -/

variable (services) in
def Check.Answered (check : Check Content) (result : Result) (later : World Content) : Prop :=
  if check.rejected services then checkableUpdateState later.memory.lastState = false
  else result.code ≠ .recoveryRequired ∧ Settled services later

theorem handleManifest_answered (settled : Settled services world) (check : Check Content)
    {manifestUrl : Url} {anchor : TrustAnchor}
    (answer : check.answer services = some (parseManifest services check.surroundings.manifest.body manifestUrl
      check.profile anchor check.currentVersion)) (quiet : check.installs services = false) :
    Ends
      (handleManifest services check.profile check.currentVersion manifestUrl anchor check.surroundings)
      (check.Answered services) world := by
  have coded : (parseManifest services check.surroundings.manifest.body manifestUrl check.profile anchor
    check.currentVersion).Coded := parseManifest_coded ..
  unfold handleManifest Check.Answered Check.rejected
  rw [Check.installs] at quiet
  rw [answer] at quiet ⊢
  cases parsed : parseManifest services check.surroundings.manifest.body manifestUrl check.profile anchor
    check.currentVersion with
  | rejected code message =>
    rw [parsed] at coded
    have listed : code ∈ [.invalidManifest, .signatureInvalid, .invalidCurrentVersion] := coded
    have unknown : checkableUpdateState code = false := by
      clear parsed coded
      cases code <;> revert listed <;> decide
    refine .bind (Ensures.remember (.bind (Ensures.remember (.bind (smooth.saveState trivial (.pure ?_))))))
    exact unknown
  | nothing code message =>
    rw [parsed] at coded
    have listed : code ∈ [.noUpdate, .noHeadlessArtifact] := coded
    have quietCode : stableUpdateState code = true ∧ code ≠ .unsupportedPayloadContract ∧
        code ∉ [.applied, .updated, .rolledBack] ∧ code ≠ .recoveryRequired := by
      clear parsed coded
      cases code <;> revert listed <;> decide
    refine (saveAs_settled settled quietCode.1 quietCode.2.1 quietCode.2.2.1).mono ?_
    rintro answer later ⟨rfl, kept⟩
    exact ⟨quietCode.2.2.2, kept⟩
  | available candidate =>
    rw [parsed] at quiet
    exact applyCandidate_settled settled quiet

theorem answered_of_silent {check : Check Content} {answer : Action Content Result}
    (silent : check.answer services = none)
    (ends : Ends answer
      (fun result later => result.code = code ∧ Settled services later) world)
    (plain : code ≠ .recoveryRequired) :
    Ends answer (check.Answered services) world := by
  refine ends.mono ?_
  rintro result later ⟨rfl, kept⟩
  unfold Check.Answered Check.rejected
  rw [silent]
  exact ⟨plain, kept⟩

theorem request_answered (settled : Settled services world) (check : Check Content)
    (quiet : check.installs services = false) :
    Ends (check.request services) (check.Answered services) world := by
  have stopped {code : Code} {message : String} (silent : check.answer services = none)
      (plain : code ∉ [.recoveryRequired, .rollbackFailed, .noRollback, .unsupportedPayloadContract]) :
      Ends (failure code message) (check.Answered services) world :=
    answered_of_silent silent (failure_settled settled plain) fun recovering =>
      plain (recovering ▸ List.mem_cons_self)
  unfold Check.request requestManifest
  by_cases disabled : !check.profile.autoUpdate ∨ check.profile.updateManifestUrl = "" ∨
      check.profile.updatePublicKeyPath = ""
  · rw [if_pos disabled]
    have silent : check.answer services = none := by
      unfold Check.answer
      dsimp only
      split
      · rfl
      · apply if_neg
        rintro ⟨enabled, address, key, -⟩
        rcases disabled with off | noAddress | noKey
        · simp [enabled] at off
        · exact address noAddress
        · exact key noKey
    refine answered_of_silent silent ((saveAs_settled settled rfl (by decide) (by decide)).mono ?_)
      (show Code.disabled ≠ .recoveryRequired by decide)
    rintro answer later ⟨rfl, kept⟩
    exact ⟨rfl, kept⟩
  · rw [if_neg disabled]
    cases anchored : verifyTrustedKey check.surroundings.files check.profile.updatePublicKeyPath with
    | error message => exact stopped (by simp [Check.answer, anchored]) (by decide)
    | ok pinnedPublicKey =>
      simp only [Check.answer, anchored] at stopped
      dsimp only
      split
      · exact stopped (if_neg (by simp_all)) (by decide)
      split
      · exact stopped (if_neg (by simp_all)) (by decide)
      split
      · exact stopped (if_neg (by simp_all)) (by decide)
      split
      · exact stopped (if_neg (by simp_all)) (by decide)
      split
      · exact stopped (if_neg (by simp_all)) (by decide)
      split
      · next oversized =>
        refine stopped (if_neg ?_) (by decide)
        rintro ⟨-, -, -, -, -, -, -, -, small, nonempty, short⟩
        rcases oversized with large | empty | long
        · simp [large] at small
        · exact nonempty empty
        · exact absurd short (Nat.not_le.mpr long)
      · exact handleManifest_answered settled check (by simp_all [Check.answer]) quiet

/-! ## A new process -/

variable (services) in
structure Booted (before later : World Content) : Prop where
  idle : later.memory.updateInProgress = false
  noJournal : later.disk.journal = none
  state : later.disk.state = before.disk.state
  refused : later.memory.stateValid = false → later.memory.lastState = .recoveryRequired
  loaded : later.memory.stateValid = true → stableUpdateState later.memory.lastState = true →
    later.memory = ({} : Memory).loaded before.disk.receipt ∧
      before.disk.receipt.Accepted services later.disk
  backed : stableUpdateState later.memory.lastState = true → later.memory.stateValid = true →
    later.memory.lastState ≠ .unsupportedPayloadContract →
    later.memory.rollbackDirectory.isSome → ∀ receipt ∈ later.disk.rollbackReceipt,
      later.memory.Backs receipt
  complete : before.disk.receipt.Accepted services before.disk →
    stableUpdateState before.disk.receipt.state = true →
    (before.disk.receipt.rollbackDirectory.isSome → ∀ receipt ∈ before.disk.rollbackReceipt,
      (({} : Memory).loaded before.disk.receipt).Backs receipt) →
    later.memory.stateValid = true ∧ later.memory.lastState = before.disk.receipt.state

theorem default_accepted (disk : Disk Content) :
    ({} : Memory).receipt.Accepted services disk where
  known := by decide
  rollback := ⟨rfl, rfl⟩
  version := .inl rfl
  completed := by decide

theorem resumeTransaction_noJournal {after : Unit → World Content → Prop}
    (noJournal : world.disk.journal = none)
    (stable : receipt.state ∉ [.restartPending, .rollbackRestartPending] → after () world)
    (pending : receipt.state ∈ [.restartPending, .rollbackRestartPending] → after ()
      { world with memory := { world.memory with
          lastState := .recoveryRequired, lastError := "pending headless transaction has no journal" } }) :
    Ends (resumeTransaction services receipt) after world := by
  refine .bind (Ensures.look ?_)
  rw [noJournal]
  dsimp only [Option.isSome_none]
  rw [if_neg Bool.false_ne_true]
  split
  · next listed => exact Ensures.remember (pending listed)
  · next unlisted => exact .pure (stable unlisted)

theorem loadState_ensures (fresh : world.memory = {}) (noJournal : world.disk.journal = none) :
    Ends (loadState services) (fun _ later =>
      (later = { world with memory := ({} : Memory).loaded world.disk.receipt } ∧
        world.disk.receipt.Accepted services world.disk) ∨
      ∃ memory, later = { world with memory := memory } ∧ memory.updateInProgress = false ∧
        memory.lastState = .recoveryRequired ∧
        ¬(world.disk.receipt.Accepted services world.disk ∧
          stableUpdateState world.disk.receipt.state = true)) world := by
  refine .bind (Ensures.look ?_)
  cases present : world.disk.state with
  | none =>
    have initial : world.disk.receipt = ({} : Memory).receipt := by simp [Disk.receipt, present]
    refine .bind (Ensures.look ?_)
    rw [noJournal, initial]
    refine .pure (.inl ⟨?_, default_accepted world.disk⟩)
    rw [show ({} : Memory).loaded ({} : Memory).receipt = world.memory from fresh ▸ rfl]
  | some receipt =>
    have saved : world.disk.receipt = receipt := by simp [Disk.receipt, present]
    rw [saved]
    refine .bind (smooth.inspect trivial ?_)
    rw [present]
    refine smooth.loadReceipt services (fun _ => trivial) (fun accepted => ?_) ?_
    · rw [fresh]
      refine resumeTransaction_noJournal noJournal (fun _ => .inl ⟨rfl, accepted⟩) fun pending => .inr ?_
      refine ⟨_, rfl, rfl, rfl, fun both => ?_⟩
      have stable := both.2
      revert pending stable
      cases receipt.state <;> decide
    · intro refused memory message idle
      refine .inr ⟨_, rfl, ?_, rfl, fun both => refused both.1⟩
      rw [fresh] at idle
      exact idle

theorem confirmRollbackReceipt_recovering (recovering : world.memory.lastState = .recoveryRequired) :
    Ends (confirmRollbackReceipt services)
      (fun _ later => later.memory.lastState = .recoveryRequired ∧
        later.memory.updateInProgress = world.memory.updateInProgress ∧
        later.disk.journal = world.disk.journal ∧ later.disk.state = world.disk.state) world := by
  refine .bind (Ensures.consult ?_)
  split
  · exact .pure ⟨recovering, rfl, rfl, rfl⟩
  split
  · refine .call (loadRollbackReceipt_ensures services trivial) ?_
    rintro loaded later rfl
    split
    · exact .pure ⟨recovering, rfl, rfl, rfl⟩
    · exact Ensures.remember ⟨rfl, rfl, rfl, rfl⟩
  · refine .bind (Ensures.look ?_)
    split
    · exact .pure ⟨recovering, rfl, rfl, rfl⟩
    · exact .bind (smooth.attempt trivial (.pure ⟨recovering, rfl, rfl, rfl⟩))

variable (services) in
structure Loaded (before world : World Content) : Prop where
  memory : world.memory = ({} : Memory).loaded before.disk.receipt
  accepted : before.disk.receipt.Accepted services world.disk
  noJournal : world.disk.journal = none
  state : world.disk.state = before.disk.state

theorem Loaded.booted (loaded : Loaded services before world)
    (backed : world.memory.lastState ≠ .unsupportedPayloadContract → world.memory.rollbackDirectory.isSome →
      ∀ receipt ∈ world.disk.rollbackReceipt, world.memory.Backs receipt) : Booted services before world :=
  { loaded with
    idle := by
      rw [loaded.memory]
      rfl
    refused invalid := by
      rw [loaded.memory] at invalid
      exact absurd invalid Bool.true_eq_false.mp
    loaded _ _ := ⟨loaded.memory, loaded.accepted⟩
    backed _ _ := backed
    complete _ _ _ := by
      rw [loaded.memory]
      exact ⟨rfl, rfl⟩ }

theorem confirmRollbackReceipt_loaded (loaded : Loaded services before world)
    (receipts : world.disk.rollbackReceipt = before.disk.rollbackReceipt ∨ world.disk.rollbackReceipt = none) :
    Ends (confirmRollbackReceipt services)
      (fun _ later => Booted services before later) world := by
  refine .bind (Ensures.consult ?_)
  split
  · next skipped =>
    refine .pure (loaded.booted fun supported => ?_)
    rcases skipped with invalid | unsupported
    · rw [id_eq, loaded.memory] at invalid
      contradiction
    · exact absurd unsupported supported
  split
  · next named =>
    have keeps : KeepsRollback services world.disk world.memory.rollbackDirectory
        world.memory.rollbackVersion world.memory.rollbackHashes := by
      rw [loaded.memory]
      exact loaded.accepted.rollback
    refine .bind (smooth.loadRollbackReceipt services trivial keeps fun matched backs => ?_)
    cases matched with
    | true => exact .pure (loaded.booted fun _ _ => backs.mp rfl)
    | false =>
      rw [if_neg Bool.false_ne_true]
      refine Ensures.remember ?_
      rw [id_eq, loaded.memory] at named
      change Booted services before (world.refused _)
      refine {
        idle := by
          rw [World.refused, loaded.memory]
          rfl
        noJournal := loaded.noJournal
        state := loaded.state
        refused := fun _ => rfl
        loaded := fun valid => absurd valid Bool.false_ne_true
        backed := fun _ valid => absurd valid Bool.false_ne_true
        complete := fun _ _ backed => ?_ }
      refine absurd (backs.mpr fun receipt listed => ?_) Bool.false_ne_true
      rcases receipts with same | dropped
      · rw [same] at listed
        rw [loaded.memory]
        exact backed named receipt listed
      · rw [dropped] at listed
        contradiction
  · next unnamed =>
    refine .bind (Ensures.look ?_)
    split
    · exact .pure (loaded.booted fun _ named => absurd named unnamed)
    · refine .bind (smooth.attempt trivial (.pure (Loaded.booted ?_ fun _ named => absurd named unnamed)))
      exact ⟨loaded.memory, loaded.accepted.frame fun _ _ _ present => present, loaded.noJournal, loaded.state⟩

theorem initializeState_booted (fresh : world.memory = {}) (noJournal : world.disk.journal = none) :
    Ends (initializeState services) (fun _ later => Booted services world later)
      world := by
  refine .bind (.bind (smooth.synchronize trivial (.pure ?_)))
  refine .call (loadState_ensures fresh noJournal) ?_
  rintro _ later (⟨rfl, accepted⟩ | ⟨memory, rfl, idle, recovering, incomplete⟩)
  · refine .call ((collectGarbage_within _).weaken fun _ _ => trivial) fun _ later collected => ?_
    have memory : later.memory = ({} : Memory).loaded world.disk.receipt := by rw [collected.same]
    have loaded : Loaded services world later := {
      memory := memory
      accepted := accepted.frame fun directory named files present => by
        rw [collected.kept directory ?_, present]
        simp only [World.named, List.mem_append, Option.mem_toList]
        exact .inl (.inl named)
      noJournal := by rw [collected.same]; exact noJournal
      state := by rw [collected.same] }
    refine .bind (Ensures.remember ?_)
    rw [if_neg fun invalid => absurd invalid.1 (by rw [memory]; exact Bool.false_ne_true)]
    exact confirmRollbackReceipt_loaded loaded collected.receipt
  · refine .call ((collectGarbage_within _).weaken fun _ _ => trivial) fun _ later collected => ?_
    have same : later.memory = memory := by rw [collected.same]
    have journal : later.disk.journal = none := by
      rw [collected.same]
      exact noJournal
    have state : later.disk.state = world.disk.state := by rw [collected.same]
    refine .bind (Ensures.remember ?_)
    refine (confirmRollbackReceipt_recovering ?_).mono ?_
    · dsimp only
      split
      · rfl
      · rw [same, recovering]
    · rintro _ last ⟨stillRecovering, stillIdle, sameJournal, sameState⟩
      refine {
        idle := stillIdle.trans ?_
        noJournal := sameJournal.trans journal
        state := sameState.trans state
        refused := fun _ => stillRecovering
        loaded := fun _ stable => absurd stable (by rw [stillRecovering]; decide)
        backed := fun stable => absurd stable (by rw [stillRecovering]; decide)
        complete := fun accepted stable => absurd ⟨accepted, stable⟩ incomplete }
      dsimp only
      split <;> rw [same, idle]

/-! ## Runs -/

theorem Booted.settled (booted : Booted services before world)
    (valid : world.memory.stateValid = true) (stable : stableUpdateState world.memory.lastState = true)
    (supported : world.memory.lastState ≠ .unsupportedPayloadContract) : Settled services world := by
  obtain ⟨memory, accepted⟩ := booted.loaded valid stable
  have saved : world.disk.receipt = before.disk.receipt := congrArg (Option.getD · _) booted.state
  have same : world.memory.receipt = world.disk.receipt := by
    rw [memory, saved]
    rfl
  have state : world.disk.receipt.state = world.memory.lastState := by
    rw [← same]
    rfl
  constructor
  case valid => exact valid
  case idle => exact booted.idle
  case stable => exact stable
  case supported => exact supported
  case noJournal => exact booted.noJournal
  case accepted =>
    rw [same, saved]
    exact accepted
  case saved => rw [same]
  case savedAccepted =>
    rw [saved]
    exact accepted
  case savedStable =>
    rw [state]
    exact stable
  case savedSupported =>
    rw [state]
    exact supported
  case backed => exact booted.backed stable valid supported

theorem restarted_booted (noJournal : world.disk.journal = none) :
    Booted services world.restarting (restarted services world) := by
  have fresh : world.restarting.memory = {} := rfl
  exact (initializeState_booted fresh noJournal [] fun _ listed => absurd listed List.not_mem_nil).2.1

theorem restarted_settled (settled : Settled services world) : Settled services (restarted services world) := by
  have booted : Booted services world.restarting (restarted services world) :=
    restarted_booted settled.noJournal
  have identity : (({} : Memory).loaded world.disk.receipt).rollbackDirectory = world.memory.rollbackDirectory ∧
      (({} : Memory).loaded world.disk.receipt).rollbackVersion = world.memory.rollbackVersion ∧
      (({} : Memory).loaded world.disk.receipt).rollbackHashes = world.memory.rollbackHashes := by
    rw [settled.saved]
    exact ⟨rfl, rfl, rfl⟩
  obtain ⟨valid, state⟩ := booted.complete settled.savedAccepted settled.savedStable fun named receipt listed => by
    obtain ⟨directory, version, hashes⟩ := identity
    obtain ⟨backedDirectory, backedVersion, backedHashes⟩ :=
      settled.backed (directory ▸ named) receipt listed
    exact ⟨directory.trans backedDirectory, version.trans backedVersion, hashes.trans backedHashes⟩
  exact booted.settled valid (state ▸ settled.savedStable) (state ▸ settled.savedSupported)

theorem run_answered (settled : Settled services world) (check : Check Content)
    (quiet : check.installs services = false) :
    check.Answered services (check.run services world []).value (check.run services world []).world := by
  rw [run_settled settled]
  exact (request_answered settled.cleared check quiet [] fun _ listed =>
    absurd listed List.not_mem_nil).2.1

end

structure Usable (world : World Content) : Prop where
  valid : world.memory.stateValid = true
  checkable : checkableUpdateState world.memory.lastState = true
  processed : ∀ (check : Check Content) outcomes,
    check.run services world outcomes = check.request services world.cleared outcomes

def Undisturbed (world : World Content) : List (Event Content) → Prop
  | [] => Usable services world
  | event :: rest => Usable services world ∧ event.code services world ≠ some .recoveryRequired ∧
      Undisturbed (event.after services world) rest

def Event.installs : Event Content → Bool
  | .restart => false
  | .request check => check.installs services

def Event.rejected : Event Content → Bool
  | .restart => false
  | .request check => check.rejected services

section
variable {services}

theorem Settled.usable (settled : Settled services world) : Usable services world where
  valid := settled.valid
  checkable := by simp [checkableUpdateState, settled.stable]
  processed := run_settled settled

theorem Undisturbed.usable {events : List (Event Content)} (undisturbed : Undisturbed services world events) :
    Usable services world := by
  cases events with
  | nil => exact undisturbed
  | cons event rest => exact undisturbed.1

theorem Settled.undisturbed_iff (settled : Settled services world) (events : List (Event Content))
    (quiet : ∀ event ∈ events, event.installs services = false) :
    Undisturbed services world events ↔ ∀ event ∈ events, event.rejected services = false := by
  induction events generalizing world with
  | nil => exact ⟨fun _ _ listed => absurd listed List.not_mem_nil, fun _ => settled.usable⟩
  | cons event rest ih =>
    have quietRest := fun other listed => quiet other (List.mem_cons_of_mem _ listed)
    rw [List.forall_mem_cons]
    cases event with
    | restart =>
      have next := ih (restarted_settled settled) quietRest
      refine ⟨fun undisturbed => ⟨rfl, next.mp undisturbed.2.2⟩, fun kept => ?_⟩
      exact ⟨settled.usable, (Option.some_ne_none _).symm, next.mpr kept.2⟩
    | request check =>
      have answered := run_answered settled check (quiet _ List.mem_cons_self)
      unfold Check.Answered at answered
      cases rejected : check.rejected services with
      | true =>
        rw [rejected, if_pos rfl] at answered
        refine ⟨fun undisturbed => ?_, fun kept => absurd kept.1 (by simp [Event.rejected, rejected])⟩
        have checkable := undisturbed.2.2.usable.checkable
        exact absurd (checkable.symm.trans answered) Bool.true_eq_false.mp
      | false =>
        rw [rejected, if_neg Bool.false_ne_true] at answered
        have next := ih answered.2 quietRest
        refine ⟨fun undisturbed => ⟨rejected, next.mp undisturbed.2.2⟩, fun kept => ?_⟩
        exact ⟨settled.usable, fun same => answered.1 (Option.some.inj same), next.mpr kept.2⟩

theorem run_unsupported (idle : world.memory.updateInProgress = false)
    (unsupported : world.memory.lastState = .unsupportedPayloadContract) (check : Check Content) :
    Ends (check.run services)
      (fun result _ => result.code = .unsupportedPayloadContract) world := by
  refine .bind (.bind (Ensures.consult ?_))
  rw [id_eq, idle, if_neg Bool.false_ne_true, if_pos unsupported]
  refine .bind (.bind (.bind (.bind (Ensures.consult (.bind (Ensures.look ?_))))))
  rw [if_neg fun retryable => absurd retryable.1 (by decide)]
  refine .pure ?_
  rw [if_neg Bool.false_ne_true, if_neg (by decide), if_neg (by decide)]
  exact Ensures.remember (.bind (Ensures.remember (.pure (.pure (.pure rfl)))))

end

def idleCheck (content : Content) : Check Content where
  profile := ⟨false, "", "", []⟩
  currentVersion := ""
  surroundings := {
    files := fun _ => .missing
    filesAfter := fun _ => .missing
    manifest := ⟨false, services.parseUrl "", false, 0, []⟩
    manifestTooLarge := false
    artifact := ⟨false, services.parseUrl "", false, 0, content⟩ }

/-- From a valid stable state without a journal, checks that install nothing leave the updater usable
exactly if the state is not that of the retired payload contract and no reply that passes the
transport checks is rejected by the manifest parser. -/
theorem undisturbed_iff_none_rejected (start : World Content) (noJournal : start.disk.journal = none)
    (valid : (restarted services start).memory.stateValid = true)
    (stable : stableUpdateState (restarted services start).memory.lastState = true)
    (events : List (Event Content)) (quiet : ∀ event ∈ events, event.installs services = false) :
    Undisturbed services (restarted services start) events ↔
      (restarted services start).memory.lastState ≠ .unsupportedPayloadContract ∧
        ∀ event ∈ events, event.rejected services = false := by
  have booted : Booted services start.restarting (restarted services start) := restarted_booted noJournal
  by_cases unsupported : (restarted services start).memory.lastState = .unsupportedPayloadContract
  · refine ⟨fun undisturbed => ?_, fun kept => absurd unsupported kept.1⟩
    have processed := undisturbed.usable.processed (idleCheck services start.disk.installed.amneziad) []
    have refused : ((idleCheck services start.disk.installed.amneziad).run services
        (restarted services start) []).value.code = .unsupportedPayloadContract :=
      (run_unsupported booted.idle unsupported _ [] fun _ listed => absurd listed List.not_mem_nil).2.1
    rw [processed] at refused
    contradiction
  · have settled := booted.settled valid stable unsupported
    rw [settled.undisturbed_iff events quiet]
    exact ⟨fun kept => ⟨unsupported, kept⟩, And.right⟩

theorem undisturbed_by_errors :
    Undisturbed Sample.provided (restarted Sample.provided Sample.start)
      [.request (Sample.check [7] 500 .old .new), .restart, .request (Sample.check [7] 404 .old .new)] :=
  (undisturbed_iff_none_rejected Sample.provided Sample.start rfl (by decide) (by decide) _
    (by decide +kernel)).mpr (by decide +kernel)

theorem unparsableManifest_locks_out :
    let started := restarted Sample.provided Sample.start
    let broken : Event Sample := .request (Sample.check [7] 200 .old .new)
    let valid : Event Sample := .request (Sample.check [1] 200 .old .new)
    (started.memory.stateValid = true ∧ stableUpdateState started.memory.lastState = true ∧
      started.disk.journal = none ∧ broken.installs Sample.provided = false) ∧
      broken.code Sample.provided started = some .invalidManifest ∧
      valid.code Sample.provided started = some .restartPending ∧
      valid.code Sample.provided (broken.after Sample.provided started) = some .recoveryRequired ∧
      valid.code Sample.provided (restarted Sample.provided (broken.after Sample.provided started)) =
        some .recoveryRequired ∧
      ¬Undisturbed Sample.provided started [broken] := by
  refine ⟨by decide +kernel, by decide +kernel, by decide +kernel, by decide +kernel, by decide +kernel, ?_⟩
  intro undisturbed
  exact absurd undisturbed.2.2.checkable (by decide +kernel)

end Amnezia.Headless
