import Amnezia.Headless.UpdateSafety

/-! # Where installed files come from -/

namespace Amnezia.Headless
open Lib Procedure

variable {Content : Type} (services : Services Content)

/-- A regular file of root that no one else may write, with the key as its content. -/
structure KeyFile.Holds (file : KeyFile) (key : Bytes) : Prop where
  isFile : file.isFile = true
  notLink : file.isSymLink = false
  owner : file.ownerId = 0
  unwritable : file.writeGroup = false ∧ file.writeOther = false
  content : file.readAll = some key
  size : 0 < key.length ∧ key.length ≤ 16 * 1024

/-- The file at the fixed path holds the key before the request, and a key of the same hash when the
reply is verified. -/
def Check.Trusts (check : Check Content) (key : Bytes) : Prop :=
  (check.surroundings.files trustedUpdatePublicKeyPath).Holds key ∧
    ∃ current, (check.surroundings.filesAfter trustedUpdatePublicKeyPath).Holds current ∧
      services.keyHash current = services.keyHash key

def Check.Signed (check : Check Content) (payload : JsonObject) : Prop :=
  ∃ (key : Bytes) (envelope : JsonObject) (bytes signature : Bytes), check.Trusts services key ∧
    services.fromJson check.surroundings.manifest.body = some (.object envelope) ∧
    decodeStrict services (utf8 (envelope.text "payload")) true = some bytes ∧
    decodeStrict services (utf8 (envelope.text "signature")) false = some signature ∧
    services.verifySignature key bytes signature = true ∧
    services.fromJson bytes = some (.object payload)

def Lists (payload : JsonObject) (archive : Content) : Prop :=
  let artifact := ((payload.value "platforms").toObject.value headlessPlatform).toObject
  artifact.text "sha256" = services.sha256 archive ∧ artifact.value "size" = .number (services.size archive)

structure Check.Authentic (check : Check Content) (pair : Pair Content) : Prop where
  listed : ∃ payload, check.Signed services payload ∧
    newerVersion (payload.text "version") check.currentVersion = true ∧
    Lists services payload check.surroundings.artifact.body
  members : ∃ members, services.members check.surroundings.artifact.body = some members ∧
    ∀ name, ∃ member ∈ members, member.name = managedName name ∧ member.content = pair.get name

section
variable {services} {profile : Profile} {manifestUrl : Url} {currentVersion : String} {candidate : Candidate}
  {check : Check Content} {pair : Pair Content}

theorem number_of_jsonInteger {value : Json} {minimum maximum number : Int}
    (read : jsonInteger value minimum maximum = some number) : value = .number number := by
  unfold jsonInteger at read
  split at read
  · next rational =>
    split at read
    · next bounds =>
      rw [← Option.some.inj read]
      exact congrArg Json.number (Rat.den_eq_one_iff rational |>.mp bounds.1).symm
    · contradiction
  · contradiction

theorem parseArtifact_available {payload artifact : JsonObject} {version : String}
    (parsed : parseArtifact services profile manifestUrl payload artifact version = .available candidate) :
    artifact.text "sha256" = candidate.sha256 ∧ artifact.value "size" = .number candidate.size := by
  unfold parseArtifact at parsed
  dsimp only at parsed
  split at parsed
  · contradiction
  split at parsed
  · contradiction
  split at parsed
  · contradiction
  split at parsed
  · contradiction
  next size sized =>
  split at parsed
  · contradiction
  cases parsed
  exact ⟨rfl, number_of_jsonInteger sized⟩

theorem parsePayload_available {payload : JsonObject}
    (parsed : parsePayload services profile manifestUrl currentVersion payload = .available candidate) :
    newerVersion (payload.text "version") currentVersion = true ∧
      let artifact := ((payload.value "platforms").toObject.value headlessPlatform).toObject
      artifact.text "sha256" = candidate.sha256 ∧ artifact.value "size" = .number candidate.size := by
  unfold parsePayload at parsed
  dsimp only at parsed
  split at parsed
  · contradiction
  split at parsed
  · contradiction
  split at parsed
  · contradiction
  split at parsed
  · contradiction
  split at parsed
  · contradiction
  split at parsed
  · contradiction
  next newer =>
  split at parsed
  · contradiction
  split at parsed
  · contradiction
  exact ⟨by simpa using newer, parseArtifact_available parsed⟩

theorem verifyEnvelope_some {envelope : JsonObject} {publicKey bytes : Bytes}
    (verified : verifyEnvelope services envelope publicKey = some bytes) :
    decodeStrict services (utf8 (envelope.text "payload")) true = some bytes ∧
      ∃ signature, decodeStrict services (utf8 (envelope.text "signature")) false = some signature ∧
        services.verifySignature publicKey bytes signature = true := by
  unfold verifyEnvelope at verified
  split at verified
  · contradiction
  simp only [Option.bind_eq_bind, Option.bind_eq_some_iff] at verified
  obtain ⟨payload, decoded, signature, signed, accepted⟩ := verified
  split at accepted
  · contradiction
  next valid =>
  simp only [not_or, Bool.not_eq_true, Bool.not_eq_false'] at valid
  rw [← Option.some.inj accepted]
  exact ⟨decoded, signature, signed, valid.2.2.2.2⟩

theorem verifyTrustedKey_ok {files : String → KeyFile} {configuredPath : String} {key : Bytes}
    (verified : verifyTrustedKey files configuredPath = .ok key) :
    (files trustedUpdatePublicKeyPath).Holds key := by
  unfold verifyTrustedKey at verified
  dsimp only at verified
  split at verified
  · contradiction
  next regular =>
  simp only [not_or, not_not, Bool.not_eq_true, Bool.not_eq_false'] at regular
  obtain ⟨rfl, -, isFile, notLink⟩ := regular
  split at verified
  · contradiction
  next safe =>
  simp only [not_or, not_not, Bool.not_eq_true] at safe
  split at verified
  · contradiction
  next bytes content =>
  split at verified
  · contradiction
  next bounded =>
  split at verified
  · contradiction
  next whole =>
  cases verified
  exact ⟨isFile, notLink, safe.1, safe.2, content, by omega, by omega⟩

theorem TrustAnchor.unchanged_holds {anchor : TrustAnchor} (same : anchor.unchanged services = true) :
    ∃ current, (anchor.files trustedUpdatePublicKeyPath).Holds current ∧
      services.keyHash current = services.keyHash anchor.pinnedPublicKey := by
  unfold unchanged at same
  split at same
  · contradiction
  next current verified => exact ⟨current, verifyTrustedKey_ok verified, by simpa using same⟩

theorem signed_of_answer (answered : check.answer services = some (.available candidate)) :
    ∃ payload, check.Signed services payload ∧
      newerVersion (payload.text "version") check.currentVersion = true ∧
      let artifact := ((payload.value "platforms").toObject.value headlessPlatform).toObject
      artifact.text "sha256" = candidate.sha256 ∧ artifact.value "size" = .number candidate.size := by
  unfold Check.answer at answered
  dsimp only at answered
  split at answered
  · contradiction
  next key anchored =>
  split at answered
  case isFalse => contradiction
  have parsed := Option.some.inj answered
  unfold parseManifest at parsed
  split at parsed
  case h_2 => contradiction
  next envelope enveloped =>
  unfold parseSigned at parsed
  split at parsed
  · contradiction
  split at parsed
  · contradiction
  next same =>
  split at parsed
  · contradiction
  next bytes verified =>
  split at parsed
  · contradiction
  split at parsed
  case h_2 => contradiction
  next payload read =>
  obtain ⟨decoded, signature, signed, valid⟩ := verifyEnvelope_some verified
  have trusted : check.Trusts services key :=
    ⟨verifyTrustedKey_ok anchored, TrustAnchor.unchanged_holds (by simpa using same)⟩
  exact ⟨payload, ⟨key, envelope, bytes, signature, trusted, enveloped, decoded, signed, valid, read⟩,
    parsePayload_available parsed⟩

variable {members : List (ArchiveMember Content)}

theorem mem_of_memberContent {name : ManagedFile} {content : Content}
    (found : memberContent members name = some content) :
    ∃ member ∈ members, member.name = managedName name ∧ member.content = content := by
  obtain ⟨member, first, same⟩ := Option.map_eq_some_iff.mp found
  have named := List.find?_some first
  exact ⟨member, List.mem_of_find?_eq_some first, by simpa using named, same⟩

theorem mem_of_payloadOf (found : payloadOf services members = some pair) (name : ManagedFile) :
    ∃ member ∈ members, member.name = managedName name ∧ member.content = pair.get name := by
  unfold payloadOf at found
  split at found
  · simp only [Option.bind_eq_bind, Option.bind_eq_some_iff] at found
    obtain ⟨amneziad, first, amneziaCli, second, same⟩ := found
    rw [← Option.some.inj same]
    cases name with
    | amneziad => exact mem_of_memberContent first
    | amneziaCli => exact mem_of_memberContent second
  · contradiction

theorem authentic_of_answer (answered : check.answer services = some (.available candidate))
    (delivered : candidatePair services candidate check.surroundings.artifact = some pair) :
    check.Authentic services pair := by
  obtain ⟨payload, signed, newer, digest, size⟩ := signed_of_answer answered
  unfold candidatePair at delivered
  split at delivered
  case isFalse => contradiction
  next accepted =>
  obtain ⟨-, -, -, -, sized, hashed⟩ := accepted
  obtain ⟨members, extracted, payloadFound⟩ := Option.bind_eq_some_iff.mp delivered
  refine ⟨⟨payload, signed, newer, digest.trans hashed.symm, ?_⟩, members, extracted, mem_of_payloadOf payloadFound⟩
  rw [size, ← sized]
  rfl

end

def Genuine (installed : Pair Content) (moves : List (Move Content)) (pair : Pair Content) : Prop :=
  pair = installed ∨ ∃ check, .check check ∈ moves ∧ check.Authentic services pair

section
variable {services} {genuine wider : Pair Content → Prop} {hashing : Hashing Content} {world : World Content}
  {installed pair : Pair Content} {moves : List (Move Content)} {process : Process Content}

theorem Guarded.mono (guarded : Guarded hashing genuine world) (more : ∀ pair, genuine pair → wider pair) :
    Guarded hashing wider world := by
  have files {name : ManagedFile} {content : Content} : FileOf genuine name content → FileOf wider name content := by
    rintro ⟨pair, fine, same⟩
    exact ⟨pair, more pair fine, same⟩
  exact { guarded with
    files := fun directory name content found => files (guarded.files directory name content found)
    installed := fun name => files (guarded.installed name)
    renamed := fun entry listed => files (guarded.renamed entry listed)
    taken := fun pair listed => more pair (guarded.taken pair listed) }

theorem fresh_guarded (hashing : Hashing Content) (installed : Pair Content) :
    Guarded hashing (Genuine services installed []) (World.fresh installed) where
  fits _ listed := nomatch listed
  acknowledged _ listed := nomatch listed
  unjournaled _ := List.mem_singleton_self installed
  remembered _ listed := nomatch listed
  rememberedKind _ listed := nomatch listed
  saved _ listed := nomatch listed
  files _ _ _ found := nomatch found
  installed _ := ⟨installed, .inl rfl, rfl⟩
  renamed _ listed := nomatch listed
  taken _ listed := .inl (List.mem_singleton.mp listed)

def Reported (hashing : Hashing Content) (genuine : Pair Content → Prop) (report : Option Result)
    (later : World Content) : Prop :=
  Guarded hashing genuine later ∧ ∀ result ∈ report, result.ok = true → later.disk.installed ∈ later.pairs

theorem report_guarded {move : Move Content} (guarded : Guarded services genuine world)
    (fine : ∀ check, move = .check check → check.Fine services genuine) :
    Ensures (rough (Guarded services genuine)) (move.report services)
      (Reported services genuine) world := by
  have silent {later : World Content} (kept : Guarded services.toHashing genuine later) :
      Ensures (rough (Guarded services genuine)) (pure none)
        (Reported services genuine) later :=
    .pure ⟨kept, fun _ impossible => nomatch impossible⟩
  have reporting {action : Action Content Result}
      (safe : Ensures (rough (Guarded services genuine)) action (Safe services genuine) world) :
      Ensures (rough (Guarded services genuine)) (do let result ← action; return some result)
        (Reported services genuine) world := by
    refine .call safe fun result later kept => .pure ⟨kept.1, fun other same => ?_⟩
    rw [← Option.some.inj same]
    exact kept.2
  cases move with
  | boot => exact .call (boot_guarded services world guarded) fun _ _ kept => silent kept
  | check given => exact reporting (run_safe services guarded (fine given rfl))
  | rollback => exact reporting (rollback_safe services guarded)
  | acknowledge version surroundings =>
    exact reporting (acknowledgeStoppedRollback_safe services guarded version surroundings)
  | quit => exact silent guarded

theorem move_guarded {move : Move Content}
    (guarded : Guarded services (Genuine services installed moves) world) :
    Ensures (rough (Guarded services (Genuine services installed (moves ++ [move]))))
      (move.report services) (Reported services (Genuine services installed (moves ++ [move]))) world := by
  apply report_guarded
  · apply guarded.mono
    rintro pair (first | ⟨check, listed, authentic⟩)
    · exact .inl first
    · exact .inr ⟨check, List.mem_append_left _ listed, authentic⟩
  · rintro check rfl candidate answered pair delivered
    exact .inr ⟨check, List.mem_append_right _ (List.mem_singleton_self _), authentic_of_answer answered delivered⟩

theorem run_guarded (run : Run (Step services fun _ => True) ⟨false, .fresh installed⟩ moves process) :
    Guarded services (Genuine services installed moves) process.world := by
  refine run.invariant (I := fun past reached =>
    Guarded services (Genuine services installed past) reached.world) ?_ [] (fresh_guarded _ installed)
  intro past before move after guarded step
  exact step.keeps_rough ((move_guarded guarded).mono fun _ _ => And.left)

theorem Disk.Holds.pairIn {disk : Disk Content} {directory : DirectoryName}
    (holds : disk.Holds hashing directory (pair.map hashing.sha256)) : disk.pairIn directory = some pair := by
  have found (name : ManagedFile) : disk.file directory name = some (pair.get name) := by
    obtain ⟨content, here, same⟩ := Option.map_eq_some_iff.mp (holds name)
    rw [Pair.get_map] at same
    rw [here, hashing.injective same]
  simp only [Disk.pairIn, found, Pair.get, Option.bind_eq_bind, Option.bind_some, Option.pure_def]

/-- Whenever the two installed files are not those of one known pair, the journal is on disk and its
rollback directory holds a whole known pair with the hashes that the journal records. -/
theorem mixed_pair_has_repair (run : Run (Step services fun _ => True) ⟨false, .fresh installed⟩ moves process)
    (mixed : process.world.disk.installed ∉ process.world.pairs) :
    ∃ journal, process.world.disk.journal = some journal ∧ ∃ pair ∈ process.world.pairs,
      process.world.disk.pairIn journal.rollbackDirectory = some pair ∧
        pair.map services.sha256 = journal.rollbackHashes := by
  have guarded := run_guarded run
  cases present : process.world.disk.journal with
  | none => exact absurd (guarded.unjournaled present) mixed
  | some journal =>
    have fits := guarded.fits journal present
    obtain ⟨pair, listed, same⟩ := fits.rollbackKnown
    have holds := fits.holds
    rw [← same] at holds
    exact ⟨journal, rfl, pair, listed, holds.pairIn, same⟩

theorem Sample.updated_passes : (∃ half ∈ Sample.updated.history,
      half.disk.installed = ⟨.new, .old⟩ ∧ half.disk.installed ∉ half.pairs) ∧
    Sample.updated.world.renames = [(.amneziaCli, .new), (.amneziad, .new)] := by
  decide +kernel

theorem halfInstalled_has_repair :
    ∃ half ∈ Sample.updated.history, half.disk.installed = ⟨.new, .old⟩ ∧
      ∃ journal, half.disk.journal = some journal ∧ ∃ pair ∈ half.pairs,
        half.disk.pairIn journal.rollbackDirectory = some pair ∧
          pair.map Sample.provided.sha256 = journal.rollbackHashes := by
  obtain ⟨⟨half, passed, installed, mixed⟩, -⟩ := Sample.updated_passes
  have run : Run (Step Sample.provided fun _ => True) ⟨false, .fresh ⟨.old, .old⟩⟩
      [.boot, .check (Sample.check [1] 200 .old .new)] ⟨false, half⟩ :=
    .cons (.finish [] (fun _ _ => trivial) rfl) (.cons (.stop [] (fun _ _ => trivial) rfl passed) (.nil _))
  exact ⟨half, passed, installed, mixed_pair_has_repair run mixed⟩

/-- Every content that was renamed onto a managed path belongs to the first pair or to an authentic
candidate of the run, and a move that reports success leaves one such pair installed. -/
theorem installed_files_genuine
    (run : Run (Step services fun _ => True) ⟨false, .fresh installed⟩ moves process) :
    (∀ entry ∈ process.world.renames, FileOf (Genuine services installed moves) entry.1 entry.2) ∧
      ∀ move : Move Content, process.running = move.needsProcess → ∀ outcomes,
        let executed := move.report services process.world outcomes
        ∀ result ∈ executed.value, result.ok = true →
          Genuine services installed (moves ++ [move]) executed.world.disk.installed := by
  have guarded := run_guarded run
  refine ⟨guarded.renamed, fun move _ outcomes result reported ok => ?_⟩
  obtain ⟨-, ⟨kept, successful⟩, -⟩ := move_guarded guarded outcomes fun _ _ => trivial
  exact kept.taken _ (successful result reported ok)

theorem Sample.run_updated :
    Run (Step Sample.provided fun _ => True) ⟨false, .fresh ⟨.old, .old⟩⟩
      [.boot, .check (Sample.check [1] 200 .old .new)] ⟨true, Sample.updated.world⟩ :=
  .cons (.finish [] (fun _ _ => trivial) rfl) (.cons (.finish [] (fun _ _ => trivial) rfl) (.nil _))

theorem updated_files_genuine :
    Sample.updated.world.renames = [(.amneziaCli, .new), (.amneziad, .new)] ∧
      ∀ entry ∈ Sample.updated.world.renames, FileOf (Genuine Sample.provided ⟨.old, .old⟩
        [.boot, .check (Sample.check [1] 200 .old .new)]) entry.1 entry.2 :=
  ⟨Sample.updated_passes.2, (installed_files_genuine Sample.run_updated).1⟩

end

end Amnezia.Headless
