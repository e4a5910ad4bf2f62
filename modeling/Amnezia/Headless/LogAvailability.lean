import Amnezia.Headless.LogConfirmation

/-! # A log that only grows does not stop the uploader -/

namespace Amnezia.Headless.Logs
open Lib Relation

/-! ## A source that grows -/

structure Source.GrowsTo (old new : Source) : Prop where
  identity : new.identity = old.identity
  size : old.size ≤ new.size
  bytes : ∀ position < old.size, new.byte position = old.byte position

variable {old new source : Source}

theorem Source.GrowsTo.map_eq (grows : old.GrowsTo new) {start length : Nat}
    (inside : start + length ≤ old.size) :
    (List.range' start length).map new.byte = (List.range' start length).map old.byte := by
  apply List.map_congr_left
  intro position member
  rw [List.mem_range'_1] at member
  exact grows.bytes position (by omega)

theorem Source.GrowsTo.read_eq (grows : old.GrowsTo new) {start length : Nat}
    (inside : start + length ≤ old.size) : new.read start length = old.read start length := by
  have size := grows.size
  have later : start + length ≤ new.size := by omega
  simp only [Source.read, if_pos inside, if_pos later, grows.map_eq inside]

theorem Source.GrowsTo.leading_eq (grows : old.GrowsTo new)
    (long : fingerprintBytes ≤ old.size ∨ new.size = old.size) : new.leading = old.leading := by
  have size := grows.size
  have same : min new.size fingerprintBytes = min old.size fingerprintBytes := by omega
  unfold Source.leading
  rw [same]
  apply grows.map_eq
  omega

theorem read_isSome (source : Source) (start length : Nat) (inside : start + length ≤ source.size) :
    ∃ bytes, source.read start length = some bytes :=
  ⟨_, if_pos inside⟩

variable {Hash : Type} {services : Services Hash} {installation : Installation} {working : DurableState Hash}
variable {binding : Hash} {world : World Hash}

theorem Source.GrowsTo.fingerprint_eq (grows : old.GrowsTo new)
    (long : fingerprintBytes ≤ old.size ∨ new.size = old.size) :
    sourceFingerprint services installation new = sourceFingerprint services installation old := by
  unfold sourceFingerprint
  rw [grows.identity, grows.leading_eq long]

theorem Source.GrowsTo.cursorAnchor_eq (grows : old.GrowsTo new) {offset : Nat}
    (inside : offset ≤ old.size) : cursorAnchor services new offset = cursorAnchor services old offset := by
  unfold cursorAnchor
  simp only
  rw [grows.read_eq (by omega)]

variable (services) in
theorem cursorAnchor_isOk {offset : Nat} (inside : offset ≤ source.size) :
    ∃ anchor, cursorAnchor services source offset = .ok anchor := by
  unfold cursorAnchor
  split
  · exact ⟨none, rfl⟩
  · obtain ⟨bytes, reading⟩ := read_isSome source (offset - cursorAnchorBytes)
      (offset - (offset - cursorAnchorBytes)) (by omega)
    simp only [reading]
    exact ⟨_, rfl⟩

/-! ## A scan that succeeds -/

structure Passable (services : Services Hash) (installation : Installation) (source : Source)
    (working : DurableState Hash) : Prop where
  lookbehind : working.offset = 0 ∨ working.sanitizerLookbehind ≠ [] ∨ working.offset ≤ source.size
  identity : working.sourceIdentity = none ∨ working.sourceIdentity = some source.identity ∨
    (working.awaitingStable = false ∧ source.size < working.offset)
  anchor : working.cursorAnchor = none ∨ source.size < working.offset ∨
    cursorAnchor services source working.offset = .ok working.cursorAnchor
  awaiting : working.awaitingStable = true → working.offset ≤ source.size ∧
    working.fingerprint = some (sourceFingerprint services installation source)

theorem readLookbehind_isOk (passable : Passable services installation source working) :
    ∃ lookbehind, readLookbehind source working = .ok { working with sanitizerLookbehind := lookbehind } := by
  unfold readLookbehind
  split
  · rename_i needed
    simp only [Bool.and_eq_true, decide_eq_true_eq, List.isEmpty_iff] at needed
    have inside : working.offset ≤ source.size := by
      rcases passable.lookbehind with start | present | inside
      · omega
      · exact absurd needed.2 present
      · exact inside
    obtain ⟨bytes, reading⟩ := read_isSome source (working.offset - maximumPrivateKeyMarkerBytes)
      (working.offset - (working.offset - maximumPrivateKeyMarkerBytes)) (by omega)
    simp only [reading]
    exact ⟨bytes, rfl⟩
  · exact ⟨working.sanitizerLookbehind, rfl⟩

theorem followIdentity_isOk
    (identity : working.sourceIdentity = none ∨ working.sourceIdentity = some source.identity ∨
      (working.awaitingStable = false ∧ source.size < working.offset)) :
    ∃ followed, followIdentity source working = .ok followed := by
  unfold followIdentity
  split
  · rename_i changed
    simp only [Bool.and_eq_true, decide_eq_true_eq] at changed
    rcases identity with unset | same | ⟨settled, shorter⟩
    · simp [unset] at changed
    · exact absurd same changed.2
    · have continues : ¬(working.awaitingStable || decide (working.offset ≤ source.size)) = true := by
        simp only [settled, Bool.false_or, decide_eq_true_eq]
        omega
      rw [if_neg continues]
      exact ⟨_, rfl⟩
  · exact ⟨_, rfl⟩

theorem followTruncation_isOk (awaiting : working.awaitingStable = true → working.offset ≤ source.size) :
    ∃ located, followTruncation source working = .ok located := by
  unfold followTruncation
  split
  · rename_i shorter
    have settled : working.awaitingStable = false := by
      simpa using mt awaiting (Nat.not_le.mpr shorter)
    simp only [settled, Bool.false_eq_true, if_false]
    exact ⟨_, rfl⟩
  · exact ⟨_, rfl⟩

/-! ## A source in agreement with what is recorded -/

def Decision.state : Decision Hash → DurableState Hash
  | .confirm state | .idle state => state
  | .post _ _ candidate => candidate

structure Aligned (services : Services Hash) (installation : Installation) (source : Source)
    (state : DurableState Hash) : Prop where
  identity : state.sourceIdentity = some source.identity
  inside : state.offset ≤ source.size
  anchor : cursorAnchor services source state.offset = .ok state.cursorAnchor
  awaiting : state.awaitingStable = true →
    state.fingerprint = some (sourceFingerprint services installation source)

variable {state : DurableState Hash}

theorem Aligned.grow (grows : old.GrowsTo new) (aligned : Aligned services installation old state)
    (long : fingerprintBytes ≤ old.size ∨ new.size = old.size ∨ state.awaitingStable = false) :
    Aligned services installation new state where
  identity := by rw [aligned.identity, grows.identity]
  inside := Nat.le_trans aligned.inside grows.size
  anchor := by rw [grows.cursorAnchor_eq aligned.inside, aligned.anchor]
  awaiting awaits := by
    have long : fingerprintBytes ≤ old.size ∨ new.size = old.size := by simpa [awaits] using long
    rw [grows.fingerprint_eq long]
    exact aligned.awaiting awaits

structure Displaced (world : World Hash) (source : Source) (stored : DurableState Hash) : Prop where
  shorter : source.size < stored.offset
  settled : stored.awaitingStable = false
  lookbehind : world.memory.sanitizerLookbehind ≠ []

structure Steady (services : Services Hash) (installation : Installation) (source : Source)
    (world : World Hash) : Prop where
  present : world.source = some source
  healthy : world.state ≠ .error
  stored : ∀ stored, world.stateFile = some stored →
    Aligned services installation source stored ∨ Displaced world source stored
  waiting : ∀ request candidate, world.waiting = some (.upload request candidate) →
    Aligned services installation source candidate

theorem Steady.rested {after : World Hash} (present : after.source = some source) (healthy : after.state ≠ .error)
    (waiting : after.waiting = none)
    (file : ∀ stored, after.stateFile = some stored → Aligned services installation source stored) :
    Steady services installation source after := by
  refine ⟨present, healthy, fun stored found => .inl (file stored found), fun request candidate uploads => ?_⟩
  rw [waiting] at uploads
  cases uploads

theorem Steady.saved {after : World Hash} (present : after.source = some source)
    (healthy : after.state ≠ .error) (waiting : after.waiting = none)
    (aligned : Aligned services installation source state) (file : after.stateFile = some state.stored) :
    Steady services installation source after := by
  refine .rested present healthy waiting fun stored found => ?_
  obtain rfl := Option.some.inj (file.symm.trans found)
  exact ⟨aligned.identity, aligned.inside, aligned.anchor, aligned.awaiting⟩

theorem Steady.idle {before after : World Hash}
    (steady : Steady services installation source before) (present : after.source = before.source)
    (stateFile : after.stateFile = before.stateFile) (state : after.state = before.state)
    (lookbehind : after.memory.sanitizerLookbehind = before.memory.sanitizerLookbehind)
    (waiting : after.waiting.any Waiting.isUpload = false) : Steady services installation source after := by
  refine ⟨present.trans steady.present, state ▸ steady.healthy, fun stored file => ?_, ?_⟩
  · rcases steady.stored stored (stateFile ▸ file) with aligned | displaced
    · exact .inl aligned
    · exact .inr ⟨displaced.shorter, displaced.settled, lookbehind ▸ displaced.lookbehind⟩
  · intro request candidate uploads
    rw [uploads] at waiting
    cases waiting

theorem discarded_steady (steady : Steady services installation source world) (waiting : world.waiting = none) :
    Steady services installation source
      { world.quarantineState with memory := { targetBinding := some binding } } := by
  refine .rested (by simpa using steady.present) (by simpa using steady.healthy) (by simpa using waiting) ?_
  intro stored file
  rw [quarantineState_stateFile] at file
  cases file

theorem steady_initial (source : Source) (config : Config) :
    Steady services installation source (World.initial (some source) config) :=
  .rested rfl nofun rfl (by rintro stored ⟨⟩)

variable [DecidableEq Hash]

theorem checkCursorAnchor_isOk (anchor : working.cursorAnchor = none ∨ source.size < working.offset ∨
      cursorAnchor services source working.offset = .ok working.cursorAnchor) :
    checkCursorAnchor services source working = .ok working := by
  unfold checkCursorAnchor
  split
  · rename_i compared
    simp only [Bool.and_eq_true, decide_eq_true_eq] at compared
    rcases anchor with unset | shorter | same
    · simp [unset] at compared
    · omega
    · simp only [same, if_true]
  · rfl

theorem followFingerprint_isOk (awaiting : working.awaitingStable = true →
      working.fingerprint = some (sourceFingerprint services installation source)) :
    ∃ matched, followFingerprint services installation source working = .ok matched := by
  unfold followFingerprint
  simp only
  split
  · exact ⟨_, rfl⟩
  · split
    · rename_i changed
      have settled : working.awaitingStable = false := by simpa using mt awaiting changed
      simp only [settled, Bool.false_eq_true, if_false]
      exact ⟨_, rfl⟩
    · exact ⟨_, rfl⟩

theorem locate_isOk (passable : Passable services installation source working)
    (fresh : working.fingerprint = none → working.awaitingStable = false) :
    ∃ located, locate services installation source working = .ok located := by
  obtain ⟨lookbehind, reading⟩ := readLookbehind_isOk passable
  obtain ⟨followed, following⟩ : ∃ followed, followIdentity source
      { working with sanitizerLookbehind := lookbehind } = .ok followed := followIdentity_isOk passable.identity
  have kept := followIdentity_ok services installation following
  have checking : checkCursorAnchor services source followed = .ok followed := by
    apply checkCursorAnchor_isOk
    rcases kept with ⟨rfl, -⟩ | ⟨rebound, -⟩
    · exact passable.anchor
    · exact .inl rebound.unanchored
  have awaiting : followed.awaitingStable = true → followed.offset ≤ source.size ∧
      followed.fingerprint = some (sourceFingerprint services installation source) := by
    intro awaits
    rcases kept with ⟨rfl, -⟩ | ⟨rebound, -⟩
    · exact passable.awaiting awaits
    · rw [rebound.awaiting] at awaits
      cases awaits
  obtain ⟨matched, matching⟩ := followFingerprint_isOk fun awaits => (awaiting awaits).2
  have settles : followed.fingerprint = none → followed.awaitingStable = false := by
    rcases kept with ⟨rfl, -⟩ | ⟨rebound, -⟩
    · exact fresh
    · exact fun _ => rebound.awaiting
  obtain ⟨located, truncating⟩ : ∃ located, followTruncation source
      { matched with sourceIdentity := some source.identity } = .ok located := by
    apply followTruncation_isOk
    intro awaits
    rcases (followFingerprint_ok matching settles).2 with rfl | rebound
    · exact (awaiting awaits).1
    · rw [rebound.awaiting] at awaits
      cases awaits
  refine ⟨located, ?_⟩
  unfold locate
  simp only [reading, following, checking, matching, bind, Except.bind, truncating]

theorem proceed_isOk {located : DurableState Hash}
    (inside : located.offset ≤ source.size) :
    ∃ decision, proceed services installation binding source located = .ok decision := by
  obtain ⟨anchor, anchored⟩ := cursorAnchor_isOk services inside
  unfold proceed
  split
  · simp only [anchored, bind, Except.bind]
    exact ⟨_, rfl⟩
  · simp only [resumeRedacted_offset]
    split
    · simp only [anchored, bind, Except.bind]
      exact ⟨_, rfl⟩
    · unfold prepareUpload
      simp only [resumeRedacted_offset]
      obtain ⟨raw, reading⟩ := read_isSome source located.offset
        (min source.size (located.offset + maximumBatchBytes) - located.offset) (by omega)
      obtain ⟨next, ending⟩ := cursorAnchor_isOk services
        (Nat.min_le_left source.size (located.offset + maximumBatchBytes))
      simp only [reading, ending, bind, Except.bind]
      exact ⟨_, rfl⟩

theorem scan_isOk (passable : Passable services installation source working)
    (fresh : working.fingerprint = none → working.awaitingStable = false) :
    ∃ decision, scan services installation binding source working = .ok decision := by
  obtain ⟨located, locating⟩ := locate_isOk passable fresh
  obtain ⟨decision, proceeding⟩ : ∃ decision, proceed services installation binding source located = .ok decision :=
    proceed_isOk (locate_ok locating fresh).inside
  refine ⟨decision, ?_⟩
  unfold scan
  simp only [locating, bind, Except.bind]
  exact proceeding

theorem aligned_decision {decision : Decision Hash}
    (decided : scan services installation binding source working = .ok decision)
    (fresh : working.fingerprint = none → working.awaitingStable = false) :
    Aligned services installation source decision.state := by
  obtain ⟨located, found, decides⟩ := scan_ok decided fresh
  cases decision with
  | confirm state =>
    obtain ⟨-, -, anchor, anchored, rfl⟩ := decides
    exact ⟨found.identity, found.inside, anchored, fun awaits => by cases awaits⟩
  | idle state =>
    obtain ⟨settled, -, anchor, anchored, rfl⟩ := decides
    refine ⟨found.identity, found.inside, anchored, fun awaits => ?_⟩
    exact absurd (settled.symm.trans awaits) Bool.false_ne_true
  | post request payload candidate =>
    obtain ⟨anchor, anchored, shape⟩ := decides.state
    have next : request.nextOffset ≤ source.size := decides.next ▸ Nat.min_le_left _ _
    rw [Decision.state, shape]
    exact ⟨congrArg some decides.identity, next, anchored, fun _ => congrArg some decides.fingerprint⟩

theorem passable_of_steady (binding : Hash)
    (steady : Steady services installation source world) (recorded : Recorded services installation world)
    (running : world.state.running = true) :
    Passable services installation source (world.working binding) := by
  have same := recorded.memory running
  simp only [DurableState.position, DurableState.mk.injEq] at same
  obtain ⟨offset, print, awaiting, -, -, identity, anchor, -⟩ := same
  cases file : world.stateFile with
  | none =>
    simp only [file, Option.getD_none] at offset print awaiting identity anchor
    refine ⟨.inl offset, .inl identity, .inl anchor, fun awaits => ?_⟩
    exact absurd (awaiting.symm.trans awaits) Bool.false_ne_true
  | some stored =>
    simp only [file, Option.getD_some] at offset print awaiting identity anchor
    rcases steady.stored stored file with aligned | displaced
    · refine ⟨.inr (.inr ?_), .inr (.inl ?_), .inr (.inr ?_), fun awaits => ⟨?_, ?_⟩⟩
      · simp only [World.working, offset]
        exact aligned.inside
      · simp only [World.working, identity]
        exact aligned.identity
      · simp only [World.working, offset, anchor]
        exact aligned.anchor
      · simp only [World.working, offset]
        exact aligned.inside
      · simp only [World.working, print]
        exact aligned.awaiting (awaiting.symm.trans awaits)
    · have settled : (world.working binding).awaitingStable = false := awaiting.trans displaced.settled
      have shorter : source.size < (world.working binding).offset := by
        simp only [World.working, offset]
        exact displaced.shorter
      refine ⟨.inr (.inl displaced.lookbehind), .inr (.inr ⟨settled, shorter⟩), .inr (.inl shorter), ?_⟩
      intro awaits
      exact absurd (settled.symm.trans awaits) Bool.false_ne_true

section

variable (steady : Steady services installation source world)
include steady

section

variable (recorded : Recorded services installation world)
include recorded

theorem examine_steady (running : world.state.running = true) :
    Steady services installation source (examine services installation {} binding source world) := by
  have fresh := (recorded.grounded running binding).fresh
  obtain ⟨decision, decided⟩ : ∃ decision, scan services installation binding source (world.working binding) =
      .ok decision := scan_isOk (passable_of_steady binding steady recorded running) fresh
  have aligned := aligned_decision decided fresh
  unfold World.working at decided
  simp only [examine, decided]
  cases decision with
  | confirm state | idle state => exact .saved steady.present nofun rfl aligned rfl
  | post request payload candidate =>
    refine ⟨steady.present, steady.healthy, fun stored file => ?_, ?_⟩
    · rcases steady.stored stored file with aligned | displaced
      · exact .inl aligned
      · exact .inr ⟨displaced.shorter, displaced.settled, displaced.lookbehind⟩
    · rintro request candidate ⟨⟩
      exact aligned

theorem readSource_steady (waiting : world.waiting = none) (running : world.state.running = true) :
    Steady services installation source (readSource services installation {} world) := by
  simp only [readSource, steady.present, World.quarantineFails, Bool.and_false, Bool.false_eq_true, if_false]
  split
  · have change : Change services installation (fun _ _ => True) world { world.quarantineState with
        memory := { targetBinding := some (targetBinding services installation world.config) } } :=
      quarantined_change waiting
    apply examine_steady ?_ (change.recorded recorded) (by simpa using running)
    exact discarded_steady steady waiting
  · exact examine_steady steady recorded running

theorem poll_steady :
    Steady services installation source (poll services installation {} world) := by
  unfold poll
  split
  · exact steady
  · rename_i guards
    simp only [Bool.or_eq_true, decide_eq_true_eq, not_or, Bool.not_eq_true, Option.isSome_eq_false_iff,
      Option.isNone_iff_eq_none] at guards
    have running := running_of_ne guards.1.2 guards.2
    split
    · exact steady.idle rfl rfl rfl rfl rfl
    · exact readSource_steady steady recorded guards.1.1 running

theorem enrolled_steady {reply : EnrolmentReply}
    (accepted : reply.enrolled world.config.clientLogs = true) (running : world.state.running = true) :
    Steady services installation source (enrolled services installation reply {} world) := by
  simp only [enrolled, accepted, if_true, rebindTarget, World.quarantineFails, Bool.and_false,
    Bool.false_eq_true, if_false]
  generalize written : ({ world.config with clientLogs := _ } : Config) = config
  have idle : Steady services installation source { world with config, configFile := config, waiting := none } :=
    steady.idle rfl rfl rfl rfl rfl
  have quiet : Change services installation (fun _ _ => True) world
      { world with config, configFile := config, waiting := none } :=
    .quiet rfl rfl rfl rfl (fun waiting => by cases waiting) (fun _ => ⟨running, _, rfl⟩)
  split
  · have change : Change services installation (fun _ _ => True) _ { ({ world with
          config, configFile := config, waiting := none } : World Hash).quarantineState with
        memory := { targetBinding := some (targetBinding services installation config) } } :=
      quarantined_change rfl
    apply readSource_steady (discarded_steady idle rfl) (change.recorded (quiet.recorded recorded))
    · simp
    · simpa using running
  · have bound : Change services installation (fun _ _ => True) world { world with
        config, configFile := config, waiting := none
        memory := { world.memory with targetBinding := some (targetBinding services installation config) } } :=
      .quiet rfl rfl rfl rfl (fun waiting => by cases waiting) (fun _ => ⟨running, _, rfl⟩)
    exact readSource_steady (steady.idle rfl rfl rfl rfl rfl) (bound.recorded recorded) rfl running

end

theorem answered_steady {reply : UploadReply Hash} {request : Request Hash} {candidate : DurableState Hash}
    (waiting : world.waiting = some (.upload request candidate)) (accepted : reply.accepts request = true) :
    Steady services installation source (answered reply .written request candidate world) := by
  have aligned := steady.waiting request candidate waiting
  simp only [answered, accepted, if_true]
  exact .saved steady.present (by rintro ⟨⟩) rfl aligned rfl

end

/-! ## Ordinary runs -/

def World.recordedState (world : World Hash) : DurableState Hash := world.stateFile.getD {}

def World.uploading (world : World Hash) : Bool := world.waiting.any Waiting.isUpload

-- No operation and no reply fails; the source is appended to, or replaced by a shorter one while no
-- confirmation is pending.
def Ordinary (world : World Hash) : Label Hash → Prop
  | .change source => ∃ old new, world.source = some old ∧ source = some new ∧
      (old.GrowsTo new ∨
        (new.size < world.recordedState.offset ∧ world.recordedState.awaitingStable = false))
  | .restart _ faults | .poll faults => faults = {}
  | .enrolled reply faults => faults = {} ∧ reply.enrolled world.config.clientLogs = true
  | .answered reply save => save = .written ∧ ∀ request candidate,
      world.waiting = some (.upload request candidate) → reply.accepts request = true

-- An append does not change the leading bytes that a pending confirmation will compare, and does not
-- hide a truncation; a truncation or replacement comes while nothing is under way and the lookbehind is
-- in memory, and no restart comes between it and the next receipt.
def Undisturbed (world : World Hash) : Label Hash → Prop
  | .change source => ∀ old new, world.source = some old → source = some new →
      (old.GrowsTo new →
        (fingerprintBytes ≤ old.size ∨ new.size = old.size ∨
          (world.uploading = false ∧ world.recordedState.awaitingStable = false)) ∧
        (old.size < world.recordedState.offset → new.size < world.recordedState.offset)) ∧
      (¬old.GrowsTo new → world.uploading = false ∧ world.memory.sanitizerLookbehind ≠ [])
  | .restart _ _ => ∀ old, world.source = some old → world.recordedState.offset ≤ old.size
  | _ => True

theorem change_steady
    (steady : Steady services installation old world) (ordinary : Ordinary world (.change (some new)))
    (undisturbed : Undisturbed world (.change (some new))) :
    Steady services installation new { world with source := some new } := by
  obtain ⟨appended, replaced⟩ := undisturbed old new steady.present rfl
  refine ⟨rfl, steady.healthy, fun stored file => ?_, fun request candidate uploads => ?_⟩
  · have same : world.recordedState = stored := by simp [World.recordedState, show world.stateFile = _ from file]
    rw [same] at appended
    by_cases grows : old.GrowsTo new
    · obtain ⟨long, covered⟩ := appended grows
      rcases steady.stored stored file with aligned | displaced
      · exact .inl (aligned.grow grows (long.imp_right (·.imp_right And.right)))
      · exact .inr ⟨covered displaced.shorter, displaced.settled, displaced.lookbehind⟩
    · obtain ⟨source, other, present, changed, ordinary⟩ := ordinary
      obtain rfl := Option.some.inj (steady.present.symm.trans present)
      obtain rfl := Option.some.inj changed
      rw [same] at ordinary
      rcases ordinary with appended | ⟨shorter, settled⟩
      · exact absurd appended grows
      · exact .inr ⟨shorter, settled, (replaced grows).2⟩
  · have uploading : world.uploading = true := by
      simp [World.uploading, show world.waiting = _ from uploads, Waiting.isUpload]
    by_cases grows : old.GrowsTo new
    · apply (steady.waiting request candidate uploads).grow grows
      refine (appended grows).1.imp_right (·.imp_right fun quiet => ?_)
      exact absurd (quiet.1.symm.trans uploading) Bool.false_ne_true
    · exact absurd ((replaced grows).1.symm.trans uploading) Bool.false_ne_true

theorem restart_steady {config : Option Config}
    (steady : Steady services installation source world)
    (undisturbed : world.recordedState.offset ≤ source.size) :
    Steady services installation source (restart services installation config {} world) := by
  have aligned : ∀ stored, world.stateFile = some stored → Aligned services installation source stored := by
    intro stored file
    rcases steady.stored stored file with aligned | displaced
    · exact aligned
    · have shorter := displaced.shorter
      simp only [World.recordedState, file, Option.getD_some] at undisturbed
      omega
  simp only [restart, load, loadState]
  split
  · cases file : world.stateFile with
    | none => exact .rested steady.present nofun rfl (by rintro stored ⟨⟩)
    | some stored =>
      simp only
      split
      · refine .rested steady.present nofun rfl ?_
        rintro other ⟨⟩
        exact aligned stored file
      · simp only [Bool.false_eq_true, if_false]
        exact .rested steady.present nofun rfl (by rintro stored ⟨⟩)
  · exact .rested steady.present nofun rfl aligned

theorem step_steady {before : World Hash} {label : Label Hash}
    (steady : Steady services installation source before) (recorded : Recorded services installation before)
    (ordinary : Ordinary before label) (undisturbed : Undisturbed before label) :
    ∃ source, Steady services installation source (step services installation before label) := by
  cases label with
  | change changed =>
    obtain ⟨old, new, -, rfl, -⟩ := id ordinary
    exact ⟨new, change_steady steady ordinary undisturbed⟩
  | restart config faults =>
    obtain rfl : faults = {} := ordinary
    exact ⟨source, restart_steady steady (undisturbed source steady.present)⟩
  | poll faults =>
    obtain rfl : faults = {} := ordinary
    exact ⟨source, poll_steady steady recorded⟩
  | enrolled reply faults =>
    obtain ⟨rfl, accepted⟩ := ordinary
    refine ⟨source, ?_⟩
    simp only [step]
    split
    · rename_i waiting
      exact enrolled_steady steady recorded accepted (recorded.awake (by simp [waiting]))
    · exact steady
  | answered reply save =>
    obtain ⟨rfl, accepted⟩ := ordinary
    refine ⟨source, ?_⟩
    simp only [step]
    split
    · rename_i request candidate waiting
      exact answered_steady steady waiting (accepted request candidate waiting)
    · exact steady

theorem ordinary_log_never_stops {source : Source} {config : Config} {labels : List (Label Hash)}
    {world : World Hash}
    (run : Run (fun before label after => Step services installation before label after ∧
      Ordinary before label ∧ Undisturbed before label) (World.initial (some source) config) labels world) :
    world.state ≠ .error := by
  have kept : ∀ past before label after,
      (Recorded services installation before ∧ ∃ source, Steady services installation source before) →
      Step services installation before label after ∧ Ordinary before label ∧ Undisturbed before label →
      (fun (_ : List (Label Hash)) after =>
        Recorded services installation after ∧ ∃ source, Steady services installation source after)
        (past ++ [label]) after := by
    rintro - before label after ⟨recorded, current, steady⟩ ⟨step, ordinary, undisturbed⟩
    have next := step_steady steady recorded ordinary undisturbed
    rw [← step] at next
    exact ⟨Step.recorded step recorded, next⟩
  obtain ⟨-, current, steady⟩ := run.invariant kept []
    ⟨recorded_initial (some source) config, source, steady_initial source config⟩
  exact steady.healthy

/-! ## Runs of one installation -/

namespace Sample

def accepts (world : World Digest) (reply : UploadReply Digest) : Bool :=
  match world.waiting with
  | some (.upload request _) => reply.accepts request
  | _ => true

theorem ordinary_receipt {world : World Digest} {reply : UploadReply Digest} (accepted : accepts world reply = true) :
    Ordinary world (.answered reply .written) := by
  refine ⟨rfl, fun request candidate waiting => ?_⟩
  simpa only [accepts, waiting] using accepted

def truncated : World Digest := execute plain host (initial 10) (confirming 10)

def appended : List (Label Digest) :=
  [.restart none {}, .poll {}, receipt 0 10 10, .change (some (log 11)), .poll {}]

theorem grows (old new : Nat) (size : old ≤ new) : (log old).GrowsTo (log new) := ⟨rfl, size, fun _ _ => rfl⟩

end Sample

theorem ordinary_log_never_stops_sample :
    (execute Sample.plain Sample.host (Sample.initial 10)
      (Sample.confirming 10 ++ [.change (some (Sample.log 5)), .poll {}])).state ≠ .error := by
  have present : Sample.truncated.source = some (Sample.log 10) := by with_unfolding_all rfl
  have evaluated : 5 < Sample.truncated.recordedState.offset ∧
      Sample.truncated.recordedState.awaitingStable = false ∧ Sample.truncated.uploading = false ∧
      Sample.truncated.memory.sanitizerLookbehind ≠ [] := by decide +kernel
  obtain ⟨shorter, settled, quiet, behind⟩ := evaluated
  have shrinks : ¬(Sample.log 10).GrowsTo (Sample.log 5) := fun grows => by
    have size : 10 ≤ 5 := grows.size
    omega
  have along : Along (step Sample.plain Sample.host)
      (fun before label => Ordinary before label ∧ Undisturbed before label) (Sample.initial 10)
      (Sample.confirming 10 ++ [.change (some (Sample.log 5)), .poll {}]) := by
    refine ⟨⟨rfl, fun old _ => Nat.zero_le _⟩, ⟨rfl, trivial⟩, ⟨?_, trivial⟩, ⟨rfl, trivial⟩, ⟨?_, ?_⟩,
      ⟨rfl, trivial⟩, trivial⟩
    · apply Sample.ordinary_receipt
      decide +kernel
    · exact ⟨Sample.log 10, Sample.log 5, present, rfl, .inr ⟨shorter, settled⟩⟩
    · intro old new found changed
      obtain rfl : Sample.log 10 = old := Option.some.inj (present.symm.trans found)
      obtain rfl : Sample.log 5 = new := Option.some.inj changed
      exact ⟨fun grows => absurd grows shrinks, fun _ => ⟨quiet, behind⟩⟩
  exact ordinary_log_never_stops (run_along along)

theorem append_stops_uploader :
    Run (fun before label after => Step Sample.plain Sample.host before label after ∧ Ordinary before label)
        (Sample.initial 10) Sample.appended (execute Sample.plain Sample.host (Sample.initial 10) Sample.appended) ∧
      (execute Sample.plain Sample.host (Sample.initial 10) Sample.appended).state = .error ∧
      (execute Sample.plain Sample.host (Sample.initial 10) Sample.appended).lastReason =
        "source_epoch_changed_before_confirmation" := by
  refine ⟨run_along ⟨rfl, rfl, ?_, ?_, rfl, trivial⟩, by decide +kernel⟩
  · apply Sample.ordinary_receipt
    decide +kernel
  · refine ⟨Sample.log 10, Sample.log 11, ?_, rfl, .inl (Sample.grows 10 11 (by omega))⟩
    with_unfolding_all rfl

end Amnezia.Headless.Logs
