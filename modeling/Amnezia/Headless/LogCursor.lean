import Amnezia.Headless.LogUploader
import Mathlib.Logic.Relation
import Mathlib.Tactic.Common

/-! # From which position the uploader sends -/

namespace Amnezia.Headless.Logs
open Lib Relation

theorem bind_ok {α β : Type} {first : Except String α} {next : α → Except String β} {result : β}
    (finished : (first >>= next) = .ok result) : ∃ value, first = .ok value ∧ next value = .ok result := by
  cases first with
  | error reason => cases finished
  | ok value => exact ⟨value, rfl, finished⟩

variable {Hash : Type} {services : Services Hash} {installation : Installation}

structure Rebound (services : Services Hash) (installation : Installation) (source : Source)
    (working result : DurableState Hash) : Prop where
  epoch : working.fingerprint ≠ some (sourceFingerprint services installation source) ∨
    source.size < working.offset
  settled : working.awaitingStable = false
  awaiting : result.awaitingStable = false
  redacts : result.redactNext = true
  tail : result.offset = source.tailStart
  unanchored : result.cursorAnchor = none

def World.working (world : World Hash) (binding : Hash) : DurableState Hash :=
  { world.memory with targetBinding := some binding }

variable {source : Source} {working result : DurableState Hash} {binding : Hash}
variable {decision : Decision Hash} {before world : World Hash} {faults : Faults}

theorem readLookbehind_ok (finished : readLookbehind source working = .ok result) :
    ∃ lookbehind, result = { working with sanitizerLookbehind := lookbehind } ∧
      (lookbehind = working.sanitizerLookbehind ∧
          (working.redactNext = true ∨ working.offset = 0 ∨ working.sanitizerLookbehind ≠ []) ∨
        source.read (working.offset - maximumPrivateKeyMarkerBytes)
          (working.offset - (working.offset - maximumPrivateKeyMarkerBytes)) = some lookbehind) := by
  unfold readLookbehind at finished
  split at finished
  · cases got : source.read (working.offset - maximumPrivateKeyMarkerBytes)
        (working.offset - (working.offset - maximumPrivateKeyMarkerBytes)) with
    | none => simp only [got, reduceCtorEq] at finished
    | some bytes =>
      simp only [got, Except.ok.injEq] at finished
      exact ⟨bytes, finished.symm, .inr rfl⟩
  · rename_i skipped
    cases finished
    refine ⟨working.sanitizerLookbehind, rfl, .inl ⟨rfl, ?_⟩⟩
    simp only [Bool.and_eq_true, Bool.not_eq_true', decide_eq_true_eq, List.isEmpty_iff, not_and] at skipped
    by_cases redacts : working.redactNext = true
    · exact .inl redacts
    · by_cases start : working.offset = 0
      · exact .inr (.inl start)
      · exact .inr (.inr (skipped ⟨by simpa using redacts, by omega⟩))

theorem followIdentity_ok (services : Services Hash) (installation : Installation)
    (finished : followIdentity source working = .ok result) :
    (result = working ∧ (working.sourceIdentity = none ∨ working.sourceIdentity = some source.identity)) ∨
      (Rebound services installation source working result ∧ result.fingerprint = none) := by
  unfold followIdentity at finished
  split at finished
  · split at finished
    · cases finished
    · rename_i confirmed
      obtain rfl := Except.ok.inj finished
      simp only [Bool.or_eq_true, decide_eq_true_eq, not_or, Bool.not_eq_true] at confirmed
      exact .inr ⟨⟨.inr (by omega), confirmed.1, confirmed.1, rfl, rfl, rfl⟩, rfl⟩
  · rename_i same
    obtain rfl := Except.ok.inj finished
    simp only [Bool.and_eq_true, decide_eq_true_eq, not_and, ne_eq, not_not] at same
    refine .inl ⟨rfl, ?_⟩
    cases identity : working.sourceIdentity with
    | none => exact .inl rfl
    | some name => exact .inr (identity ▸ same (by simp [identity]))

theorem followTruncation_ok (finished : followTruncation source working = .ok result) :
    (result = working ∧ working.offset ≤ source.size) ∨
      (result = rebind source working ∧ working.awaitingStable = false ∧ source.size < working.offset) := by
  unfold followTruncation at finished
  split at finished
  · rename_i truncated
    split at finished
    · cases finished
    · rename_i confirmed
      exact .inr ⟨(Except.ok.inj finished).symm, by simpa using confirmed, truncated⟩
  · rename_i inside
    exact .inl ⟨(Except.ok.inj finished).symm, by omega⟩

structure Held (services : Services Hash) (installation : Installation) (source : Source)
    (working result : DurableState Hash) : Prop where
  fingerprint : working.fingerprint = some (sourceFingerprint services installation source)
  identity : working.sourceIdentity = none ∨ working.sourceIdentity = some source.identity
  inside : working.offset ≤ source.size
  same : ∃ lookbehind, result = { working with
      sanitizerLookbehind := lookbehind, sourceIdentity := some source.identity } ∧
    (lookbehind = working.sanitizerLookbehind ∧
        (working.redactNext = true ∨ working.offset = 0 ∨ working.sanitizerLookbehind ≠ []) ∨
      source.read (working.offset - maximumPrivateKeyMarkerBytes)
        (working.offset - (working.offset - maximumPrivateKeyMarkerBytes)) = some lookbehind)

theorem Held.identity_eq {identity : String}
    (held : Held services installation source working result)
    (known : working.sourceIdentity = some identity) : source.identity = identity := by
  rcases held.identity with unset | same
  · rw [unset] at known
    cases known
  · rw [same] at known
    exact Option.some.inj known

structure Located (services : Services Hash) (installation : Installation) (source : Source)
    (working result : DurableState Hash) : Prop where
  fingerprint : result.fingerprint = some (sourceFingerprint services installation source)
  identity : result.sourceIdentity = some source.identity
  inside : result.offset ≤ source.size
  position : Held services installation source working result ∨
    Rebound services installation source working result

theorem tailStart_le (source : Source) : source.tailStart ≤ source.size := by
  unfold Source.tailStart
  omega

structure Posting (services : Services Hash) (installation : Installation) (binding : Hash) (source : Source)
    (working : DurableState Hash) (request : Request Hash) (payload : Bytes)
    (candidate : DurableState Hash) : Prop where
  before : working.offset < source.size
  next : request.nextOffset = min source.size (working.offset + maximumBatchBytes)
  start : request.offset = working.offset
  fingerprint : request.fingerprint = sourceFingerprint services installation source
  identity : request.identity = source.identity
  id : request.id = batchId services installation request.offset request.nextOffset request.fingerprint
  chunk : ∃ raw, source.read request.offset (request.nextOffset - request.offset) = some raw ∧
    (payload, candidate.sanitizerLookbehind, candidate.sanitizerState) = chunkPayload services working raw
  state : ∃ anchor, cursorAnchor services source request.nextOffset = .ok anchor ∧
    candidate = { offset := request.nextOffset, fingerprint := some request.fingerprint
                  awaitingStable := true, redactNext := false, highWater := source.size
                  sourceIdentity := some request.identity, cursorAnchor := anchor
                  targetBinding := some binding
                  sanitizerLookbehind := candidate.sanitizerLookbehind
                  sanitizerState := candidate.sanitizerState }

theorem prepareUpload_ok (before : working.offset < source.size)
    (finished : prepareUpload services installation binding source working = .ok decision) :
    ∃ request payload candidate, decision = .post request payload candidate ∧
      Posting services installation binding source working request payload candidate := by
  unfold prepareUpload at finished
  cases reading : source.read working.offset
      (min source.size (working.offset + maximumBatchBytes) - working.offset) with
  | none => simp only [reading, reduceCtorEq] at finished
  | some raw =>
    simp only [reading] at finished
    obtain ⟨anchor, anchored, finished⟩ := bind_ok finished
    obtain rfl := Except.ok.inj finished
    exact ⟨_, _, _, rfl, before, rfl, rfl, rfl, rfl, rfl, ⟨raw, reading, rfl⟩, anchor, anchored, rfl⟩

def Decides (services : Services Hash) (installation : Installation) (binding : Hash) (source : Source)
    (located : DurableState Hash) : Decision Hash → Prop
  | .confirm state => located.awaitingStable = true ∧ source.size = located.offset ∧
      ∃ anchor, cursorAnchor services source located.offset = .ok anchor ∧
        state = { located with awaitingStable := false, highWater := source.size, cursorAnchor := anchor }
  | .idle state => located.awaitingStable = false ∧ source.size = located.offset ∧
      ∃ anchor, cursorAnchor services source located.offset = .ok anchor ∧
        state = { located with cursorAnchor := anchor }
  | .post request payload candidate =>
    Posting services installation binding source (resumeRedacted source located) request payload candidate

@[simp] theorem resumeRedacted_offset (source : Source) (working : DurableState Hash) :
    (resumeRedacted source working).offset = working.offset := by
  unfold resumeRedacted
  split <;> rfl

variable {request : Request Hash}

theorem settled_of_plain {located candidate : DurableState Hash} {payload : Bytes}
    (posting : Posting services installation binding source (resumeRedacted source located) request payload
      candidate) (plain : payload ≠ redactedChunk) :
    located.awaitingStable = false ∧ located.redactNext = false := by
  obtain ⟨raw, -, chunk⟩ := posting.chunk
  have unredacted : (resumeRedacted source located).redactNext = false := by
    cases redacts : (resumeRedacted source located).redactNext with
    | false => rfl
    | true =>
      simp only [chunkPayload, redacts, if_true, Prod.mk.injEq] at chunk
      exact absurd chunk.1 plain
  have before := posting.before
  rw [resumeRedacted_offset] at before
  unfold resumeRedacted at unredacted
  split at unredacted
  · cases unredacted
  · rename_i unawaited
    simp only [Bool.and_eq_true, decide_eq_true_eq, before, and_true, Bool.not_eq_true] at unawaited
    exact ⟨unawaited, unredacted⟩

@[simp] theorem quarantineState_source (world : World Hash) : world.quarantineState.source = world.source := by
  unfold World.quarantineState
  split <;> rfl

@[simp] theorem quarantineState_state (world : World Hash) : world.quarantineState.state = world.state := by
  unfold World.quarantineState
  split <;> rfl

@[simp] theorem quarantineState_waiting (world : World Hash) :
    world.quarantineState.waiting = world.waiting := by
  unfold World.quarantineState
  split <;> rfl

theorem quarantineState_stateFile (world : World Hash) : world.quarantineState.stateFile = none := by
  cases file : world.stateFile <;> simp [World.quarantineState, file]

variable [DecidableEq Hash]

theorem checkCursorAnchor_ok
    (finished : checkCursorAnchor services source working = .ok result) : result = working := by
  unfold checkCursorAnchor at finished
  split at finished
  · split at finished
    · split at finished
      · exact (Except.ok.inj finished).symm
      · cases finished
    · cases finished
  · exact (Except.ok.inj finished).symm

theorem followFingerprint_ok (finished : followFingerprint services installation source working = .ok result)
    (fresh : working.fingerprint = none → working.awaitingStable = false) :
    result.fingerprint = some (sourceFingerprint services installation source) ∧
      (result = working ∨ Rebound services installation source working result) := by
  unfold followFingerprint at finished
  simp only at finished
  split at finished
  · rename_i unset
    obtain rfl := Except.ok.inj finished
    exact ⟨rfl, .inr ⟨.inl (by simp [unset]), fresh unset, fresh unset, rfl, rfl, rfl⟩⟩
  · split at finished
    · split at finished
      · cases finished
      · rename_i changed confirmed
        obtain rfl := Except.ok.inj finished
        have settled : working.awaitingStable = false := by simpa using confirmed
        exact ⟨rfl, .inr ⟨.inl changed, settled, settled, rfl, rfl, rfl⟩⟩
    · rename_i same
      obtain rfl := Except.ok.inj finished
      exact ⟨by simpa using same, .inl rfl⟩

theorem locate_ok (finished : locate services installation source working = .ok result)
    (fresh : working.fingerprint = none → working.awaitingStable = false) :
    Located services installation source working result := by
  unfold locate at finished
  obtain ⟨read, reading, afterRead⟩ := bind_ok finished
  obtain ⟨lookbehind, rfl, behind⟩ := readLookbehind_ok reading
  obtain ⟨followed, following, afterIdentity⟩ := bind_ok afterRead
  obtain ⟨checked, checking, afterAnchor⟩ := bind_ok afterIdentity
  obtain ⟨matched, matching, last⟩ := bind_ok afterAnchor
  obtain rfl := checkCursorAnchor_ok checking
  have identified := followIdentity_ok services installation following
  have calm : checked.awaitingStable = false → working.awaitingStable = false := by
    rcases identified with ⟨rfl, -⟩ | ⟨rebound, -⟩
    · exact id
    · exact fun _ => rebound.settled
  have settles : checked.fingerprint = none → checked.awaitingStable = false := by
    rcases identified with ⟨rfl, -⟩ | ⟨rebound, -⟩
    · exact fresh
    · exact fun _ => rebound.awaiting
  have begun : checked.fingerprint ≠ some (sourceFingerprint services installation source) ∨
        source.size < checked.offset →
      working.fingerprint ≠ some (sourceFingerprint services installation source) ∨
        source.size < working.offset := by
    rcases identified with ⟨rfl, -⟩ | ⟨rebound, -⟩
    · exact id
    · exact fun _ => rebound.epoch
  obtain ⟨print, kept⟩ := followFingerprint_ok matching settles
  rcases followTruncation_ok last with ⟨rfl, inside⟩ | ⟨rfl, settled, truncated⟩
  · refine ⟨print, rfl, inside, ?_⟩
    rcases kept with rfl | rebound
    · rcases identified with ⟨rfl, identity⟩ | ⟨-, unset⟩
      · exact .inl ⟨print, identity, inside, lookbehind, rfl, behind⟩
      · rw [unset] at print
        cases print
    · exact .inr ⟨begun rebound.epoch, calm rebound.settled, rebound.awaiting, rebound.redacts, rebound.tail,
        rebound.unanchored⟩
  · refine ⟨print, rfl, tailStart_le source, .inr ⟨?_, calm ?_, settled, rfl, rfl, rfl⟩⟩
    · rcases kept with rfl | rebound
      · exact begun (.inr truncated)
      · exact begun rebound.epoch
    · rcases kept with rfl | rebound
      · exact settled
      · exact rebound.settled

theorem proceed_ok {located : DurableState Hash}
    (finished : proceed services installation binding source located = .ok decision)
    (fingerprint : located.fingerprint = some (sourceFingerprint services installation source))
    (inside : located.offset ≤ source.size) :
    Decides services installation binding source located decision := by
  unfold proceed at finished
  split at finished
  · rename_i stable
    simp only [Bool.and_eq_true, decide_eq_true_eq] at stable
    obtain ⟨anchor, anchored, finished⟩ := bind_ok finished
    obtain rfl := Except.ok.inj finished
    exact ⟨stable.1.1, stable.1.2, anchor, anchored, rfl⟩
  · rename_i unstable
    simp only [Bool.and_eq_true, decide_eq_true_eq, not_and, fingerprint, not_true_eq_false, imp_false]
      at unstable
    simp only [resumeRedacted_offset] at finished
    split at finished
    · rename_i reached
      have ended : source.size = located.offset := by omega
      have settled : located.awaitingStable = false := by
        simpa using fun awaiting => unstable awaiting ended
      have kept : resumeRedacted source located = located := by simp [resumeRedacted, settled]
      rw [kept] at finished
      obtain ⟨anchor, anchored, finished⟩ := bind_ok finished
      obtain rfl := Except.ok.inj finished
      exact ⟨settled, ended, anchor, anchored, rfl⟩
    · rename_i before
      have begins : (resumeRedacted source located).offset < source.size := by
        rw [resumeRedacted_offset]
        omega
      obtain ⟨request, payload, candidate, rfl, posting⟩ := prepareUpload_ok begins finished
      exact posting

theorem scan_ok (finished : scan services installation binding source working = .ok decision)
    (fresh : working.fingerprint = none → working.awaitingStable = false) :
    ∃ located, Located services installation source working located ∧
      Decides services installation binding source located decision := by
  obtain ⟨located, locating, proceeding⟩ := bind_ok finished
  have found := locate_ok locating fresh
  exact ⟨located, found, proceed_ok proceeding found.fingerprint found.inside⟩

theorem scan_post {candidate : DurableState Hash} {payload : Bytes}
    (finished : scan services installation binding source working = .ok (.post request payload candidate))
    (fresh : working.fingerprint = none → working.awaitingStable = false) :
    ∃ located, Located services installation source working located ∧
      Posting services installation binding source (resumeRedacted source located) request payload candidate :=
  scan_ok finished fresh

def State.running : State → Bool
  | .pending | .healthy => true
  | .disabled | .error => false

theorem running_of_ne {state : State} (enabled : state ≠ .disabled) (healthy : state ≠ .error) :
    state.running = true := by
  cases state with
  | pending => rfl
  | healthy => rfl
  | disabled => exact absurd rfl enabled
  | error => exact absurd rfl healthy

def Waiting.isUpload : Waiting Hash → Bool
  | .enrolment => false
  | .upload _ _ => true

variable (services installation)

inductive Saves (permits : World Hash → Event Hash → Prop) (world : World Hash) :
    Event Hash → DurableState Hash → Prop where
  | confirmed {binding : Hash} {source : Source} {state : DurableState Hash}
      (present : world.source = some source)
      (decided : scan services installation binding source (world.working binding) = .ok (.confirm state))
      (running : world.state.running = true) : Saves permits world (.confirmed source state) state
  | idled {binding : Hash} {source : Source} {state : DurableState Hash}
      (present : world.source = some source)
      (decided : scan services installation binding source (world.working binding) = .ok (.idle state))
      (running : world.state.running = true) : Saves permits world (.idled state) state
  | recorded {request : Request Hash} {candidate : DurableState Hash} {reply : UploadReply Hash}
      (permitted : permits world (.recorded request candidate))
      (waiting : world.waiting = some (.upload request candidate)) (accepted : reply.accepts request = true) :
      Saves permits world (.recorded request candidate) candidate

inductive Change (permits : World Hash → Event Hash → Prop) : World Hash → World Hash → Prop where
  | quiet {before after : World Hash} (source : after.source = before.source)
      (stateFile : after.stateFile = before.stateFile)
      (log : after.log = before.log) (waiting : after.waiting.any Waiting.isUpload = false)
      (awake : after.waiting.isSome = true → after.state.running = true)
      (memory : after.state.running = true → before.state.running = true ∧
        ∃ binding, after.memory = { before.memory with targetBinding := binding }) :
      Change permits before after
  | fresh {before after : World Hash} {binding : Hash} (source : after.source = before.source)
      (stateFile : after.stateFile = none)
      (memory : after.memory = { targetBinding := some binding })
      (log : after.log = before.quarantineState.log) (waiting : after.waiting = none) :
      Change permits before after
  | resumed {before after : World Hash} {stored : DurableState Hash} (source : after.source = before.source)
      (found : before.stateFile = some stored) (stateFile : after.stateFile = some stored)
      (memory : after.memory = stored) (log : after.log = before.log) (waiting : after.waiting = none) :
      Change permits before after
  | posted {before : World Hash} {binding : Hash} {source : Source} {request : Request Hash}
      {payload : Bytes} {candidate : DurableState Hash}
      (permitted : permits before (.posted request payload))
      (present : before.source = some source) (running : before.state.running = true)
      (decided : scan services installation binding source (before.working binding) =
        .ok (.post request payload candidate)) :
      Change permits before
        { before with
          waiting := some (.upload request candidate), log := before.log ++ [.posted request payload] }
  | saved {before after : World Hash} {event : Event Hash} {state : DurableState Hash}
      (saves : Saves services installation permits before event state) (source : after.source = before.source)
      (stateFile : after.stateFile = some state.stored) (log : after.log = before.log ++ [event])
      (waiting : after.waiting = none) (memory : after.state.running = true → after.memory = state) :
      Change permits before after

abbrev Reaches (permits : World Hash → Event Hash → Prop) (before after : World Hash) : Prop :=
  ReflTransGen (Change services installation permits) before after

variable {services installation} {permits : World Hash → Event Hash → Prop}

theorem stopped_reaches {after : World Hash} (source : after.source = before.source)
    (stateFile : after.stateFile = before.stateFile) (log : after.log = before.log)
    (waiting : after.waiting = none) (stopped : after.state.running = false) :
    Reaches services installation permits before after :=
  .single (.quiet source stateFile log (by rw [waiting]; rfl) (fun awake => by rw [waiting] at awake; cases awake)
    (fun running => absurd (stopped.symm.trans running) Bool.false_ne_true))

theorem setError_reaches (world : World Hash) (reason : String) :
    Reaches services installation permits world (world.setError reason) :=
  stopped_reaches rfl rfl rfl rfl rfl

theorem saveAndApply_reaches {event : Event Hash} {state : DurableState Hash}
    (saves : Saves services installation permits world event state) (save : WriteOutcome) (next : State)
    (reason : String) :
    Reaches services installation permits world (world.saveAndApply state event save next reason) := by
  cases save with
  | written => exact .single (.saved saves rfl rfl rfl rfl (fun _ => rfl))
  | failed => exact setError_reaches world _
  | unconfirmed => exact .single (.saved saves rfl rfl rfl rfl (fun running => by cases running))

theorem examine_reaches (posts : ∀ request payload, permits world (.posted request payload))
    (present : world.source = some source) (running : world.state.running = true) :
    Reaches services installation permits world (examine services installation faults binding source world) := by
  unfold examine
  cases faults.reading with
  | some reason => exact setError_reaches world reason
  | none =>
    simp only
    cases decided : scan services installation binding source (world.working binding) with
    | error reason =>
      unfold World.working at decided
      simp only [decided, conclude]
      exact setError_reaches world reason
    | ok decision =>
      have found := decided
      unfold World.working at found
      rw [found]
      cases decision with
      | confirm state => exact saveAndApply_reaches (.confirmed present decided running) faults.save _ _
      | idle state => exact saveAndApply_reaches (.idled present decided running) faults.save _ _
      | post request payload candidate => exact .single (.posted (posts _ _) present running decided)

theorem quarantined_change (waiting : world.waiting = none) :
    Change services installation permits world
      { world.quarantineState with memory := { targetBinding := some binding } } :=
  .fresh (quarantineState_source world) (quarantineState_stateFile world) rfl rfl
    ((quarantineState_waiting world).trans waiting)

def SamePlace (before world : World Hash) : Prop :=
  world.source = before.source ∧
    (world.memory.fingerprint = none ∨ world.memory.offset = before.memory.offset)

theorem readSource_reaches
    (posts : ∀ world, SamePlace before world → ∀ request payload, permits world (.posted request payload))
    (place : SamePlace before world) (waiting : world.waiting = none) (running : world.state.running = true) :
    Reaches services installation permits world (readSource services installation faults world) := by
  unfold readSource
  cases faults.opening with
  | some reason => exact setError_reaches world reason
  | none =>
    cases present : world.source with
    | none => exact setError_reaches world _
    | some source =>
      simp only
      split
      · split
        · exact setError_reaches world _
        · apply ReflTransGen.head (quarantined_change waiting)
          exact examine_reaches (posts _ ⟨(quarantineState_source world).trans place.1, .inl rfl⟩)
            (by simpa using present) (by simpa using running)
      · exact examine_reaches (posts world place) present running

theorem poll_reaches (faults : Faults)
    (posts : ∀ other, SamePlace world other → ∀ request payload, permits other (.posted request payload)) :
    Reaches services installation permits world (poll services installation faults world) := by
  unfold poll
  split
  · exact .refl
  · rename_i guards
    simp only [Bool.or_eq_true, decide_eq_true_eq, not_or, Bool.not_eq_true, Option.isSome_eq_false_iff,
      Option.isNone_iff_eq_none] at guards
    have running := running_of_ne guards.1.2 guards.2
    split
    · exact .single (.quiet rfl rfl rfl rfl (fun _ => running) (fun _ => ⟨running, _, rfl⟩))
    · exact readSource_reaches posts ⟨rfl, .inr rfl⟩ guards.1.1 running

theorem enrolled_reaches {reply : EnrolmentReply}
    (posts : ∀ other, SamePlace world other → ∀ request payload, permits other (.posted request payload))
    (running : world.state.running = true) :
    Reaches services installation permits world (enrolled services installation reply faults world) := by
  unfold enrolled
  simp only
  split
  · split
    · unfold rebindTarget
      simp only
      split
      · split
        · exact stopped_reaches rfl rfl rfl rfl rfl
        · refine ReflTransGen.head ?_ (ReflTransGen.head (quarantined_change rfl) (readSource_reaches posts ?_ ?_ ?_))
          · exact .quiet rfl rfl rfl rfl (fun waiting => by cases waiting) (fun _ => ⟨running, _, rfl⟩)
          · exact ⟨by simp, .inl rfl⟩
          · simp
          · simpa using running
      · refine ReflTransGen.head ?_ (readSource_reaches posts ⟨rfl, .inr rfl⟩ rfl running)
        exact .quiet rfl rfl rfl rfl (fun waiting => by cases waiting) (fun _ => ⟨running, _, rfl⟩)
    · exact stopped_reaches rfl rfl rfl rfl rfl
    · exact stopped_reaches rfl rfl rfl rfl rfl
  · exact setError_reaches world _

theorem restart_reaches (config : Option Config) (faults : Faults) (world : World Hash) :
    Reaches services installation permits world (restart services installation config faults world) := by
  unfold restart load
  cases faults.opening with
  | some reason => exact stopped_reaches rfl rfl rfl rfl rfl
  | none =>
    simp only
    split
    · unfold loadState
      simp only
      cases file : world.stateFile with
      | none => exact .single (.fresh rfl rfl rfl (by simp [World.quarantineState, file]) rfl)
      | some stored =>
        simp only
        cases faults.reading with
        | some reason =>
          exact stopped_reaches rfl file.symm rfl rfl rfl
        | none =>
          simp only
          split
          · exact .single (.resumed rfl file rfl rfl rfl rfl)
          · split
            · exact stopped_reaches rfl file.symm rfl rfl rfl
            · exact .single (.fresh rfl rfl rfl (by simp [World.quarantineState, file]) rfl)
    · exact stopped_reaches rfl rfl rfl rfl rfl

def Label.isAnswer : Label Hash → Bool
  | .answered _ _ => true
  | _ => false

def Label.isScan : Label Hash → Bool
  | .poll _ | .enrolled _ _ => true
  | _ => false

theorem step_reaches {label : Label Hash}
    (awake : before.waiting.isSome = true → before.state.running = true)
    (kept : ∀ source, label ≠ .change source)
    (receipts : label.isAnswer = true → ∀ request candidate, permits before (.recorded request candidate))
    (posts : label.isScan = true → ∀ world, SamePlace before world →
      ∀ request payload, permits world (.posted request payload)) :
    Reaches services installation permits before (step services installation before label) := by
  cases label with
  | change source => exact absurd rfl (kept source)
  | restart config faults => exact restart_reaches config faults before
  | poll faults => exact poll_reaches faults (posts rfl)
  | enrolled reply faults =>
    simp only [step]
    split
    · rename_i waiting
      exact enrolled_reaches (posts rfl) (awake (by simp [waiting]))
    · exact .refl
  | answered reply save =>
    simp only [step]
    split
    · rename_i request candidate waiting
      unfold answered
      split
      · rename_i accepted
        exact saveAndApply_reaches (.recorded (receipts rfl _ _) waiting accepted) save _ _
      · exact setError_reaches before _
    · exact .refl

end Amnezia.Headless.Logs
