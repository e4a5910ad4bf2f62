import Amnezia.Lib.Runs
import Amnezia.Migration.Coherence

/-! # The controller follows its changes -/

namespace Amnezia.Migration
open Lib Procedure

variable {Hash : Type} {world : World Hash}

theorem saved_after_revise (world : World Hash) (journal : Journal Hash) :
    (world.revised journal).withJournal journal = world.saved journal := by
  unfold World.saved World.withJournal World.revised
  split
  · rfl
  · rfl

variable {state : JournalState} {outcomes : List Outcome} {change : Journal Hash → Journal Hash}
variable {α β : Type} {journal : Journal Hash} {kind : Request} {moment : Moment}
variable {envelope connection : JsonObject} {index : Nat}

theorem persist_done (chosen : outcomes.headD default = .done) :
    persist state world outcomes =
      ⟨true, world.saved { world.memory.journal with state := some state }, outcomes.tail,
        [world.saved { world.memory.journal with state := some state }]⟩ := by
  simp only [persist, consult, revise, remember, writeMigrationJournal, read_bind, update_bind]
  rw [perform_bind _ _ _ _ (world.saved { world.memory.journal with state := some state }, true)]
  · rfl
  · rw [chosen, ← saved_after_revise]
    rfl

theorem persist_failed (chosen : outcomes.headD default = .failed) :
    persist state world outcomes =
      ⟨false, world, outcomes.tail, [world.revised { world.memory.journal with state := some state }]⟩ := by
  simp only [persist, consult, revise, remember, writeMigrationJournal, read_bind, update_bind]
  rw [perform_bind _ _ _ _ (world.revised { world.memory.journal with state := some state }, false)]
  · rfl
  · rw [chosen]
    rfl

structure World.Alike (before after : World Hash) : Prop where
  memory : after.memory.bare = before.memory.bare
  profile : after.profile = before.profile
  history : after.history = before.history

theorem World.Alike.refl (world : World Hash) : world.Alike world := ⟨rfl, rfl, rfl⟩

variable {later : World Hash}

section

variable (alike : world.Alike later)
include alike

theorem World.Alike.trial : later.memory.trial = world.memory.trial :=
  Memory.of_bare alike.memory Memory.trial fun _ => rfl

theorem World.Alike.busy : later.memory.busy = world.memory.busy :=
  Memory.of_bare alike.memory Memory.busy fun _ => rfl

theorem World.Alike.loaded : later.memory.loaded = world.memory.loaded :=
  Memory.of_bare alike.memory Memory.loaded fun _ => rfl

theorem World.Alike.journalState : later.memory.journal.state = world.memory.journal.state :=
  Memory.of_bare alike.memory (·.journal.state) fun _ => rfl

end

theorem Acknowledging.alike (acknowledging : Acknowledging world)
    (alike : world.Alike later) : Acknowledging later where
  noTrial := alike.trial.trans acknowledging.noTrial
  pending := alike.journalState.trans acknowledging.pending

theorem saved_revised (world : World Hash) (first second : Journal Hash) :
    (world.revised first).saved second = world.saved second := by
  unfold World.saved World.withJournal World.revised
  split
  · rfl
  · rfl

theorem persistChange_done (chosen : outcomes.headD default = .done) :
    persistChange change state world outcomes =
      ⟨true, world.saved { change world.memory.journal with state := some state }, outcomes.tail,
        [world.saved { change world.memory.journal with state := some state }]⟩ := by
  have written : persist state (world.revised (change world.memory.journal)) outcomes = _ :=
    persist_done chosen
  simp only [saved_revised] at written
  simp only [persistChange, consult, revise, remember, read_bind, update_bind]
  exact bind_apply written _

theorem persistChange_failed (chosen : outcomes.headD default = .failed) :
    persistChange change state world outcomes =
      ⟨false, world, outcomes.tail,
        [world.revised { change world.memory.journal with state := some state }]⟩ := by
  have refused : persist state (world.revised (change world.memory.journal)) outcomes = _ :=
    persist_failed chosen
  simp only [persistChange, consult, revise, remember, read_bind, update_bind]
  exact bind_apply refused _

structure Ready (world : World Hash) : Prop where
  noTrial : world.memory.trial = false
  free : world.memory.busy = false
  loaded : world.memory.loaded = true

variable [DecidableEq Hash] {setting : Setting Hash} {permits : Permits Hash}

abbrev Follows (setting : Setting Hash) (permits : Permits Hash) {α : Type} (action : Action Hash α)
    (after : α → World Hash → Prop) (world : World Hash) : Prop :=
  (changes setting permits).Follows action after world

abbrev Reaches (setting : Setting Hash) (permits : Permits Hash) (before after : World Hash) : Prop :=
  (changes setting permits).Reaches before after

abbrev Traced (setting : Setting Hash) (permits : Permits Hash) {α : Type} (action : Action Hash α)
    (world : World Hash) : Prop :=
  Follows setting permits action (fun _ _ => True) world

theorem Reaches.single {before after : World Hash} (change : Change setting permits before after) :
    Reaches setting permits before after :=
  Relation.ReflTransGen.single change

/-! ## Parts that say nothing about the changes -/

theorem follows_quiet {change : Memory Hash → Memory Hash} {after : Unit → World Hash → Prop}
    (same : (change world.memory).bare = world.memory.bare)
    (here : after () { world with memory := change world.memory }) :
    Follows setting permits (remember change) after world :=
  .update (.single (.quiet world _ same)) here

theorem consult_bind {view : Memory Hash → α} {next : α → Action Hash β}
    (rest : Follows setting permits (next (view world.memory)) after world) :
    Follows setting permits (consult view >>= next) after world :=
  .read_bind rest

theorem quiet_bind {change : Memory Hash → Memory Hash} {next : Unit → Action Hash β}
    (same : (change world.memory).bare = world.memory.bare)
    (rest : Follows setting permits (next ()) after { world with memory := change world.memory }) :
    Follows setting permits (remember change >>= next) after world :=
  .update_bind (.single (.quiet world _ same)) rest

variable {after : α → World Hash → Prop} {value : α}

theorem follows_return (here : after value world) :
    Follows setting permits (pure value : Action Hash α) after world :=
  .pure here

abbrev Writes (setting : Setting Hash) (permits : Permits Hash) (action : Action Hash Bool)
    (saved kept world : World Hash) : Prop :=
  Follows setting permits action
    (fun value later => (value = true ∧ later = saved) ∨ (value = false ∧ later = kept)) world

section
variable {action : Action Hash Bool} {saved kept : World Hash}

theorem writes_of_runs (done : ∀ outcomes, outcomes.headD default = .done →
      action world outcomes = ⟨true, saved, outcomes.tail, [saved]⟩)
    (failed : ∀ outcomes, outcomes.headD default = .failed → ∃ stopped,
      action world outcomes = ⟨false, kept, outcomes.tail, [stopped]⟩ ∧ kept.restarted = stopped.restarted)
    (allowed : Reaches setting permits world saved) (refused : Reaches setting permits world kept) :
    Writes setting permits action saved kept world := by
  intro outcomes
  cases chosen : outcomes.headD default with
  | done =>
    rw [done outcomes chosen]
    refine ⟨fun stopped passed => ?_, allowed, .inl ⟨rfl, rfl⟩⟩
    rw [List.mem_singleton.mp passed]
    exact allowed.passes
  | failed =>
    obtain ⟨stopped, ran, same⟩ := failed outcomes chosen
    rw [ran]
    refine ⟨fun other passed => ?_, refused, .inr ⟨rfl, rfl⟩⟩
    rw [List.mem_singleton.mp passed]
    exact ⟨kept, refused, same⟩

section

variable (writes : Writes setting permits action saved kept world)
include writes

theorem Writes.last {after : Bool → World Hash → Prop}
    (whenSaved : after true saved) (whenKept : after false kept) : Follows setting permits action after world := by
  refine Changes.Follows.mono writes ?_
  rintro value later - (⟨rfl, rfl⟩ | ⟨rfl, rfl⟩)
  · exact whenSaved
  · exact whenKept

theorem Writes.bind {next : Bool → Action Hash β} {after : β → World Hash → Prop}
    (whenSaved : Follows setting permits (next true) after saved)
    (whenKept : Follows setting permits (next false) after kept) :
    Follows setting permits (action >>= next) after world := by
  refine Changes.Follows.bind writes ?_
  rintro value later - (⟨rfl, rfl⟩ | ⟨rfl, rfl⟩)
  · exact whenSaved
  · exact whenKept

theorem Writes.traced {value : Bool → β} :
    Traced setting permits (do let done ← action; return value done) world :=
  writes.bind (follows_return trivial) (follows_return trivial)

end

end

theorem persist_writes
    (allowed : Change setting permits world (world.saved { world.memory.journal with state := some state })) :
    Writes setting permits (persist state) (world.saved { world.memory.journal with state := some state })
      world world :=
  writes_of_runs (fun _ => persist_done) (fun _ chosen => ⟨_, persist_failed chosen, rfl⟩) (.single allowed) .refl

theorem persistChange_writes
    (allowed : Change setting permits world (world.saved { change world.memory.journal with state := some state })) :
    Writes setting permits (persistChange change state)
      (world.saved { change world.memory.journal with state := some state }) world world :=
  writes_of_runs (fun _ => persistChange_done) (fun _ chosen => ⟨_, persistChange_failed chosen, rfl⟩)
    (.single allowed) .refl

theorem follows_save {after : Bool → World Hash → Prop}
    (same : journal = world.memory.journal) (here : ∀ value later, world.Alike later → after value later) :
    Follows setting permits (writeMigrationJournal journal) after world := by
  apply Changes.Follows.perform
  intro outcome
  cases outcome with
  | done =>
    subst same
    exact ⟨.single (.save world), here _ _ ⟨by simp, by simp, by simp⟩⟩
  | failed => exact ⟨.refl, here _ _ ⟨rfl, rfl, rfl⟩⟩

theorem save_bind (same : journal = world.memory.journal)
    (rest : ∀ value later, world.Alike later → Follows setting permits (next value) after later) :
    Follows setting permits (writeMigrationJournal journal >>= next) after world := by
  have start : Follows setting permits (writeMigrationJournal journal) (fun _ later => world.Alike later) world :=
    follows_save same fun _ _ alike => alike
  apply start.bind
  exact fun value later _ alike => rest value later alike

variable {condition : Prop}

theorem follows_ite [Decidable condition] {yes no : Action Hash α}
    (first : condition → Follows setting permits yes after world)
    (second : ¬condition → Follows setting permits no after world) :
    Follows setting permits (if condition then yes else no) after world := by
  split
  · exact first ‹_›
  · exact second ‹_›

theorem follows_unless [Decidable condition] {rest : Action Hash α}
    (goOn : ¬condition → Traced setting permits rest world) :
    Traced setting permits (if condition then pure value else rest) world :=
  follows_ite (fun _ => follows_return trivial) goOn

theorem follows_when [Decidable condition] {action : Action Hash α}
    (goOn : condition → Traced setting permits action world) :
    Traced setting permits (if condition then action else pure value) world :=
  follows_ite goOn fun _ => follows_return trivial

theorem follows_then {first : Action Hash α} {value : β}
    (start : Traced setting permits first world) :
    Traced setting permits (do let _ ← first; return value) world :=
  start.bind fun _ _ _ _ => follows_return trivial

theorem follows_recordFailure (reason : String) (httpStatus now : Int) :
    Follows setting permits (recordFailure reason httpStatus now) (fun _ later => world.Alike later) world := by
  apply consult_bind
  apply follows_ite
  · intro _
    exact follows_return ⟨rfl, rfl, rfl⟩
  · intro _
    apply quiet_bind rfl
    apply consult_bind
    apply save_bind
    · rfl
    · intro _ later alike
      exact follows_return ⟨alike.memory, alike.profile, alike.history⟩

theorem follows_clearFailure :
    Follows setting permits clearFailure (fun _ later => world.Alike later) world := by
  apply consult_bind
  apply follows_ite
  · intro _
    exact follows_return ⟨rfl, rfl, rfl⟩
  · intro _
    apply quiet_bind rfl
    apply save_bind
    · rfl
    · intro _ later alike
      exact follows_return ⟨alike.memory, alike.profile, alike.history⟩

theorem committedProfileMatches_alike (alike : world.Alike later) :
    committedProfileMatches setting later = committedProfileMatches setting world := by
  have candidate : later.memory.journal.candidateHash = world.memory.journal.candidateHash :=
    Memory.of_bare alike.memory (·.journal.candidateHash) fun _ => rfl
  have source : later.memory.sourceProfile = world.memory.sourceProfile :=
    Memory.of_bare alike.memory Memory.sourceProfile fun _ => rfl
  unfold committedProfileMatches
  rw [candidate, source, alike.profile]

theorem Idle.alike (idle : Idle setting permits world) (alike : world.Alike later) :
    Idle setting permits later := by
  refine ⟨⟨alike.trial.trans idle.noTrial, alike.journalState ▸ idle.settled⟩, ?_⟩
  unfold Matched
  rw [alike.journalState, committedProfileMatches_alike alike]
  exact idle.unmatched

theorem Sends.alike (sends : Sends setting permits world kind)
    (alike : world.Alike later) : Sends setting permits later kind := by
  cases kind with
  | bootstrap | offer => exact Idle.alike sends alike
  | challenge => exact alike.trial.trans sends
  | renew | acknowledge => exact Acknowledging.alike sends alike

theorem follows_request (free : world.memory.busy = false)
    (loaded : world.memory.loaded = true) (sends : Sends setting permits world kind) :
    Traced setting permits (request kind moment) world := by
  unfold request
  cases moment.refusal with
  | some refusal =>
    cases shape : refusal.reason with
    | some reason =>
      simp only [shape]
      exact (follows_recordFailure reason 0 moment.now).mono fun _ _ _ _ => trivial
    | none =>
      simp only [shape]
      exact follows_return trivial
  | none =>
    apply quiet_bind rfl
    apply consult_bind
    apply save_bind
    · rfl
    · intro _ later alike
      have alike : world.Alike later := ⟨alike.memory, alike.profile, alike.history⟩
      apply Changes.Follows.update (.single ?_) trivial
      exact .send later kind (alike.busy.trans free) (alike.loaded.trans loaded) (sends.alike alike)

/-! ## The end of an attempt -/

theorem follows_cancel :
    Follows setting permits cancel (fun _ later => later.memory.trial = false ∧ later.memory.busy = false ∧
      later.memory.loaded = world.memory.loaded ∧ later.profile = world.profile) world := by
  unfold cancel
  apply Changes.Follows.update_bind
  · exact (Reaches.single (.advance world false)).tail (.quiet _ _ rfl)
  · apply consult_bind
    apply follows_ite
    · intro active
      refine (persist_writes ?_).bind ?_ ?_
      · exact .settle _ .rolledBack rfl (.inl active)
      · exact .update (Reaches.single (.leave _ rfl)) ⟨rfl, rfl, rfl, World.profile_saved _ _⟩
      · exact .update (Reaches.single (.leave _ rfl)) ⟨rfl, rfl, rfl, rfl⟩
    · intro inactive
      exact follows_return ⟨Bool.eq_false_of_not_eq_true inactive, rfl, rfl, rfl⟩

theorem traced_cancel : Traced setting permits cancel world :=
  follows_cancel.mono fun _ _ _ _ => trivial

theorem follows_failed : Traced setting permits failed world := by
  unfold failed
  apply consult_bind
  apply follows_unless
  intro _
  exact follows_then traced_cancel

theorem follows_cleanupFailed : Traced setting permits cleanupFailed world := by
  unfold cleanupFailed
  apply Changes.Follows.update_bind
  · exact ((Reaches.single (.advance world false)).tail (.leave _ rfl)).tail (.quiet _ _ rfl)
  · refine (persist_writes ?_).traced
    exact .settle _ .recoveryRequired rfl rfl

theorem follows_retire (allowTrial : Bool) :
    Follows setting permits (retire allowTrial) (fun _ later =>
      later.memory.trial = false ∧ later.memory.busy = false ∧ later.profile = world.profile) world := by
  unfold retire
  apply follows_ite
  · intro _
    exact follows_cancel.mono fun _ _ _ held => ⟨held.1, held.2.1, held.2.2.2⟩
  · intro _
    apply Changes.Follows.update
    · exact (Reaches.single (.advance world false)).tail (.leave _ rfl)
    · exact ⟨rfl, rfl, rfl⟩

variable {log : History Hash → History Hash}

theorem follows_cleanupCompleted {token : String} {epoch : Nat} (permitted : permits.cleanup world) :
    Traced setting permits (cleanupCompleted setting token epoch) world := by
  unfold cleanupCompleted
  apply Changes.Follows.read_bind
  cases found : world.profile with
  | none =>
    simp only [id, found]
    exact follows_return trivial
  | some profile =>
    simp only [id, found]
    apply follows_unless
    intro accepted
    simp only [not_or, Bool.not_eq_true', Bool.not_eq_false, not_and, ne_eq, not_not] at accepted
    obtain ⟨loaded, allowed, state, rollback⟩ := accepted
    have cleans : Cleans setting world profile token epoch :=
      ⟨loaded, found, allowed, Classical.or_iff_not_imp_left.mpr state, rollback⟩
    intro outcomes
    simp only [storeRecoveryJournal]
    cases chosen : outcomes.headD default with
    | done =>
      rw [perform_bind _ _ _ _ ({ world.saved
          (recoveryJournalAfterCleanup setting.toServices world.journal token epoch) with
        history := world.history.cleaned false }, true)]
      · refine ⟨fun stopped passed => ?_, ?_, trivial⟩
        · rw [List.mem_singleton.mp passed]
          exact (Reaches.single (.cleanup world profile token epoch false cleans permitted)).passes
        · exact (Reaches.single (.cleanup world profile token epoch true cleans permitted)).tail (.quiet _ _ rfl)
      · rw [chosen]
        rfl
    | failed =>
      rw [perform_bind _ _ _ _ (world, false)]
      · refine ⟨fun stopped passed => ?_, .refl, trivial⟩
        rw [List.mem_singleton.mp passed]
        exact ⟨world, .refl, rfl⟩
      · rw [chosen]

/-! ## Enrolment -/

section

variable (ready : Ready world)
include ready

theorem follows_resumeCommit :
    Follows setting permits (resumeCommit setting)
      (fun resumed later => Ready later ∧ (resumed = true → ¬Matched setting later)) world := by
  unfold resumeCommit
  apply Changes.Follows.read_bind
  apply follows_ite
  · rintro ⟨committing, -⟩
    refine (persist_writes ?_).last ?_ ?_
    · exact .settle world .ackPending ready.free ⟨ready.noTrial, committing⟩
    · refine ⟨⟨ready.noTrial, ready.free, ready.loaded⟩, fun _ matched => ?_⟩
      exact nomatch matched.1
    · exact ⟨ready, nofun⟩
  · intro unmatched
    exact follows_return ⟨ready, fun _ => unmatched⟩

theorem follows_acknowledge (acknowledging : Acknowledging world) :
    Traced setting permits (acknowledge moment) world := by
  unfold acknowledge
  apply consult_bind
  apply follows_ite
  · intro _
    apply Changes.Follows.update_bind (Reaches.single (.drawRenewal world moment.nonce))
    exact follows_request ready.free ready.loaded ⟨acknowledging.noTrial, acknowledging.pending⟩
  · intro _
    exact follows_request ready.free ready.loaded acknowledging

theorem follows_drawNonce (idle : Idle setting permits world) :
    Follows setting permits (drawNonce setting moment)
      (fun drawn later => drawn = true → Ready later ∧ Idle setting permits later) world := by
  unfold drawNonce
  apply consult_bind
  apply follows_ite
  · intro _
    apply Changes.Follows.update_update_bind
    · exact Reaches.single (.draw world moment.nonce _ ready.free idle)
    refine (persist_writes ?_).last ?_ ?_
    · exact .settle _ .enrolling ready.free ⟨⟨idle.noTrial, idle.settled⟩, idle.unmatched⟩
    · intro _
      exact ⟨⟨ready.noTrial, ready.free, ready.loaded⟩,
        ⟨⟨ready.noTrial, by simp⟩, .inr fun matched => nomatch matched.1⟩⟩
    · nofun
  · intro _
    exact follows_return fun _ => ⟨ready, idle⟩

theorem follows_enroll (idle : Idle setting permits world) :
    Traced setting permits (enroll setting moment) world := by
  unfold enroll
  apply consult_bind
  have dropped : Follows setting permits
      (if 0 < world.memory.journal.grantExpiresAt ∧ world.memory.journal.grantExpiresAt ≤ moment.seconds then
        revise ({ · with grant := "", nonce := "", challengeReceipt := [] })
      else return : Action Hash Unit)
      (fun _ later => Ready later ∧ Idle setting permits later) world := by
    apply follows_ite
    · intro _
      apply Changes.Follows.update (Reaches.single (.dropGrant world ready.free idle))
      exact ⟨⟨ready.noTrial, ready.free, ready.loaded⟩, ⟨⟨idle.noTrial, idle.settled⟩, idle.unmatched⟩⟩
    · intro _
      exact follows_return ⟨ready, idle⟩
  apply dropped.bind
  rintro _ later - ⟨ready, idle⟩
  apply (follows_drawNonce ready idle).bind
  intro drawn last _ held
  apply follows_when
  intro enrolled
  obtain ⟨ready, idle⟩ := held enrolled
  apply consult_bind
  apply follows_ite
  · intro _
    exact follows_request ready.free ready.loaded idle
  · intro _
    exact follows_request ready.free ready.loaded idle

theorem follows_fetch (unmatched : ¬Matched setting world) :
    Traced setting permits (fetch setting moment) world := by
  unfold fetch
  apply Changes.Follows.read_bind
  apply follows_unless
  intro _
  apply follows_unless
  intro _
  apply follows_ite
  · intro pending
    apply follows_unless
    intro _
    exact follows_acknowledge ready ⟨ready.noTrial, pending⟩
  · intro notPending
    apply follows_unless
    intro settled
    refine follows_enroll ready ⟨⟨ready.noTrial, ?_⟩, .inr unmatched⟩
    exact fun listed => (List.mem_cons.mp listed).elim notPending settled

theorem follows_enrollOrFetch :
    Traced setting permits (enrollOrFetch setting moment) world := by
  unfold enrollOrFetch
  apply (follows_resumeCommit ready).bind
  rintro resumed later - ⟨ready, unmatched⟩
  apply follows_when
  intro goOn
  apply consult_bind
  have kept : Follows setting permits
      (if later.memory.journal.state = some .staged ∧ !later.memory.trial ∧
        isExpired later.memory.journal moment.seconds then expireStaged else return true)
      (fun _ last => Ready last ∧ ¬Matched setting last) later := by
    apply follows_ite
    · rintro ⟨staged, -⟩
      refine (persistChange_writes ?_).last ?_ ?_
      · exact .expire later ready.free ready.noTrial staged
      · exact ⟨⟨ready.noTrial, ready.free, ready.loaded⟩, fun matched => nomatch matched.1⟩
      · exact ⟨ready, unmatched goOn⟩
    · intro _
      exact follows_return ⟨ready, unmatched goOn⟩
  apply kept.bind
  rintro _ last - ⟨ready, unmatched⟩
  apply follows_when
  intro _
  exact follows_fetch ready unmatched

end

/-! ## Replies -/

theorem follows_noted (reason : String) (httpStatus now : Int) :
    Traced setting permits (recordFailure reason httpStatus now) world :=
  (follows_recordFailure reason httpStatus now).mono fun _ _ _ _ => trivial

theorem follows_acceptBootstrap {binding : Enrollment} {configuration reply : JsonObject}
    (ready : Ready world) (idle : Idle setting permits world) :
    Traced setting permits (acceptBootstrap setting binding configuration reply moment) world := by
  unfold acceptBootstrap
  apply consult_bind
  apply follows_ite
  · intro _
    exact follows_noted _ _ _
  · intro accepted
    apply follows_ite
    · intro _
      exact follows_noted _ _ _
    · intro sameSigner
      have decoded : strictBase64 (reply.text "signingPublicKey") (some 32) ≠ [] :=
        fun empty => accepted (by simp [empty])
      have known := strictBase64_known decoded
      have pinned : world.memory.journal.signingPublicKey = "" ∨
          world.memory.journal.signingPublicKey = reply.text "signingPublicKey" := by
        simpa [or_iff_not_imp_left] using sameSigner
      apply Changes.Follows.update_update_bind
      · exact Reaches.single (.enroll world _ _ _ _ _ _ ready.free idle known pinned)
      refine (persist_writes ?_).bind ?_ ?_
      · exact .settle _ .enrolled ready.free ⟨⟨idle.noTrial, idle.settled⟩, idle.unmatched⟩
      · exact follows_enrollOrFetch ⟨ready.noTrial, ready.free, ready.loaded⟩
      · exact follows_return trivial

theorem follows_acceptOffer (ready : Ready world)
    (idle : Idle setting permits world) :
    Traced setting permits (acceptOffer setting envelope moment) world := by
  unfold acceptOffer
  apply Changes.Follows.read_bind
  cases verified : verifyEnvelope setting.toServices envelope
      (strictBase64 world.memory.journal.signingPublicKey (some 32)) with
  | none =>
    simp only [id, verified]
    exact follows_return trivial
  | some offer =>
    simp only [id, verified]
    cases valid : validateOffer offer
        (offerBinding setting world.memory.journal offer world.memory.sourceProfile) moment.seconds with
    | error reason => exact follows_noted _ _ _
    | ok =>
      dsimp only
      apply follows_ite
      · intro _
        exact follows_noted _ _ _
      · intro _
        apply follows_unless
        intro target
        have signer : world.memory.journal.signingPublicKey ≠ "" := by
          apply strictBase64_known
          intro empty
          have long := verifyEnvelope_key setting.toServices verified
          rw [empty] at long
          cases long
        refine (persistChange_writes ?_).traced
        exact .stage world offer moment.seconds ⟨idle, ready.free, signer, valid, target⟩

theorem follows_acceptReceipt {offer : JsonObject}
    (free : world.memory.busy = false) (trial : world.memory.trial = true) :
    Traced setting permits (acceptReceipt setting offer envelope moment) world := by
  unfold acceptReceipt
  apply consult_bind
  cases verified : verifiedReceipt setting world.memory.journal.signingPublicKey envelope offer with
  | none => exact follows_return trivial
  | some receipt =>
    dsimp only
    apply follows_unless
    intro _
    apply Changes.Follows.update_bind (Reaches.single (.prove world envelope free trial))
    refine (persist_writes ?_).traced
    exact .settle _ .trial free trial

theorem chronicle_writes (allowed : Change setting permits world
      { world.saved { change world.memory.journal with state := some state } with history := log world.history })
    (noted : Change setting permits world { world with history := log world.history }) :
    Writes setting permits (do chronicle log; persistChange change state)
      { world.saved { change world.memory.journal with state := some state } with history := log world.history }
      { world with history := log world.history } world := by
  have same : ({ world with history := log world.history } : World Hash).saved
      { change world.memory.journal with state := some state } =
      { world.saved { change world.memory.journal with state := some state } with
        history := log world.history } := by
    unfold World.saved World.withJournal
    split
    · rfl
    · rfl
  refine writes_of_runs ?_ ?_ (.single allowed) (.single noted)
  · intro outcomes chosen
    simp only [chronicle, update_bind]
    rw [persistChange_done chosen, same]
  · intro outcomes chosen
    simp only [chronicle, update_bind]
    exact ⟨_, persistChange_failed chosen, rfl⟩

theorem follows_acceptRenewal {offer : JsonObject} {nonce : String}
    (ready : Ready world) (acknowledging : Acknowledging world) :
    Traced setting permits (acceptRenewal setting offer nonce envelope moment) world := by
  unfold acceptRenewal
  apply consult_bind
  cases verified : verifyEnvelope setting.toServices envelope
      (strictBase64 world.memory.journal.signingPublicKey (some 32)) with
  | none => exact follows_return trivial
  | some proof =>
    dsimp only
    apply follows_unless
    intro accepted
    have known : proof.text "grant" ≠ "" := fun empty => accepted (by simp [empty])
    rw [← Procedure.bind_assoc]
    refine (chronicle_writes ?_ ?_).bind ?_ ?_
    · exact .renew world _ _ ready.free acknowledging known
    · exact .grant world _
    · exact follows_acknowledge ⟨ready.noTrial, ready.free, ready.loaded⟩ ⟨ready.noTrial, rfl⟩
    · exact follows_return trivial

theorem follows_acceptAcknowledgement {reply : JsonObject} (ready : Ready world)
    (acknowledging : Acknowledging world) :
    Traced setting permits (acceptAcknowledgement reply) world := by
  unfold acceptAcknowledgement
  apply follows_when
  intro _
  refine (persist_writes ?_).traced
  exact .settle world .committed ready.free acknowledging

theorem follows_callback {payload : JsonObject}
    (free : world.memory.busy = false) (loaded : world.memory.loaded = true)
    (sends : Sends setting permits world kind) :
    Traced setting permits (callback setting kind payload moment) world := by
  cases kind with
  | bootstrap binding configuration => exact follows_acceptBootstrap ⟨sends.noTrial, free, loaded⟩ sends
  | offer => exact follows_acceptOffer ⟨sends.noTrial, free, loaded⟩ sends
  | challenge offer => exact follows_acceptReceipt free sends
  | renew offer nonce => exact follows_acceptRenewal ⟨sends.noTrial, free, loaded⟩ sends
  | acknowledge => exact follows_acceptAcknowledgement ⟨sends.noTrial, free, loaded⟩ sends

def Answerable (setting : Setting Hash) (permits : Permits Hash) (world : World Hash) : Prop :=
  ∀ pending ∈ world.memory.requests, world.IsCurrent pending → Sends setting permits world pending.request

theorem Sound.answerable (sound : Sound setting world) (edits : permits.edits) :
    Answerable setting permits world := by
  intro pending listed current
  obtain ⟨-, purpose⟩ := sound.purpose pending listed current
  cases shape : pending.request with
  | bootstrap | offer =>
    rw [shape] at purpose
    exact ⟨purpose, .inl edits⟩
  | challenge | renew | acknowledge =>
    rw [shape] at purpose
    exact purpose

theorem Sends.congr (sends : Sends setting permits world kind)
    (trial : later.memory.trial = world.memory.trial)
    (state : later.memory.journal.state = world.memory.journal.state)
    (matched : Matched setting later → Matched setting world) : Sends setting permits later kind := by
  cases kind with
  | bootstrap | offer =>
    exact ⟨⟨trial.trans sends.noTrial, state ▸ sends.settled⟩, sends.unmatched.imp_right (mt matched)⟩
  | challenge => exact trial.trans sends
  | renew | acknowledge => exact ⟨trial.trans sends.noTrial, state.trans sends.pending⟩

theorem follows_finish {pending : Pending} (found : world.memory.requests[index]? = some pending) :
    Follows setting permits (finish index pending) (fun current later =>
      later = world.taken index pending ∧
        current = decide (pending.generation = world.memory.callbackGeneration)) world := by
  unfold finish
  apply consult_bind
  apply Changes.Follows.update_bind (Reaches.single (.take world index pending found))
  exact follows_return ⟨rfl, rfl⟩

theorem follows_replyArrived {payload : JsonObject}
    (sound : Sound setting world) (answerable : Answerable setting permits world) :
    Traced setting permits (replyArrived setting index payload moment) world := by
  unfold replyArrived
  apply consult_bind
  cases found : world.memory.requests[index]? with
  | none =>
    simp only [id, found]
    exact follows_return trivial
  | some pending =>
    simp only [id, found]
    have listed := List.mem_of_getElem? found
    apply (follows_finish found).bind
    rintro _ _ - ⟨rfl, rfl⟩
    apply follows_when
    rintro ⟨same, -⟩
    have current : pending.generation = world.memory.callbackGeneration := of_decide_eq_true same
    have sends : Sends setting permits (world.taken index pending) pending.request :=
      (answerable pending listed current).congr rfl rfl id
    apply follows_clearFailure.bind
    intro _ later _ alike
    apply follows_callback
    · rw [alike.busy]
      simp [World.taken, current]
    · rw [alike.loaded]
      exact (sound.purpose pending listed current).1
    · exact sends.alike alike

theorem follows_requestFailed {reason : String} {httpStatus now : Int} :
    Traced setting permits (requestFailed index reason httpStatus now) world := by
  unfold requestFailed
  apply consult_bind
  cases found : world.memory.requests[index]? with
  | none =>
    simp only [id, found]
    exact follows_return trivial
  | some pending =>
    simp only [id, found]
    have noted : Follows setting permits
        (if pending.generation = world.memory.callbackGeneration then recordFailure reason httpStatus now
          else return : Action Hash Unit) (fun _ later => world.Alike later) world := by
      apply follows_ite
      · intro _
        exact follows_recordFailure _ _ _
      · intro _
        exact follows_return (.refl world)
    apply noted.bind
    intro _ later _ alike
    have same : later.memory.requests[index]? = some pending := by
      rw [Memory.of_bare alike.memory Memory.requests fun _ => rfl]
      exact found
    apply (follows_finish same).bind
    intro _ _ _ _
    exact follows_return trivial

/-! ## Observations -/

theorem follows_challenge (free : world.memory.busy = false)
    (loaded : world.memory.loaded = true) (trial : world.memory.trial = true) :
    Traced setting permits (challenge moment) world := by
  unfold challenge
  apply consult_bind
  apply follows_unless
  intro _
  exact follows_request free loaded trial

theorem follows_adoptProfile {profile : JsonObject} {seconds : Int} (permitted : permits.commits)
    (commits : ∀ before after, world.profile = some before →
      swappedProfile setting before world.memory.journal.sourceHash profile = some after →
      Commits setting world before profile after seconds) :
    Follows setting permits (adoptProfile setting profile seconds) (fun swapped later =>
      later.memory.busy = world.memory.busy ∧ later.memory.loaded = world.memory.loaded ∧
        later.memory.journal = world.memory.journal ∧ (swapped = true → later.memory.trial = false)) world := by
  intro outcomes
  simp only [adoptProfile, consult, read_bind]
  rw [perform_bind _ _ _ _ _ rfl]
  cases found : world.profile with
  | none =>
    refine ⟨fun stopped passed => ?_, .refl, rfl, rfl, rfl, nofun⟩
    rw [List.mem_singleton.mp passed]
    exact ⟨world, .refl, rfl⟩
  | some before =>
    cases swapped : swappedProfile setting before world.memory.journal.sourceHash profile with
    | none =>
      simp only [swapped]
      refine ⟨fun stopped passed => ?_, .refl, rfl, rfl, rfl, nofun⟩
      rw [List.mem_singleton.mp passed]
      exact ⟨world, .refl, rfl⟩
    | some after =>
      cases chosen : outcomes.headD default with
      | failed =>
        simp only [swapped]
        refine ⟨fun stopped passed => ?_, .refl, rfl, rfl, rfl, nofun⟩
        rw [List.mem_singleton.mp passed]
        exact ⟨world, .refl, rfl⟩
      | done =>
        simp only [swapped]
        have change : Change setting permits world _ :=
          .commit world before profile after seconds (commits before after found swapped) permitted
        refine ⟨fun stopped passed => ?_, .single change, rfl, rfl, rfl, fun _ => rfl⟩
        rw [List.mem_singleton.mp passed]
        exact ⟨_, Reaches.single change, rfl⟩

theorem follows_commit (trial : world.memory.trial = true) (free : world.memory.busy = false)
    (loaded : world.memory.loaded = true)
    (receipt : validChallengeReceipt setting world.memory.journal world.memory.journal.challengeReceipt true
      moment.seconds = true) (permitted : permits.commits) :
    Traced setting permits (commit setting moment) world := by
  unfold commit
  apply consult_bind
  apply Changes.Follows.update_bind (Reaches.single (.choose world _ free trial))
  apply follows_ite
  · intro _
    exact follows_failed
  · intro _
    refine (persist_writes ?_).bind ?_ ?_
    · exact .settle _ .committing free trial
    · apply (follows_adoptProfile permitted ?_).bind
      · rintro swapped later - ⟨sameBusy, sameLoaded, sameJournal, ended⟩
        apply follows_ite
        · intro done
          have ready : Ready later := ⟨ended done, sameBusy.trans free, sameLoaded.trans loaded⟩
          refine (persist_writes ?_).bind ?_ ?_
          · refine .settle later .ackPending ready.free ⟨ready.noTrial, ?_⟩
            rw [sameJournal]
            rfl
          · apply follows_then
            exact follows_acknowledge ⟨ready.noTrial, ready.free, ready.loaded⟩ ⟨ready.noTrial, rfl⟩
          · exact follows_return trivial
        · intro _
          exact follows_failed
      · intro before after found swapped
        refine ⟨trial, free, fun _ => ?_, rfl, rfl, rfl, receipt, found, swapped⟩
        apply World.journal_saved
        exact loaded
    · exact follows_failed

variable {observation : JsonObject}

theorem follows_observeTrial (trial : world.memory.trial = true)
    (free : world.memory.busy = false) (loaded : world.memory.loaded = true) (permitted : permits.commits) :
    Traced setting permits (observeTrial setting observation moment) world := by
  unfold observeTrial
  apply consult_bind
  apply follows_unless
  intro _
  have counted : Follows setting permits
      (if world.memory.initialRx < 0 then
        remember ({ · with
          initialRx := (observation.value "rxBytes").toDouble (-1)
          initialTx := (observation.value "txBytes").toDouble (-1) })
      else return : Action Hash Unit) (fun _ later => world.Alike later) world := by
    apply follows_ite
    · intro _
      exact follows_quiet rfl ⟨rfl, rfl, rfl⟩
    · intro _
      exact follows_return (.refl world)
  apply counted.bind
  intro _ later _ alike
  have trial := alike.trial.trans trial
  have free := alike.busy.trans free
  have loaded := alike.loaded.trans loaded
  apply consult_bind
  apply follows_ite
  · intro _
    apply follows_ite
    · intro _
      exact follows_failed
    · intro receipt
      apply follows_unless
      intro _
      exact follows_commit trial free loaded (by simpa using receipt) permitted
  · intro _
    exact follows_then (follows_challenge free loaded trial)

theorem follows_observe {epoch : Nat} (permitted : permits.commits) :
    Traced setting permits (observe setting epoch observation moment) world := by
  unfold observe
  apply consult_bind
  apply follows_unless
  intro accepted
  have loaded : world.memory.loaded = true := by
    cases present : world.memory.loaded with
    | true => rfl
    | false => exact absurd (by simp [present]) accepted
  apply follows_ite
  · intro _
    apply (follows_recordFailure _ _ _).bind
    intro _ _ _ _
    exact follows_then traced_cancel
  · intro _
    apply quiet_bind rfl
    apply follows_unless
    intro usable
    have free : world.memory.busy = false := by
      cases present : world.memory.busy with
      | false => rfl
      | true => exact absurd (by simp [present]) usable
    apply quiet_bind rfl
    apply follows_ite
    · intro trial
      exact follows_observeTrial trial free loaded permitted
    · intro noTrial
      apply follows_unless
      intro _
      apply quiet_bind rfl
      exact follows_then (follows_enrollOrFetch ⟨Bool.eq_false_of_not_eq_true noTrial, free, loaded⟩)

/-! ## Activations -/

theorem follows_activate {allowTrial : Bool} {now : Int}
    (noTrial : world.memory.trial = false) (free : world.memory.busy = false) :
    Follows setting permits (activate connection allowTrial now) (fun _ later => Ready later) world := by
  unfold activate
  apply consult_bind
  apply Changes.Follows.update_bind
  · exact (Reaches.single (.load world free noTrial)).tail (.quiet _ _ rfl)
  · exact follows_return ⟨noTrial, free, rfl⟩

theorem follows_settleInterrupted (ready : Ready world) (unmatched : ¬Matched setting world) :
    Follows setting permits (settleInterrupted setting) (fun _ later => Ready later) world := by
  have kept (journal : Journal Hash) : Ready (world.saved journal) :=
    ⟨ready.noTrial, ready.free, ready.loaded⟩
  unfold settleInterrupted
  apply consult_bind
  apply follows_ite
  · intro committing
    refine (persist_writes ?_).bind ?_ ?_
    · apply Change.settle world _ ready.free
      split
      · exact .inr (.inr ⟨committing, unmatched⟩)
      · exact ready.noTrial
    · exact follows_return (kept _)
    · exact follows_return ready
  · intro _
    apply follows_ite
    · intro trial
      refine (persist_writes ?_).bind ?_ ?_
      · exact .settle world .rolledBack ready.free (.inr (.inl trial))
      · exact follows_return (kept _)
      · exact follows_return ready
    · intro _
      exact follows_return ready

theorem follows_rebase {configuration : JsonObject} (ready : Ready world) :
    Follows setting permits (rebase setting configuration) (fun _ later => Ready later) world := by
  unfold rebase
  apply consult_bind
  apply follows_ite
  · rintro ⟨staged, -⟩
    apply Changes.Follows.update_bind (Reaches.single (.rebase world ready.free ready.noTrial staged))
    refine (persist_writes ?_).last ?_ ?_
    · exact .settle _ .staged ready.free ⟨ready.noTrial, staged⟩
    · exact ⟨ready.noTrial, ready.free, ready.loaded⟩
    · exact ⟨ready.noTrial, ready.free, ready.loaded⟩
  · intro _
    exact follows_return ready

theorem follows_beginTrial (begins : Begins setting world) :
    Traced setting permits (beginTrial setting) world := by
  intro outcomes
  simp only [beginTrial, consult, read_bind, storeRecoveryJournal]
  cases chosen : outcomes.headD default with
  | done =>
    rw [perform_bind _ _ _ _ ({ world.saved (trialJournal world) with
      history := { world.history with trials := world.history.trials + 1 } }, true)]
    · refine ⟨fun stopped passed => ?_, .single (.begin world begins), trivial⟩
      rw [List.mem_singleton.mp passed]
      exact (Reaches.single (.spend world begins)).passes
    · rw [chosen]
      rfl
  | failed =>
    rw [perform_bind _ _ _ _ (world, false)]
    · refine ⟨fun stopped passed => ?_, .refl, trivial⟩
      rw [List.mem_singleton.mp passed]
      exact ⟨world, .refl, rfl⟩
    · rw [chosen]

theorem follows_startTrial {active : JsonObject} (ready : Ready world) :
    Traced setting permits (startTrial setting connection active moment) world := by
  unfold startTrial
  apply consult_bind
  apply follows_unless
  intro usable
  simp only [id, not_or, ne_eq, not_not] at usable
  obtain ⟨staged, source, -⟩ := usable
  apply follows_ite
  · intro _
    refine (persistChange_writes ?_).traced
    exact .expire world ready.free ready.noTrial staged
  · intro _
    apply follows_unless
    intro newer
    have begins : Begins setting world :=
      ⟨ready.loaded, ready.noTrial, ready.free, staged, source, fun older => newer (.inl older)⟩
    apply (follows_beginTrial begins).bind
    intro started _ _ _
    apply follows_when
    intro _
    exact follows_return trivial

theorem follows_prepareTrial {active : JsonObject} (ready : Ready world)
    (unmatched : ¬Matched setting world) :
    Traced setting permits (prepareTrial setting connection active moment) world := by
  unfold prepareTrial
  apply (follows_settleInterrupted ready unmatched).bind
  intro settled later _ ready
  apply follows_unless
  intro _
  apply (follows_rebase ready).bind
  intro rebased last _ ready
  apply follows_when
  intro _
  exact follows_startTrial ready

theorem follows_prepare {allowTrial : Bool} :
    Traced setting permits (prepare setting connection allowTrial moment) world := by
  unfold prepare
  apply (follows_retire allowTrial).bind
  rintro _ retired - ⟨noTrial, free, -⟩
  apply (follows_activate noTrial free).bind
  intro active activated _ ready
  apply follows_unless
  intro _
  apply (follows_resumeCommit ready).bind
  rintro resumed later - ⟨ready, unmatched⟩
  apply follows_when
  rintro ⟨goOn, -⟩
  exact follows_prepareTrial ready (unmatched goOn)

/-! ## The user -/

theorem follows_edit {profile : JsonObject} {now : Int} (edits : permits.edits) :
    Traced setting permits (edit setting profile now) world := by
  unfold edit
  have edited : Traced setting permits (editServer profile) world := by
    apply Changes.Follows.perform
    intro _
    split
    · exact ⟨.refl, trivial⟩
    · exact ⟨.single (.edit world profile edits), trivial⟩
  apply edited.bind
  intro stored later _ _
  apply consult_bind
  apply follows_when
  intro _
  apply (follows_recordFailure _ _ _).bind
  intro _ _ _ _
  exact traced_cancel

theorem follows_removeServer (edits : permits.edits) :
    Traced setting permits removeServer world := by
  unfold removeServer
  have removed : Traced setting permits
      (perform fun (world : World Hash) (_ : Outcome) => ({ world with profile := none }, ())) world := by
    apply Changes.Follows.perform
    intro _
    exact ⟨.single (.remove world edits), trivial⟩
  apply removed.bind
  intro _ later _ _
  apply consult_bind
  apply follows_when
  intro _
  exact traced_cancel

/-! ## Entries -/

def Entry.Permitted (setting : Setting Hash) (permits : Permits Hash) (world : World Hash) : Entry → Prop
  | .observe _ _ _ => permits.commits
  | .reply _ _ _ => Answerable setting permits world
  | .cleanupCompleted _ _ => permits.cleanup world
  | .edit _ _ | .remove => permits.edits
  | _ => True

theorem follows_quietly {action : Action Hash α}
    (followed : Traced setting permits action world) :
    Traced setting permits (quietly action) world :=
  follows_then followed

theorem follows_entry {entry : Entry} (sound : Sound setting world)
    (permitted : entry.Permitted setting permits world) :
    Traced setting permits (entry.run setting) world := by
  cases entry with
  | beginActivation token =>
    apply Changes.Follows.update
    · exact (Reaches.single (.advance world world.memory.busy)).tail (.quiet _ _ rfl)
    · trivial
  | prepare connection allowTrial moment => exact follows_quietly follows_prepare
  | observe epoch observation moment => exact follows_quietly (follows_observe permitted)
  | reply index payload moment => exact follows_replyArrived sound permitted
  | requestFailed index reason httpStatus now => exact follows_requestFailed
  | deadline => exact follows_quietly follows_failed
  | cancel => exact traced_cancel
  | cleanupFailed => exact follows_cleanupFailed
  | cleanupCompleted token epoch => exact follows_quietly (follows_cleanupCompleted permitted)
  | edit profile now => exact follows_edit permitted
  | remove => exact follows_removeServer permitted
  | restart => exact .update (Reaches.single (.restart world)) trivial

theorem reaches_of_entry {before after : World Hash} {entry : Entry}
    (step : (controller setting).Step before entry after) (sound : Sound setting before)
    (permitted : entry.Permitted setting permits before) : Reaches setting permits before after :=
  Changes.reaches_of_step rfl step (follows_entry sound permitted)

theorem Entry.permitted_everything (entry : Entry) (sound : Sound setting world) :
    entry.Permitted setting everything world := by
  cases entry with
  | reply => exact sound.answerable trivial
  | beginActivation | prepare | observe | requestFailed | deadline | cancel | cleanupFailed
  | cleanupCompleted | edit | remove | restart => trivial

theorem reaches_of_run {before after : World Hash} {entries : List Entry}
    (run : Run (controller setting).Step before entries after) (sound : Sound setting before) :
    Sound setting after ∧ Reaches setting everything before after := by
  induction run with
  | nil => exact ⟨sound, .refl⟩
  | cons first rest ih =>
    have here := reaches_of_entry first sound (Entry.permitted_everything _ sound)
    obtain ⟨kept, further⟩ := ih (sound.reached here)
    exact ⟨kept, here.trans further⟩

end Amnezia.Migration
