import Amnezia.Migration.Tracing

/-! # A restart during a commit -/

namespace Amnezia.Migration
open Lib Procedure

variable {Hash : Type} {world : World Hash}

variable {conditions : Conditions (World Hash) Outcome}

theorem ensures_persist {state : JournalState}
    (written : conditions.invariant (world.saved { world.memory.journal with state := some state }))
    (kept : conditions.invariant (world.revised { world.memory.journal with state := some state })) :
    Ensures conditions (persist state) (fun done later =>
      (done = true ∧ later = world.saved { world.memory.journal with state := some state }) ∨
        (done = false ∧ later = world ∧ conditions.allowed .failed)) world := by
  intro outcomes allowed
  have rest : ∀ outcome ∈ outcomes.tail, conditions.allowed outcome :=
    fun outcome left => allowed outcome (List.mem_of_mem_tail left)
  cases chosen : outcomes.headD default with
  | done =>
    rw [persist_done chosen]
    refine ⟨fun stop stopped => ?_, .inl ⟨rfl, rfl⟩, rest⟩
    rw [List.mem_singleton.mp stopped]
    exact written
  | failed =>
    rw [persist_failed chosen]
    refine ⟨fun stop stopped => ?_, .inr ⟨rfl, rfl, ?_⟩, rest⟩
    · rw [List.mem_singleton.mp stopped]
      exact kept
    · cases outcomes with
      | nil => cases chosen
      | cons outcome others => exact chosen ▸ allowed outcome List.mem_cons_self

structure Opened (before world : World Hash) : Prop where
  journal : world.journal = before.journal
  profile : world.profile = before.profile
  loaded : world.memory.loaded = true
  memory : world.memory.journal = before.journal
  source : world.memory.sourceProfile = before.serverJson

theorem ensures_retire (noTrial : world.memory.trial = false)
    (allowTrial : Bool) :
    Ensures conditions (retire allowTrial) (fun _ later =>
      later.journal = world.journal ∧ later.profile = world.profile) world := by
  cases allowTrial with
  | true =>
    apply Ensures.bind
    apply Ensures.update
    apply Ensures.bind
    apply Ensures.read
    simp only [noTrial]
    exact Ensures.pure ⟨rfl, rfl⟩
  | false => exact Ensures.update ⟨rfl, rfl⟩

theorem ensures_activate {before : World Hash}
    (journal : world.journal = before.journal) (profile : world.profile = before.profile)
    (connection : JsonObject) (allowTrial : Bool) (now : Int) :
    Ensures conditions (activate connection allowTrial now) (fun _ => Opened before) world := by
  apply Ensures.bind
  apply Ensures.read
  apply Ensures.bind
  apply Ensures.update
  apply Ensures.pure
  exact ⟨journal, profile, rfl, journal, by simp only [World.serverJson, profile]⟩

section

variable [DecidableEq Hash] (setting : Setting Hash)

def World.resumed (world : World Hash) : JournalState :=
  if world.profile.any fun profile => world.journal.candidateHash = some (setting.digest profile) then .ackPending
  else if world.journal.sourceHash = some (setting.digest world.serverJson) then .rolledBack
  else .recoveryRequired

def resuming (allowed : Outcome → Prop) (usual : allowed .done) (before : World Hash) :
    Conditions (World Hash) Outcome where
  allowed := allowed
  usual := usual
  invariant world := world.journal.state = some .committing ∨ world.journal.state = some (before.resumed setting)

variable {setting} {allowed : Outcome → Prop} {usual : allowed .done} {before : World Hash}

theorem Opened.matches_iff (opened : Opened before world) :
    committedProfileMatches setting world = true ↔
      (before.profile.any fun profile => before.journal.candidateHash = some (setting.digest profile)) = true := by
  rw [committedProfileMatches, opened.memory, opened.profile, opened.source]
  cases hash : before.journal.candidateHash with
  | none => cases before.profile <;> simp
  | some candidate => cases stored : before.profile <;> simp [World.serverJson, stored]

variable (setting allowed) in
def Settled (before world : World Hash) (state : JournalState) (done : Bool) (later : World Hash) : Prop :=
  (done = true ∧ later.journal.state = some (before.resumed setting) ∧ later.memory.journal.state = some state) ∨
    (done = false ∧ later = world ∧ allowed .failed)

theorem Opened.ensures_settle (opened : Opened before world) (committing : before.journal.state = some .committing)
    {state : JournalState} (resumed : before.resumed setting = state) :
    Ensures (resuming setting allowed usual before) (persist state)
      (Settled setting allowed before world state) world := by
  have saved : (world.saved { world.memory.journal with state := some state }).journal.state =
      some (before.resumed setting) := by rw [world.journal_saved opened.loaded, resumed]
  have written : (resuming setting allowed usual before).invariant
      (world.saved { world.memory.journal with state := some state }) := .inr saved
  have kept : (resuming setting allowed usual before).invariant
      (world.revised { world.memory.journal with state := some state }) :=
    .inl ((congrArg Journal.state opened.journal).trans committing)
  apply (ensures_persist written kept).mono
  rintro done later (⟨rfl, rfl⟩ | ⟨rfl, rfl, failed⟩)
  · exact .inl ⟨rfl, saved, rfl⟩
  · exact .inr ⟨rfl, rfl, failed⟩

theorem Opened.ensures_resumeCommit (opened : Opened before world)
    (committing : before.journal.state = some .committing) :
    Ensures (resuming setting allowed usual before) (resumeCommit setting) (fun done later =>
      (done = true ∧ later = world ∧ committedProfileMatches setting world = false) ∨
        Settled setting allowed before world .ackPending done later) world := by
  have state : world.memory.journal.state = some .committing := by rw [opened.memory, committing]
  unfold resumeCommit
  apply Ensures.bind
  apply Ensures.read
  simp only [id, state, true_and]
  cases found : committedProfileMatches setting world with
  | false => exact Ensures.pure (.inl ⟨rfl, rfl, rfl⟩)
  | true =>
    have resumed : before.resumed setting = .ackPending := by
      rw [World.resumed, if_pos (opened.matches_iff.mp found)]
    exact (opened.ensures_settle committing resumed).mono fun _ _ settled => .inr settled

theorem Opened.ensures_settleInterrupted (opened : Opened before world)
    (committing : before.journal.state = some .committing)
    (unmatched : committedProfileMatches setting world = false) :
    Ensures (resuming setting allowed usual before) (settleInterrupted setting) (fun interrupted later =>
      interrupted = true ∧ (later.journal.state = some (before.resumed setting) ∨
        (later = world ∧ allowed .failed))) world := by
  have state : world.memory.journal.state = some .committing := by rw [opened.memory, committing]
  have resumed : before.resumed setting =
      if some (setting.digest world.memory.sourceProfile) = world.memory.journal.sourceHash then .rolledBack
      else .recoveryRequired := by
    have missed := (Bool.eq_false_iff.mp unmatched).imp opened.matches_iff.mpr
    rw [World.resumed, if_neg missed, opened.source, opened.memory]
    simp only [eq_comm]
  unfold settleInterrupted
  apply Ensures.bind
  apply Ensures.read
  simp only [id, state, if_true]
  apply (opened.ensures_settle committing resumed).call
  rintro done later (⟨rfl, written, -⟩ | ⟨rfl, rfl, failed⟩)
  · exact Ensures.pure ⟨rfl, .inl written⟩
  · exact Ensures.pure ⟨rfl, .inr ⟨rfl, failed⟩⟩

theorem ensures_prepareTrial_pending {connection active : JsonObject}
    {moment : Moment} (pending : world.memory.journal.state = some .ackPending) :
    Ensures conditions (prepareTrial setting connection active moment) (fun _ later => later = world) world := by
  have none : Ensures conditions (settleInterrupted setting)
      (fun interrupted later => interrupted = false ∧ later = world) world := by
    apply Ensures.bind
    apply Ensures.read
    simp only [id, pending, Option.some.injEq, reduceCtorEq, if_false]
    exact Ensures.pure ⟨rfl, rfl⟩
  have based : Ensures conditions (rebase setting (client connection))
      (fun ready later => ready = true ∧ later = world) world := by
    apply Ensures.bind
    apply Ensures.read
    simp only [id, pending, Option.some.injEq, reduceCtorEq, false_and, if_false]
    exact Ensures.pure ⟨rfl, rfl⟩
  apply none.call
  rintro _ _ ⟨rfl, rfl⟩
  apply based.call
  rintro _ _ ⟨rfl, rfl⟩
  apply Ensures.bind
  apply Ensures.read
  simp only [id, pending, ne_eq, Option.some.injEq, reduceCtorEq, not_false_eq_true, true_or, if_true]
  exact Ensures.pure rfl

theorem ensures_prepare (noTrial : world.memory.trial = false) (committing : world.journal.state = some .committing)
    (connection : JsonObject) (allowTrial : Bool) (moment : Moment) :
    Ensures (resuming setting allowed usual world) (prepare setting connection allowTrial moment) (fun _ later =>
      later.journal.state = some (world.resumed setting) ∨ (later.journal.state = some .committing ∧
        (allowTrial = false ∨ client connection = [] ∨ allowed .failed))) world := by
  apply (ensures_retire noTrial allowTrial).call
  rintro _ retired ⟨journal, profile⟩
  apply (ensures_activate journal profile connection allowTrial moment.now).call
  intro active opening opened
  have state : opening.journal.state = some .committing := by rw [opened.journal, committing]
  split
  · rename_i empty
    exact Ensures.pure (.inr ⟨state, .inr (.inl empty)⟩)
  · apply (opened.ensures_resumeCommit committing).call
    rintro done later (⟨rfl, rfl, unmatched⟩ | ⟨rfl, written, pending⟩ | ⟨rfl, rfl, failed⟩)
    · cases allowTrial with
      | false => exact Ensures.pure (.inr ⟨state, .inl rfl⟩)
      | true =>
        apply (opened.ensures_settleInterrupted committing unmatched).call
        rintro _ later ⟨rfl, written | ⟨rfl, failed⟩⟩
        · exact Ensures.pure (.inl written)
        · exact Ensures.pure (.inr ⟨state, .inr (.inr failed)⟩)
    · cases allowTrial with
      | false => exact Ensures.pure (.inl written)
      | true =>
        apply (ensures_prepareTrial_pending pending).mono
        rintro _ _ rfl
        exact .inl written
    · exact Ensures.pure (.inr ⟨state, .inr (.inr failed)⟩)

end

end Amnezia.Migration
