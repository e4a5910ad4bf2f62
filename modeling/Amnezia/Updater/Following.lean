import Amnezia.Updater.Changes

/-! # Every handler follows the changes -/

namespace Amnezia.Updater
open Lib Procedure Changes

variable {Digest : Type} [DecidableEq Digest] {environment : Environment Digest}
variable {now : Int} {world before after : World Digest} {payload : Bytes} {generation : Int}
variable {manifestUrl : String} {version running : Version} {document : Document Digest}

omit [DecidableEq Digest] in
theorem stored_of_read {α : Type} {setting : Setting α} {content : α} (found : setting.read = some content) :
    setting.stored = some content := by
  unfold Setting.read at found
  split at found
  · exact absurd found nofun
  · exact found

theorem setLastAcceptedPolicy_follows (live : world.live = true)
    (states : payloadGeneration environment payload = some generation)
    (ahead : world.memory.highestObservedPolicyGeneration < generation) :
    (changes environment).Follows (setLastAcceptedPolicy generation (environment.sha256 payload))
      (fun _ later => later.memory = world.memory ∧ later.live = world.live) world := by
  apply Follows.read_bind
  apply Follows.read_bind
  refine .otherwise ⟨rfl, rfl⟩ fun _ => ?_
  have first : (changes environment).Follows (writeGeneration generation)
      (fun _ later => ∃ outcome, later = world.writeGeneration generation outcome) world :=
    .perform fun outcome => ⟨.single (Change.advancedGeneration live ahead outcome), outcome, rfl⟩
  refine first.bind ?_
  rintro _ later - ⟨outcome, rfl⟩
  have alive : (world.writeGeneration generation outcome).live = true := live
  exact .perform fun outcome => ⟨.single (Change.advancedPayload alive states ahead outcome), rfl, rfl⟩

omit [DecidableEq Digest] in
theorem stored_of_accepted (positive : 0 < generation)
    (same : max 0 (world.settings.generation.read.getD 0) = generation) :
    world.settings.generation.stored = some generation := by
  apply stored_of_read
  cases found : world.settings.generation.read with
  | none =>
    rw [found, Option.getD_none] at same
    omega
  | some stored =>
    rw [found, Option.getD_some] at same
    have : stored = generation := by omega
    rw [this]

def Accepts (payload : Bytes) (disposition : GenerationBindingDisposition) (later : World Digest) : Prop :=
  disposition = .acceptExisting ∨ disposition = .acceptAdvance → .accepted payload ∈ later.log

def Examined (payload : Bytes) (examined : Except ManifestProcessResult (Selection Digest))
    (later : World Digest) : Prop :=
  examined ≠ .error .invalid ∧ examined ≠ .error .stale → .accepted payload ∈ later.log

omit [DecidableEq Digest] in
theorem Accepts.invalidCandidate : Accepts payload .invalidCandidate world :=
  fun accepted => accepted.elim nofun nofun

omit [DecidableEq Digest] in
theorem Examined.invalid : Examined payload (.error .invalid) world :=
  fun valid => absurd rfl valid.1

omit [DecidableEq Digest] in
theorem Examined.stale : Examined payload (.error .stale) world :=
  fun valid => absurd rfl valid.2

theorem advancePolicyGeneration_follows (live : world.live = true)
    (states : payloadGeneration environment payload = some generation) (positive : 0 < generation)
    (ahead : world.memory.highestObservedPolicyGeneration < generation) :
    (changes environment).Follows (advancePolicyGeneration environment payload generation)
      (Accepts payload) world := by
  refine (setLastAcceptedPolicy_follows live states ahead).bind ?_
  rintro _ later - ⟨memory, alive⟩
  apply Follows.read_bind
  apply Follows.read_bind
  refine .whenever Accepts.invalidCandidate fun persisted => ?_
  simp only [Bool.and_eq_true, decide_eq_true_eq] at persisted
  have stored := stored_of_accepted positive persisted.1
  have floor : later.memory.highestObservedPolicyGeneration ≤ generation := by
    rw [memory]
    omega
  apply Follows.update_bind (.single (Change.accepted (alive.trans live) states positive floor stored
    (stored_of_read persisted.2)))
  exact .pure fun _ => List.mem_append_right _ List.mem_cons_self

variable {highest persisted : Int} {stored : Option Digest}

theorem existing_of_binding {digest : Digest}
    (existing : evaluateGenerationBinding generation digest highest persisted stored = .acceptExisting) :
    0 < generation ∧ max highest persisted = generation ∧ persisted = generation ∧ stored = some digest := by
  unfold evaluateGenerationBinding at existing
  dsimp only at existing
  split at existing
  · exact absurd existing nofun
  · split at existing
    · exact absurd existing nofun
    · split at existing
      · exact absurd existing nofun
      · split at existing
        · exact absurd existing nofun
        · split at existing
          · exact absurd existing nofun
          · split at existing
            · exact absurd existing nofun
            · next same equal =>
              simp only [ne_eq, not_not] at same equal
              subst equal
              refine ⟨?_, ?_, same, rfl⟩ <;> omega

theorem advance_of_binding {digest : Digest}
    (advance : evaluateGenerationBinding generation digest highest persisted stored = .acceptAdvance) :
    0 < generation ∧ highest < generation := by
  unfold evaluateGenerationBinding at advance
  dsimp only at advance
  split at advance
  · exact absurd advance nofun
  · split at advance
    · exact absurd advance nofun
    · split at advance
      · constructor <;> omega
      · split at advance
        · exact absurd advance nofun
        · split at advance
          · exact absurd advance nofun
          · split at advance <;> exact absurd advance nofun

theorem acceptPolicyGeneration_follows (live : world.live = true)
    (states : payloadGeneration environment payload = some generation) :
    (changes environment).Follows (acceptPolicyGeneration environment payload generation)
      (Accepts payload) world := by
  apply Follows.read_bind
  apply Follows.read_bind
  apply Follows.read_bind
  split
  · next existing =>
    obtain ⟨positive, floor, same, digest⟩ := existing_of_binding existing
    have stored := stored_of_accepted positive same
    have above : world.memory.highestObservedPolicyGeneration ≤ generation :=
      floor ▸ Int.le_max_left _ _
    rw [floor]
    apply Follows.update_bind (.single (Change.accepted live states positive above stored
      (stored_of_read digest)))
    exact .pure fun _ => List.mem_append_right _ List.mem_cons_self
  · next advance =>
    obtain ⟨positive, ahead⟩ := advance_of_binding advance
    exact advancePolicyGeneration_follows live states positive ahead
  · next existing advance =>
    refine .pure fun accepted => ?_
    rcases accepted with same | same
    · exact absurd same existing
    · exact absurd same advance

omit [DecidableEq Digest] in
theorem generation_of_evaluated {described : PolicyDocument Digest} {policy : ReleasePolicy Digest} {floor : Int}
    {result : ReleasePolicyResult}
    (evaluated : evaluateReleasePolicy environment manifestUrl described version running floor now =
      (result, some policy)) :
    policy.generation = described.generation := by
  unfold evaluateReleasePolicy at evaluated
  split at evaluated
  · cases evaluated
  · split at evaluated
    · cases evaluated
    · dsimp only at evaluated
      split_ifs at evaluated <;> exact (Option.some.inj (Prod.mk.inj evaluated).2) ▸ rfl

theorem examinePolicy_follows {result : ReleasePolicyResult} {policy : ReleasePolicy Digest}
    (live : world.live = true) (states : payloadGeneration environment payload = some policy.generation) :
    (changes environment).Follows
      (examinePolicy environment manifestUrl running payload document version result policy)
      (Examined payload) world := by
  refine (acceptPolicyGeneration_follows live states).bind fun disposition later _ accepts => ?_
  cases disposition with
  | acceptExisting =>
    have recorded := accepts (.inl rfl)
    exact .otherwise (fun _ => recorded) fun _ => .pure fun _ => recorded
  | acceptAdvance =>
    have recorded := accepts (.inr rfl)
    exact .otherwise (fun _ => recorded) fun _ => .pure fun _ => recorded
  | invalidCandidate => exact .pure Examined.invalid
  | stale | missingPayloadBinding | conflictingPayload => exact .pure Examined.stale

theorem examineDocument_follows (live : world.live = true) (decoded : environment.decode payload = some document) :
    (changes environment).Follows (examineDocument environment now manifestUrl payload document)
      (Examined payload) world := by
  apply Follows.read_bind
  apply Follows.read_bind
  cases document.version with
  | none => exact .pure Examined.invalid
  | some version =>
    dsimp only
    split
    · next schema =>
      refine .otherwise Examined.invalid fun allowed => ?_
      simp only [Bool.or_eq_true, not_or, decide_eq_true_eq, Int.not_lt] at allowed
      have legacy : payloadGeneration environment payload = none := by
        simp [payloadGeneration, decoded, schema]
      have unbound : world.memory.highestObservedPolicyGeneration ≤ 0 :=
        Int.le_trans (Int.le_max_left _ _) allowed.1
      apply Follows.update_bind (.single (Change.acceptedLegacy live unbound legacy))
      exact .pure fun _ => List.mem_append_right _ List.mem_cons_self
    · refine .whenever Examined.invalid fun schema => ?_
      cases listed : document.releasePolicy with
      | absent => exact .pure Examined.invalid
      | malformed => exact .pure Examined.invalid
      | value described =>
        dsimp only [Entry.get?]
        split
        · exact .pure Examined.invalid
        · exact .pure Examined.invalid
        · exact .pure Examined.stale
        · next result policy invalid stale evaluated =>
          have states : payloadGeneration environment payload = some policy.generation := by
            simp [payloadGeneration, decoded, schema, listed, Entry.get?, generation_of_evaluated evaluated]
          exact examinePolicy_follows live states

theorem examineManifest_follows {payload : Option Bytes} (live : world.live = true) :
    (changes environment).Follows (examineManifest environment now manifestUrl payload)
      (fun examined later => ∀ bytes ∈ payload, Examined bytes examined later) world := by
  cases payload with
  | none => exact .pure nofun
  | some payload =>
    have reported : (changes environment).Follows (report (.verified payload)) (fun _ later => later.live = true)
        world :=
      .update (.single (.untouched ⟨rfl, rfl, rfl, rfl, [.verified payload], rfl, by simp⟩)) live
    refine reported.bind fun _ later _ alive => ?_
    cases decoded : environment.decode payload with
    | none => exact .pure fun _ _ => Examined.invalid
    | some document =>
      refine (examineDocument_follows alive decoded).mono fun examined later _ recorded bytes same => ?_
      rwa [← Option.some.inj same]

omit [DecidableEq Digest] in
theorem quiet_selectUpdate (selection : Selection Digest) : (changes environment).Quiet (selectUpdate selection) :=
  .bind (quiet_remember fun _ => rfl) fun _ => .bind quiet_createUuid fun _ => .bind (.read _) fun _ =>
    quiet_remember fun _ => rfl

-- The payload of a manifest that gives no update or an update is recorded as accepted. Some others are too: a
-- policy is accepted before the artifact is looked at.
theorem processSelfHostedManifest_follows {payload : Option Bytes} (live : world.live = true) :
    (changes environment).Follows (processSelfHostedManifest environment now manifestUrl payload)
      (fun result later => result = .noUpdate ∨ result = .updateAvailable →
        ∀ bytes ∈ payload, .accepted bytes ∈ later.log) world := by
  refine (examineManifest_follows live).bind fun examined later _ recorded => ?_
  cases examined with
  | error result =>
    refine .pure fun accepted bytes same => recorded bytes same ⟨?_, ?_⟩
    · rintro ⟨⟩
      exact accepted.elim nofun nofun
    · rintro ⟨⟩
      exact accepted.elim nofun nofun
  | ok selection =>
    refine (quiet_selectUpdate selection later).bind fun _ last reached _ => .pure fun _ bytes same => ?_
    refine reached.keeps (I := fun world => .accepted bytes ∈ world.log) ?_ (recorded bytes same ⟨nofun, nofun⟩)
    intro first second listed change
    exact change.recorded listed

theorem manifestReply_follows {payload : Option Bytes} {another : Bool} (live : world.live = true) :
    (changes environment).Follows (manifestReply environment now manifestUrl payload another)
      (fun _ _ => True) world := by
  apply Follows.read_bind
  refine .otherwise trivial fun _ => ?_
  refine (processSelfHostedManifest_follows live).bind fun result later _ _ => ?_
  exact Quiet.ite (.pure _) quiet_finishUpdateCheck later

theorem rewriting_follows {payload : Digest} (live : world.live = true)
    (first : world.settings.generation.stored = some generation)
    (second : world.settings.payload.stored = some payload) :
    (changes environment).Follows (setLastAcceptedPolicy generation payload) (fun _ _ => True) world := by
  apply Follows.read_bind
  apply Follows.read_bind
  refine .otherwise trivial fun _ => ?_
  have write : (changes environment).Follows (writeGeneration generation)
      (fun _ later => ∃ outcome, later = world.writeGeneration generation outcome) world :=
    .perform fun outcome => ⟨.single (Change.rewroteGeneration live first outcome), outcome, rfl⟩
  refine write.bind ?_
  rintro _ later - ⟨outcome, rfl⟩
  have kept : (world.writeGeneration generation outcome).settings.payload.stored = some payload := second
  exact .perform fun outcome => ⟨.single (Change.rewrotePayload kept outcome), trivial⟩

theorem clearSettings_follows (live : world.live = true) :
    (changes environment).Follows clearSettings (fun _ _ => True) world := by
  apply Follows.read_bind
  apply Follows.read_bind
  apply Follows.read_bind
  have cleared : (changes environment).Follows clearStoredSettings
      (fun _ later => later = world.reloaded) world :=
    .perform fun _ => ⟨.single (Change.reloaded world), rfl⟩
  refine cleared.bind ?_
  rintro _ later - rfl
  refine @Follows.bind _ _ _ _ _ _ _ _ _ (fun _ _ => True) ?restored fun _ later _ _ => ?_
  case restored =>
    refine .whenever trivial fun positive => ?_
    have first : world.settings.generation.stored = some (max 0 (world.settings.generation.read.getD 0)) :=
      stored_of_accepted positive rfl
    cases found : world.settings.payload.read with
    | none =>
      apply Follows.read_bind
      refine .otherwise trivial fun _ => ?_
      have alive : world.reloaded.live = true := live
      exact .perform fun outcome => ⟨.single (Change.rewroteGeneration alive first outcome), trivial⟩
    | some payload =>
      have second : world.settings.payload.stored = some payload := stored_of_read found
      exact rewriting_follows live first second
  cases world.settings.receipt.read with
  | none => exact .pure trivial
  | some receipt => exact quiet_setPendingHealthReceipt receipt (by simp) later

theorem handle_follows {request : Request} (live : world.live = true) :
    (changes environment).Follows (handle environment now request) (fun _ _ => True) world := by
  cases request with
  | start version => exact .pure trivial
  | quit => exact .update (.single (Change.restarted world)) trivial
  | check => exact quiet_checkForUpdates world
  | reply manifestUrl payload another => exact manifestReply_follows live
  | checkEnds => exact quiet_finishUpdateCheck world
  | install platform => exact Quiet.bind quiet_runInstaller (fun _ => .pure _) world
  | rollback platform => exact quiet_runPendingRollback world
  | queued platform attempt => exact quiet_runQueued world
  | downloaded downloaded => exact quiet_downloadFinished world
  | refresh => exact quiet_refreshPendingUpdateHealth world
  | retry receiptId failureCount retryAt => exact quiet_automaticRollbackRetry world
  | confirm => exact quiet_confirmRunningVersionHealthy world
  | fail => exact quiet_markRunningVersionUnhealthy world
  | clear => exact clearSettings_follows live

theorem enter_follows {label : Label} :
    (changes environment).Follows ((program environment).enter label) (fun _ _ => True) world := by
  have clock : Untouched world { world with clock := label.now } := .of_log rfl rfl rfl rfl rfl
  apply Follows.update_bind (.single (Change.untouched clock))
  apply Follows.read_bind
  split
  · next live => exact handle_follows live
  · next stopped =>
    split
    · apply Follows.update_bind (.single (Change.started _ (Bool.eq_false_iff.mpr stopped)))
      exact quiet_refreshPendingUpdateHealth _
    · exact .pure trivial

end Amnezia.Updater
