import Amnezia.Updater.Controller

/-! # What the updater can change -/

namespace Amnezia.Updater
open Lib Procedure

variable {Digest : Type} (environment : Environment Digest)

def payloadGeneration (payload : Bytes) : Option Int := do
  let document ← environment.decode payload
  if document.schema = 2 then document.releasePolicy.get?.map PolicyDocument.generation else none

structure Untouched (before after : World Digest) : Prop where
  live : after.live = before.live
  generation : after.settings.generation = before.settings.generation
  payload : after.settings.payload = before.settings.payload
  observed : after.memory.highestObservedPolicyGeneration = before.memory.highestObservedPolicyGeneration
  log : ∃ events, after.log = before.log ++ events ∧ ∀ payload, .accepted payload ∉ events

inductive Change : World Digest → World Digest → Prop where
  | untouched {before after : World Digest} (same : Untouched before after) : Change before after
  | restarted (before : World Digest) : Change before before.restarted
  | reloaded (before : World Digest) : Change before before.reloaded
  | started {before : World Digest} (version : Version) (stopped : before.live = false) :
      Change before { before with
        live := true
        memory :=
          { running := version
            highestObservedPolicyGeneration := max 0 (before.settings.generation.read.getD 0) } }
  | rewroteGeneration {before : World Digest} {generation : Int} (live : before.live = true)
      (same : before.settings.generation.stored = some generation) (outcome : Outcome) :
      Change before (before.writeGeneration generation outcome)
  | rewrotePayload {before : World Digest} {payload : Digest}
      (same : before.settings.payload.stored = some payload) (outcome : Outcome) :
      Change before (before.writePayload payload outcome)
  | advancedGeneration {before : World Digest} {generation : Int} (live : before.live = true)
      (ahead : before.memory.highestObservedPolicyGeneration < generation) (outcome : Outcome) :
      Change before (before.writeGeneration generation outcome)
  | advancedPayload {before : World Digest} {payload : Bytes} {generation : Int} (live : before.live = true)
      (states : payloadGeneration environment payload = some generation)
      (ahead : before.memory.highestObservedPolicyGeneration < generation) (outcome : Outcome) :
      Change before (before.writePayload (environment.sha256 payload) outcome)
  | accepted {before : World Digest} {payload : Bytes} {generation : Int} (live : before.live = true)
      (states : payloadGeneration environment payload = some generation) (positive : 0 < generation)
      (floor : before.memory.highestObservedPolicyGeneration ≤ generation)
      (stored : before.settings.generation.stored = some generation)
      (bound : before.settings.payload.stored = some (environment.sha256 payload)) :
      Change before { before with
        memory := { before.memory with highestObservedPolicyGeneration := generation }
        log := before.log ++ [.accepted payload] }
  | acceptedLegacy {before : World Digest} {payload : Bytes} (live : before.live = true)
      (unbound : before.memory.highestObservedPolicyGeneration ≤ 0)
      (legacy : payloadGeneration environment payload = none) :
      Change before { before with log := before.log ++ [.accepted payload] }

def changes : Changes (World Digest) where
  change := Change environment
  restart := World.restarted
  restarts := .restarted

variable {environment}

theorem Untouched.of_log {before after : World Digest} (live : after.live = before.live)
    (generation : after.settings.generation = before.settings.generation)
    (payload : after.settings.payload = before.settings.payload)
    (observed : after.memory.highestObservedPolicyGeneration = before.memory.highestObservedPolicyGeneration)
    (log : after.log = before.log) : Untouched before after :=
  ⟨live, generation, payload, observed, [], by rw [log, List.append_nil], fun _ => List.not_mem_nil⟩

theorem Change.recorded {before after : World Digest} {event : Event Digest}
    (change : Change environment before after) (listed : event ∈ before.log) : event ∈ after.log := by
  cases change with
  | untouched same =>
    obtain ⟨events, log, -⟩ := same.log
    rw [log]
    exact List.mem_append_left _ listed
  | accepted | acceptedLegacy => exact List.mem_append_left _ listed
  | _ => exact listed

theorem quiet_remember {change : Memory Digest → Memory Digest}
    (observed : ∀ memory, (change memory).highestObservedPolicyGeneration = memory.highestObservedPolicyGeneration) :
    (changes environment).Quiet (remember change) :=
  .update fun world => .single (.untouched (.of_log rfl rfl rfl (observed world.memory) rfl))

theorem quiet_report (change : Memory Digest → Memory Digest) (event : World Digest → Event Digest)
    (observed : ∀ memory, (change memory).highestObservedPolicyGeneration = memory.highestObservedPolicyGeneration)
    (other : ∀ world payload, event world ≠ .accepted payload) :
    (changes environment).Quiet (update fun world : World Digest =>
      { world with memory := change world.memory, log := world.log ++ [event world] } : Action Digest Unit) := by
  refine .update fun world =>
    .single (.untouched ⟨rfl, rfl, rfl, observed world.memory, [event world], rfl, ?_⟩)
  intro payload listed
  exact other world payload (List.mem_singleton.mp listed).symm

theorem quiet_createUuid : (changes environment).Quiet createUuid :=
  fun _ _ => ⟨fun _ stopped => absurd stopped List.not_mem_nil,
    .single (.untouched (.of_log rfl rfl rfl rfl rfl)), trivial⟩

theorem quiet_setPendingHealthReceipt (receipt : Receipt Digest) {meaning : List (Event Digest)}
    (silent : ∀ payload, .accepted payload ∉ meaning) :
    (changes environment).Quiet (setPendingHealthReceipt receipt meaning) := by
  refine .perform fun world outcome => .single (.untouched ?_)
  cases outcome with
  | failed => exact .of_log rfl rfl rfl rfl rfl
  | done =>
    refine ⟨rfl, rfl, rfl, rfl, .stored receipt :: meaning, rfl, fun payload listed => ?_⟩
    rcases List.mem_cons.mp listed with impossible | meant
    · exact nomatch impossible
    · exact silent payload meant

theorem quiet_clearPendingHealthReceipt : (changes environment).Quiet clearPendingHealthReceipt := by
  refine .perform fun world outcome => .single (.untouched ?_)
  cases outcome with
  | failed => exact .of_log rfl rfl rfl rfl rfl
  | done => exact ⟨rfl, rfl, rfl, rfl, [.cleared], rfl, by simp⟩

variable {now : Int} {receipt : Receipt Digest} {platform : Platform} {attempt : Attempt}

theorem quiet_enqueue : (changes environment).Quiet (enqueue attempt) :=
  quiet_report (fun memory => { memory with queue := memory.queue ++ [attempt] }) (fun _ =>
    .queued attempt)
    (fun _ => rfl) fun _ _ => nofun

theorem quiet_recoverAutomaticRollbackLease :
    (changes environment).Quiet (recoverAutomaticRollbackLease now receipt) := by
  refine .reads fun _ => .ite (.pure _) ?_
  split
  · exact quiet_setPendingHealthReceipt _ (by simp)
  · have stores : (changes environment).Quiet (storeRecovery now receipt) :=
      .bind quiet_createUuid fun _ => .bind (quiet_setPendingHealthReceipt _ (by simp)) fun _ => .pure _
    exact .bind stores fun _ => .reads fun _ => .ite quiet_enqueue (.pure _)
  · exact .pure _

theorem quiet_finishPendingHealthReceipt {clear : Bool} :
    (changes environment).Quiet (finishPendingHealthReceipt now receipt clear) :=
  .ite quiet_clearPendingHealthReceipt (quiet_setPendingHealthReceipt _ (by simp))

theorem quiet_clearInstallSelection : (changes environment).Quiet clearInstallSelection :=
  quiet_remember fun _ => rfl

theorem quiet_recordRollbackHandoffFailure {permanent : Bool} :
    (changes environment).Quiet (recordRollbackHandoffFailure now attempt permanent) := by
  refine .optional (.read _) (.pure _) fun receipt => ?_
  refine .ite (.pure _) (quiet_setPendingHealthReceipt _ fun payload => ?_)
  split <;> simp

theorem quiet_recordIntentFailure : (changes environment).Quiet (recordIntentFailure now) := by
  refine .reads fun memory => ?_
  split
  · exact quiet_recordRollbackHandoffFailure
  · exact .pure _

theorem quiet_running : (changes environment).Quiet (report (.running attempt)) :=
  quiet_report id _ (fun _ => rfl) fun _ _ => nofun

theorem quiet_checkForUpdates : (changes environment).Quiet checkForUpdates :=
  .reads fun _ => .ite (.pure _) (quiet_remember fun _ => rfl)

theorem quiet_finishUpdateCheck : (changes environment).Quiet finishUpdateCheck :=
  quiet_remember fun _ => rfl

variable [DecidableEq Digest]

theorem quiet_receiptMatchesAcceptedPolicy : (changes environment).Quiet (receiptMatchesAcceptedPolicy receipt) :=
  .reads fun _ => .reads fun _ => .pure _

theorem quiet_claimRollbackIntent (origin : Origin) :
    (changes environment).Quiet (claimRollbackIntent environment now origin) := by
  refine .reads fun _ => .optional (.read _) (.pure _) fun receipt => ?_
  have stores : (changes environment).Quiet (storeClaim now origin receipt) :=
    .bind quiet_createUuid fun _ => .bind quiet_createUuid fun _ =>
      .bind (quiet_setPendingHealthReceipt _ (by simp)) fun _ => .pure _
  refine .bind quiet_receiptMatchesAcceptedPolicy fun _ => .ite (.pure _) (.bind stores fun _ => ?_)
  exact .reads fun _ => .ite (.pure _) (.pure _)

theorem quiet_scheduleAutomaticRollbackIfEligible :
    (changes environment).Quiet (scheduleAutomaticRollbackIfEligible environment now) := by
  have claims : (changes environment).Quiet (claimAutomatically environment now) :=
    .optional (quiet_claimRollbackIntent .automatic) (.pure _) fun _ => quiet_enqueue
  refine .reads fun _ => .optional (.read _) (.pure _) fun receipt => ?_
  refine .ite (.pure _) (.ite (.ite quiet_recoverAutomaticRollbackLease (.pure _)) ?_)
  refine .ite (.pure _) (.ite (.pure _) (.ite (.pure _) ?_))
  exact .bind quiet_receiptMatchesAcceptedPolicy fun _ => .ite claims (.pure _)

theorem quiet_automaticRollbackRetry {receiptId : Nat} {failureCount retryAt : Int} :
    (changes environment).Quiet (automaticRollbackRetry environment now receiptId failureCount retryAt) :=
  .optional (.read _) (.pure _) fun _ => .ite (.pure _) quiet_scheduleAutomaticRollbackIfEligible

theorem quiet_failRunningVersion : (changes environment).Quiet (failRunningVersion environment now receipt) :=
  .reads fun _ => .bind quiet_finishPendingHealthReceipt fun _ =>
    .ite quiet_scheduleAutomaticRollbackIfEligible (.pure _)

theorem quiet_refreshFailed : (changes environment).Quiet (refreshFailed environment now receipt) := by
  have confirmation : (changes environment).Quiet (refreshConfirmation now receipt) :=
    .reads fun _ => .ite (.pure _) (.ite quiet_finishPendingHealthReceipt
      (quiet_setPendingHealthReceipt _ (by simp)))
  have lease : (changes environment).Quiet (refreshLease now receipt) :=
    .ite quiet_recoverAutomaticRollbackLease (.ite (.pure _) (quiet_setPendingHealthReceipt _ (by simp)))
  exact .reads fun _ => .ite confirmation (.ite lease (.ite quiet_finishPendingHealthReceipt
    quiet_scheduleAutomaticRollbackIfEligible))

theorem quiet_refreshPendingUpdateHealth :
    (changes environment).Quiet (refreshPendingUpdateHealth environment now) := by
  refine .optional (.read _) (.pure _) fun receipt => ?_
  exact .ite quiet_clearPendingHealthReceipt (.ite quiet_refreshFailed (.ite (.pure _) quiet_failRunningVersion))

theorem quiet_markRunningVersionUnhealthy :
    (changes environment).Quiet (markRunningVersionUnhealthy environment now) :=
  .reads fun _ => .optional (.read _) (.pure _) fun _ => .ite (.pure _) quiet_failRunningVersion

theorem quiet_confirmRunningVersionHealthy :
    (changes environment).Quiet (confirmRunningVersionHealthy environment now) := by
  refine .reads fun _ => .optional (.read _) (.pure _) fun receipt => ?_
  refine .ite quiet_refreshPendingUpdateHealth (.ite quiet_finishPendingHealthReceipt (.ite (.pure _) ?_))
  exact .ite quiet_finishPendingHealthReceipt (.ite (.pure _) quiet_markRunningVersionUnhealthy)

theorem quiet_recordInstallerHandoffReceipt :
    (changes environment).Quiet (recordInstallerHandoffReceipt now) := by
  have supersedes : (changes environment).Quiet (supersede now) :=
    .reads fun _ => .optional (.read _) (.pure _) fun _ =>
      .ite quiet_finishPendingHealthReceipt (.pure _)
  have stores (policy : ReleasePolicy Digest) (sha256 : Digest) :
      (changes environment).Quiet (storeHandoffReceipt now policy sha256) :=
    .reads fun _ => .bind quiet_createUuid fun _ =>
      .bind (quiet_setPendingHealthReceipt _ (by simp)) fun _ => .pure _
  have binds (policy : ReleasePolicy Digest) : (changes environment).Quiet (bindHandoffReceipt now policy) :=
    .reads fun _ => .optional (.read _) (.pure _) fun sha256 =>
      .ite (.pure _) (.bind (stores policy sha256) fun _ => .reads fun _ => .pure _)
  refine .reads fun memory => ?_
  cases memory.selectedReleasePolicy with
  | none => exact .pure _
  | some policy => exact .ite (.pure _) (.bind supersedes fun _ => binds policy)

theorem quiet_recordRollbackHandoff : (changes environment).Quiet (recordRollbackHandoff environment now) := by
  have stores (attempt : Attempt) (receipt : Receipt Digest) :
      (changes environment).Quiet (storeRollbackHandoff environment now attempt receipt) :=
    .bind (quiet_setPendingHealthReceipt _ (by simp)) fun _ => .reads fun _ =>
      .bind (.ite quiet_refreshPendingUpdateHealth (.pure _)) fun _ => .pure _
  refine .reads fun memory => .reads fun receipt => ?_
  split
  · split
    · exact .pure _
    · exact .bind quiet_receiptMatchesAcceptedPolicy fun _ => .ite (.pure _) (stores _ _)
  · exact .pure _

theorem quiet_prepareSelfHostedInstallerHandoff :
    (changes environment).Quiet (prepareSelfHostedInstallerHandoff environment now) :=
  .reads fun _ => .ite quiet_recordRollbackHandoff (.ite (.pure _) quiet_recordInstallerHandoffReceipt)

theorem quiet_finishSelfHostedInstallerAttempt {prepared started : Bool} :
    (changes environment).Quiet (finishSelfHostedInstallerAttempt environment now prepared started) := by
  have cancels : (changes environment).Quiet (cancelPreparedSelfHostedInstallerHandoff now) :=
    .reads fun _ => .ite quiet_recordIntentFailure (.ite (.pure _)
      (.reads fun _ => .ite quiet_clearPendingHealthReceipt (.pure _)))
  refine .reads fun _ => .bind (.ite (.ite (.pure _) (.ite ?_ ?_)) ?_) fun _ =>
    quiet_remember fun _ => rfl
  · exact .bind quiet_recordRollbackHandoff fun _ => .pure _
  · exact .bind quiet_recordInstallerHandoffReceipt fun _ => .pure _
  · exact .ite cancels (.ite quiet_recordIntentFailure (.pure _))

theorem quiet_downloadFinished {downloaded : Downloaded} :
    (changes environment).Quiet (downloadFinished environment now downloaded) := by
  have launches : (changes environment).Quiet (reportLaunch now downloaded.content) :=
    quiet_report id _ (fun _ => rfl) fun _ _ => nofun
  refine .reads fun _ => .ite (.pure _) (.ite ?_ quiet_finishSelfHostedInstallerAttempt)
  refine .reads fun _ => .ite quiet_finishSelfHostedInstallerAttempt ?_
  exact .bind quiet_prepareSelfHostedInstallerHandoff fun _ =>
    .ite (.bind launches fun _ =>
      quiet_finishSelfHostedInstallerAttempt) quiet_finishSelfHostedInstallerAttempt

theorem quiet_installIntentMatchesSelection :
    (changes environment).Quiet (installIntentMatchesSelection : Action Digest Bool) := by
  refine .reads fun memory => ?_
  cases memory.installIntent with
  | none => exact .pure _
  | some intent =>
    refine .ite (.pure _) ?_
    cases intent.kind with
    | update id =>
      exact .reads fun _ => .ite (.pure _) (.reads fun _ => .reads fun _ => .pure _)
    | rollback attempt =>
      exact .reads fun _ => .optional (.read _) (.pure _) fun _ =>
        .bind quiet_receiptMatchesAcceptedPolicy fun _ => .pure _

theorem quiet_runInstaller : (changes environment).Quiet (runInstaller environment now platform) := by
  have begins (url : Option String) : (changes environment).Quiet (beginDownload url) :=
    quiet_report (fun memory => { memory with download := url }) _ (fun _ => rfl) fun _ _ => nofun
  have downloads : (changes environment).Quiet (startArtifactDownload environment now platform.staged) :=
    .reads fun _ => .ite (.bind (begins _) fun _ => .pure _)
      (.bind (begins _) fun _ => .bind quiet_finishSelfHostedInstallerAttempt fun _ => .pure _)
  have opens : (changes environment).Quiet (openArtifactExternally environment now platform.opened) :=
    .bind quiet_prepareSelfHostedInstallerHandoff fun _ => .reads fun _ =>
      .bind quiet_finishSelfHostedInstallerAttempt fun _ => .pure _
  refine .reads fun _ => .ite (.pure _) (.bind quiet_installIntentMatchesSelection fun _ => ?_)
  refine .ite (.bind quiet_clearInstallSelection fun _ => .pure _) (.bind ?_ fun _ =>
    .ite opens downloads)
  exact quiet_remember fun _ => rfl

theorem quiet_runPendingRollbackWithIntent :
    (changes environment).Quiet (runPendingRollbackWithIntent environment now platform attempt) := by
  have installs (receipt : Receipt Digest) (artifact : Artifact Digest) :
      (changes environment).Quiet (installRollback environment now platform receipt artifact attempt) := by
    refine .bind (quiet_remember fun _ => rfl) fun _ => .bind quiet_runInstaller fun _ =>
      .ite (.pure _) ?_
    exact .bind quiet_recordRollbackHandoffFailure fun _ => .reads fun _ =>
      .ite quiet_clearInstallSelection (.pure _)
  refine .reads fun _ => .optional (.read _) (.pure _) fun receipt => ?_
  refine .ite (.pure _) (.ite quiet_refreshPendingUpdateHealth ?_)
  refine .bind quiet_receiptMatchesAcceptedPolicy fun _ => ?_
  cases rollbackArtifactFromReceipt environment receipt with
  | none => exact quiet_recordRollbackHandoffFailure
  | some artifact => exact .ite quiet_recordRollbackHandoffFailure (installs receipt artifact)

theorem quiet_runPendingRollback : (changes environment).Quiet (runPendingRollback environment now platform) := by
  refine .reads fun _ => .optional (.read _) (.pure _) fun receipt => ?_
  refine .bind quiet_receiptMatchesAcceptedPolicy fun _ => .ite (.pure _) ?_
  exact .optional (quiet_claimRollbackIntent .manual) (.pure _) fun _ =>
    .bind quiet_running fun _ => quiet_runPendingRollbackWithIntent

theorem quiet_runQueued : (changes environment).Quiet (runQueued environment now platform attempt) := by
  have dequeues : (changes environment).Quiet (dequeue attempt) :=
    quiet_report (fun memory => { memory with queue := memory.queue.erase attempt }) _ (fun _ =>
      rfl) fun _ _ => nofun
  exact .reads fun _ => .ite (.bind dequeues fun _ => quiet_runPendingRollbackWithIntent) (.pure _)

end Amnezia.Updater
