import Amnezia.Migration.Controller

/-! # What the controller can do to its world -/

namespace Amnezia.Migration
open Lib

variable {Hash : Type}

def Journal.bare (journal : Journal Hash) : Journal Hash :=
  { journal with capabilityConfirmed := false, lastFailure := none, lastRequestAt := none }

def Memory.bare (memory : Memory Hash) : Memory Hash :=
  { memory with
    activationToken := ""
    pendingActivationToken := ""
    originalConnection := []
    journal := memory.journal.bare
    observation := []
    epoch := 0
    startedAt := 0
    pollAfter := 0
    initialRx := 0
    initialTx := 0
    cancelled := false
    allowTrial := true
    connection := {} }

theorem Journal.of_bare {α : Type} {first second : Journal Hash} (same : first.bare = second.bare)
    (view : Journal Hash → α) (kept : ∀ journal : Journal Hash, view journal.bare = view journal) :
    view first = view second := by
  rw [← kept first, same, kept second]

theorem Memory.of_bare {α : Type} {first second : Memory Hash} (same : first.bare = second.bare)
    (view : Memory Hash → α) (kept : ∀ memory : Memory Hash, view memory.bare = view memory) :
    view first = view second := by
  rw [← kept first, same, kept second]

namespace World

def revised (world : World Hash) (journal : Journal Hash) : World Hash :=
  { world with memory := { world.memory with journal := journal } }

def saved (world : World Hash) (journal : Journal Hash) : World Hash :=
  { world.withJournal journal with memory := { world.memory with journal := journal } }

section

variable (world : World Hash)
include world

section

variable (journal : Journal Hash)
include journal

@[simp] theorem memory_withJournal : (world.withJournal journal).memory = world.memory := by
  unfold withJournal
  split
  · rfl
  · rfl

@[simp] theorem profile_withJournal : (world.withJournal journal).profile = world.profile := by
  unfold withJournal
  split
  · rfl
  · rfl

@[simp] theorem history_withJournal : (world.withJournal journal).history = world.history := by
  unfold withJournal
  split
  · rfl
  · rfl

@[simp] theorem memory_saved : (world.saved journal).memory = { world.memory with journal := journal } := rfl

@[simp] theorem profile_saved : (world.saved journal).profile = world.profile :=
  profile_withJournal world journal

@[simp] theorem history_saved : (world.saved journal).history = world.history :=
  history_withJournal world journal

end

theorem saved_of_loaded (loaded : world.memory.loaded = true) (journal : Journal Hash) :
    world.saved journal =
      { world with journal := journal, memory := { world.memory with journal := journal } } := by
  simp [saved, withJournal, loaded]

theorem journal_saved (loaded : world.memory.loaded = true) (journal : Journal Hash) :
    (world.saved journal).journal = journal := by
  rw [world.saved_of_loaded loaded]

theorem saved_of_unloaded (unloaded : world.memory.loaded = false)
    (journal : Journal Hash) : world.saved journal = world.revised journal := by
  simp [saved, withJournal, revised, unloaded]

theorem withJournal_memory :
    world.withJournal world.memory.journal = world.saved world.memory.journal := by
  unfold saved withJournal
  split
  · rfl
  · rfl

end

def taken (world : World Hash) (index : Nat) (pending : Pending) : World Hash :=
  { world with memory := { world.memory with
    requests := world.memory.requests.eraseIdx index
    busy := world.memory.busy && pending.generation ≠ world.memory.callbackGeneration } }

def IsCurrent (world : World Hash) (pending : Pending) : Prop :=
  pending.generation = world.memory.callbackGeneration

end World

structure Permits (Hash : Type) where
  edits : Prop
  commits : Prop
  cleanup : World Hash → Prop

def everything : Permits Hash where
  edits := True
  commits := True
  cleanup _ := True

structure Open (world : World Hash) : Prop where
  noTrial : world.memory.trial = false
  settled : world.memory.journal.state ∉
    [some .ackPending, some .staged, some .committed, some .recoveryRequired, some .secretStoreUnavailable]

structure Acknowledging (world : World Hash) : Prop where
  noTrial : world.memory.trial = false
  pending : world.memory.journal.state = some .ackPending

def Purpose (world : World Hash) : Request → Prop
  | .bootstrap _ _ | .offer => Open world
  | .challenge _ => world.memory.trial = true
  | .renew _ _ | .acknowledge => Acknowledging world

def trialJournal (world : World Hash) : Journal Hash :=
  recoveryJournalForTrial world.memory.journal (generationOf world.memory.journal.offer)

section

variable [DecidableEq Hash] (setting : Setting Hash) (permits : Permits Hash)

def Matched (world : World Hash) : Prop :=
  world.memory.journal.state = some .committing ∧ committedProfileMatches setting world

structure Idle (world : World Hash) : Prop extends Open world where
  unmatched : permits.edits ∨ ¬Matched setting world

def Sends (world : World Hash) : Request → Prop
  | .bootstrap _ _ | .offer => Idle setting permits world
  | .challenge _ => world.memory.trial = true
  | .renew _ _ | .acknowledge => Acknowledging world

def Settles (world : World Hash) : JournalState → Prop
  | .enrolling | .enrolled => Idle setting permits world
  | .staged => world.memory.trial = false ∧ world.memory.journal.state = some .staged
  | .trial | .committing => world.memory.trial = true
  | .ackPending => world.memory.trial = false ∧ world.memory.journal.state = some .committing
  | .committed => Acknowledging world
  | .rolledBack => world.memory.trial = true ∨ world.memory.journal.state = some .trial ∨
      (world.memory.journal.state = some .committing ∧ ¬Matched setting world)
  | .recoveryRequired => world.memory.trial = false
  | .expired | .secretStoreUnavailable => False

structure Begins (world : World Hash) : Prop where
  loaded : world.memory.loaded = true
  noTrial : world.memory.trial = false
  free : world.memory.busy = false
  staged : world.memory.journal.state = some .staged
  source : world.memory.journal.sourceHash = some (setting.digest world.memory.sourceProfile)
  newer : ¬((world.memory.journal.offer.value "generation").toDouble (-1) ≤
      world.memory.journal.highestGeneration.getD 0 ∧
    !sameGenerationRecoveryAllowed setting.toServices world.memory.journal world.memory.journal.offer
      (setting.digest world.memory.sourceProfile))

structure Stages (world : World Hash) (offer : JsonObject) (seconds : Int) : Prop where
  idle : Idle setting permits world
  free : world.memory.busy = false
  signer : world.memory.journal.signingPublicKey ≠ ""
  valid : validateOffer offer
    (offerBinding setting world.memory.journal offer world.memory.sourceProfile) seconds = .ok ()
  target : ¬(generationOf offer = world.memory.journal.stagedGeneration ∧
    some (setting.digest (offer.object "target")) ≠ world.memory.journal.stagedTargetHash)

structure Commits (world : World Hash) (before profile after : JsonObject) (seconds : Int) : Prop where
  trial : world.memory.trial = true
  free : world.memory.busy = false
  stored : world.memory.loaded → world.journal = world.memory.journal
  committing : world.memory.journal.state = some .committing
  candidate : world.memory.journal.candidateHash = some (setting.digest profile)
  made : profile = committedProfile setting world.memory.sourceProfile world.memory.journal.offer
  receipt : validChallengeReceipt setting world.memory.journal world.memory.journal.challengeReceipt true seconds
  found : world.profile = some before
  swapped : swappedProfile setting before world.memory.journal.sourceHash profile = some after

structure Cleans (world : World Hash) (profile : JsonObject) (token : String) (epoch : Nat) : Prop where
  loaded : world.memory.loaded = true
  found : world.profile = some profile
  token : cleanupAuthorizationAllowed token world.memory.activationToken epoch
    world.journal.lastRecoveryCleanupToken
  state : world.journal.state = some .recoveryRequired ∨ world.journal.state = some .rolledBack
  rollback : rollbackRecoveryAllowed (setting.digest profile) world.journal.sourceHash world.journal.candidateHash

inductive Change : World Hash → World Hash → Prop where
  | restart (world : World Hash) : Change world world.restarted
  | quiet (world : World Hash) (memory : Memory Hash) (same : memory.bare = world.memory.bare) :
      Change world { world with memory := memory }
  | save (world : World Hash) : Change world (world.withJournal world.memory.journal)
  | advance (world : World Hash) (busy : Bool) :
      Change world { world with memory := { world.memory with
        callbackGeneration := world.memory.callbackGeneration + 1, busy := busy } }
  | leave (world : World Hash) (free : world.memory.busy = false) :
      Change world { world with memory := { world.memory with trial := false } }
  | settle (world : World Hash) (state : JournalState) (free : world.memory.busy = false)
      (settles : Settles setting permits world state) :
      Change world (world.saved { world.memory.journal with state := some state })
  | dropGrant (world : World Hash) (free : world.memory.busy = false) (idle : Idle setting permits world) :
      Change world (world.revised
        { world.memory.journal with grant := "", nonce := "", challengeReceipt := [] })
  | draw (world : World Hash) (nonce fingerprint : String) (free : world.memory.busy = false)
      (idle : Idle setting permits world) :
      Change world { world.revised { world.memory.journal with
          nonce := nonce
          sourceHash := some (setting.digest world.memory.sourceProfile)
          sourceFingerprint := fingerprint } with
        history := { world.history with drawn := world.history.drawn ++ [nonce] } }
  | drawRenewal (world : World Hash) (nonce : String) :
      Change world { world with
        history := { world.history with drawn := world.history.drawn ++ [nonce] } }
  | enroll (world : World Hash) (grant signer containerId serverPublicKey peerPublicKey : String)
      (expiresAt : Rat) (free : world.memory.busy = false) (idle : Idle setting permits world) (known : signer ≠ "")
      (pinned : world.memory.journal.signingPublicKey = "" ∨ world.memory.journal.signingPublicKey = signer) :
      Change world { world.revised { world.memory.journal with
          grant := grant
          signingPublicKey := signer
          containerId := containerId
          serverPublicKey := serverPublicKey
          peerPublicKey := peerPublicKey
          grantExpiresAt := expiresAt } with
        history := { world.history with grants := world.history.grants ++ [grant] } }
  | stage (world : World Hash) (offer : JsonObject) (seconds : Int)
      (stages : Stages setting permits world offer seconds) :
      Change world (world.saved
        { world.memory.journal.staged setting offer with state := some .staged })
  | expire (world : World Hash) (free : world.memory.busy = false) (noTrial : world.memory.trial = false)
      (staged : world.memory.journal.state = some .staged) :
      Change world (world.saved
        { world.memory.journal.clearTrialEvidence with state := some .expired })
  | rebase (world : World Hash) (free : world.memory.busy = false) (noTrial : world.memory.trial = false)
      (staged : world.memory.journal.state = some .staged) :
      Change world (world.revised
        { world.memory.journal with sourceHash := some (setting.digest world.memory.sourceProfile) })
  | prove (world : World Hash) (envelope : JsonObject) (free : world.memory.busy = false)
      (trial : world.memory.trial = true) :
      Change world (world.revised { world.memory.journal with challengeReceipt := envelope })
  | choose (world : World Hash) (candidate : Hash) (free : world.memory.busy = false)
      (trial : world.memory.trial = true) :
      Change world (world.revised { world.memory.journal with candidateHash := some candidate })
  | commit (world : World Hash) (before profile after : JsonObject) (seconds : Int)
      (commits : Commits setting world before profile after seconds) (permitted : permits.commits) :
      Change world { world with
        profile := some after
        memory := { world.memory with sourceProfile := profile, trial := false }
        history := { world.history with
          commits := world.history.commits ++ [⟨before, after, world.journal, seconds⟩] } }
  | grant (world : World Hash) (grant : String) :
      Change world { world with
        history := { world.history with grants := world.history.grants ++ [grant] } }
  | renew (world : World Hash) (grant : String) (expiresAt : Rat) (free : world.memory.busy = false)
      (acknowledging : Acknowledging world) (known : grant ≠ "") :
      Change world { world.saved { world.memory.journal with
          grant := grant, grantExpiresAt := expiresAt, state := some .ackPending } with
        history := { world.history with grants := world.history.grants ++ [grant] } }
  | spend (world : World Hash) (begins : Begins setting world) :
      Change world { world.saved (trialJournal world) with
        history := { world.history with trials := world.history.trials + 1 } }
  | begin (world : World Hash) (begins : Begins setting world) :
      Change world
        { world.saved (trialJournal world) with
          memory := { world.memory with
            journal := trialJournal world, trial := true, initialRx := -1, initialTx := -1 }
          history := { world.history with
            trials := world.history.trials + 1
            attempts := world.history.attempts ++ [world.memory.journal.attempt setting world.history] } }
  | cleanup (world : World Hash) (profile : JsonObject) (token : String) (epoch : Nat)
      (returned : Bool) (cleans : Cleans setting world profile token epoch) (permitted : permits.cleanup world) :
      Change world { world.saved
          (recoveryJournalAfterCleanup setting.toServices world.journal token epoch) with
        history := world.history.cleaned returned }
  | load (world : World Hash) (free : world.memory.busy = false) (noTrial : world.memory.trial = false) :
      Change world { world with memory := { world.memory with
        loaded := true, journal := world.journal, sourceProfile := world.serverJson } }
  | send (world : World Hash) (request : Request) (free : world.memory.busy = false)
      (loaded : world.memory.loaded = true) (sends : Sends setting permits world request) :
      Change world { world with memory := { world.memory with
        busy := true
        requests := world.memory.requests ++ [⟨world.memory.callbackGeneration, request⟩] } }
  | take (world : World Hash) (index : Nat) (pending : Pending)
      (found : world.memory.requests[index]? = some pending) :
      Change world (world.taken index pending)
  | edit (world : World Hash) (profile : JsonObject) (permitted : permits.edits) :
      Change world { world with profile := some (withoutStorageServerId profile) }
  | remove (world : World Hash) (permitted : permits.edits) :
      Change world { world with profile := none }

def changes : Changes (World Hash) where
  change := Change setting permits
  restart := World.restarted
  restarts := .restart

end

end Amnezia.Migration
