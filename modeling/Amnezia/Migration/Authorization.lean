import Amnezia.Migration.Connection
import Amnezia.Migration.Credentials

/-! # What becomes of an unused authorization -/

namespace Amnezia.Migration
open Lib Procedure

variable {Hash : Type}

def Confirms (world : World Hash) (index : Nat) (receipt : Receipt) : Prop :=
  ∃ teardown, world.memory.connection.teardowns[index]? = some teardown ∧
    teardown.generation = world.memory.connection.reconnectGeneration ∧
    teardown.answeredBy receipt = true ∧ teardown.confirmedBy receipt = true

def Handler.Permitted (permits : Permits Hash) (world : World Hash) : Handler → Prop
  | .teardownReceipt index receipt _ => Confirms world index receipt → ∀ connection,
      permits.cleanup { world with memory := { world.memory with connection := connection } }
  | _ => True

theorem Handler.permitted_everything (handler : Handler) (world : World Hash) :
    handler.Permitted everything world := by
  cases handler with
  | teardownReceipt => exact fun _ _ => trivial
  | contextChanged | openConnection | restoreConnection | closeConnection | connectionError | deadline
  | observe | teardownTimeout | reply | requestFailed | edit | remove | restart => trivial

structure Authorization.ValidFor (authorization : Authorization Hash) (setting : Setting Hash)
    (journal : Journal Hash) : Prop where
  whole : isGeneration authorization.generation = true
  highest : journal.highestGeneration = some authorization.generation
  signer : journal.signingPublicKey = authorization.signingPublicKey
  known : authorization.signingPublicKey ≠ ""
  target : journal.stagedGeneration = some authorization.generation →
    journal.stagedTargetHash = some authorization.targetHash
  present : ∃ target : JsonObject, target ≠ [] ∧ authorization.targetHash = setting.digest target

def Vouched (setting : Setting Hash) (world : World Hash) : Prop :=
  ∀ authorization, world.journal.recoveryAuthorization = some authorization →
    authorization.ValidFor setting world.journal

structure Authorization.Same (first second : Authorization Hash) : Prop where
  generation : second.generation = first.generation
  signer : second.signingPublicKey = first.signingPublicKey
  target : second.targetHash = first.targetHash

def Holds (authorization : Authorization Hash) (journal : Journal Hash) : Prop :=
  ∃ held, journal.recoveryAuthorization = some held ∧ authorization.Same held

def Renewable (journal : Journal Hash) : Prop :=
  journal.recoveryAuthorization ≠ none →
    journal.nonce ≠ "" ∧ journal.grant ≠ "" ∧ generationOf journal.offer = journal.highestGeneration

def sparing : Permits Hash where
  edits := True
  commits := True
  cleanup world := Renewable world.journal

theorem generation_pos {generation : Rat} (whole : isGeneration generation = true) : 0 < generation := by
  simp only [isGeneration, Bool.and_eq_true, decide_eq_true_eq] at whole
  exact whole.1.1

theorem number_of_generationOf {offer : JsonObject} {generation : Rat}
    (found : generationOf offer = some generation) : offer.value "generation" = .number generation := by
  unfold generationOf at found
  split at found
  · rename_i value number
    rw [number, Option.some.inj found]
  · cases found

variable {authorization : Authorization Hash}

theorem Authorization.ValidFor.pins {setting : Setting Hash}
    {journal next : Journal Hash} (valid : authorization.ValidFor setting journal) (pins : Pins next journal) :
    authorization.ValidFor setting next :=
  { valid with
    highest := pins.highest.trans valid.highest
    signer := (pins.signer (valid.signer ▸ valid.known)).trans valid.signer
    target := by
      rw [pins.generation, pins.target]
      exact valid.target }

def Handler.Spares (world : World Hash) : Handler → Prop
  | .teardownReceipt index receipt _ => Confirms world index receipt → Renewable world.journal
  | _ => True

variable {handler : Handler} {before after : World Hash} {handlers : List Handler}

theorem Handler.Spares.permitted {world : World Hash} (spares : handler.Spares world) :
    handler.Permitted sparing world := by
  cases handler with
  | teardownReceipt => exact fun confirms _ => spares confirms
  | contextChanged | openConnection | restoreConnection | closeConnection | connectionError | deadline
  | observe | teardownTimeout | reply | requestFailed | edit | remove | restart => trivial

variable [DecidableEq Hash] {setting : Setting Hash} {permits : Permits Hash} {world : World Hash}

theorem follows_beginActivation (token : String) :
    Follows setting permits (beginActivation token) (fun _ _ => True) world := by
  apply Changes.Follows.update
  · exact (Reaches.single (.advance world world.memory.busy)).tail (.quiet _ _ rfl)
  · trivial

theorem follows_activateConnection (opening : Opening) (allowTrial : Bool) :
    Follows setting permits (activateConnection setting opening allowTrial) (fun _ _ => True) world :=
  (follows_beginActivation opening.token).bind fun _ _ _ _ => follows_then follows_prepare

theorem follows_reconnectLegacy : Follows setting permits reconnectLegacy (fun _ _ => True) world := by
  apply quiet_bind rfl
  apply consult_bind
  apply follows_ite
  · intro _
    exact follows_cleanupFailed
  · intro _
    exact follows_quiet rfl trivial

theorem follows_afterTrial {action : Action Hash Bool}
    (followed : Follows setting permits action (fun _ _ => True) world) :
    Follows setting permits (afterTrial action) (fun _ _ => True) world := by
  apply followed.bind
  intro reconnects later _ _
  apply follows_ite
  · intro _
    exact follows_reconnectLegacy
  · intro _
    exact follows_return trivial

theorem follows_closeConnection : Follows setting permits closeConnection (fun _ _ => True) world := by
  apply quiet_bind rfl
  apply consult_bind
  apply follows_cancel.bind
  intro _ _ _ _
  apply Changes.Follows.read_bind
  apply follows_unless
  intro _
  exact follows_quiet rfl trivial

theorem follows_teardownTimeout (index : Nat) :
    Follows setting permits (teardownTimeout index) (fun _ _ => True) world := by
  apply consult_bind
  cases found : world.memory.connection.teardowns[index]? with
  | none =>
    simp only [id, found]
    exact follows_return trivial
  | some teardown =>
    simp only [id, found]
    apply quiet_bind rfl
    apply follows_ite
    · intro _
      exact follows_cleanupFailed
    · intro _
      exact follows_return trivial

variable {reopening : Option Opening}

theorem follows_completeTeardown {teardown : Teardown} {receipt : Receipt}
    (permitted : permits.cleanup world) :
    Follows setting permits (completeTeardown setting teardown receipt reopening) (fun _ _ => True) world := by
  apply follows_ite
  · intro _
    exact follows_then (follows_cleanupCompleted permitted)
  · intro _
    apply Changes.Follows.read_bind
    apply follows_unless
    intro _
    apply (follows_cleanupCompleted permitted).bind
    intro completed later _ _
    split
    · exact follows_activateConnection _ true
    · exact follows_return trivial

theorem follows_teardownReceipt {index : Nat} {receipt : Receipt}
    (permitted : Confirms world index receipt → ∀ connection,
      permits.cleanup { world with memory := { world.memory with connection := connection } }) :
    Follows setting permits (teardownReceipt setting index receipt reopening) (fun _ _ => True) world := by
  apply consult_bind
  cases found : world.memory.connection.teardowns[index]? with
  | none =>
    simp only [id, found]
    exact follows_return trivial
  | some teardown =>
    simp only [id, found]
    apply follows_ite
    · intro _
      exact follows_quiet rfl trivial
    · intro current
      apply follows_unless
      intro answered
      apply quiet_bind rfl
      apply follows_ite
      · intro confirmed
        apply follows_completeTeardown
        exact permitted ⟨teardown, found, not_not.mp current, by simpa using answered, confirmed⟩ _
      · intro _
        exact follows_cleanupFailed

theorem follows_handler (sound : Sound setting world) (edits : permits.edits)
    (commits : permits.commits) (permitted : handler.Permitted permits world) :
    Follows setting permits (handler.run setting) (fun _ _ => True) world := by
  cases handler with
  | contextChanged onServer epoch => exact Changes.Follows.update (.single (.quiet world _ rfl)) trivial
  | openConnection opening =>
    apply quiet_bind rfl
    cases opening with
    | none => exact follows_return trivial
    | some opening => exact follows_activateConnection opening true
  | restoreConnection opening =>
    apply quiet_bind rfl
    exact follows_activateConnection opening false
  | closeConnection => exact follows_closeConnection
  | connectionError | deadline => exact follows_afterTrial follows_failed
  | observe epoch observation moment => exact follows_afterTrial (follows_observe commits)
  | teardownReceipt index receipt reopening => exact follows_teardownReceipt permitted
  | teardownTimeout index => exact follows_teardownTimeout index
  | reply index payload moment => exact follows_replyArrived sound (sound.answerable edits)
  | requestFailed index reason httpStatus now => exact follows_requestFailed
  | edit profile now => exact follows_edit edits
  | remove => exact follows_removeServer edits
  | restart => exact Changes.Follows.update (.single (.restart world)) trivial

theorem reaches_of_handler (step : (connections setting).Step before handler after) (sound : Sound setting before)
    (edits : permits.edits) (commits : permits.commits) (permitted : handler.Permitted permits before) :
    Reaches setting permits before after :=
  Changes.reaches_of_step rfl step (follows_handler sound edits commits permitted)

theorem reaches_of_handlers
    (run : Run (connections setting).Step before handlers after) (sound : Sound setting before) :
    Sound setting after ∧ Reaches setting everything before after := by
  induction run with
  | nil => exact ⟨sound, .refl⟩
  | cons first rest ih =>
    have here := reaches_of_handler first sound trivial trivial (Handler.permitted_everything _ _)
    obtain ⟨kept, further⟩ := ih (sound.reached here)
    exact ⟨kept, here.trans further⟩

variable {journal : Journal Hash}

theorem validFor_of_created
    (created : createRecoveryAuthorization setting.toServices journal = some authorization) :
    authorization.ValidFor setting journal := by
  unfold createRecoveryAuthorization at created
  split at created
  · cases created
  · simp only [Option.ite_none_left_eq_some, not_or, ne_eq, not_not, Option.some.injEq, Bool.not_eq_true',
      Bool.not_eq_false] at created
    obtain ⟨⟨signer, -, -, -, -, present, whole, highest, -, target⟩, rfl⟩ := created
    have positive := generation_pos whole
    exact {
      whole := whole
      highest := some_of_getD (positive.trans' (by decide)).ne' highest.symm
      signer := rfl
      known := signer
      target := fun _ => target.symm
      present := ⟨_, present, rfl⟩ }

theorem created_of_evidence {source : Hash}
    (valid : authorization.ValidFor setting journal) (staged : WellStaged setting journal)
    (token : journal.lastRecoveryCleanupToken ≠ "") (epoch : journal.lastRecoveryCleanupEpoch ≠ 0)
    (found : journal.sourceHash = some source) (nonce : journal.nonce ≠ "") (grant : journal.grant ≠ "")
    (offered : generationOf journal.offer = journal.highestGeneration) :
    ∃ created, createRecoveryAuthorization setting.toServices journal = some created ∧
      created.generation = authorization.generation ∧
      created.signingPublicKey = authorization.signingPublicKey ∧
      created.targetHash = authorization.targetHash := by
  have number : generationOf journal.offer = some authorization.generation := offered.trans valid.highest
  have present := offer_present number
  have same : journal.stagedGeneration = some authorization.generation :=
    (staged.generation present).symm.trans number
  have target : setting.digest (journal.offer.object "target") = authorization.targetHash :=
    Option.some.inj ((staged.target present).trans (valid.target same))
  have nonempty : journal.offer.object "target" ≠ [] := by
    obtain ⟨original, some, hash⟩ := valid.present
    rw [hash] at target
    exact setting.digest_injective target ▸ some
  have value : (journal.offer.value "generation").toDouble (-1) = authorization.generation := by
    rw [number_of_generationOf number, Json.toDouble]
  have complete : ¬(journal.signingPublicKey = "" ∨ journal.nonce = "" ∨ journal.grant = "" ∨
      journal.lastRecoveryCleanupToken = "" ∨ journal.lastRecoveryCleanupEpoch = 0 ∨
      journal.offer.object "target" = [] ∨ (!isGeneration authorization.generation) = true ∨
      authorization.generation ≠ journal.highestGeneration.getD (-2) ∨
      authorization.generation ≠ journal.stagedGeneration.getD (-3) ∨
      some (setting.digest (journal.offer.object "target")) ≠ journal.stagedTargetHash) := by
    rw [valid.signer, valid.highest, same, staged.target present, valid.whole]
    simp [valid.known, nonce, grant, token, epoch, nonempty]
  refine ⟨⟨source, authorization.generation, setting.digest (journal.offer.object "target"),
    journal.signingPublicKey, setting.hash journal.nonce, setting.hash journal.grant,
    journal.lastRecoveryCleanupToken, journal.lastRecoveryCleanupEpoch⟩, ?_, rfl, valid.signer, target⟩
  simp only [createRecoveryAuthorization, found, value]
  rw [if_neg complete]

namespace Authorization.ValidFor

theorem staged {offer : JsonObject} {seconds : Int}
    (valid : authorization.ValidFor setting before.memory.journal)
    (stages : Stages setting permits before offer seconds) (staged : WellStaged setting before.memory.journal) :
    authorization.ValidFor setting
      { before.memory.journal.staged setting offer with state := some .staged } :=
  { valid with
    target same := by
      obtain ⟨generation, number, newer⟩ := stages.generation staged
      have equal : generation = authorization.generation := Option.some.inj (number.symm.trans same)
      rcases newer with newer | ⟨other, authorized, again⟩
      · rw [valid.highest, Option.getD_some, equal] at newer
        exact absurd newer (lt_irrefl _)
      · have held := valid.target (by rw [authorized.staged, again, equal])
        rw [authorized.target] at held
        exact held }

end Authorization.ValidFor

theorem Vouched.keeps (vouched : Vouched setting before)
    (move : Move setting permits before after) (sound : Sound setting before) : Vouched setting after := by
  intro authorization held
  cases move with
  | still pins trials =>
    rw [pins.authorization] at held
    exact (vouched authorization held).pins pins
  | stage offer seconds loaded stages stored trials =>
    have coherent := sound.coherent loaded
    rw [stored] at held ⊢
    have here := (vouched authorization (coherent.authorization ▸ held)).pins coherent.pins
    exact here.staged stages (sound.memoryStaged loaded)
  | spend begins stored trials | begin begins stored trials =>
    rw [stored] at held
    cases held
  | cleanup profile token epoch returned cleans permitted stored trials =>
    rw [stored] at held ⊢
    have valid := validFor_of_created held
    exact ⟨valid.whole, valid.highest, valid.signer, valid.known, valid.target, valid.present⟩

theorem Holds.cleaned {profile : JsonObject}
    {token : String} {epoch : Nat} (holds : Holds authorization before.journal)
    (cleans : Cleans setting before profile token epoch) (renewable : Renewable before.journal)
    (vouched : Vouched setting before) (sound : Sound setting before) :
    Holds authorization (recoveryJournalAfterCleanup setting.toServices before.journal token epoch) := by
  obtain ⟨held, found, agrees⟩ := holds
  obtain ⟨nonce, grant, offered⟩ := renewable (by rw [found]; exact Option.some_ne_none held)
  have valid := vouched held found
  have staged := sound.staged
  have allowed := cleans.token
  have source := cleans.rollback
  simp only [cleanupAuthorizationAllowed, Bool.and_eq_true, decide_eq_true_eq] at allowed
  simp only [rollbackRecoveryAllowed, Bool.and_eq_true, decide_eq_true_eq] at source
  obtain ⟨⟨⟨named, -⟩, numbered⟩, -⟩ := allowed
  let confirmed : Journal Hash :=
    { before.journal with lastRecoveryCleanupToken := token, lastRecoveryCleanupEpoch := epoch }
  have validHere : held.ValidFor setting confirmed :=
    ⟨valid.whole, valid.highest, valid.signer, valid.known, valid.target, valid.present⟩
  have stagedHere : WellStaged setting confirmed :=
    ⟨staged.generation, staged.target, staged.signer, staged.highest, staged.whole⟩
  obtain ⟨created, made, generation, signer, target⟩ :=
    created_of_evidence validHere stagedHere named numbered source.1.symm nonce grant offered
  exact ⟨created, made, generation.trans agrees.generation, signer.trans agrees.signer,
    target.trans agrees.target⟩

theorem Holds.keeps (holds : Holds authorization before.journal) (move : Move setting sparing before after)
    (sound : Sound setting before) (vouched : Vouched setting before)
    (same : after.history.trials = before.history.trials) : Holds authorization after.journal := by
  cases move with
  | still pins trials =>
    rw [Holds, pins.authorization]
    exact holds
  | stage offer seconds loaded stages stored trials =>
    obtain ⟨held, found, agrees⟩ := holds
    refine ⟨held, ?_, agrees⟩
    rw [stored]
    exact (sound.coherent loaded).authorization.trans found
  | spend begins stored trials | begin begins stored trials =>
    rw [trials] at same
    simp at same
  | cleanup profile token epoch returned cleans permitted stored trials =>
    rw [stored]
    exact holds.cleaned cleans permitted vouched sound

theorem Move.trials_le (move : Move setting permits before after) :
    before.history.trials ≤ after.history.trials := by
  cases move with
  | still pins trials => exact trials.trials.ge
  | stage offer seconds loaded stages stored trials => exact trials.trials.ge
  | spend begins stored trials | begin begins stored trials =>
    rw [trials]
    exact Nat.le_succ _
  | cleanup profile token epoch returned cleans permitted stored trials =>
    rw [trials]
    exact le_rfl

theorem vouched_of_reaches (sound : Sound setting before)
    (reached : Reaches setting permits before after) (vouched : Vouched setting before) :
    Vouched setting after := by
  induction reached with
  | refl => exact vouched
  | tail chain last ih =>
    have middle := sound.reached chain
    exact ih.keeps (last.move middle) middle

theorem holds_of_reaches (sound : Sound setting before) (vouched : Vouched setting before)
    (holds : Holds authorization before.journal) (reached : Reaches setting sparing before after) :
    before.history.trials ≤ after.history.trials ∧
      (after.history.trials = before.history.trials → Holds authorization after.journal) := by
  induction reached with
  | refl => exact ⟨le_rfl, fun _ => holds⟩
  | tail chain last ih =>
    have middle := sound.reached chain
    have move := last.move middle
    obtain ⟨more, held⟩ := ih
    refine ⟨more.trans move.trials_le, fun same => ?_⟩
    have still := le_antisymm (move.trials_le.trans same.le) more
    exact (held still).keeps move middle (vouched_of_reaches sound chain vouched) (same.trans still.symm)

def SparingStep (setting : Setting Hash) (before : World Hash) (handler : Handler) (after : World Hash) : Prop :=
  (connections setting).Step before handler after ∧ handler.Spares before

theorem reaches_of_sparing
    (run : Run (SparingStep setting) before handlers after) (sound : Sound setting before) :
    Reaches setting sparing before after := by
  induction run with
  | nil => exact .refl
  | cons first rest ih =>
    have here := reaches_of_handler first.1 sound trivial trivial first.2.permitted
    exact here.trans (ih (sound.reached here))

theorem sparing_execute
    (spares : ∀ handler ∈ handlers, ∀ world : World Hash, handler.Spares world) (world : World Hash) :
    Run (SparingStep setting) world handlers ((connections setting).execute world handlers) := by
  induction handlers generalizing world with
  | nil => exact .nil world
  | cons handler handlers ih =>
    obtain ⟨here, others⟩ := List.forall_mem_cons.mp spares
    exact .cons ⟨.finish world handler [], here world⟩ (ih others _)

namespace Sample

def opening (token nonce : String) : Opening := ⟨token, connection, moment nonce⟩

def failedTrial : List Handler :=
  [.openConnection (some (opening "token1" "nonce1")), .observe 1 (observation "token1") (moment "nonce1"),
    .reply 0 (bootstrap "nonce1" "grant1") (moment "nonce1"), .reply 0 (envelope "AQ==") (moment "nonce1"),
    .openConnection (some (opening "token2" "nonce1")), .contextChanged true 1, .deadline,
    .teardownReceipt 0 ⟨true, 3, 1, 2, true⟩ (some (opening "token3" "nonce2"))]

def authorized : World Json := (connections (Sample.setting .shipped)).execute (World.fresh profile) failedTrial

def disconnect : List Handler :=
  [.contextChanged true 3, .closeConnection, .teardownReceipt 0 ⟨true, 4, 3, 4, true⟩ none]

def disconnected : World Json := (connections (Sample.setting .shipped)).execute authorized disconnect

def undecided : List Handler :=
  [.contextChanged true 3, .closeConnection, .teardownTimeout 0, .restart,
    .openConnection (some (opening "token4" "nonce2"))]

def reopened : World Json := (connections (Sample.setting .shipped)).execute authorized undecided

end Sample

end Amnezia.Migration
