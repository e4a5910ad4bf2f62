import Amnezia.Migration.Tracing
import Mathlib.Data.Rat.Floor

/-! # Trials of a generation are bounded -/

namespace Amnezia.Migration
open Lib

variable {Hash : Type} {world : World Hash}

structure Pins (next before : Journal Hash) : Prop where
  highest : next.highestGeneration = before.highestGeneration
  generation : next.stagedGeneration = before.stagedGeneration
  target : next.stagedTargetHash = before.stagedTargetHash
  authorization : next.recoveryAuthorization = before.recoveryAuthorization
  signer : before.signingPublicKey ≠ "" → next.signingPublicKey = before.signingPublicKey

theorem Coherent.pins {memory stored : Journal Hash} (coherent : Coherent memory stored) : Pins memory stored :=
  ⟨coherent.highest, coherent.generation, coherent.target, coherent.authorization, coherent.signer⟩

theorem Pins.refl (journal : Journal Hash) : Pins journal journal := ⟨rfl, rfl, rfl, rfl, fun _ => rfl⟩

theorem Pins.trans {first second third : Journal Hash} (left : Pins first second) (right : Pins second third) :
    Pins first third where
  highest := left.highest.trans right.highest
  generation := left.generation.trans right.generation
  target := left.target.trans right.target
  authorization := left.authorization.trans right.authorization
  signer known := by
    have same := right.signer known
    exact (left.signer (same ▸ known)).trans same

structure SameTrials (next before : History Hash) : Prop where
  trials : next.trials = before.trials
  attempts : next.attempts = before.attempts
  cleanups : next.cleanups = before.cleanups

structure Attempt.WatchedBy (attempt : Attempt Hash) (journal : Journal Hash) : Prop where
  below : ∃ generation, attempt.generation = some generation ∧
    generation ≤ journal.highestGeneration.getD 0
  target : attempt.generation = journal.stagedGeneration →
    some attempt.targetHash = journal.stagedTargetHash
  signer : attempt.signingPublicKey = journal.signingPublicKey
  known : attempt.signingPublicKey ≠ ""

def Watched (world : World Hash) : Prop :=
  ∀ attempt ∈ world.history.attempts, attempt.WatchedBy world.journal

def trialsOf (world : World Hash) (generation : Rat) : Nat :=
  world.history.attempts.countP (·.generation = some generation)

def unspent (journal : Journal Hash) : Nat := if journal.recoveryAuthorization.isSome then 1 else 0

def Bounded (world : World Hash) : Prop :=
  ∀ generation, trialsOf world generation + unspent world.journal ≤ 1 + world.history.cleanups

theorem unspent_le_one (journal : Journal Hash) : unspent journal ≤ 1 := by
  unfold unspent
  split <;> omega

namespace Attempt.WatchedBy

variable {attempt : Attempt Hash} {journal next : Journal Hash}

theorem raise (watched : attempt.WatchedBy journal)
    (raised : journal.highestGeneration.getD 0 ≤ next.highestGeneration.getD 0)
    (generation : next.stagedGeneration = journal.stagedGeneration)
    (target : next.stagedTargetHash = journal.stagedTargetHash)
    (signer : journal.signingPublicKey ≠ "" → next.signingPublicKey = journal.signingPublicKey) :
    attempt.WatchedBy next where
  below := by
    obtain ⟨generation, same, below⟩ := watched.below
    exact ⟨generation, same, below.trans raised⟩
  target := by
    rw [generation, target]
    exact watched.target
  signer := watched.signer.trans (signer (watched.signer ▸ watched.known)).symm
  known := watched.known

theorem pins (watched : attempt.WatchedBy journal) (pins : Pins next journal) : attempt.WatchedBy next :=
  watched.raise (by rw [pins.highest]) pins.generation pins.target pins.signer

end Attempt.WatchedBy

variable {setting : Setting Hash}

theorem Sound.saved_pins (sound : Sound setting world) {journal : Journal Hash}
    (kept : Pins journal world.memory.journal) : Pins (world.saved journal).journal world.journal := by
  cases loaded : world.memory.loaded with
  | true =>
    rw [world.journal_saved loaded]
    exact kept.trans (sound.coherent loaded).pins
  | false =>
    rw [world.saved_of_unloaded loaded]
    exact .refl _

variable [DecidableEq Hash] {permits : Permits Hash}

inductive Move (setting : Setting Hash) (permits : Permits Hash) (before after : World Hash) : Prop where
  | still (pins : Pins after.journal before.journal) (trials : SameTrials after.history before.history)
  | stage (offer : JsonObject) (seconds : Int) (loaded : before.memory.loaded = true)
      (stages : Stages setting permits before offer seconds)
      (stored : after.journal = { before.memory.journal.staged setting offer with state := some .staged })
      (trials : SameTrials after.history before.history)
  | spend (begins : Begins setting before) (stored : after.journal = trialJournal before)
      (trials : after.history = { before.history with trials := before.history.trials + 1 })
  | begin (begins : Begins setting before) (stored : after.journal = trialJournal before)
      (trials : after.history = { before.history with
        trials := before.history.trials + 1
        attempts := before.history.attempts ++ [before.memory.journal.attempt setting before.history] })
  | cleanup (profile : JsonObject) (token : String) (epoch : Nat) (returned : Bool)
      (cleans : Cleans setting before profile token epoch) (permitted : permits.cleanup before)
      (stored : after.journal = recoveryJournalAfterCleanup setting.toServices before.journal token epoch)
      (trials : after.history = before.history.cleaned returned)

variable {before after : World Hash}

theorem Change.move (change : Change setting permits before after)
    (sound : Sound setting before) : Move setting permits before after := by
  cases change with
  | restart | quiet | advance | leave | dropGrant | draw | drawRenewal | enroll | rebase | prove | choose
  | commit | grant | load | send | take | edit | remove => exact .still (.refl _) ⟨rfl, rfl, rfl⟩
  | save =>
    rw [before.withJournal_memory]
    exact .still (sound.saved_pins (.refl _)) ⟨by simp, by simp, by simp⟩
  | settle state free settles =>
    exact .still (sound.saved_pins ⟨rfl, rfl, rfl, rfl, fun _ => rfl⟩) ⟨by simp, by simp, by simp⟩
  | expire free noTrial staged =>
    exact .still (sound.saved_pins ⟨rfl, rfl, rfl, rfl, fun _ => rfl⟩) ⟨by simp, by simp, by simp⟩
  | renew grant expiresAt free acknowledging known =>
    exact .still (sound.saved_pins ⟨rfl, rfl, rfl, rfl, fun _ => rfl⟩) ⟨rfl, rfl, rfl⟩
  | stage offer seconds stages =>
    cases loaded : before.memory.loaded with
    | true =>
      exact .stage offer seconds loaded stages (before.journal_saved loaded _) ⟨by simp, by simp, by simp⟩
    | false =>
      rw [before.saved_of_unloaded loaded]
      exact .still (.refl _) ⟨rfl, rfl, rfl⟩
  | spend begins => exact .spend begins (before.journal_saved begins.loaded _) rfl
  | begin begins => exact .begin begins (before.journal_saved begins.loaded _) rfl
  | cleanup profile token epoch returned cleans permitted =>
    exact .cleanup profile token epoch returned cleans permitted (before.journal_saved cleans.loaded _) rfl

theorem Begins.generation (begins : Begins setting world) (sound : Sound setting world) :
    ∃ generation, generationOf world.memory.journal.offer = some generation ∧
      (world.journal.highestGeneration.getD 0 < generation ∨
        (∃ authorization, Authorized setting world.memory.journal world.memory.journal.offer authorization ∧
          authorization.generation = generation ∧ world.journal.highestGeneration = some generation ∧
          world.journal.recoveryAuthorization = some authorization)) := by
  have coherent := sound.coherent begins.loaded
  obtain ⟨generation, number, above⟩ := begins.cases (sound.memoryStaged begins.loaded)
  refine ⟨generation, generationOf_of_number number, ?_⟩
  rcases above with newer | ⟨authorization, authorized, same⟩
  · exact .inl (coherent.highest ▸ newer)
  · refine .inr ⟨authorization, authorized, same, ?_, ?_⟩
    · rw [← coherent.highest, authorized.highest, same]
    · rw [← coherent.authorization, authorized.held]

theorem Begins.highest_le (begins : Begins setting world) (sound : Sound setting world) :
    world.journal.highestGeneration.getD 0 ≤ (trialJournal world).highestGeneration.getD 0 := by
  obtain ⟨generation, number, above⟩ := begins.generation sound
  have trial : (trialJournal world).highestGeneration.getD 0 = generation :=
    congrArg (Option.getD · 0) number
  rw [trial]
  rcases above with newer | ⟨-, -, -, highest, -⟩
  · exact newer.le
  · rw [highest]
    exact le_refl generation

theorem Move.highest_le (move : Move setting permits before after) (sound : Sound setting before) :
    before.journal.highestGeneration.getD 0 ≤ after.journal.highestGeneration.getD 0 := by
  cases move with
  | still pins trials => rw [pins.highest]
  | stage offer seconds loaded stages stored trials =>
    rw [stored, ← (sound.coherent loaded).highest]
    exact le_refl _
  | spend begins stored trials | begin begins stored trials =>
    rw [stored]
    exact begins.highest_le sound
  | cleanup profile token epoch returned cleans permitted stored trials =>
    rw [stored]
    exact le_refl _

theorem lt_of_truncate_lt {value : Rat} {bound : Int} (nonneg : 0 ≤ value) (above : truncate value < bound) :
    value < bound := by
  have floor : truncate value = ⌊value⌋ := by
    rw [Rat.floor_def', truncate, Int.tdiv_eq_ediv_of_nonneg (Rat.num_nonneg.mpr nonneg)]
  rw [floor] at above
  exact Int.floor_lt.mp above

variable {offer : JsonObject}

theorem Stages.generation {seconds : Int}
    (stages : Stages setting permits world offer seconds) (staged : WellStaged setting world.memory.journal) :
    ∃ generation : Rat, generationOf offer = some generation ∧
      (world.memory.journal.highestGeneration.getD 0 < generation ∨
        ∃ authorization, Authorized setting world.memory.journal offer authorization ∧
          authorization.generation = generation) := by
  obtain ⟨generation, number, above, -⟩ :=
    validateOffer_generation (requiredGeneration_ge staged) stages.valid
  refine ⟨generation, generationOf_of_number number, ?_⟩
  by_cases allowed : sameGenerationRecoveryAllowed setting.toServices world.memory.journal offer
      (setting.digest world.memory.sourceProfile) = true
  · obtain ⟨authorization, authorized⟩ := authorized_of_allowed allowed
    have same := authorized.generation.symm.trans number
    exact .inr ⟨authorization, authorized, Json.number.inj same⟩
  · left
    apply lt_of_truncate_lt staged.highest
    have required : (offerBinding setting world.memory.journal offer world.memory.sourceProfile).highestGeneration
        = max (truncate (world.memory.journal.highestGeneration.getD 0))
          (truncate (world.memory.journal.stagedGeneration.getD 0) - 1) := by
      simp only [offerBinding, requiredGeneration, allowed]
      rfl
    omega

theorem offer_present {generation : Rat} (number : generationOf offer = some generation) :
    offer ≠ [] := by
  rintro rfl
  cases number

namespace Attempt.WatchedBy

variable {attempt : Attempt Hash}

theorem staged {seconds : Int}
    (watched : attempt.WatchedBy before.memory.journal) (stages : Stages setting permits before offer seconds)
    (staged : WellStaged setting before.memory.journal) :
    attempt.WatchedBy { before.memory.journal.staged setting offer with state := some .staged } :=
  { watched with
    target sameGeneration := by
      obtain ⟨generation, number, newer⟩ := stages.generation staged
      have again : attempt.generation = some generation := sameGeneration.trans number
      rcases newer with newer | ⟨authorization, authorized, same⟩
      · obtain ⟨earlier, attempted, below⟩ := watched.below
        rw [again] at attempted
        cases attempted
        exact absurd below newer.not_ge
      · have held := watched.target
        rw [authorized.staged, authorized.target, same] at held
        exact held again }

theorem begun (watched : attempt.WatchedBy before.journal) (begins : Begins setting before)
    (sound : Sound setting before) : attempt.WatchedBy (trialJournal before) := by
  have coherent := sound.coherent begins.loaded
  exact watched.raise (begins.highest_le sound) coherent.generation coherent.target coherent.signer

end Attempt.WatchedBy

theorem Begins.watched (begins : Begins setting before) (sound : Sound setting before) :
    (before.memory.journal.attempt setting before.history).WatchedBy (trialJournal before) := by
  have staged := sound.memoryStaged begins.loaded
  obtain ⟨generation, number, -⟩ := begins.generation sound
  have present := offer_present number
  exact {
    below := ⟨generation, number, (congrArg (Option.getD · 0) number).ge⟩
    target := fun _ => staged.target present
    signer := rfl
    known := staged.signer present }

theorem Watched.keeps (watched : Watched before)
    (move : Move setting permits before after) (sound : Sound setting before) : Watched after := by
  intro attempt listed
  cases move with
  | still pins trials =>
    rw [trials.attempts] at listed
    exact (watched attempt listed).pins pins
  | stage offer seconds loaded stages stored trials =>
    rw [trials.attempts] at listed
    rw [stored]
    have here := (watched attempt listed).pins (sound.coherent loaded).pins
    exact here.staged stages (sound.memoryStaged loaded)
  | spend begins stored trials =>
    rw [trials] at listed
    rw [stored]
    exact (watched attempt listed).begun begins sound
  | begin begins stored trials =>
    rw [trials] at listed
    rw [stored]
    rcases List.mem_append.mp listed with old | new
    · exact (watched attempt old).begun begins sound
    · rw [List.mem_singleton.mp new]
      exact begins.watched sound
  | cleanup profile token epoch returned cleans permitted stored trials =>
    rw [trials] at listed
    rw [stored]
    exact (watched attempt listed).raise le_rfl rfl rfl fun _ => rfl

theorem Bounded.begun (bounded : Bounded before) (watched : Watched before)
    (sound : Sound setting before) (begins : Begins setting before)
    (stored : after.journal = trialJournal before)
    (trials : after.history = { before.history with
      trials := before.history.trials + 1
      attempts := before.history.attempts ++ [before.memory.journal.attempt setting before.history] }) :
    Bounded after := by
  intro wanted
  obtain ⟨generation, number, above⟩ := begins.generation sound
  have before' := bounded wanted
  have spent : unspent after.journal = 0 := by
    rw [stored]
    rfl
  have count : trialsOf after wanted = trialsOf before wanted + if generation = wanted then 1 else 0 := by
    simp only [trialsOf, trials, List.countP_append, List.countP_singleton, Journal.attempt, number,
      Option.some.injEq, decide_eq_true_eq]
  have cleanups : after.history.cleanups = before.history.cleanups := by rw [trials]
  rw [spent, count, cleanups]
  by_cases same : generation = wanted
  · subst same
    rw [if_pos rfl]
    rcases above with newer | ⟨authorization, authorized, -, -, held⟩
    · have none : trialsOf before generation = 0 := by
        rw [trialsOf, List.countP_eq_zero]
        intro attempt listed found
        obtain ⟨earlier, attempted, below⟩ := (watched attempt listed).below
        rw [attempted] at found
        simp only [Option.some.injEq, decide_eq_true_eq] at found
        exact absurd (found ▸ below) newer.not_ge
      omega
    · have one : unspent before.journal = 1 := by
        rw [unspent, held]
        rfl
      omega
  · rw [if_neg same]
    omega

theorem Bounded.keeps (bounded : Bounded before) (watched : Watched before)
    (move : Move setting permits before after) (sound : Sound setting before) : Bounded after := by
  cases move with
  | still pins trials =>
    intro generation
    rw [trialsOf, trials.attempts, unspent, pins.authorization, trials.cleanups]
    exact bounded generation
  | stage offer seconds loaded stages stored trials =>
    intro generation
    have held : after.journal.recoveryAuthorization = before.journal.recoveryAuthorization := by
      rw [stored]
      exact (sound.coherent loaded).authorization
    rw [trialsOf, trials.attempts, unspent, held, trials.cleanups]
    exact bounded generation
  | spend begins stored trials =>
    intro generation
    have spent : unspent after.journal = 0 := by
      rw [stored]
      rfl
    have here := bounded generation
    rw [spent, trialsOf, trials]
    unfold trialsOf at here
    simp only
    omega
  | begin begins stored trials => exact bounded.begun watched sound begins stored trials
  | cleanup profile token epoch returned cleans permitted stored trials =>
    intro generation
    have here := bounded generation
    have few := unspent_le_one after.journal
    rw [trialsOf, trials]
    unfold trialsOf at here
    simp only [History.cleaned]
    omega

end Amnezia.Migration
