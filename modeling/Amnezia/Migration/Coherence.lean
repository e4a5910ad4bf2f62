import Amnezia.Migration.Changes

/-! # The journal in memory and the stored one -/

namespace Amnezia.Migration
open Lib

variable {Hash : Type} (setting : Setting Hash)

structure Coherent (memory stored : Journal Hash) : Prop where
  state : memory.state = stored.state
  highest : memory.highestGeneration = stored.highestGeneration
  generation : memory.stagedGeneration = stored.stagedGeneration
  target : memory.stagedTargetHash = stored.stagedTargetHash
  authorization : memory.recoveryAuthorization = stored.recoveryAuthorization
  offer : memory.offer = stored.offer
  signer : stored.signingPublicKey ≠ "" → memory.signingPublicKey = stored.signingPublicKey

structure WellStaged (journal : Journal Hash) : Prop where
  generation : journal.offer ≠ [] → generationOf journal.offer = journal.stagedGeneration
  target : journal.offer ≠ [] →
    some (setting.digest (journal.offer.object "target")) = journal.stagedTargetHash
  signer : journal.offer ≠ [] → journal.signingPublicKey ≠ ""
  highest : 0 ≤ journal.highestGeneration.getD 0
  whole : ∃ generation : Int, journal.stagedGeneration.getD 0 = generation

structure Sound (world : World Hash) : Prop where
  past : ∀ pending ∈ world.memory.requests, pending.generation ≤ world.memory.callbackGeneration
  single : world.memory.requests.countP (·.generation = world.memory.callbackGeneration) ≤
    if world.memory.busy then 1 else 0
  purpose : ∀ pending ∈ world.memory.requests, world.IsCurrent pending →
    world.memory.loaded = true ∧ Purpose world pending.request
  trial : world.memory.trial = true → world.memory.loaded = true ∧
    world.memory.journal.sourceHash = some (setting.digest world.memory.sourceProfile) ∧
    world.journal.sourceHash = some (setting.digest world.memory.sourceProfile)
  coherent : world.memory.loaded = true → Coherent world.memory.journal world.journal
  staged : WellStaged setting world.journal
  stripped : ∀ profile, world.profile = some profile → IsStripped profile
  source : IsStripped world.memory.sourceProfile

variable {setting} {world : World Hash}

theorem Coherent.refl (journal : Journal Hash) : Coherent journal journal :=
  ⟨rfl, rfl, rfl, rfl, rfl, rfl, fun _ => rfl⟩

theorem Coherent.of_bare {first second : Journal Hash} (same : first.bare = second.bare) :
    Coherent first second where
  state := Journal.of_bare same Journal.state fun _ => rfl
  highest := Journal.of_bare same Journal.highestGeneration fun _ => rfl
  generation := Journal.of_bare same Journal.stagedGeneration fun _ => rfl
  target := Journal.of_bare same Journal.stagedTargetHash fun _ => rfl
  authorization := Journal.of_bare same Journal.recoveryAuthorization fun _ => rfl
  offer := Journal.of_bare same Journal.offer fun _ => rfl
  signer _ := Journal.of_bare same Journal.signingPublicKey fun _ => rfl

theorem Coherent.trans {first second third : Journal Hash} (left : Coherent first second)
    (right : Coherent second third) : Coherent first third where
  state := left.state.trans right.state
  highest := left.highest.trans right.highest
  generation := left.generation.trans right.generation
  target := left.target.trans right.target
  authorization := left.authorization.trans right.authorization
  offer := left.offer.trans right.offer
  signer known := by
    have same := right.signer known
    exact (left.signer (same ▸ known)).trans same

theorem Coherent.wellStaged {memory stored : Journal Hash} (coherent : Coherent memory stored)
    (staged : WellStaged setting stored) : WellStaged setting memory where
  generation present := by
    rw [coherent.offer] at present ⊢
    rw [coherent.generation]
    exact staged.generation present
  target present := by
    rw [coherent.offer] at present ⊢
    rw [coherent.target]
    exact staged.target present
  signer present := by
    rw [coherent.offer] at present
    have known := staged.signer present
    rw [coherent.signer known]
    exact known
  highest := by
    rw [coherent.highest]
    exact staged.highest
  whole := by
    rw [coherent.generation]
    exact staged.whole

variable {request : Request}

theorem Purpose.congr {other : World Hash} (purpose : Purpose world request)
    (trial : other.memory.trial = world.memory.trial)
    (state : other.memory.journal.state = world.memory.journal.state) : Purpose other request := by
  cases request with
  | bootstrap | offer => exact ⟨trial.trans purpose.noTrial, state ▸ purpose.settled⟩
  | challenge => exact trial.trans purpose
  | renew | acknowledge => exact ⟨trial.trans purpose.noTrial, state.trans purpose.pending⟩

theorem Sound.none_current (sound : Sound setting world) (free : world.memory.busy = false) :
    ∀ pending ∈ world.memory.requests, ¬world.IsCurrent pending := by
  have none := sound.single
  rw [free, if_neg Bool.false_ne_true, Nat.le_zero, List.countP_eq_zero] at none
  intro pending listed current
  exact none pending listed (decide_eq_true current)

variable {journal : Journal Hash}

theorem Sound.revised (sound : Sound setting world) (free : world.memory.busy = false)
    (kept : Coherent journal world.memory.journal)
    (source : world.memory.trial = true → journal.sourceHash = world.memory.journal.sourceHash) :
    Sound setting (world.revised journal) :=
  { sound with
    purpose pending listed current := absurd current (sound.none_current free pending listed)
    trial active := by
      obtain ⟨loaded, memory, stored⟩ := sound.trial active
      exact ⟨loaded, (source active).trans memory, stored⟩
    coherent loaded := kept.trans (sound.coherent loaded) }

theorem Sound.saved (sound : Sound setting world)
    (purpose : ∀ pending ∈ world.memory.requests, world.IsCurrent pending →
      Purpose (world.saved journal) pending.request)
    (source : world.memory.trial = true →
      journal.sourceHash = some (setting.digest world.memory.sourceProfile))
    (staged : world.memory.loaded = true → WellStaged setting journal) :
    Sound setting (world.saved journal) := by
  cases loaded : world.memory.loaded with
  | false =>
    rw [world.saved_of_unloaded loaded] at purpose ⊢
    exact {
      past := sound.past
      single := sound.single
      purpose := fun pending listed current =>
        ⟨(sound.purpose pending listed current).1, purpose pending listed current⟩
      trial := fun active => by
        rw [(sound.trial active).1] at loaded
        cases loaded
      coherent := fun present => by
        rw [show world.memory.loaded = true from present] at loaded
        cases loaded
      staged := sound.staged
      stripped := sound.stripped
      source := sound.source }
  | true =>
    rw [world.saved_of_loaded loaded] at purpose ⊢
    exact {
      past := sound.past
      single := sound.single
      purpose := fun pending listed current => ⟨loaded, purpose pending listed current⟩
      trial := fun active => ⟨loaded, source active, source active⟩
      coherent := fun _ => .refl journal
      staged := staged loaded
      stripped := sound.stripped
      source := sound.source }

theorem Sound.savedFree (sound : Sound setting world) (free : world.memory.busy = false)
    (source : world.memory.trial = true →
      journal.sourceHash = some (setting.digest world.memory.sourceProfile))
    (staged : world.memory.loaded = true → WellStaged setting journal) :
    Sound setting (world.saved journal) :=
  sound.saved (fun pending listed current => absurd current (sound.none_current free pending listed))
    source staged

theorem Sound.remembered (sound : Sound setting world) (history : History Hash) :
    Sound setting { world with history := history } :=
  { sound with
    purpose pending listed current := by
      obtain ⟨loaded, purpose⟩ := sound.purpose pending listed current
      exact ⟨loaded, purpose.congr rfl rfl⟩ }

theorem WellStaged.withState (staged : WellStaged setting journal)
    (state : JournalState) : WellStaged setting { journal with state := some state } :=
  ⟨staged.generation, staged.target, staged.signer, staged.highest, staged.whole⟩

theorem Sound.memoryStaged (sound : Sound setting world) (loaded : world.memory.loaded = true) :
    WellStaged setting world.memory.journal :=
  (sound.coherent loaded).wellStaged sound.staged

theorem Sound.quiet (sound : Sound setting world) {memory : Memory Hash}
    (same : memory.bare = world.memory.bare) : Sound setting { world with memory := memory } := by
  have requests : memory.requests = world.memory.requests := Memory.of_bare same Memory.requests fun _ => rfl
  have generation : memory.callbackGeneration = world.memory.callbackGeneration :=
    Memory.of_bare same Memory.callbackGeneration fun _ => rfl
  have busy : memory.busy = world.memory.busy := Memory.of_bare same Memory.busy fun _ => rfl
  have loaded : memory.loaded = world.memory.loaded := Memory.of_bare same Memory.loaded fun _ => rfl
  have trial : memory.trial = world.memory.trial := Memory.of_bare same Memory.trial fun _ => rfl
  have source : memory.sourceProfile = world.memory.sourceProfile :=
    Memory.of_bare same Memory.sourceProfile fun _ => rfl
  have journal : memory.journal.bare = world.memory.journal.bare :=
    Memory.of_bare same (·.journal.bare) fun _ => rfl
  have kept := Coherent.of_bare journal
  constructor
  · simpa only [requests, generation] using sound.past
  · simpa only [requests, generation, busy] using sound.single
  · intro pending listed current
    have before := sound.purpose pending (requests ▸ listed) (current.trans generation)
    exact ⟨loaded.trans before.1, before.2.congr trial kept.state⟩
  · intro active
    have before := sound.trial (trial ▸ active)
    have hash : memory.journal.sourceHash = world.memory.journal.sourceHash :=
      Journal.of_bare journal Journal.sourceHash fun _ => rfl
    rw [source]
    exact ⟨loaded.trans before.1, hash.trans before.2.1, before.2.2⟩
  · intro present
    exact kept.trans (sound.coherent (loaded ▸ present))
  · exact sound.staged
  · exact sound.stripped
  · simpa only [source] using sound.source

theorem countP_eraseIdx_of_pos {α : Type} {items : List α} {index : Nat} {item : α} {test : α → Bool}
    (found : items[index]? = some item) (passes : test item = true) :
    (items.eraseIdx index).countP test + 1 = items.countP test := by
  obtain ⟨bound, here⟩ := List.getElem?_eq_some_iff.mp found
  have split : items = items.take index ++ item :: items.drop (index + 1) := by
    rw [← here, List.getElem_cons_drop, List.take_append_drop]
  rw [List.eraseIdx_eq_take_drop_succ]
  conv_rhs => rw [split]
  rw [List.countP_append, List.countP_append, List.countP_cons_of_pos passes]
  omega

theorem number_of_toDouble {value : Json} {fallback number : Rat} (differs : number ≠ fallback)
    (read : value.toDouble fallback = number) : value = .number number := by
  cases value with
  | number found => exact congrArg Json.number read
  | null | bool | string | array | object => exact absurd read.symm differs

theorem some_of_getD {value : Option Rat} {fallback number : Rat} (differs : number ≠ fallback)
    (read : value.getD fallback = number) : value = some number := by
  cases value with
  | some found => exact congrArg some read
  | none => exact absurd read.symm differs

theorem WellStaged.clear {cleared : Journal Hash} (staged : WellStaged setting journal)
    (noOffer : cleared.offer = []) (highest : cleared.highestGeneration = journal.highestGeneration)
    (generation : cleared.stagedGeneration = journal.stagedGeneration) : WellStaged setting cleared where
  generation present := absurd noOffer present
  target present := absurd noOffer present
  signer present := absurd noOffer present
  highest := highest ▸ staged.highest
  whole := generation ▸ staged.whole

theorem generationOf_of_number {offer : JsonObject} {generation : Rat}
    (number : offer.value "generation" = .number generation) : generationOf offer = some generation := by
  rw [generationOf, number]

section

variable (sound : Sound setting world)
include sound

theorem Sound.saveMemory :
    Sound setting (world.withJournal world.memory.journal) := by
  rw [world.withJournal_memory]
  apply sound.saved
  · intro pending listed current
    exact (sound.purpose pending listed current).2.congr rfl rfl
  · exact fun active => (sound.trial active).2.1
  · exact sound.memoryStaged

theorem Sound.advanced (busy : Bool) :
    Sound setting { world with memory := { world.memory with
      callbackGeneration := world.memory.callbackGeneration + 1, busy := busy } } :=
  { sound with
    past pending listed := (sound.past pending listed).trans (Nat.le_succ _)
    single := by
      have none : world.memory.requests.countP (·.generation = world.memory.callbackGeneration + 1) = 0 := by
        rw [List.countP_eq_zero]
        intro pending listed
        have := sound.past pending listed
        simp only [decide_eq_true_eq]
        omega
      exact none.le.trans (Nat.zero_le _)
    purpose pending listed current := by
      have before := sound.past pending listed
      simp only [World.IsCurrent] at current
      omega }

theorem Sound.reprofiled {profile : Option JsonObject}
    (stripped : ∀ stored, profile = some stored → IsStripped stored) :
    Sound setting { world with profile := profile } :=
  { sound with
    purpose pending listed current := by
      obtain ⟨loaded, purpose⟩ := sound.purpose pending listed current
      exact ⟨loaded, purpose.congr rfl rfl⟩
    stripped := stripped }

theorem Sound.left (free : world.memory.busy = false) :
    Sound setting { world with memory := { world.memory with trial := false } } :=
  { sound with
    purpose pending listed current := absurd current (sound.none_current free pending listed)
    trial active := absurd active Bool.false_ne_true }

theorem Sound.loaded (free : world.memory.busy = false) (noTrial : world.memory.trial = false) :
    Sound setting { world with memory := { world.memory with
      loaded := true, journal := world.journal, sourceProfile := world.serverJson } } :=
  { sound with
    purpose pending listed current := absurd current (sound.none_current free pending listed)
    trial active := absurd active (noTrial ▸ Bool.false_ne_true)
    coherent _ := .refl world.journal
    source := by
      cases found : world.profile with
      | none => simp [World.serverJson, found, IsStripped, withoutStorageServerId, JsonObject.remove]
      | some profile => simpa [World.serverJson, found] using sound.stripped profile found }

theorem Sound.taken {index : Nat} {pending : Pending} (found : world.memory.requests[index]? = some pending) :
    Sound setting (world.taken index pending) :=
  { sound with
    past other listed := sound.past other (List.mem_of_mem_eraseIdx listed)
    single := by
      by_cases current : pending.generation = world.memory.callbackGeneration
      · have fewer : (world.memory.requests.eraseIdx index).countP
            (·.generation = world.memory.callbackGeneration) + 1 =
            world.memory.requests.countP (·.generation = world.memory.callbackGeneration) :=
          countP_eraseIdx_of_pos found (decide_eq_true current)
        have few := sound.single
        have atMostOne : (if world.memory.busy = true then 1 else 0) ≤ 1 := by split <;> omega
        simp only [World.taken, current, ne_eq, not_true_eq_false, decide_false, Bool.and_false,
          Bool.false_eq_true, if_false]
        omega
      · have fewer := (List.eraseIdx_sublist world.memory.requests index).countP_le
          (p := (·.generation = world.memory.callbackGeneration))
        simp only [World.taken, current, ne_eq, not_false_eq_true, decide_true, Bool.and_true]
        exact fewer.trans sound.single
    purpose other listed current := by
      obtain ⟨loaded, purpose⟩ := sound.purpose other (List.mem_of_mem_eraseIdx listed) current
      exact ⟨loaded, purpose.congr rfl rfl⟩ }

end

theorem Sound.fresh (profile : JsonObject) : Sound setting (World.fresh profile : World Hash) where
  past := nofun
  single := Nat.zero_le _
  purpose := nofun
  trial := nofun
  coherent := nofun
  staged := ⟨fun present => absurd rfl present, fun present => absurd rfl present,
    fun present => absurd rfl present, le_refl _, 0, rfl⟩
  stripped stored found := by
    cases found
    exact isStripped_withoutStorageServerId profile
  source := rfl

structure Authorized (setting : Setting Hash) (journal : Journal Hash) (offer : JsonObject)
    (authorization : Authorization Hash) : Prop where
  held : journal.recoveryAuthorization = some authorization
  positive : 0 < authorization.generation
  highest : journal.highestGeneration = some authorization.generation
  staged : journal.stagedGeneration = some authorization.generation
  generation : offer.value "generation" = .number authorization.generation
  target : journal.stagedTargetHash = some (setting.digest (offer.object "target"))
  nonce : journal.nonce ≠ ""
  newGrant : setting.hash journal.grant ≠ authorization.previousGrantHash

section

variable [DecidableEq Hash] {permits : Permits Hash}

variable {offer : JsonObject}

theorem authorized_of_allowed {source : Hash}
    (allowed : sameGenerationRecoveryAllowed setting.toServices journal offer source = true) :
    ∃ authorization, Authorized setting journal offer authorization := by
  unfold sameGenerationRecoveryAllowed at allowed
  split at allowed
  · cases allowed
  · rename_i authorization held
    simp only [Bool.and_eq_true, decide_eq_true_eq, isGeneration, and_assoc] at allowed
    obtain ⟨-, -, -, -, -, -, -, -, positive, -, -, highest, staged, generation, -, target, stagedTarget,
      nonce, -, -, -, newGrant⟩ := allowed
    have above (fallback : Rat) (negative : fallback < 0) : authorization.generation ≠ fallback :=
      (negative.trans positive).ne'
    exact ⟨authorization, held, positive, some_of_getD (above _ (by decide)) highest.symm,
      some_of_getD (above _ (by decide)) staged.symm,
      number_of_toDouble (above _ (by decide)) generation.symm,
      by rw [← stagedTarget, target], nonce, newGrant⟩

theorem truncate_nonneg {value : Rat} (nonneg : 0 ≤ value) : 0 ≤ truncate value :=
  Int.tdiv_nonneg (Rat.num_nonneg.mpr nonneg) (Int.natCast_nonneg _)

theorem requiredGeneration_ge {source : JsonObject}
    (staged : WellStaged setting journal) : -1 ≤ requiredGeneration setting journal offer source := by
  unfold requiredGeneration
  split
  · rename_i allowed
    obtain ⟨authorization, authorized⟩ := authorized_of_allowed allowed
    rw [authorized.generation]
    have := truncate_nonneg authorized.positive.le
    simp only [Json.toDouble]
    omega
  · have := truncate_nonneg staged.highest
    omega

theorem Begins.cases (begins : Begins setting world) (staged : WellStaged setting world.memory.journal) :
    ∃ generation, world.memory.journal.offer.value "generation" = .number generation ∧
      (world.memory.journal.highestGeneration.getD 0 < generation ∨
        ∃ authorization, Authorized setting world.memory.journal world.memory.journal.offer authorization ∧
          authorization.generation = generation) := by
  by_cases newer : (world.memory.journal.offer.value "generation").toDouble (-1) ≤
      world.memory.journal.highestGeneration.getD 0
  · have allowed := begins.newer
    simp only [newer, true_and, Bool.not_eq_true, Bool.not_eq_false'] at allowed
    obtain ⟨authorization, authorized⟩ := authorized_of_allowed allowed
    exact ⟨_, authorized.generation, .inr ⟨authorization, authorized, rfl⟩⟩
  · have above := lt_of_not_ge newer
    have negative : (-1 : Rat) < world.memory.journal.highestGeneration.getD 0 :=
      lt_of_lt_of_le (by decide) staged.highest
    have number := number_of_toDouble (negative.trans above).ne' rfl
    exact ⟨_, number, .inl above⟩

theorem Stages.wellStaged {seconds : Int} (stages : Stages setting permits world offer seconds)
    (staged : WellStaged setting world.memory.journal) :
    WellStaged setting { world.memory.journal.staged setting offer with state := some .staged } where
  generation _ := rfl
  target _ := rfl
  signer _ := stages.signer
  highest := staged.highest
  whole := by
    obtain ⟨generation, number, -, -⟩ :=
      validateOffer_generation (requiredGeneration_ge staged) stages.valid
    exact ⟨generation, congrArg (Option.getD · 0) (generationOf_of_number number)⟩

theorem Begins.wellStaged (begins : Begins setting world)
    (staged : WellStaged setting world.memory.journal) : WellStaged setting (trialJournal world) :=
  { staged with
    highest := by
      obtain ⟨generation, number, above⟩ := begins.cases staged
      have positive : 0 ≤ generation := by
        rcases above with newer | ⟨authorization, authorized, same⟩
        · exact staged.highest.trans newer.le
        · exact same ▸ authorized.positive.le
      simpa [trialJournal, recoveryJournalForTrial, generationOf_of_number number] using positive }

theorem swappedProfile_stripped {previous replacement after : JsonObject} {expected : Option Hash}
    (swapped : swappedProfile setting previous expected replacement = some after)
    (stripped : IsStripped replacement) : IsStripped after := by
  rcases swappedProfile_cases swapped with ⟨-, same, -⟩ | ⟨-, same, -⟩
  · rw [same]
    exact isStripped_withoutStorageServerId replacement
  · rw [same]
    exact stripped

theorem Sound.swapped (sound : Sound setting world) {before profile after : JsonObject} {seconds : Int}
    (commits : Commits setting world before profile after seconds) :
    Sound setting { world with
      profile := some after
      memory := { world.memory with sourceProfile := profile, trial := false }
      history := { world.history with
        commits := world.history.commits ++ [⟨before, after, world.journal, seconds⟩] } } := by
  have made : IsStripped profile := by
    rw [commits.made]
    exact isStripped_committedProfile setting sound.source _
  exact {
    past := sound.past
    single := sound.single
    purpose := fun pending listed current =>
      absurd current (sound.none_current commits.free pending listed)
    trial := fun active => absurd active Bool.false_ne_true
    coherent := sound.coherent
    staged := sound.staged
    stripped := fun stored found => by
      cases found
      exact swappedProfile_stripped commits.swapped made
    source := made }

theorem Sends.purpose (sends : Sends setting permits world request) :
    Purpose world request := by
  cases request with
  | bootstrap | offer => exact sends.toOpen
  | challenge | renew | acknowledge => exact sends

theorem Sound.sent (sound : Sound setting world) (free : world.memory.busy = false)
    (loaded : world.memory.loaded = true) (sends : Sends setting permits world request) :
    Sound setting { world with memory := { world.memory with
      busy := true
      requests := world.memory.requests ++ [⟨world.memory.callbackGeneration, request⟩] } } :=
  { sound with
    past pending listed := by
      rcases List.mem_append.mp listed with old | new
      · exact sound.past pending old
      · rw [List.mem_singleton.mp new]
    single := by
      have none := sound.single
      rw [free, if_neg Bool.false_ne_true] at none
      simp only [List.countP_append, List.countP_singleton, decide_true, if_true]
      omega
    purpose pending listed current := by
      rcases List.mem_append.mp listed with old | new
      · exact absurd current (sound.none_current free pending old)
      · rw [List.mem_singleton.mp new]
        exact ⟨loaded, sends.purpose.congr rfl rfl⟩ }

theorem Sound.cleaned (sound : Sound setting world) {profile : JsonObject} {token : String} {epoch : Nat}
    (cleans : Cleans setting world profile token epoch) :
    Sound setting (world.saved (recoveryJournalAfterCleanup setting.toServices world.journal token epoch)) := by
  have state := (sound.coherent cleans.loaded).state
  apply sound.saved
  · intro pending listed current
    obtain ⟨-, purpose⟩ := sound.purpose pending listed current
    cases shape : pending.request with
    | bootstrap | offer =>
      rw [shape] at purpose
      exact ⟨purpose.noTrial, by simp [World.saved, recoveryJournalAfterCleanup]⟩
    | challenge =>
      rw [shape] at purpose
      exact purpose
    | renew | acknowledge =>
      rw [shape] at purpose
      have pendingState := state.symm.trans purpose.pending
      rcases cleans.state with other | other <;> rw [pendingState] at other <;> cases other
  · exact fun active => (sound.trial active).2.2
  · exact fun _ => sound.staged.clear rfl rfl rfl

theorem Sound.begun (sound : Sound setting world) (begins : Begins setting world) :
    Sound setting
      { world.saved (trialJournal world) with
        memory := { world.memory with
          journal := trialJournal world, trial := true, initialRx := -1, initialTx := -1 }
        history := { world.history with
          trials := world.history.trials + 1
          attempts := world.history.attempts ++ [world.memory.journal.attempt setting world.history] } } := by
  rw [world.saved_of_loaded begins.loaded]
  exact {
    past := sound.past
    single := sound.single
    purpose := fun pending listed current =>
      absurd current (sound.none_current begins.free pending listed)
    trial := fun _ => ⟨begins.loaded, begins.source, begins.source⟩
    coherent := fun _ => .refl (trialJournal world)
    staged := begins.wellStaged (sound.memoryStaged begins.loaded)
    stripped := sound.stripped
    source := sound.source }

variable {before after : World Hash}

theorem Sound.keeps (sound : Sound setting before)
    (change : Change setting permits before after) : Sound setting after := by
  cases change with
  | restart =>
    exact {
      past := nofun
      single := Nat.zero_le _
      purpose := nofun
      trial := nofun
      coherent := nofun
      staged := sound.staged
      stripped := sound.stripped
      source := rfl }
  | quiet memory same => exact sound.quiet same
  | save => exact sound.saveMemory
  | advance busy => exact sound.advanced busy
  | leave free => exact sound.left free
  | settle state free settles =>
    exact sound.savedFree free (fun active => (sound.trial active).2.1)
      fun loaded => (sound.memoryStaged loaded).withState state
  | dropGrant free idle =>
    exact sound.revised free ⟨rfl, rfl, rfl, rfl, rfl, rfl, fun _ => rfl⟩ fun _ => rfl
  | draw nonce fingerprint free idle =>
    apply Sound.remembered
    exact sound.revised free ⟨rfl, rfl, rfl, rfl, rfl, rfl, fun _ => rfl⟩
      fun active => absurd active (idle.noTrial ▸ Bool.false_ne_true)
  | drawRenewal nonce => exact sound.remembered _
  | enroll grant signer containerId serverPublicKey peerPublicKey expiresAt free idle known pinned =>
    apply Sound.remembered
    exact sound.revised free
      ⟨rfl, rfl, rfl, rfl, rfl, rfl, fun present => (pinned.resolve_left present).symm⟩ fun _ => rfl
  | stage offer seconds stages =>
    exact sound.savedFree stages.free (fun active => (sound.trial active).2.1)
      fun loaded => stages.wellStaged (sound.memoryStaged loaded)
  | expire free noTrial staged =>
    exact sound.savedFree free (fun active => (sound.trial active).2.1)
      fun loaded => (sound.memoryStaged loaded).clear rfl rfl rfl
  | rebase free noTrial staged =>
    exact sound.revised free ⟨rfl, rfl, rfl, rfl, rfl, rfl, fun _ => rfl⟩
      fun active => absurd active (noTrial ▸ Bool.false_ne_true)
  | prove envelope free trial =>
    exact sound.revised free ⟨rfl, rfl, rfl, rfl, rfl, rfl, fun _ => rfl⟩ fun _ => rfl
  | choose candidate free trial =>
    exact sound.revised free ⟨rfl, rfl, rfl, rfl, rfl, rfl, fun _ => rfl⟩ fun _ => rfl
  | commit stored profile swapped seconds commits permitted => exact sound.swapped commits
  | grant grant => exact sound.remembered _
  | renew grant expiresAt free acknowledging known =>
    apply Sound.remembered
    apply sound.savedFree free
    · exact fun active => (sound.trial active).2.1
    · intro loaded
      have staged := sound.memoryStaged loaded
      exact ⟨staged.generation, staged.target, staged.signer, staged.highest, staged.whole⟩
  | spend begins =>
    apply Sound.remembered
    exact sound.savedFree begins.free (fun active => (sound.trial active).2.1)
      fun loaded => begins.wellStaged (sound.memoryStaged loaded)
  | begin begins => exact sound.begun begins
  | cleanup profile token epoch returned cleans permitted => exact (sound.cleaned cleans).remembered _
  | load free noTrial => exact sound.loaded free noTrial
  | send request free loaded sends => exact sound.sent free loaded sends
  | take index pending found => exact sound.taken found
  | edit profile permitted =>
    apply sound.reprofiled
    intro stored found
    cases found
    exact isStripped_withoutStorageServerId profile
  | remove permitted => exact sound.reprofiled nofun

theorem Sound.reached (sound : Sound setting before)
    (reached : (changes setting permits).Reaches before after) : Sound setting after :=
  Changes.Reaches.keeps (fun _ _ held change => held.keeps change) reached sound

end

end Amnezia.Migration
