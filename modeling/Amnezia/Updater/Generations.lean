import Amnezia.Updater.Following

/-! # Accepted generations -/

namespace Amnezia.Updater
open Lib

variable {Digest : Type} {environment : Environment Digest}

structure Floor (environment : Environment Digest) (world : World Digest) : Prop where
  resting : world.live = false → world.settings.generation.poisoned = false
  positive : ∀ payload generation, .accepted payload ∈ world.log →
    payloadGeneration environment payload = some generation → 0 < generation
  observed : ∀ payload generation, .accepted payload ∈ world.log →
    payloadGeneration environment payload = some generation → world.live = true →
      generation ≤ world.memory.highestObservedPolicyGeneration
  stored : ∀ payload generation, .accepted payload ∈ world.log →
    payloadGeneration environment payload = some generation →
      ∃ floor, world.settings.generation.stored = some floor ∧ generation ≤ floor
  bound : ∀ payload generation other, .accepted payload ∈ world.log →
    payloadGeneration environment payload = some generation →
      world.settings.generation.stored = some generation →
      world.settings.payload.stored = some (environment.sha256 other) →
      payloadGeneration environment other = some generation → other = payload

def Supersedes (environment : Environment Digest) (first second : Event Digest) : Prop :=
  ∀ payload later generation, first = .accepted payload → second = .accepted later →
    payloadGeneration environment payload = some generation →
      ∃ next, payloadGeneration environment later = some next ∧ generation ≤ next ∧
        (next = generation → later = payload)

variable {before after : World Digest}

theorem Floor.same (held : Floor environment before)
    (accepted : ∀ payload, .accepted payload ∈ after.log → .accepted payload ∈ before.log)
    (resting : after.live = false → after.settings.generation.poisoned = false)
    (running : after.live = true → before.live = true ∧
      after.memory.highestObservedPolicyGeneration = before.memory.highestObservedPolicyGeneration)
    (generation : after.settings.generation.stored = before.settings.generation.stored)
    (payload : after.settings.payload.stored = before.settings.payload.stored) :
    Floor environment after where
  resting := resting
  positive bytes number listed := held.positive bytes number (accepted bytes listed)
  observed := by
    intro bytes number listed states live
    obtain ⟨alive, highest⟩ := running live
    rw [highest]
    exact held.observed bytes number (accepted bytes listed) states alive
  stored := by
    intro bytes number listed
    rw [generation]
    exact held.stored bytes number (accepted bytes listed)
  bound := by
    intro bytes number other listed
    rw [generation, payload]
    exact held.bound bytes number other (accepted bytes listed)

variable {payload : Bytes} {world : World Digest} {generation : Int} {log : List (Event Digest)}

theorem accepted_of_snoc {event : Event Digest}
    (listed : .accepted payload ∈ log ++ [event]) (other : event ≠ .accepted payload) :
    .accepted payload ∈ log := by
  rcases List.mem_append.mp listed with early | last
  · exact early
  · exact absurd (List.mem_singleton.mp last).symm other

section

variable (held : Floor environment world)
include held

theorem Floor.generation_written
    (live : world.live = true) (ahead : world.memory.highestObservedPolicyGeneration < generation)
    (outcome : Outcome) : Floor environment (world.writeGeneration generation outcome) := by
  have below : ∀ payload number, .accepted payload ∈ world.log →
      payloadGeneration environment payload = some number → number < generation := by
    intro payload number listed states
    exact Int.lt_of_le_of_lt (held.observed payload number listed states live) ahead
  cases outcome with
  | failed =>
    exact held.same (fun _ listed => listed) (fun stopped => absurd (live.symm.trans stopped) nofun)
      (fun live => ⟨live, rfl⟩) rfl rfl
  | done =>
    refine ⟨fun _ => rfl, held.positive, held.observed, ?_, ?_⟩
    · intro payload number listed states
      exact ⟨generation, rfl, Int.le_of_lt (below payload number listed states)⟩
    · intro payload number other listed states same
      cases same
      exact absurd (below payload _ listed states) (Int.lt_irrefl _)

theorem Floor.payload_written (live : world.live = true)
    (states : payloadGeneration environment payload = some generation)
    (ahead : world.memory.highestObservedPolicyGeneration < generation) (outcome : Outcome) :
    Floor environment (world.writePayload (environment.sha256 payload) outcome) := by
  cases outcome with
  | failed => exact held.same (fun _ listed => listed) held.resting (fun live => ⟨live, rfl⟩) rfl rfl
  | done =>
    refine ⟨held.resting, held.positive, held.observed, held.stored, ?_⟩
    intro old number other listed oldStates _ digest otherStates
    have same : payload = other := environment.sha256_injective (Option.some.inj digest)
    subst same
    have observed := held.observed old number listed oldStates live
    rw [states] at otherStates
    cases otherStates
    omega

theorem Floor.started (version : Version) (stopped : world.live = false) : Floor environment { world with
      live := true
      memory :=
        { running := version
          highestObservedPolicyGeneration := max 0 (world.settings.generation.read.getD 0) } } := by
  refine ⟨nofun, held.positive, ?_, held.stored, held.bound⟩
  intro payload generation listed states _
  obtain ⟨floor, stored, above⟩ := held.stored payload generation listed states
  have read : world.settings.generation.read = some floor := by
    rw [Setting.read, held.resting stopped]
    exact stored
  rw [read, Option.getD_some]
  exact Int.le_trans above (Int.le_max_right _ _)

theorem Floor.accepts (live : world.live = true)
    (states : payloadGeneration environment payload = some generation) (positive : 0 < generation)
    (floor : world.memory.highestObservedPolicyGeneration ≤ generation)
    (stored : world.settings.generation.stored = some generation)
    (bound : world.settings.payload.stored = some (environment.sha256 payload)) :
    Floor environment { world with
      memory := { world.memory with highestObservedPolicyGeneration := generation }
      log := world.log ++ [.accepted payload] } := by
  have split : ∀ bytes, .accepted bytes ∈ world.log ++ [Event.accepted payload] →
      .accepted bytes ∈ world.log ∨ bytes = payload := by
    intro bytes listed
    simpa using listed
  refine ⟨held.resting, ?_, ?_, ?_, ?_⟩
  · intro bytes number listed known
    rcases split bytes listed with early | rfl
    · exact held.positive bytes number early known
    · rwa [Option.some.inj (known.symm.trans states)]
  · intro bytes number listed known _
    rcases split bytes listed with early | rfl
    · exact Int.le_trans (held.observed bytes number early known live) floor
    · exact Int.le_of_eq (Option.some.inj (known.symm.trans states))
  · intro bytes number listed known
    rcases split bytes listed with early | rfl
    · exact held.stored bytes number early known
    · exact ⟨generation, stored, Int.le_of_eq (Option.some.inj (known.symm.trans states))⟩
  · intro bytes number other listed known same digest otherKnown
    rcases split bytes listed with early | rfl
    · exact held.bound bytes number other early known same digest otherKnown
    · exact environment.sha256_injective (Option.some.inj (digest.symm.trans bound))

theorem Floor.accepts_legacy (legacy : payloadGeneration environment payload = none) :
    Floor environment { world with log := world.log ++ [.accepted payload] } := by
  have earlier : ∀ bytes number, .accepted bytes ∈ world.log ++ [Event.accepted payload] →
      payloadGeneration environment bytes = some number → .accepted bytes ∈ world.log := by
    intro bytes number listed known
    refine accepted_of_snoc listed fun same => ?_
    cases same
    exact absurd (legacy.symm.trans known) nofun
  refine ⟨held.resting, ?_, ?_, ?_, ?_⟩
  · intro bytes number listed known
    exact held.positive bytes number (earlier bytes number listed known) known
  · intro bytes number listed known
    exact held.observed bytes number (earlier bytes number listed known) known
  · intro bytes number listed known
    exact held.stored bytes number (earlier bytes number listed known) known
  · intro bytes number other listed known
    exact held.bound bytes number other (earlier bytes number listed known) known

theorem Floor.supersedes (live : world.live = true)
    (states : payloadGeneration environment payload = some generation)
    (floor : world.memory.highestObservedPolicyGeneration ≤ generation)
    (stored : world.settings.generation.stored = some generation)
    (bound : world.settings.payload.stored = some (environment.sha256 payload)) :
    ∀ event ∈ world.log, Supersedes environment event (.accepted payload) := by
  rintro event listed first later number rfl same known
  cases same
  refine ⟨generation, states, Int.le_trans (held.observed first number listed known live) floor, ?_⟩
  rintro rfl
  exact held.bound first _ payload listed known stored bound states

theorem Floor.legacy_first (live : world.live = true)
    (unbound : world.memory.highestObservedPolicyGeneration ≤ 0) (payload : Bytes)
    (listed : .accepted payload ∈ world.log) : payloadGeneration environment payload = none := by
  cases known : payloadGeneration environment payload with
  | none => rfl
  | some generation =>
    have observed := held.observed payload generation listed known live
    have positive := held.positive payload generation listed known
    omega

end

structure Ordered (environment : Environment Digest) (world : World Digest) : Prop where
  floor : Floor environment world
  ordered : world.log.Pairwise (Supersedes environment)

theorem pairwise_snoc {event : Event Digest} (ordered : log.Pairwise (Supersedes environment))
    (last : ∀ earlier ∈ log, Supersedes environment earlier event) :
    (log ++ [event]).Pairwise (Supersedes environment) := by
  refine List.pairwise_append.mpr ⟨ordered, List.pairwise_singleton _ _, ?_⟩
  intro earlier listed later same
  rw [List.mem_singleton.mp same]
  exact last earlier listed

theorem Untouched.floor (same : Untouched before after)
    (held : Floor environment before) : Floor environment after := by
  obtain ⟨live, generation, payload, observed, events, log, silent⟩ := same
  refine held.same (fun bytes listed => ?_) (fun stopped => ?_) (fun alive => ⟨live ▸ alive, observed⟩)
    (by rw [generation]) (by rw [payload])
  · rw [log] at listed
    exact (List.mem_append.mp listed).resolve_right (silent bytes)
  · rw [generation]
    exact held.resting (live ▸ stopped)

theorem Untouched.ordered (same : Untouched before after)
    (ordered : before.log.Pairwise (Supersedes environment)) : after.log.Pairwise (Supersedes environment) := by
  obtain ⟨-, -, -, -, events, log, silent⟩ := same
  have other (first : Event Digest) {second : Event Digest} (listed : second ∈ events) :
      Supersedes environment first second := by
    rintro payload later generation - rfl
    exact absurd listed (silent later)
  rw [log]
  refine List.pairwise_append.mpr ⟨ordered, ?_, fun first _ second listed => other first listed⟩
  refine List.pairwise_iff_forall_sublist.mpr fun {first second} pair => other first ?_
  exact pair.subset (List.mem_cons_of_mem _ List.mem_cons_self)

theorem Change.floor (change : Change environment before after)
    (held : Floor environment before) : Floor environment after := by
  cases change with
  | untouched same => exact same.floor held
  | restarted => exact held.same (fun _ listed => listed) (fun _ => rfl) nofun rfl rfl
  | reloaded => exact held.same (fun _ listed => listed) (fun _ => rfl) (fun live => ⟨live, rfl⟩) rfl rfl
  | started version stopped => exact held.started version stopped
  | rewroteGeneration live same outcome =>
    refine held.same (fun _ listed => listed) (fun stopped => absurd (live.symm.trans stopped) nofun)
      (fun live => ⟨live, rfl⟩) ?_ rfl
    cases outcome with
    | done => exact same.symm
    | failed => rfl
  | rewrotePayload same outcome =>
    refine held.same (fun _ listed => listed) held.resting (fun live => ⟨live, rfl⟩) rfl ?_
    cases outcome with
    | done => exact same.symm
    | failed => rfl
  | advancedGeneration live ahead outcome => exact held.generation_written live ahead outcome
  | advancedPayload live states ahead outcome => exact held.payload_written live states ahead outcome
  | accepted live states positive floor stored bound => exact held.accepts live states positive floor stored bound
  | acceptedLegacy live unbound legacy => exact held.accepts_legacy legacy

theorem Change.ordered (change : Change environment before after)
    (held : Floor environment before) (ordered : before.log.Pairwise (Supersedes environment)) :
    after.log.Pairwise (Supersedes environment) := by
  cases change with
  | untouched same => exact same.ordered ordered
  | accepted live states positive floor stored bound =>
    exact pairwise_snoc ordered (held.supersedes live states floor stored bound)
  | acceptedLegacy live unbound legacy =>
    refine pairwise_snoc ordered ?_
    rintro event listed payload later generation rfl - known
    rw [held.legacy_first live unbound payload listed] at known
    exact absurd known nofun
  | _ => exact ordered

theorem Ordered.step [DecidableEq Digest] {label : Label} (held : Ordered environment before)
    (step : (program environment).Step before label after) : Ordered environment after := by
  have reached : (changes environment).Reaches before after := Changes.reaches_of_step rfl step enter_follows
  refine reached.keeps ?_ held
  intro first second held change
  exact ⟨change.floor held.floor, change.ordered held.floor held.ordered⟩

theorem ordered_restarted (fresh : world.log = []) :
    Ordered environment world.restarted := by
  have empty : world.restarted.log = [] := fresh
  refine ⟨⟨fun _ => rfl, ?_, ?_, ?_, ?_⟩, ?_⟩
  · intro payload generation listed
    exact absurd (empty ▸ listed) List.not_mem_nil
  · intro payload generation listed
    exact absurd (empty ▸ listed) List.not_mem_nil
  · intro payload generation listed
    exact absurd (empty ▸ listed) List.not_mem_nil
  · intro payload generation other listed
    exact absurd (empty ▸ listed) List.not_mem_nil
  · rw [empty]
    exact List.Pairwise.nil

-- A start with any stored pair: what is accepted after a payload of schema 2 is of schema 2, of no lower
-- generation, and of the same generation only if it is the same payload.
theorem accepted_policy_never_goes_back [DecidableEq Digest] {world after : World Digest} {labels : List Label}
    (fresh : world.log = []) (run : Run (program environment).Step world.restarted labels after)
    {earlier between rest : List (Event Digest)} {payload later : Bytes} {generation : Int}
    (history : after.log = earlier ++ .accepted payload :: (between ++ .accepted later :: rest))
    (states : payloadGeneration environment payload = some generation) :
    ∃ next, payloadGeneration environment later = some next ∧ generation ≤ next ∧
      (next = generation → later = payload) := by
  have held : Ordered environment after :=
    run.invariant (I := fun _ => Ordered environment) (fun _ _ _ _ held step => held.step step) []
      (ordered_restarted fresh)
  have ordered := held.ordered
  rw [history] at ordered
  have tail := (List.pairwise_append.mp ordered).2.1
  have follows := (List.pairwise_cons.mp tail).1 (.accepted later)
    (List.mem_append_right _ List.mem_cons_self)
  exact follows payload later generation rfl rfl states

namespace Sample

def policy (generation : Int) : PolicyDocument Bytes where
  wellFormed := true
  generation := generation
  rolloutPercentage := 100
  minimumVersion := none
  maximumVersion := none
  healthDeadlineSeconds := 60
  generatedAt := 0
  expiresAt := 1000000000
  previousVersion := some [1]
  rollback := some ⟨some [1], [("linux", some ⟨"old", some [7], some 1, false⟩)]⟩

def plain : Environment Bytes where
  sha256 := id
  sha256_injective := Function.injective_id
  decode payload := some ⟨2, .value (policy payload.length), some [2],
    some [("linux", some ⟨"new", some [8], some 1, false⟩)]⟩
  platformCandidates := ["linux"]
  resolvedArtifactUrl _ path := some path
  isHttpOrHttpsUrl _ := true
  isAllowedExternalUpdateUrl _ := true
  samePinnedUrl expected actual := expected = actual
  inCohort _ := true

def empty : World Bytes := ⟨{}, {}, false, 0, 0, []⟩

def advance : List Label :=
  [⟨0, .start [1]⟩, ⟨1, .check⟩, ⟨2, .reply "manifest" (some [1]) false⟩, ⟨3, .check⟩,
    ⟨4, .reply "manifest" (some [1, 1]) false⟩]

end Sample

theorem accepted_policy_never_goes_back_sample :
    ∃ next, payloadGeneration Sample.plain [1, 1] = some next ∧ 1 ≤ next ∧
      (next = 1 → ([1, 1] : Bytes) = [1]) :=
  have history : ((program Sample.plain).execute Sample.empty Sample.advance).log =
      [.verified [1]] ++ .accepted [1] :: ([.verified [1, 1]] ++ .accepted [1, 1] :: []) := rfl
  have fresh : Sample.empty.log = [] := rfl
  accepted_policy_never_goes_back fresh ((program Sample.plain).run_execute Sample.empty Sample.advance)
    history rfl

end Amnezia.Updater
