import Amnezia.Server.ControlMaintenance

/-! # Maintenance is all or nothing -/

namespace Amnezia.Server
open Lib Procedure

variable {Bytes Hash : Type}

section

variable {conditions : Conditions (Controls Bytes Hash) CallOutcome} {world : Controls Bytes Hash}
  {rest : ControlAction Bytes Hash Bool} {after : Bool → Controls Bytes Hash → Prop}

theorem ensures_after_call (here : conditions.invariant world) (raised : after false world)
    (returned : Ensures conditions rest after world) : Ensures conditions (orRaise call rest) after world := by
  apply Ensures.bind
  apply Ensures.perform
  intro outcome _
  refine ⟨here, ?_⟩
  cases outcome with
  | returns => exact returned
  | raises | raisesLate => exact Ensures.pure raised

section

variable {change : Controls Bytes Hash → Controls Bytes Hash}
  (raised : ∀ later, conditions.invariant later → after false later)
  (old : conditions.invariant world) (new : conditions.invariant (change world))
include raised old new

theorem ensures_write (returned : after true (change world)) : Ensures conditions (write change) after world := by
  apply Ensures.perform
  intro outcome _
  cases outcome with
  | returns => exact ⟨new, returned⟩
  | raises => exact ⟨old, raised _ old⟩
  | raisesLate => exact ⟨new, raised _ new⟩

theorem ensures_after_write (returned : Ensures conditions rest after (change world)) :
    Ensures conditions (orRaise (write change) rest) after world := by
  apply Ensures.bind
  apply ensures_write (fun later held => Ensures.pure (raised later held)) old new
  exact returned

end

end

structure Files (before next : Pair Bytes) (world : Controls Bytes Hash) : Prop where
  backup : readBackup world.backup = some before
  service : world.installed.service = before.service ∨ world.installed.service = next.service
  target : world.installed.target = before.target ∨ world.installed.target = next.target

structure Underway (recipes : Recipes Bytes Hash) (before next : Pair Bytes) (world : Controls Bytes Hash) :
    Prop extends Files before next world where
  recorded : ∃ receipt, world.stored.controlMaintenance =
    some ⟨controlHashes recipes before, controlHashes recipes next, receipt⟩

theorem Underway.of_files {recipes : Recipes Bytes Hash} {before next : Pair Bytes}
    {world later : Controls Bytes Hash} (underway : Underway recipes before next world)
    (stored : later.stored = world.stored) (files : Files before next later) : Underway recipes before next later :=
  ⟨files, stored ▸ underway.recorded⟩

variable [DecidableEq Hash] (recipes : Recipes Bytes Hash)

structure Settled (pair : Pair Bytes) (world : Controls Bytes Hash) : Prop where
  unrecorded : world.stored.controlMaintenance = none
  installed : world.installed = pair
  pinned : isPinned recipes world.stored (controlHashes recipes pair) = true

def Whole (before next : Pair Bytes) (world : Controls Bytes Hash) : Prop :=
  Settled recipes before world ∨ Settled recipes next world ∨ Underway recipes before next world

def maintaining (before next : Pair Bytes) : Conditions (Controls Bytes Hash) CallOutcome where
  allowed _ := True
  usual := trivial
  invariant := Whole recipes before next

variable {recipes} {world : Controls Bytes Hash} {before next : Pair Bytes}

theorem Whole.withValue (whole : Whole recipes before next world) (value : ControlValue Hash) :
    Whole recipes before next { world with value := value } := by
  rcases whole with settled | settled | underway
  · exact .inl ⟨settled.unrecorded, settled.installed, settled.pinned⟩
  · exact .inr (.inl ⟨settled.unrecorded, settled.installed, settled.pinned⟩)
  · exact .inr (.inr (underway.of_files rfl ⟨underway.backup, underway.service, underway.target⟩))

theorem Files.isKnown (files : Files before next world) {receipt : Bool} :
    isKnown ⟨controlHashes recipes before, controlHashes recipes next, receipt⟩
      (controlHashes recipes world.installed) = true := by
  have service := files.service.imp (congrArg recipes.digest) (congrArg recipes.digest)
  have target := files.target.imp (congrArg recipes.digest) (congrArg recipes.digest)
  simp only [Server.isKnown, Bool.and_eq_true, Bool.or_eq_true, decide_eq_true_eq]
  exact ⟨service, target⟩

inductive Recovered (recipes : Recipes Bytes Hash) (before next : Pair Bytes) (world : Controls Bytes Hash) :
    Bool → Prop where
  | restored (settled : Settled recipes before world)
      (pinned : world.stored.controlRecipe = some (controlHashes recipes before))
      (loaded : world.value = world.stored) : Recovered recipes before next world true
  | raised (whole : Whole recipes before next world) : Recovered recipes before next world false

theorem isPinned_of_recipe {value : ControlValue Hash} {hashes : Pair Hash}
    (recorded : value.controlRecipe = some hashes) : isPinned recipes value hashes = true := by
  simp [isPinned, recorded]

variable {receipt : Bool} {after : Controls Bytes Hash}

section

variable (underway : Underway recipes before next world)
include underway

theorem Underway.ensures_finishRecovery (installed : world.installed = before) :
    Ensures (maintaining recipes before next)
      (finishRecovery ⟨controlHashes recipes before, controlHashes recipes next, receipt⟩)
      (fun returned later => Recovered recipes before next later returned) world := by
  have here : Whole recipes before next world := .inr (.inr underway)
  apply ensures_after_call here (.raised here)
  apply ensures_after_call here (.raised here)
  apply Ensures.bind
  apply Ensures.update
  apply ensures_write fun _ => .raised
  · exact here.withValue _
  · exact .inl ⟨rfl, installed, isPinned_of_recipe rfl⟩
  · exact .restored ⟨rfl, installed, isPinned_of_recipe rfl⟩ rfl rfl

theorem Underway.ensures_rollBack :
    Ensures (maintaining recipes before next)
      (rollBack recipes ⟨controlHashes recipes before, controlHashes recipes next, receipt⟩)
      (fun returned later => Recovered recipes before next later returned) world := by
  have first : Underway recipes before next
      { world with installed := { world.installed with service := before.service } } :=
    underway.of_files rfl ⟨underway.backup, .inl rfl, underway.target⟩
  have second : Underway recipes before next { world with installed := before } :=
    underway.of_files rfl ⟨underway.backup, .inl rfl, .inl rfl⟩
  apply Ensures.bind
  apply Ensures.read
  simp only [id, underway.isKnown, underway.backup, Bool.not_true, Bool.false_eq_true, if_false, ne_eq,
    not_true_eq_false]
  apply ensures_after_write fun _ => .raised
  · exact .inr (.inr underway)
  · exact .inr (.inr first)
  · apply ensures_after_write fun _ => .raised
    · exact .inr (.inr first)
    · exact .inr (.inr second)
    · exact second.ensures_finishRecovery rfl

theorem Underway.ensures_recover (loaded : world.value = world.stored) :
    Ensures (maintaining recipes before next) (recoverControlMaintenance recipes)
      (fun returned later => Recovered recipes before next later returned) world := by
  obtain ⟨receipt, recorded⟩ := underway.recorded
  have here : Whole recipes before next world := .inr (.inr underway)
  apply Ensures.bind
  apply Ensures.read
  rw [loaded, recorded]
  apply ensures_after_call here (.raised here)
  apply ensures_after_call here (.raised here)
  exact underway.ensures_rollBack

end

theorem ensures_recover_unrecorded {conditions : Conditions (Controls Bytes Hash) CallOutcome}
    (unrecorded : world.value.controlMaintenance = none) :
    Ensures conditions (recoverControlMaintenance recipes)
      (fun returned later => returned = true ∧ later = world) world := by
  apply Ensures.bind
  apply Ensures.read
  rw [unrecorded]
  exact Ensures.pure ⟨rfl, rfl⟩

theorem Settled.ensures_keepRecipe (settled : Settled recipes before world) (loaded : world.value = world.stored) :
    Ensures (maintaining recipes before next) (keepRecipe (controlHashes recipes before))
      (fun _ => Whole recipes before next) world := by
  have here : Whole recipes before next world := .inl settled
  have unrecorded : world.value.controlMaintenance = none := loaded ▸ settled.unrecorded
  have kept : Settled recipes before
      { world with
        value := { world.value with
          controlRecipe := some (controlHashes recipes before)
          controlLoadedReceipt := true }
        stored := { world.value with
          controlRecipe := some (controlHashes recipes before), controlLoadedReceipt := true } } :=
    ⟨unrecorded, settled.installed, isPinned_of_recipe rfl⟩
  apply ensures_after_call here here
  apply ensures_after_call here here
  apply ensures_after_call here here
  apply Ensures.bind
  apply Ensures.update
  exact ensures_write (fun _ => id) (here.withValue _) (.inl kept) (.inl kept)

def Revocable (recipes : Recipes Bytes Hash) (before next : Pair Bytes) (world : Controls Bytes Hash) : Prop :=
  Files before next world ∧ Whole recipes before next world

theorem Underway.revocable (underway : Underway recipes before next world) :
    Revocable recipes before next world :=
  ⟨underway.toFiles, .inr (.inr underway)⟩

theorem Underway.ensures_activate (underway : Underway recipes before next world) :
    Ensures (maintaining recipes before next) (activate recipes next (controlHashes recipes next))
      (fun _ => Revocable recipes before next) world := by
  have first : Underway recipes before next
      { world with installed := { world.installed with service := next.service } } :=
    underway.of_files rfl ⟨underway.backup, .inr rfl, underway.target⟩
  have second : Underway recipes before next { world with installed := next } :=
    underway.of_files rfl ⟨underway.backup, .inr rfl, .inr rfl⟩
  have followed : Ensures ((maintaining recipes before next).keeping (Revocable recipes before next))
      (activate recipes next (controlHashes recipes next)) (fun _ => Revocable recipes before next) world := by
    apply ensures_after_write (fun _ => id) underway.revocable first.revocable
    apply ensures_after_write (fun _ => id) first.revocable second.revocable
    apply ensures_after_call second.revocable second.revocable
    apply ensures_after_call second.revocable second.revocable
    apply ensures_after_call second.revocable second.revocable
    apply Ensures.bind
    apply Ensures.read
    simp only [ne_eq, not_true_eq_false, if_false]
    apply Ensures.bind
    apply Ensures.update
    have updated (value : ControlValue Hash) (unrecorded : value.controlMaintenance = none)
        (recorded : value.controlRecipe = some (controlHashes recipes next)) :
        Revocable recipes before next { world with installed := next, value := value, stored := value } :=
      ⟨⟨underway.backup, .inr rfl, .inr rfl⟩, .inr (.inl ⟨unrecorded, rfl, isPinned_of_recipe recorded⟩)⟩
    exact ensures_write (fun _ => id) ⟨⟨underway.backup, .inr rfl, .inr rfl⟩, second.revocable.2.withValue _⟩
      (updated _ rfl rfl) (updated _ rfl rfl)
  exact Ensures.weaken followed fun _ held => held.2

-- After a final save that raised late the record is written again, over an update that is already stored.
theorem Underway.ensures_activateOrRollBack (underway : Underway recipes before next world) :
    Ensures (maintaining recipes before next)
      (activateOrRollBack recipes next ⟨controlHashes recipes before, controlHashes recipes next, receipt⟩)
      (fun _ => Whole recipes before next) world := by
  apply underway.ensures_activate.call
  rintro activated later ⟨files, whole⟩
  cases activated with
  | true => exact Ensures.pure whole
  | false =>
    apply Ensures.bind
    apply Ensures.update
    have again (value : ControlValue Hash) (recorded : value.controlMaintenance =
        some ⟨controlHashes recipes before, controlHashes recipes next, receipt⟩) :
        Underway recipes before next { later with value := value, stored := value } :=
      ⟨⟨files.backup, files.service, files.target⟩, receipt, recorded⟩
    have recovered (value : ControlValue Hash) (recorded : value.controlMaintenance =
        some ⟨controlHashes recipes before, controlHashes recipes next, receipt⟩) :
        Ensures (maintaining recipes before next) (orRaise save (recoverControlMaintenance recipes))
          (fun returned later => Recovered recipes before next later returned) { later with value := value } :=
      ensures_after_write (fun _ => .raised) (whole.withValue _) (.inr (.inr (again _ recorded)))
        ((again _ recorded).ensures_recover rfl)
    apply (recovered _ rfl).call
    rintro returned last (⟨settled, -, -⟩ | whole)
    · exact Ensures.pure (.inl settled)
    · exact Ensures.pure whole

section

variable (settled : Settled recipes before world)
include settled

theorem Settled.ensures_replaceRecipe :
    Ensures (maintaining recipes before next)
      (replaceRecipe recipes next (controlHashes recipes before) (controlHashes recipes next))
      (fun _ => Whole recipes before next) world := by
  have service := congrArg Pair.service settled.installed
  have target := congrArg Pair.target settled.installed
  have kept (backup : Pair (Option Bytes)) (value : ControlValue Hash) :
      Whole recipes before next { world with backup := backup, value := value } :=
    .inl ⟨settled.unrecorded, settled.installed, settled.pinned⟩
  have begun (value : ControlValue Hash) (recorded : value.controlMaintenance = some ⟨controlHashes recipes before,
      controlHashes recipes next, world.value.controlLoadedReceipt⟩) : Underway recipes before next
      { world with backup := ⟨some before.service, some before.target⟩, value := value, stored := value } :=
    ⟨⟨rfl, .inl service, .inl target⟩, _, recorded⟩
  have here : Whole recipes before next world := .inl settled
  apply Ensures.bind
  apply Ensures.read
  simp only [id, settled.installed]
  apply ensures_after_call here here
  apply ensures_after_write (fun _ => id) here (kept _ _)
  apply ensures_after_write (fun _ => id) (kept _ _) (kept _ _)
  apply Ensures.bind
  apply Ensures.update
  exact ensures_after_write (fun _ => id) (kept _ _) (.inr (.inr (begun _ rfl)))
    (begun _ rfl).ensures_activateOrRollBack

theorem Settled.ensures_refresh (loaded : world.value = world.stored) :
    Ensures (maintaining recipes before next) (refreshControls recipes next)
      (fun _ => Whole recipes before next) world := by
  have here : Whole recipes before next world := .inl settled
  apply ensures_after_call here here
  apply ensures_after_call here here
  apply ensures_after_call here here
  apply Ensures.bind
  apply Ensures.read
  simp only [id, settled.installed, loaded, settled.pinned, Bool.not_true, Bool.false_eq_true, if_false]
  apply ensures_after_call here here
  split
  · exact settled.ensures_keepRecipe loaded
  · exact settled.ensures_replaceRecipe

theorem Settled.ensures_maintain (loaded : world.value = world.stored) :
    Ensures (maintaining recipes before next) (maintainControls recipes next)
      (fun _ => Whole recipes before next) world := by
  have unrecorded : world.value.controlMaintenance = none := loaded ▸ settled.unrecorded
  apply (ensures_recover_unrecorded unrecorded).call
  rintro _ _ ⟨rfl, rfl⟩
  exact settled.ensures_refresh loaded

end

theorem Whole.ensures_recover (whole : Whole recipes before next world) (loaded : world.value = world.stored) :
    Ensures (maintaining recipes before next) (recoverControlMaintenance recipes)
      (fun returned later => Whole recipes before next later ∧
        (returned = true → world.stored.controlMaintenance ≠ none →
          Settled recipes before later ∧
            later.stored.controlRecipe = some (controlHashes recipes before))) world := by
  have kept (unrecorded : world.stored.controlMaintenance = none) :
      Ensures (maintaining recipes before next) (recoverControlMaintenance recipes)
        (fun returned later => Whole recipes before next later ∧
          (returned = true → world.stored.controlMaintenance ≠ none →
            Settled recipes before later ∧ later.stored.controlRecipe = some (controlHashes recipes before)))
        world := by
    apply (ensures_recover_unrecorded (loaded ▸ unrecorded)).mono
    rintro _ _ ⟨-, rfl⟩
    exact ⟨whole, fun _ recorded => absurd unrecorded recorded⟩
  rcases whole with settled | settled | underway
  · exact kept settled.unrecorded
  · exact kept settled.unrecorded
  · apply (underway.ensures_recover loaded).mono
    rintro _ later (⟨settled, pinned, -⟩ | whole)
    · exact ⟨.inl settled, fun _ _ => ⟨settled, pinned⟩⟩
    · exact ⟨whole, nofun⟩

/-! ## Runs

The durable invariant needs that a call works on the journal as it is stored: an object whose save has raised
is not used again, the next call loads the journal. -/

def FreshStep (recipes : Recipes Bytes Hash) (world : Controls Bytes Hash) (call : ControlCall Bytes)
    (after : Controls Bytes Hash) : Prop :=
  (controls recipes).Step world call after ∧ (call = .load ∨ world.value = world.stored)

variable {I : Controls Bytes Hash → Prop} {call : ControlCall Bytes}

theorem step_of_ensures (reloads : ∀ world value, I world → I { world with value := value })
    (step : (controls recipes).Step world call after)
    (followed : Ensures ⟨fun _ => True, trivial, I⟩ (call.run recipes) (fun _ => I) world) : I after := by
  cases step with
  | finish outcomes => exact (followed outcomes fun _ _ => trivial).2.1
  | stop outcomes passed => exact reloads _ _ ((followed outcomes fun _ _ => trivial).1 _ passed)

theorem ensures_quietly {action : ControlAction Bytes Hash Bool}
    (followed : Ensures (maintaining recipes before next) action (fun _ => I) world)
    (implies : ∀ stopped, Whole recipes before next stopped → I stopped) :
    Ensures ⟨fun _ => True, trivial, I⟩ (do let _ ← action; return) (fun _ => I) world := by
  have weaker : Ensures ⟨fun _ => True, trivial, I⟩ action (fun _ => I) world := Ensures.weaken followed implies
  exact weaker.call fun _ _ held => Ensures.pure held

theorem Whole.recover_step (whole : Whole recipes before next world) (loaded : world.value = world.stored)
    (step : (controls recipes).Step world .recover after) : Whole recipes before next after := by
  apply step_of_ensures (fun _ value whole => whole.withValue value) step
  exact ensures_quietly ((whole.ensures_recover loaded).mono fun _ _ held => held.1) fun _ => id

theorem Whole.load_step (whole : Whole recipes before next world)
    (step : (controls recipes).Step world .load after) : Whole recipes before next after :=
  step_of_ensures (fun _ value whole => whole.withValue value) step (Ensures.update (whole.withValue _))

theorem Settled.maintain_step (settled : Settled recipes before world)
    (loaded : world.value = world.stored) (step : (controls recipes).Step world (.maintain next) after) :
    Whole recipes before next after := by
  apply step_of_ensures (fun _ value whole => whole.withValue value) step
  exact ensures_quietly (settled.ensures_maintain loaded) fun _ => id

def Accounted (recipes : Recipes Bytes Hash) (world : Controls Bytes Hash) : Prop :=
  ∃ before next, Whole recipes before next world

theorem Underway.maintain_step {raw : Pair Bytes}
    (underway : Underway recipes before next world) (loaded : world.value = world.stored)
    (step : (controls recipes).Step world (.maintain raw) after) : Accounted recipes after := by
  apply step_of_ensures (fun _ value ⟨before, next, whole⟩ => ⟨before, next, whole.withValue value⟩) step
  have recovered : Ensures ⟨fun _ => True, trivial, Accounted recipes⟩ (recoverControlMaintenance recipes)
      (fun returned later => Recovered recipes before next later returned) world :=
    Ensures.weaken (underway.ensures_recover loaded) fun _ whole => ⟨before, next, whole⟩
  have maintained : Ensures ⟨fun _ => True, trivial, Accounted recipes⟩ (maintainControls recipes raw)
      (fun _ => Accounted recipes) world := by
    apply recovered.call
    rintro _ later (⟨settled, -, loaded⟩ | whole)
    · have refreshed : Ensures ⟨fun _ => True, trivial, Accounted recipes⟩ (refreshControls recipes raw)
          (fun _ => Whole recipes before raw) later :=
        Ensures.weaken (settled.ensures_refresh loaded) fun _ whole => ⟨before, raw, whole⟩
      exact refreshed.mono fun _ _ whole => ⟨before, raw, whole⟩
    · exact Ensures.pure ⟨before, next, whole⟩
  exact maintained.call fun _ _ held => Ensures.pure held

theorem Accounted.step (accounted : Accounted recipes world) (step : FreshStep recipes world call after) :
    Accounted recipes after := by
  obtain ⟨before, next, whole⟩ := accounted
  obtain ⟨step, fresh⟩ := step
  cases call with
  | load => exact ⟨before, next, whole.load_step step⟩
  | recover => exact ⟨before, next, whole.recover_step (fresh.resolve_left nofun) step⟩
  | maintain raw =>
    have loaded := fresh.resolve_left nofun
    rcases whole with settled | settled | underway
    · exact ⟨before, raw, settled.maintain_step loaded step⟩
    · exact ⟨next, raw, settled.maintain_step loaded step⟩
    · exact underway.maintain_step loaded step

variable {calls : List (ControlCall Bytes)}

theorem Accounted.run (accounted : Accounted recipes world) (run : Run (FreshStep recipes) world calls after) :
    Accounted recipes after := by
  induction run with
  | nil => exact accounted
  | cons first rest ih => exact ih (accounted.step first)

theorem Whole.recovers (whole : Whole recipes before next world) (run : Run (FreshStep recipes) world calls after)
    (only : ∀ call ∈ calls, call = .recover ∨ call = .load) : Whole recipes before next after := by
  induction run with
  | nil => exact whole
  | cons first rest ih =>
    obtain ⟨here, others⟩ := List.forall_mem_cons.mp only
    obtain ⟨step, fresh⟩ := first
    rcases here with rfl | rfl
    · exact ih (whole.recover_step (fresh.resolve_left nofun) step) others
    · exact ih (whole.load_step step) others

/-! ## A maintenance that returns -/

def anyhow : Conditions (Controls Bytes Hash) CallOutcome := ⟨fun _ => True, trivial, fun _ => True⟩

omit [DecidableEq Hash] in
theorem ensures_anyhow {α : Type} (action : ControlAction Bytes Hash α) (world : Controls Bytes Hash) :
    Ensures anyhow action (fun _ _ => True) world :=
  fun _ _ => ⟨fun _ _ => trivial, trivial, fun _ _ => trivial⟩

omit [DecidableEq Hash] in
theorem ensures_skipped {first rest : ControlAction Bytes Hash Bool} {after : Bool → Controls Bytes Hash → Prop}
    (raised : ∀ later, after false later)
    (returned : ∀ later, Ensures anyhow rest after later) : Ensures anyhow (orRaise first rest) after world := by
  apply (ensures_anyhow first world).call
  intro answer later _
  cases answer with
  | true => exact returned later
  | false => exact Ensures.pure (raised later)

def Installs (next : Pair Bytes) (returned : Bool) (world : Controls Bytes Hash) : Prop :=
  returned = true → world.installed = next

theorem ensures_activate_installs :
    Ensures anyhow (activate recipes next (controlHashes recipes next)) (Installs next) world := by
  have raised (later : Controls Bytes Hash) : Installs next false later := nofun
  apply ensures_after_write (fun later _ => raised later) trivial trivial
  apply ensures_after_write (fun later _ => raised later) trivial trivial
  apply ensures_after_call trivial (raised _)
  apply ensures_after_call trivial (raised _)
  apply ensures_after_call trivial (raised _)
  apply Ensures.bind
  apply Ensures.read
  simp only [ne_eq, not_true_eq_false, if_false]
  apply Ensures.bind
  apply Ensures.update
  exact ensures_write (fun later _ => raised later) trivial trivial fun _ => rfl

theorem ensures_replaceRecipe_installs {old : Pair Hash} :
    Ensures anyhow (replaceRecipe recipes next old (controlHashes recipes next)) (Installs next) world := by
  have raised (later : Controls Bytes Hash) : Installs next false later := nofun
  apply Ensures.bind
  apply Ensures.read
  apply ensures_skipped raised
  intro first
  apply ensures_skipped raised
  intro second
  apply ensures_skipped raised
  intro third
  apply Ensures.bind
  apply Ensures.update
  apply ensures_skipped raised
  intro last
  apply ensures_activate_installs.call
  intro activated later installs
  cases activated with
  | true => exact Ensures.pure installs
  | false =>
    apply Ensures.bind
    apply Ensures.update
    apply (ensures_anyhow _ _).call
    intro _ _ _
    exact Ensures.pure (raised _)

theorem Pair.map_injective {α β : Type} {change : α → β} (injective : Function.Injective change) :
    Function.Injective (Pair.map change) := by
  intro first second same
  simp only [Pair.map, Pair.mk.injEq] at same
  cases first
  cases second
  exact congrArg₂ Pair.mk (injective same.1) (injective same.2)

omit [DecidableEq Hash] in
theorem ensures_keepRecipe_installs {old : Pair Hash} (installed : world.installed = next) :
    Ensures anyhow (keepRecipe old) (Installs next) world := by
  have raised (later : Controls Bytes Hash) : Installs next false later := nofun
  apply ensures_after_call trivial (raised _)
  apply ensures_after_call trivial (raised _)
  apply ensures_after_call trivial (raised _)
  apply Ensures.bind
  apply Ensures.update
  exact ensures_write (fun later _ => raised later) trivial trivial fun _ => installed

theorem ensures_maintain_installs : Ensures anyhow (maintainControls recipes next) (Installs next) world := by
  have raised (later : Controls Bytes Hash) : Installs next false later := nofun
  apply ensures_skipped raised
  intro recovered
  apply ensures_after_call trivial (raised _)
  apply ensures_after_call trivial (raised _)
  apply ensures_after_call trivial (raised _)
  apply Ensures.bind
  apply Ensures.read
  dsimp only
  split
  · exact Ensures.pure (raised _)
  · apply ensures_after_call trivial (raised _)
    split
    · rename_i same
      exact ensures_keepRecipe_installs (Pair.map_injective recipes.digest_injective same.symm)
    · exact ensures_replaceRecipe_installs

structure MaintenanceSafe (recipes : Recipes Bytes Hash) (start : Controls Bytes Hash) : Prop where
  instants : ∃ before next, Whole recipes before next start
  recovers : ∀ before next attempts world, Settled recipes before start →
    Run (FreshStep recipes) start (.maintain next :: attempts) world →
    (∀ call ∈ attempts, call = .recover ∨ call = .load) →
    Whole recipes before next world ∧
      ∀ outcomes, world.value = world.stored → (recoverControlMaintenance recipes world outcomes).value = true →
        world.stored.controlMaintenance ≠ none →
        let recovered := (recoverControlMaintenance recipes world outcomes).world
        recovered.installed = before ∧ recovered.stored.controlRecipe = some (controlHashes recipes before) ∧
          recovered.stored.controlMaintenance = none
  installs : ∀ next outcomes, (maintainControls recipes next start outcomes).value = true →
    (maintainControls recipes next start outcomes).world.installed = next

theorem maintenance_all_or_nothing {origin start : Controls Bytes Hash} {pair : Pair Bytes}
    {calls : List (ControlCall Bytes)} (clean : Settled recipes pair origin)
    (run : Run (FreshStep recipes) origin calls start) : MaintenanceSafe recipes start := by
  have accounted : Accounted recipes start := Accounted.run ⟨pair, pair, .inl clean⟩ run
  refine ⟨accounted, ?_, ?_⟩
  · intro before next attempts world settled attempted only
    cases attempted with
    | cons maintained recovered =>
      have begun := settled.maintain_step (maintained.2.resolve_left nofun) maintained.1
      have after : Whole recipes before next world := begun.recovers recovered only
      refine ⟨after, fun outcomes loaded returned recorded => ?_⟩
      obtain ⟨-, ⟨-, held⟩, -⟩ := after.ensures_recover loaded outcomes fun _ _ => trivial
      obtain ⟨restored, pinned⟩ := held returned recorded
      exact ⟨restored.installed, pinned, restored.unrecorded⟩
  · intro next outcomes returned
    have maintains : Ensures anyhow (maintainControls recipes next) (Installs next) start := ensures_maintain_installs
    exact (maintains outcomes fun _ _ => trivial).2.1 returned

namespace Sample

def numbered : Recipes Nat Nat where
  digest := id
  baselines := [⟨0, 0⟩]
  digest_injective := Function.injective_id

def prepared : Controls Nat Nat := ⟨⟨0, 0⟩, ⟨none, none⟩, {}, {}⟩

-- The validation raises, and so does the first call of the recovery after it.
def troubles : List CallOutcome := List.replicate 12 .returns ++ [.raises, .returns, .raises]

def interrupted : Controls Nat Nat := ((controls numbered).enter (.maintain ⟨1, 1⟩) prepared troubles).world

def updated : Controls Nat Nat := (controls numbered).execute prepared [.maintain ⟨1, 1⟩]

-- The validation raises, the pair is restored, and the save that drops the record raises early.
def lastSaveRaises : List CallOutcome :=
  List.replicate 12 .returns ++ [.raises] ++ List.replicate 7 .returns ++ [.raises]

def stale : Controls Nat Nat := ((controls numbered).enter (.maintain ⟨1, 1⟩) prepared lastSaveRaises).world

theorem prepared_settled : Settled numbered ⟨0, 0⟩ prepared := ⟨rfl, rfl, rfl⟩

end Sample

theorem maintenance_all_or_nothing_interrupted :
    Sample.interrupted.stored.controlMaintenance ≠ none ∧ Sample.interrupted.installed = ⟨1, 1⟩ ∧
      MaintenanceSafe Sample.numbered Sample.interrupted := by
  have run : Run (FreshStep Sample.numbered) Sample.prepared [.maintain ⟨1, 1⟩] Sample.interrupted :=
    .cons ⟨.finish Sample.prepared _ Sample.troubles, .inr rfl⟩ (.nil _)
  exact ⟨by decide, by decide, maintenance_all_or_nothing Sample.prepared_settled run⟩

theorem recover_returns_unrestored :
    Settled Sample.numbered ⟨0, 0⟩ Sample.prepared ∧
      (Run (controls Sample.numbered).Step Sample.prepared [.maintain ⟨1, 1⟩] Sample.updated ∧
        (recoverControlMaintenance Sample.numbered Sample.updated []).value = true ∧
        (recoverControlMaintenance Sample.numbered Sample.updated []).world.installed ≠ ⟨0, 0⟩) ∧
      Run (controls Sample.numbered).Step Sample.prepared [.maintain ⟨1, 1⟩] Sample.stale ∧
        (recoverControlMaintenance Sample.numbered Sample.stale []).value = true ∧
        (recoverControlMaintenance Sample.numbered Sample.stale []).world.stored.controlMaintenance ≠ none := by
  refine ⟨Sample.prepared_settled, ⟨Program.run_execute _ _ _, by decide, by decide⟩, ?_, by decide, by decide⟩
  exact .cons (.finish Sample.prepared _ Sample.lastSaveRaises) (.nil _)

end Amnezia.Server
