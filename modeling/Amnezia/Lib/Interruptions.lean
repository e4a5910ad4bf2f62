import Amnezia.Lib.Procedures
import Amnezia.Lib.Runs
import Mathlib.Logic.Relation

/-! # Programs that are interrupted -/

namespace Amnezia.Lib
open Relation

structure Program (σ ω ℓ : Type) where
  enter : ℓ → Procedure σ ω Unit
  restart : σ → σ

variable {σ ω ℓ α β : Type}

inductive Program.Step (program : Program σ ω ℓ) : σ → ℓ → σ → Prop where
  | finish (world : σ) (label : ℓ) (outcomes : List ω) :
      Step program world label (program.enter label world outcomes).world
  | stop (world : σ) (label : ℓ) (outcomes : List ω) {stopped : σ}
      (passed : stopped ∈ (program.enter label world outcomes).history) :
      Step program world label (program.restart stopped)

-- A call with whether it returned.
inductive Program.Call (program : Program σ ω ℓ) : σ → ℓ × Bool → σ → Prop where
  | finish (world : σ) (label : ℓ) (outcomes : List ω) :
      Call program world (label, true) (program.enter label world outcomes).world
  | stop (world : σ) (label : ℓ) (outcomes : List ω) {stopped : σ}
      (passed : stopped ∈ (program.enter label world outcomes).history) :
      Call program world (label, false) (program.restart stopped)

theorem Program.Call.step {program : Program σ ω ℓ} {before after : σ} {call : ℓ × Bool}
    (called : program.Call before call after) : program.Step before call.1 after := by
  cases called with
  | finish label outcomes => exact .finish before label outcomes
  | stop label outcomes passed => exact .stop before label outcomes passed

theorem Program.run_of_calls {program : Program σ ω ℓ} {before after : σ} {calls : List (ℓ × Bool)}
    (run : Run program.Call before calls after) : Run program.Step before (calls.map Prod.fst) after := by
  induction run with
  | nil => exact .nil _
  | cons first _ ih => exact .cons first.step ih

def Program.execute (program : Program σ ω ℓ) : σ → List ℓ → σ
  | world, [] => world
  | world, label :: labels => program.execute (program.enter label world []).world labels

theorem Program.run_execute (program : Program σ ω ℓ) (world : σ) (labels : List ℓ) :
    Run program.Step world labels (program.execute world labels) := by
  induction labels generalizing world with
  | nil => exact .nil world
  | cons label labels ih => exact .cons (.finish world label []) (ih _)

theorem Program.calls_execute (program : Program σ ω ℓ) (world : σ) (labels : List ℓ) :
    Run program.Call world (labels.map (·, true)) (program.execute world labels) := by
  induction labels generalizing world with
  | nil => exact .nil world
  | cons label labels ih => exact .cons (.finish world label []) (ih _)

structure Changes (σ : Type) where
  change : σ → σ → Prop
  restart : σ → σ
  restarts : ∀ world, change world (restart world)

namespace Changes

variable (changes : Changes σ)

abbrev Reaches (before after : σ) : Prop := ReflTransGen changes.change before after

-- The world after an operation may be ahead of the changes in what a restart forgets.
def Passes (before stopped : σ) : Prop :=
  ∃ reached, changes.Reaches before reached ∧ changes.restart reached = changes.restart stopped

def Follows (procedure : Procedure σ ω α) (after : α → σ → Prop) (world : σ) : Prop :=
  ∀ outcomes, (∀ stopped ∈ (procedure world outcomes).history, changes.Passes world stopped) ∧
    changes.Reaches world (procedure world outcomes).world ∧
    after (procedure world outcomes).value (procedure world outcomes).world

variable {changes} {world : σ}

variable {before : σ}

theorem Passes.after {middle stopped : σ} (first : changes.Reaches before middle)
    (second : changes.Passes middle stopped) : changes.Passes before stopped := by
  obtain ⟨reached, rest, same⟩ := second
  exact ⟨reached, first.trans rest, same⟩

theorem Reaches.passes {after : σ} (reached : changes.Reaches before after) :
    changes.Passes before after :=
  ⟨after, reached, rfl⟩

theorem Passes.restarted {stopped : σ} (passed : changes.Passes before stopped) :
    changes.Reaches before (changes.restart stopped) := by
  obtain ⟨reached, chain, same⟩ := passed
  rw [← same]
  exact chain.tail (changes.restarts reached)

theorem Reaches.keeps {I : σ → Prop} (closed : ∀ before after, I before → changes.change before after → I after)
    {after : σ} (reached : changes.Reaches before after) (held : I before) : I after := by
  induction reached with
  | refl => exact held
  | tail _ last ih => exact closed _ _ ih last

variable {next : α → Procedure σ ω β} {change : σ → σ} {view : σ → α} {condition : Prop}
variable {operation : σ → ω → σ × α} {first : Procedure σ ω α}

namespace Follows

variable {value : α}

theorem pure {after : α → σ → Prop} (here : after value world) :
    changes.Follows (Pure.pure value : Procedure σ ω α) after world :=
  fun _ => ⟨fun _ stopped => absurd stopped List.not_mem_nil, .refl, here⟩

theorem read {after : α → σ → Prop} (here : after (view world) world) :
    changes.Follows (Procedure.read view : Procedure σ ω α) after world :=
  fun _ => ⟨fun _ stopped => absurd stopped List.not_mem_nil, .refl, here⟩

theorem update {after : Unit → σ → Prop} (reached : changes.Reaches world (change world))
    (here : after () (change world)) :
    changes.Follows (Procedure.update change : Procedure σ ω Unit) after world :=
  fun _ => ⟨fun _ stopped => absurd stopped List.not_mem_nil, reached, here⟩

theorem perform [Inhabited ω] {after : α → σ → Prop}
    (each : ∀ outcome, changes.Reaches world (operation world outcome).1 ∧
      after (operation world outcome).2 (operation world outcome).1) :
    changes.Follows (Procedure.perform operation) after world := by
  intro outcomes
  obtain ⟨reached, here⟩ := each (outcomes.headD default)
  refine ⟨fun stopped passed => ?_, reached, here⟩
  rw [List.mem_singleton.mp passed]
  exact reached.passes

variable {after : β → σ → Prop} {procedure : Procedure σ ω α}

theorem bind {middle : α → σ → Prop} (start : changes.Follows first middle world)
    (rest : ∀ value later, changes.Reaches world later → middle value later →
      changes.Follows (next value) after later) :
    changes.Follows (first >>= next) after world := by
  intro outcomes
  obtain ⟨early, reached, held⟩ := start outcomes
  obtain ⟨late, further, here⟩ := rest _ _ reached held (first world outcomes).outcomes
  refine ⟨fun stopped passed => ?_, reached.trans further, here⟩
  rcases List.mem_append.mp passed with before | later
  · exact early stopped before
  · exact .after reached (late stopped later)

theorem read_bind (rest : changes.Follows (next (view world)) after world) :
    changes.Follows (Procedure.read view >>= next) after world := by
  have start : changes.Follows (Procedure.read view : Procedure σ ω α)
      (fun value later => value = view world ∧ later = world) world := read ⟨rfl, rfl⟩
  apply start.bind
  rintro value later - ⟨rfl, rfl⟩
  exact rest

theorem update_bind {next : Unit → Procedure σ ω β}
    (reached : changes.Reaches world (change world)) (rest : changes.Follows (next ()) after (change world)) :
    changes.Follows (Procedure.update change >>= next) after world := by
  have start : changes.Follows (Procedure.update change : Procedure σ ω Unit)
      (fun _ later => later = change world) world := update reached rfl
  apply start.bind
  rintro value later - rfl
  exact rest

theorem update_update_bind {first second : σ → σ} {next : Procedure σ ω β}
    (reached : changes.Reaches world (second (first world)))
    (rest : changes.Follows next after (second (first world))) :
    changes.Follows (do Procedure.update first; Procedure.update second; next) after world := by
  have both : changes.Follows (do Procedure.update (fun world => second (first world)); next) after world := by
    apply update_bind reached
    exact rest
  exact both

theorem mono {after weaker : α → σ → Prop}
    (here : changes.Follows procedure after world)
    (implies : ∀ value later, changes.Reaches world later → after value later → weaker value later) :
    changes.Follows procedure weaker world := by
  intro outcomes
  obtain ⟨passed, reached, held⟩ := here outcomes
  exact ⟨passed, reached, implies _ _ reached held⟩

theorem otherwise [Decidable condition] {after : α → σ → Prop} (early : after value world)
    (rest : ¬condition → changes.Follows procedure after world) :
    changes.Follows (if condition then Pure.pure value else procedure) after world := by
  split
  · exact .pure early
  · next fails => exact rest fails

theorem whenever [Decidable condition] {after : α → σ → Prop} (early : after value world)
    (rest : condition → changes.Follows procedure after world) :
    changes.Follows (if condition then procedure else Pure.pure value) after world := by
  split
  · next holds => exact rest holds
  · exact .pure early

end Follows

def Quiet (changes : Changes σ) (procedure : Procedure σ ω α) : Prop :=
  ∀ world, changes.Follows procedure (fun _ _ => True) world

namespace Quiet

theorem pure (value : α) : changes.Quiet (Pure.pure value : Procedure σ ω α) := fun _ => .pure trivial

theorem read (view : σ → α) : changes.Quiet (Procedure.read view : Procedure σ ω α) := fun _ => .read trivial

theorem update (each : ∀ world, changes.Reaches world (change world)) :
    changes.Quiet (Procedure.update change : Procedure σ ω Unit) :=
  fun world => .update (each world) trivial

theorem perform [Inhabited ω] (each : ∀ world outcome, changes.Reaches world (operation world outcome).1) :
    changes.Quiet (Procedure.perform operation) :=
  fun world => .perform fun outcome => ⟨each world outcome, trivial⟩

theorem bind (start : changes.Quiet first)
    (rest : ∀ value, changes.Quiet (next value)) : changes.Quiet (first >>= next) :=
  fun world => (start world).bind fun value later _ _ => rest value later

theorem ite [Decidable condition] {second : Procedure σ ω α}
    (yes : changes.Quiet first) (no : changes.Quiet second) :
    changes.Quiet (if condition then first else second) := by
  split
  · exact yes
  · exact no

theorem reads (rest : ∀ value, changes.Quiet (next value)) :
    changes.Quiet (Procedure.read view >>= next) :=
  bind (read view) rest

theorem optional {γ : Type} {first : Procedure σ ω (Option γ)} {next : Option γ → Procedure σ ω α}
    (start : changes.Quiet first) (absent : changes.Quiet (next none))
    (present : ∀ value, changes.Quiet (next (some value))) : changes.Quiet (first >>= next) := by
  refine bind start fun value => ?_
  cases value with
  | none => exact absent
  | some value => exact present value

end Quiet

theorem reaches_of_step {program : Program σ ω ℓ} (same : program.restart = changes.restart)
    {after : σ} {label : ℓ} (step : program.Step before label after)
    (follows : changes.Follows (program.enter label) (fun _ _ => True) before) :
    changes.Reaches before after := by
  cases step with
  | finish outcomes => exact (follows outcomes).2.1
  | stop outcomes passed =>
    rw [same]
    exact ((follows outcomes).1 _ passed).restarted

end Changes

end Amnezia.Lib
