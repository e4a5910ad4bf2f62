import Mathlib.Tactic.Common

/-! # Procedures of operations that may fail -/

namespace Amnezia.Lib

structure Executed (σ ω α : Type) where
  value : α
  world : σ
  outcomes : List ω
  history : List σ

def Procedure (σ ω α : Type) : Type := σ → List ω → Executed σ ω α

namespace Procedure

variable {σ ω α β : Type}

instance : Monad (Procedure σ ω) where
  pure value := fun world outcomes => ⟨value, world, outcomes, []⟩
  bind first next := fun world outcomes =>
    let middle := first world outcomes
    let last := next middle.value middle.world middle.outcomes
    { last with history := middle.history ++ last.history }

def read (view : σ → α) : Procedure σ ω α := fun world outcomes => ⟨view world, world, outcomes, []⟩

-- A change that is not an operation: it cannot fail, and a stop cannot come right after it.
def update (change : σ → σ) : Procedure σ ω Unit := fun world outcomes => ⟨(), change world, outcomes, []⟩

def perform [Inhabited ω] (operation : σ → ω → σ × α) : Procedure σ ω α := fun world outcomes =>
  let result := operation world (outcomes.headD default)
  ⟨result.2, result.1, outcomes.tail, [result.1]⟩

@[simp] theorem read_bind (view : σ → α) (next : α → Procedure σ ω β) (world : σ) (outcomes : List ω) :
    (read view >>= next) world outcomes = next (view world) world outcomes := rfl

@[simp] theorem update_bind (change : σ → σ) (next : Unit → Procedure σ ω β) (world : σ) (outcomes : List ω) :
    (update change >>= next) world outcomes = next () (change world) outcomes := rfl

theorem perform_bind [Inhabited ω] (operation : σ → ω → σ × α) (next : α → Procedure σ ω β) (world : σ)
    (outcomes : List ω) (result : σ × α) (here : operation world (outcomes.headD default) = result) :
    (perform operation >>= next) world outcomes =
      { next result.2 result.1 outcomes.tail with
        history := result.1 :: (next result.2 result.1 outcomes.tail).history } := by
  subst here
  rfl

theorem bind_assoc {γ : Type} (first : Procedure σ ω α) (next : α → Procedure σ ω β)
    (last : β → Procedure σ ω γ) :
    (first >>= next) >>= last = first >>= fun value => next value >>= last := by
  funext world outcomes
  simp only [bind, List.append_assoc]

variable {first : Procedure σ ω α}

theorem bind_apply {world : σ} {outcomes : List ω} {executed : Executed σ ω α}
    (ran : first world outcomes = executed) (next : α → Procedure σ ω β) :
    (first >>= next) world outcomes =
      { next executed.value executed.world executed.outcomes with
        history := executed.history ++ (next executed.value executed.world executed.outcomes).history } := by
  subst ran
  rfl

theorem bind_of_quiet {value : α} {world middle : σ} {outcomes rest : List ω}
    (quiet : first world outcomes = ⟨value, middle, rest, []⟩) (next : α → Procedure σ ω β) :
    (first >>= next) world outcomes = next value middle rest := by
  simp only [bind, quiet]
  rfl

/-! ## What a procedure ensures

From a given world, under the outcomes that are allowed: every world after an operation meets the
invariant, and the result and the last world are as stated. -/

structure Conditions (σ ω : Type) [Inhabited ω] where
  allowed : ω → Prop
  usual : allowed default
  invariant : σ → Prop

variable [Inhabited ω]

def Ensures (conditions : Conditions σ ω) (procedure : Procedure σ ω α) (after : α → σ → Prop) (world : σ) :
    Prop :=
  ∀ outcomes, (∀ outcome ∈ outcomes, conditions.allowed outcome) →
    (∀ stop ∈ (procedure world outcomes).history, conditions.invariant stop) ∧
      after (procedure world outcomes).value (procedure world outcomes).world ∧
      ∀ outcome ∈ (procedure world outcomes).outcomes, conditions.allowed outcome

variable {conditions : Conditions σ ω} {world : σ} {after : α → σ → Prop}

theorem Ensures.pure {value : α} (here : after value world) :
    Ensures conditions (Pure.pure value : Procedure σ ω α) after world :=
  fun _ allowed => ⟨fun _ stopped => absurd stopped List.not_mem_nil, here, allowed⟩

theorem Ensures.read {view : σ → α} (here : after (view world) world) :
    Ensures conditions (Procedure.read view) after world :=
  fun _ allowed => ⟨fun _ stopped => absurd stopped List.not_mem_nil, here, allowed⟩

theorem Ensures.update {change : σ → σ} {after : Unit → σ → Prop} (here : after () (change world)) :
    Ensures conditions (Procedure.update change) after world :=
  fun _ allowed => ⟨fun _ stopped => absurd stopped List.not_mem_nil, here, allowed⟩

theorem Ensures.perform {operation : σ → ω → σ × α}
    (each : ∀ outcome, conditions.allowed outcome → conditions.invariant (operation world outcome).1 ∧
      after (operation world outcome).2 (operation world outcome).1) :
    Ensures conditions (Procedure.perform operation) after world := by
  intro outcomes allowed
  have chosen : conditions.allowed (outcomes.headD default) := by
    cases outcomes with
    | nil => exact conditions.usual
    | cons outcome rest => exact allowed outcome List.mem_cons_self
  refine ⟨fun stop stopped => ?_, (each _ chosen).2, fun outcome left => ?_⟩
  · rw [List.mem_singleton.mp stopped]
    exact (each _ chosen).1
  · exact allowed outcome (List.mem_of_mem_tail left)

variable {next : α → Procedure σ ω β}

theorem Ensures.bind {after : β → σ → Prop}
    (here : Ensures conditions first (fun value => Ensures conditions (next value) after) world) :
    Ensures conditions (first >>= next) after world := by
  intro outcomes allowed
  obtain ⟨held, rest, left⟩ := here outcomes allowed
  obtain ⟨heldLater, reached, leftLater⟩ := rest _ left
  refine ⟨fun stop stopped => ?_, reached, leftLater⟩
  rcases List.mem_append.mp stopped with early | late
  · exact held stop early
  · exact heldLater stop late

variable {procedure : Procedure σ ω α}

theorem Ensures.mono {weaker : α → σ → Prop} (here : Ensures conditions procedure after world)
    (implies : ∀ value later, after value later → weaker value later) :
    Ensures conditions procedure weaker world := by
  intro outcomes allowed
  obtain ⟨held, reached, left⟩ := here outcomes allowed
  exact ⟨held, implies _ _ reached, left⟩

theorem Ensures.call {middle : α → σ → Prop}
    {after : β → σ → Prop} (called : Ensures conditions first middle world)
    (rest : ∀ value later, middle value later → Ensures conditions (next value) after later) :
    Ensures conditions (first >>= next) after world :=
  Ensures.bind (called.mono rest)

def Conditions.keeping (conditions : Conditions σ ω) (invariant : σ → Prop) : Conditions σ ω :=
  { conditions with invariant := invariant }

theorem Ensures.weaken {invariant : σ → Prop}
    (here : Ensures (conditions.keeping invariant) procedure after world)
    (implies : ∀ stop, invariant stop → conditions.invariant stop) :
    Ensures conditions procedure after world := by
  intro outcomes allowed
  obtain ⟨held, reached, left⟩ := here outcomes allowed
  exact ⟨fun stop stopped => implies stop (held stop stopped), reached, left⟩

def Keeps (conditions : Conditions σ ω) (procedure : Procedure σ ω α) : Prop :=
  ∀ world, conditions.invariant world → Ensures conditions procedure (fun _ => conditions.invariant) world

namespace Keeps

theorem pure (value : α) : Keeps conditions (Pure.pure value : Procedure σ ω α) :=
  fun _ held => .pure held

theorem read (view : σ → α) : Keeps conditions (Procedure.read view) := fun _ held => .read held

theorem update {change : σ → σ} (closed : ∀ world, conditions.invariant world → conditions.invariant (change world)) :
    Keeps conditions (Procedure.update change) :=
  fun world held => .update (closed world held)

theorem bind (start : Keeps conditions first)
    (rest : ∀ value, Keeps conditions (next value)) : Keeps conditions (first >>= next) :=
  fun world held => .call (start world held) rest

theorem ite {condition : Prop} [Decidable condition] {second : Procedure σ ω α}
    (yes : Keeps conditions first) (no : Keeps conditions second) :
    Keeps conditions (if condition then first else second) := by
  split
  · exact yes
  · exact no

end Keeps

end Procedure

end Amnezia.Lib
