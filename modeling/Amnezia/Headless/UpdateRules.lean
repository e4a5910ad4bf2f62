import Amnezia.Headless.UpdateManager

/-! # Rules for the operations of the updater -/

namespace Amnezia.Headless
open Lib Procedure

variable {Content α β : Type} {invariant : World Content → Prop} {world : World Content}

def smooth (invariant : World Content → Prop) : Conditions (World Content) Outcome where
  allowed outcome := outcome = .done
  usual := rfl
  invariant := invariant

def rough (invariant : World Content → Prop) : Conditions (World Content) Outcome where
  allowed _ := True
  usual := trivial
  invariant := invariant

variable {weaker : World Content → Prop} {procedure : Action Content α}

theorem rough.weaken {after : α → World Content → Prop}
    (here : Ensures (rough invariant) procedure after world)
    (implies : ∀ stop, invariant stop → weaker stop) : Ensures (rough weaker) procedure after world :=
  Ensures.weaken (show Ensures ((rough weaker).keeping invariant) procedure after world from here) implies

theorem rough.keeping (keeps : Keeps (rough invariant) procedure) (implies : ∀ stop, invariant stop → weaker stop)
    (held : invariant world) : Ensures (rough weaker) procedure (fun _ => invariant) world :=
  rough.weaken (keeps world held) implies

variable {after : Bool → World Content → Prop} {change : Disk Content → Disk Content}
variable {view : Disk Content → Option α}

section
variable {conditions : Conditions (World Content) Outcome}

theorem Ensures.consult {view : Memory → α} {after : α → World Content → Prop}
    (here : after (view world.memory) world) : Ensures conditions (consult view) after world :=
  .read here

theorem Ensures.look {view : Disk Content → α} {after : α → World Content → Prop}
    (here : after (view world.disk) world) : Ensures conditions (look view) after world :=
  .read here

theorem Ensures.remember {change : Memory → Memory} {after : Unit → World Content → Prop}
    (here : after () { world with memory := change world.memory }) :
    Ensures conditions (remember change) after world :=
  .update here

theorem Ensures.createUuid {after : Nat → World Content → Prop}
    (here : after world.disk.freshUuid
      (world.onDisk fun disk => { disk with nextUuid := disk.freshUuid + 1 })) :
    Ensures conditions createUuid after world :=
  fun _ allowed => ⟨fun _ stopped => absurd stopped List.not_mem_nil, here, allowed⟩

section

variable (held : conditions.invariant world)
include held

theorem Ensures.commit (changed : conditions.invariant (world.onDisk change))
    (done : after true (world.onDisk change)) (failed : after false world)
    (unsynced : after false (world.onDisk change)) : Ensures conditions (commit change) after world := by
  apply Ensures.perform
  intro outcome _
  cases outcome with
  | done => exact ⟨changed, done⟩
  | failed => exact ⟨held, failed⟩
  | unsynced => exact ⟨changed, unsynced⟩

theorem Ensures.attempt (changed : conditions.invariant (world.onDisk change))
    (done : after true (world.onDisk change)) (failed : after false world) :
    Ensures conditions (attempt change) after world := by
  apply Ensures.perform
  intro outcome _
  cases outcome with
  | done => exact ⟨changed, done⟩
  | failed | unsynced => exact ⟨held, failed⟩

theorem Ensures.synchronize (each : ∀ passed, after passed world) : Ensures conditions synchronize after world :=
  Ensures.attempt held held (each true) (each false)

theorem Ensures.inspect {after : Option α → World Content → Prop}
    (done : after (view world.disk) world) (failed : after none world) :
    Ensures conditions (inspect view) after world := by
  apply Ensures.perform
  intro outcome _
  cases outcome with
  | done => exact ⟨held, done⟩
  | failed | unsynced => exact ⟨held, failed⟩

theorem Ensures.writeJournal {journal : Journal} {after : Except String Unit → World Content → Prop}
    (changed : conditions.invariant (world.onDisk fun disk => { disk with journal := some journal }))
    (done : after (.ok ()) (world.onDisk fun disk => { disk with journal := some journal }))
    (failed : ∀ message, after (.error message) world)
    (unsynced : after (.error "") (world.onDisk fun disk => { disk with journal := some journal })) :
    Ensures conditions (writeJournal journal) after world := by
  apply Ensures.perform
  intro outcome _
  cases outcome with
  | done => exact ⟨changed, done⟩
  | failed => exact ⟨held, failed _⟩
  | unsynced => exact ⟨changed, unsynced⟩

theorem Ensures.saveState
    (changed : conditions.invariant (world.onDisk fun disk => { disk with state := some world.memory.receipt }))
    (failed : after false world)
    (each : ∀ saved, after saved (world.onDisk fun disk => { disk with state := some world.memory.receipt })) :
    Ensures conditions saveState after world :=
  .bind (.read (Ensures.commit held changed (each true) failed (each false)))

end

end

namespace Keeps

variable {conditions : Conditions (World Content) Outcome}

theorem consult (view : Memory → α) : Keeps conditions (consult view : Action Content α) := .read _

theorem look (view : Disk Content → α) : Keeps conditions (look view) := .read _

theorem remember {change : Memory → Memory} (closed : ∀ world, conditions.invariant world →
    conditions.invariant { world with memory := change world.memory }) :
    Keeps conditions (remember change : Action Content Unit) :=
  .update closed

section

variable (closed : ∀ world, conditions.invariant world → conditions.invariant (world.onDisk change))
include closed

theorem commit :
    Keeps conditions (commit change) :=
  fun world held => Ensures.commit held (closed world held) (closed world held) held (closed world held)

theorem attempt :
    Keeps conditions (attempt change) :=
  fun world held => Ensures.attempt held (closed world held) (closed world held) held

end

theorem synchronize : Keeps conditions (synchronize : Action Content Bool) := attempt fun _ held => held

theorem inspect (view : Disk Content → Option α) : Keeps conditions (inspect view) :=
  fun _ held => Ensures.inspect held held held

theorem writeJournal {journal : Journal} (closed : ∀ world, conditions.invariant world →
    conditions.invariant (world.onDisk fun disk => { disk with journal := some journal })) :
    Keeps conditions (writeJournal journal : Action Content (Except String Unit)) :=
  fun world held => Ensures.writeJournal held (closed world held) (closed world held) (fun _ => held)
    (closed world held)

theorem saveState (closed : ∀ world, conditions.invariant world →
    conditions.invariant (world.onDisk fun disk => { disk with state := some world.memory.receipt })) :
    Keeps conditions (saveState : Action Content Bool) :=
  fun world held => Ensures.saveState held (closed world held) held fun _ => closed world held

theorem passAll (messages : List String) : Keeps conditions (passAll messages : Action Content (Option String)) := by
  induction messages with
  | nil => exact .pure none
  | cons message rest ih => exact synchronize.bind fun _ => .ite (.pure _) ih

end Keeps

namespace smooth

theorem commit (held : invariant (world.onDisk change)) (here : after true (world.onDisk change)) :
    Ensures (smooth invariant) (commit change) after world := by
  apply Ensures.perform
  rintro outcome rfl
  exact ⟨held, here⟩

theorem attempt (held : invariant (world.onDisk change)) (here : after true (world.onDisk change)) :
    Ensures (smooth invariant) (attempt change) after world := by
  apply Ensures.perform
  rintro outcome rfl
  exact ⟨held, here⟩

theorem synchronize (held : invariant world) (here : after true world) :
    Ensures (smooth invariant) synchronize after world :=
  attempt held here

theorem inspect {after : Option α → World Content → Prop}
    (held : invariant world) (here : after (view world.disk) world) :
    Ensures (smooth invariant) (inspect view) after world := by
  apply Ensures.perform
  rintro outcome rfl
  exact ⟨held, here⟩

theorem saveState (held : invariant (world.onDisk fun disk => { disk with state := some world.memory.receipt }))
    (here : after true (world.onDisk fun disk => { disk with state := some world.memory.receipt })) :
    Ensures (smooth invariant) saveState after world :=
  .bind (.read (commit held here))

end smooth

end Amnezia.Headless
