import Amnezia.Lib.Interruptions

/-!
# Maintenance of the control recipes

Docker and the validation are given: each of their calls succeeds or raises. A write that raises leaves the
old or the new content, and so does a process that stops during one.
-/

namespace Amnezia.Server
open Lib Procedure

structure Pair (α : Type) where
  service : α
  target : α
  deriving DecidableEq, Repr

def Pair.map {α β : Type} (change : α → β) (pair : Pair α) : Pair β :=
  ⟨change pair.service, change pair.target⟩

structure Recipes (Bytes Hash : Type) where
  digest : Bytes → Hash
  baselines : List (Pair Hash)
  digest_injective : Function.Injective digest

structure Maintenance (Hash : Type) where
  old : Pair Hash
  new : Pair Hash
  oldLoadedReceipt : Bool
  deriving DecidableEq

inductive MaintenanceResult where
  | rolledBack
  | updated
  deriving DecidableEq, Repr

structure ControlValue (Hash : Type) where
  controlRecipe : Option (Pair Hash) := none
  controlLoadedReceipt : Bool := false
  controlMaintenance : Option (Maintenance Hash) := none
  controlMaintenanceResult : Option MaintenanceResult := none
  deriving DecidableEq

structure Controls (Bytes Hash : Type) where
  installed : Pair Bytes
  backup : Pair (Option Bytes)
  stored : ControlValue Hash
  value : ControlValue Hash

-- A write raises before the file is replaced or after it.
inductive CallOutcome where
  | returns
  | raises
  | raisesLate
  deriving DecidableEq, Repr

instance : Inhabited CallOutcome := ⟨.returns⟩

variable {Bytes Hash : Type}

abbrev ControlAction (Bytes Hash α : Type) := Procedure (Controls Bytes Hash) CallOutcome α

def Controls.loaded (world : Controls Bytes Hash) : Controls Bytes Hash := { world with value := world.stored }

/-! ## Calls of the world outside

They only read, so a failed one leaves everything as it is. -/

def call : ControlAction Bytes Hash Bool := perform fun world outcome => (world, outcome = .returns)

def controlHelpers : ControlAction Bytes Hash Bool := call

def protectedControlState : ControlAction Bytes Hash Bool := call

def checkControlState : ControlAction Bytes Hash Bool := call

def checkLoadedControls : ControlAction Bytes Hash Bool := call

def restartControls : ControlAction Bytes Hash Bool := call

def readRecipe : ControlAction Bytes Hash Bool := call

def validate : ControlAction Bytes Hash Bool := call

def makeBackupDirectory : ControlAction Bytes Hash Bool := call

-- `false` is a raised exception: what follows is skipped.
def orRaise (first rest : ControlAction Bytes Hash Bool) : ControlAction Bytes Hash Bool := do
  let returned ← first
  if returned then rest else return false

def write (change : Controls Bytes Hash → Controls Bytes Hash) : ControlAction Bytes Hash Bool :=
  perform fun world outcome =>
    match outcome with
    | .returns => (change world, true)
    | .raises => (world, false)
    | .raisesLate => (change world, false)

def installService (raw : Bytes) : ControlAction Bytes Hash Bool :=
  write fun world => { world with installed := { world.installed with service := raw } }

def installTarget (raw : Bytes) : ControlAction Bytes Hash Bool :=
  write fun world => { world with installed := { world.installed with target := raw } }

def backUpService (raw : Bytes) : ControlAction Bytes Hash Bool :=
  write fun world => { world with backup := { world.backup with service := some raw } }

def backUpTarget (raw : Bytes) : ControlAction Bytes Hash Bool :=
  write fun world => { world with backup := { world.backup with target := some raw } }

def amend (change : ControlValue Hash → ControlValue Hash) : ControlAction Bytes Hash Unit :=
  update fun world => { world with value := change world.value }

def save : ControlAction Bytes Hash Bool := write fun world => { world with stored := world.value }

def readBackup (backup : Pair (Option Bytes)) : Option (Pair Bytes) :=
  match backup.service, backup.target with
  | some service, some target => some ⟨service, target⟩
  | _, _ => none

variable [DecidableEq Hash] (recipes : Recipes Bytes Hash)

def controlHashes (pair : Pair Bytes) : Pair Hash := pair.map recipes.digest

def isKnown (transaction : Maintenance Hash) (current : Pair Hash) : Bool :=
  (current.service = transaction.old.service || current.service = transaction.new.service) &&
    (current.target = transaction.old.target || current.target = transaction.new.target)

def finishRecovery (transaction : Maintenance Hash) : ControlAction Bytes Hash Bool :=
  orRaise restartControls <| orRaise checkControlState <| do
    amend fun value => { value with
      controlRecipe := some transaction.old
      controlLoadedReceipt := transaction.oldLoadedReceipt
      controlMaintenanceResult := some .rolledBack
      controlMaintenance := none }
    save

def rollBack (transaction : Maintenance Hash) : ControlAction Bytes Hash Bool := do
  let world ← read id
  if !isKnown transaction (controlHashes recipes world.installed) then return false
  else
    match readBackup world.backup with
    | none => return false
    | some raw =>
      if controlHashes recipes raw ≠ transaction.old then return false
      else orRaise (installService raw.service) <| orRaise (installTarget raw.target) <| finishRecovery transaction

def recoverControlMaintenance : ControlAction Bytes Hash Bool := do
  let value ← read Controls.value
  match value.controlMaintenance with
  | none => return true
  | some transaction =>
    orRaise controlHelpers <| orRaise checkControlState <| rollBack recipes transaction

def keepRecipe (old : Pair Hash) : ControlAction Bytes Hash Bool :=
  orRaise checkLoadedControls <| orRaise checkControlState <| orRaise validate <| do
    amend fun value => { value with controlRecipe := some old, controlLoadedReceipt := true }
    save

def activate (raw : Pair Bytes) (new : Pair Hash) : ControlAction Bytes Hash Bool :=
  orRaise (installService raw.service) <| orRaise (installTarget raw.target) <|
    orRaise restartControls <| orRaise checkControlState <| orRaise validate <| do
      let installed ← read Controls.installed
      if controlHashes recipes installed ≠ new then return false
      else do
        amend fun value => { value with
          controlRecipe := some new
          controlLoadedReceipt := true
          controlMaintenanceResult := some .updated
          controlMaintenance := none }
        save

def activateOrRollBack (raw : Pair Bytes) (transaction : Maintenance Hash) : ControlAction Bytes Hash Bool := do
  let activated ← activate recipes raw transaction.new
  if activated then return true
  else do
    amend ({ · with controlMaintenance := some transaction })
    let _ ← orRaise save (recoverControlMaintenance recipes)
    return false

def replaceRecipe (raw : Pair Bytes) (old new : Pair Hash) : ControlAction Bytes Hash Bool := do
  let world ← read id
  orRaise makeBackupDirectory <| orRaise (backUpService world.installed.service) <|
    orRaise (backUpTarget world.installed.target) <| do
      let transaction := { old := old, new := new, oldLoadedReceipt := world.value.controlLoadedReceipt }
      amend ({ · with controlMaintenance := some transaction })
      orRaise save (activateOrRollBack recipes raw transaction)

def isPinned (value : ControlValue Hash) (old : Pair Hash) : Bool :=
  some old = value.controlRecipe || (value.controlRecipe = none && old ∈ recipes.baselines)

def refreshControls (raw : Pair Bytes) : ControlAction Bytes Hash Bool :=
  orRaise controlHelpers <| orRaise protectedControlState <| orRaise checkControlState <| do
    let world ← read id
    let old := controlHashes recipes world.installed
    if !isPinned recipes world.value old then return false
    else orRaise readRecipe <|
      let new := controlHashes recipes raw
      if new = old then keepRecipe old
      else replaceRecipe recipes raw old new

def maintainControls (raw : Pair Bytes) : ControlAction Bytes Hash Bool :=
  orRaise (recoverControlMaintenance recipes) (refreshControls recipes raw)

inductive ControlCall (Bytes : Type) where
  | maintain (raw : Pair Bytes)
  | recover
  | load

def ControlCall.run : ControlCall Bytes → ControlAction Bytes Hash Unit
  | .maintain raw => do
      let _ ← maintainControls recipes raw
      return
  | .recover => do
      let _ ← recoverControlMaintenance recipes
      return
  | .load => update Controls.loaded

def controls : Program (Controls Bytes Hash) CallOutcome (ControlCall Bytes) where
  enter := ControlCall.run recipes
  restart := Controls.loaded

end Amnezia.Server
