import Amnezia.Migration.Controller

/-!
# The connection handlers around the controller

Preparing a connection and the connection itself are given; a handler says what they gave.
-/

namespace Amnezia.Migration
open Lib Procedure

variable {Hash : Type}

structure Opening where
  token : String
  connection : JsonObject
  moment : Moment

structure Receipt where
  onServer : Bool
  token : Nat
  retiringEpoch : Nat
  disconnectEpoch : Nat
  confirmed : Bool

inductive Handler where
  | contextChanged (onServer : Bool) (epoch : Nat)
  | openConnection (opening : Option Opening)
  | restoreConnection (opening : Opening)
  | closeConnection
  | connectionError
  | deadline
  | observe (epoch : Nat) (observation : JsonObject) (moment : Moment)
  | teardownReceipt (index : Nat) (receipt : Receipt) (reopening : Option Opening)
  | teardownTimeout (index : Nat)
  | reply (index : Nat) (payload : JsonObject) (moment : Moment)
  | requestFailed (index : Nat) (reason : String) (httpStatus now : Int)
  | edit (profile : JsonObject) (now : Int)
  | remove
  | restart

def reconnect (change : Connection → Connection) : Action Hash Unit :=
  remember fun memory => { memory with connection := change memory.connection }

def Connection.renewed (connection : Connection) : Connection :=
  { connection with reconnectGeneration := connection.reconnectGeneration + 1 }

def Connection.await (connection : Connection) (activationToken : String) (reconnects : Bool) : Connection :=
  { connection with
    teardowns := connection.teardowns ++
      [⟨connection.reconnectGeneration, connection.epoch, activationToken, reconnects⟩] }

def Connection.forget (connection : Connection) (index : Nat) : Connection :=
  { connection with teardowns := connection.teardowns.eraseIdx index }

def Teardown.answeredBy (teardown : Teardown) (receipt : Receipt) : Bool :=
  receipt.token = teardown.generation && receipt.onServer

def Teardown.confirmedBy (teardown : Teardown) (receipt : Receipt) : Bool :=
  receipt.confirmed && receipt.retiringEpoch = teardown.expectedEpoch &&
    receipt.disconnectEpoch = teardown.expectedEpoch + 1

def isRecoverable (journal : Journal Hash) : Bool :=
  journal.state = some .recoveryRequired || journal.state = some .rolledBack

def reconnectLegacy : Action Hash Unit := do
  reconnect Connection.renewed
  let memory ← consult id
  if !memory.loaded ∨ !memory.connection.onServer ∨ memory.connection.epoch = 0 then cleanupFailed
  else reconnect (·.await memory.activationToken true)

def closeConnection : Action Hash Unit := do
  reconnect Connection.renewed
  let memory ← consult id
  cancel
  let journal ← read World.journal
  if !isRecoverable journal ∨ !memory.loaded ∨ !memory.connection.onServer ∨ memory.connection.epoch = 0 ∨
      memory.activationToken = "" then return
  else reconnect (·.await memory.activationToken false)

def teardownTimeout (index : Nat) : Action Hash Unit := do
  let memory ← consult id
  match memory.connection.teardowns[index]? with
  | none => return
  | some teardown => do
      reconnect (·.forget index)
      if teardown.generation = memory.connection.reconnectGeneration ∧
          teardown.activationToken = memory.activationToken then cleanupFailed
      else return

section

variable [DecidableEq Hash] (setting : Setting Hash)

def activateConnection (opening : Opening) (allowTrial : Bool) : Action Hash Unit := do
  beginActivation opening.token
  let _ ← prepare setting opening.connection allowTrial opening.moment
  return

-- Without an opening, `prepareConnection` returned an error.
def openConnection (opening : Option Opening) : Action Hash Unit := do
  reconnect Connection.renewed
  match opening with
  | none => return
  | some opening => activateConnection setting opening true

def restoreConnection (opening : Opening) : Action Hash Unit := do
  reconnect Connection.renewed
  activateConnection setting opening false

def afterTrial (action : Action Hash Bool) : Action Hash Unit := do
  let reconnects ← action
  if reconnects then reconnectLegacy else return

def completeTeardown (teardown : Teardown) (receipt : Receipt) (reopening : Option Opening) :
    Action Hash Unit := do
  if !teardown.reconnects then do
    let _ ← cleanupCompleted setting teardown.activationToken receipt.disconnectEpoch
    return
  else do
    let journal ← read World.journal
    if !isRecoverable journal then return
    else do
      let completed ← cleanupCompleted setting teardown.activationToken receipt.disconnectEpoch
      match completed, reopening with
      | true, some opening => activateConnection setting opening true
      | _, _ => return

def teardownReceipt (index : Nat) (receipt : Receipt) (reopening : Option Opening) : Action Hash Unit := do
  let memory ← consult id
  match memory.connection.teardowns[index]? with
  | none => return
  | some teardown =>
    if teardown.generation ≠ memory.connection.reconnectGeneration then reconnect (·.forget index)
    else if !teardown.answeredBy receipt then return
    else do
      reconnect (·.forget index)
      if teardown.confirmedBy receipt then completeTeardown setting teardown receipt reopening
      else cleanupFailed

def Handler.run : Handler → Action Hash Unit
  | .contextChanged onServer epoch =>
    reconnect fun connection => { connection with onServer := onServer, epoch := epoch }
  | .openConnection opening => Migration.openConnection setting opening
  | .restoreConnection opening => Migration.restoreConnection setting opening
  | .closeConnection => Migration.closeConnection
  | .connectionError | .deadline => afterTrial failed
  | .observe epoch observation moment => afterTrial (Migration.observe setting epoch observation moment)
  | .teardownReceipt index receipt reopening => Migration.teardownReceipt setting index receipt reopening
  | .teardownTimeout index => Migration.teardownTimeout index
  | .reply index payload moment => replyArrived setting index payload moment
  | .requestFailed index reason httpStatus now => Migration.requestFailed index reason httpStatus now
  | .edit profile now => Migration.edit setting profile now
  | .remove => removeServer
  | .restart => update World.restarted

def connections : Program (World Hash) Outcome Handler where
  enter := Handler.run setting
  restart := World.restarted

end

end Amnezia.Migration
