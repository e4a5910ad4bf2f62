import Amnezia.Lib.Interruptions
import Amnezia.Migration.Profiles

/-!
# The migration controller of the client

`AwgMigrationController` on one server. Every write may fail, and a stop leaves what is stored. The store
can be read; the network decides which requests are answered, and when a trial ends is left open.
-/

namespace Amnezia.Migration
open Lib Procedure

/-! ## The world of the controller -/

structure Enrollment where
  peerPublicKey : Option Json
  sourceFingerprint : String
  nonce : String

inductive Request where
  | bootstrap (binding : Enrollment) (configuration : JsonObject)
  | offer
  | challenge (offer : JsonObject)
  | renew (offer : JsonObject) (nonce : String)
  | acknowledge

structure Pending where
  generation : Nat
  request : Request

structure Teardown where
  generation : Nat
  expectedEpoch : Nat
  activationToken : String
  reconnects : Bool

structure Connection where
  reconnectGeneration : Nat := 0
  onServer : Bool := false
  epoch : Nat := 0
  teardowns : List Teardown := []

structure Memory (Hash : Type) where
  loaded : Bool := false
  activationToken : String := ""
  pendingActivationToken : String := ""
  originalConnection : JsonObject := []
  sourceProfile : JsonObject := []
  journal : Journal Hash := {}
  observation : JsonObject := []
  epoch : Nat := 0
  callbackGeneration : Nat := 0
  startedAt : Int := 0
  pollAfter : Int := 0
  initialRx : Rat := 0
  initialTx : Rat := 0
  trial : Bool := false
  busy : Bool := false
  cancelled : Bool := false
  allowTrial : Bool := true
  requests : List Pending := []
  connection : Connection := {}

structure Attempt (Hash : Type) where
  generation : Option Rat
  targetHash : Hash
  signingPublicKey : String
  nonce : String
  grant : String
  accepted : Nat
  cleanedAt : Nat

structure Commit (Hash : Type) where
  before : JsonObject
  after : JsonObject
  journal : Journal Hash
  seconds : Int

-- What has happened so far: random nonces, accepted grants, stored trial journals, returned candidates,
-- stored cleanup journals, calls of `cleanupCompleted` that returned true and profile writes. `cleanedAt` is
-- the number of grants accepted before the last cleanup.
structure History (Hash : Type) where
  drawn : List String := []
  grants : List String := []
  trials : Nat := 0
  attempts : List (Attempt Hash) := []
  cleanups : Nat := 0
  confirmed : Nat := 0
  cleanedAt : Nat := 0
  commits : List (Commit Hash) := []

def History.cleaned {Hash : Type} (history : History Hash) (returned : Bool) : History Hash :=
  { history with
    cleanups := history.cleanups + 1
    confirmed := history.confirmed + returned.toNat
    cleanedAt := history.grants.length }

structure World (Hash : Type) where
  journal : Journal Hash
  profile : Option JsonObject
  memory : Memory Hash
  history : History Hash

inductive Outcome where
  | done
  | failed
  deriving DecidableEq, Repr

instance : Inhabited Outcome := ⟨.done⟩

abbrev Action (Hash α : Type) := Procedure (World Hash) Outcome α

variable {Hash α : Type}

namespace World

def restarted (world : World Hash) : World Hash := { world with memory := {} }

def serverJson (world : World Hash) : JsonObject := world.profile.getD []

def withJournal (world : World Hash) (journal : Journal Hash) : World Hash :=
  if world.memory.loaded then { world with journal := journal } else world

end World

def consult (view : Memory Hash → α) : Action Hash α := read fun world => view world.memory

def remember (change : Memory Hash → Memory Hash) : Action Hash Unit :=
  update fun world => { world with memory := change world.memory }

def revise (change : Journal Hash → Journal Hash) : Action Hash Unit :=
  remember fun memory => { memory with journal := change memory.journal }

def chronicle (change : History Hash → History Hash) : Action Hash Unit :=
  update fun world => { world with history := change world.history }

inductive Refusal where
  | sourceAddress
  | sourceBind
  | interface
  | interfaceBind
  | platform
  | authentication
  | authenticationHeader

def Refusal.reason : Refusal → Option String
  | .sourceAddress => some "control_source_address_unavailable"
  | .sourceBind => some "control_source_bind_failed"
  | .interface => some "control_interface_unavailable"
  | .interfaceBind => some "control_interface_bind_failed"
  | .platform => none
  | .authentication => some "control_auth_unavailable"
  | .authenticationHeader => some "control_auth_header_invalid"

structure Moment where
  now : Int
  refusal : Option Refusal
  nonce : String

def Moment.seconds (moment : Moment) : Int := moment.now / 1000

/-! ## The journal in memory and in the store -/

-- A journal without a server is another file.
def writeMigrationJournal (journal : Journal Hash) : Action Hash Bool :=
  perform fun world outcome =>
    match outcome with
    | .done => (world.withJournal journal, true)
    | .failed => (world, false)

def persist (state : JournalState) : Action Hash Bool := do
  let previous ← consult (·.journal)
  revise ({ · with state := some state })
  let written ← writeMigrationJournal { previous with state := some state }
  if written then return true
  else do
    revise ({ · with state := previous.state })
    return false

def storeRecoveryJournal (next : Journal Hash) (log : History Hash → History Hash) : Action Hash Bool :=
  perform fun world outcome =>
    match outcome with
    | .done =>
      ({ world.withJournal next with
          memory := { world.memory with journal := next }, history := log world.history }, true)
    | .failed => (world, false)

def recordFailure (reason : String) (httpStatus now : Int) : Action Hash Unit := do
  let memory ← consult id
  let last := memory.journal.lastFailure
  if !memory.loaded ∨ memory.cancelled ∨
      ((last.map Failure.reason).getD "" = reason ∧ (last.map Failure.httpStatus).getD 0 = httpStatus) then
    return
  else do
    revise ({ · with lastFailure := some ⟨reason, httpStatus, now⟩ })
    let journal ← consult (·.journal)
    let _ ← writeMigrationJournal journal
    return

def clearFailure : Action Hash Unit := do
  let journal ← consult (·.journal)
  if journal.lastFailure = none then return
  else do
    revise ({ · with lastFailure := none })
    let _ ← writeMigrationJournal { journal with lastFailure := none }
    return

def Journal.clearTrialEvidence (journal : Journal Hash) : Journal Hash :=
  { journal with
    grant := "", grantExpiresAt := 0, nonce := "", offer := [], challengeReceipt := [], candidateHash := none }

/-! ## Questions -/

section

variable (setting : Setting Hash)

def receiptBinds (receipt offer : JsonObject) : Bool :=
  receipt.hasExactKeys ["schema", "serverPublicKey", "containerId", "peerPublicKey", "generation",
      "expiresAt", "nonce", "targetAddress"] &&
    (receipt.value "schema").toInt 0 = schema &&
    receipt.find "nonce" = (offer.object "challenge").find "nonce" &&
    receipt.find "generation" = offer.find "generation" &&
    receipt.find "peerPublicKey" = offer.find "peerPublicKey" &&
    receipt.find "serverPublicKey" = offer.find "serverPublicKey" &&
    receipt.find "containerId" = offer.find "containerId" &&
    receipt.text "targetAddress" = sectionBefore '/' ((offer.object "target").text "clientAddress")

def verifiedReceipt (signer : String) (envelope offer : JsonObject) : Option JsonObject :=
  (verifyEnvelope setting.toServices envelope (strictBase64 signer (some 32))).filter (receiptBinds · offer)

def validChallengeReceipt (journal : Journal Hash) (envelope : JsonObject) (requireUnexpired : Bool)
    (seconds : Int) : Bool :=
  (verifiedReceipt setting journal.signingPublicKey envelope journal.offer).any fun receipt =>
    !requireUnexpired || (seconds : Rat) < (receipt.value "expiresAt").toDouble 0

def committedProfileMatches [DecidableEq Hash] (world : World Hash) : Bool :=
  match world.memory.journal.candidateHash with
  | none => false
  | some candidateHash => world.profile.any fun profile =>
    candidateHash = setting.digest world.memory.sourceProfile && candidateHash = setting.digest profile

-- `awgBackendObservation::normalized` and `digest`
def normalized (key value : String) : String :=
  if key = "RandomTrailers" ∨ key = "DisableCookies" then
    let lower := String.ofList (Ipc.toLower (Ipc.trimmed value.toList))
    if lower = "false" ∨ lower = "off" ∨ lower = "0" then "0"
    else if lower = "true" ∨ lower = "on" ∨ lower = "1" then "1"
    else lower
  else trimmed value

def parameterDigest (key value : String) : String := setting.hex (setting.hash (normalized key value))

def parametersObserved (parameters observed : JsonObject) : Bool :=
  parameters.all fun parameter =>
    observed.text parameter.1 = parameterDigest setting parameter.1 (parameter.2.toString "")

def offeredParameters (journal : Journal Hash) : JsonObject :=
  (journal.offer.object "target").object "parameters"

def offeredKey (journal : Journal Hash) : List UInt8 :=
  strictBase64 ((offeredParameters journal).text "HeaderProtectionKey") (some 32)

def targetObservationMatches (memory : Memory Hash) : Bool :=
  let target := memory.journal.offer.object "target"
  offeredKey memory.journal ≠ [] && offeredParameters memory.journal ≠ [] &&
    sectionBefore '/' (memory.observation.text "deviceIpv4Address") =
      sectionBefore '/' (target.text "clientAddress") &&
    memory.observation.text "headerProtectionKeyHash" = setting.hex (setting.hashBytes (offeredKey memory.journal)) &&
    parametersObserved setting (offeredParameters memory.journal) (memory.observation.object "parameterDigests")

def passiveMigrationRequestAllowed (state : Option JournalState) : Bool :=
  state ∈ [none, some .enrolling, some .enrolled, some .expired, some .rolledBack]

def isSelfHosted (world : World Hash) : Bool :=
  world.profile.any fun profile =>
    setting.configTypeFromJson profile ∈ [ConfigType.selfHostedAdmin, ConfigType.selfHostedUser]

def isExpired (journal : Journal Hash) (seconds : Int) : Bool :=
  (journal.offer.value "expiresAt").toDouble 0 ≤ seconds || journal.grantExpiresAt ≤ seconds

def toLongLong (text : String) : Option Int :=
  let value : Option Int := match Ipc.trimmed text.toList with
    | '-' :: digits => (Ipc.decimal digits).map fun value => -(value : Int)
    | '+' :: digits => (Ipc.decimal digits).map fun value => (value : Int)
    | digits => (Ipc.decimal digits).map fun value => (value : Int)
  value.filter fun value => -9223372036854775808 ≤ value ∧ value ≤ 9223372036854775807

def isCurrentHandshake (memory : Memory Hash) (observation : JsonObject) (now : Int) : Bool :=
  ((toLongLong (observation.text "lastHandshakeMs")).any fun handshake =>
      memory.startedAt.tdiv 1000 * 1000 ≤ handshake && handshake ≤ now + 5000) &&
    observation.text "peerPublicKey" = (client memory.originalConnection).text "server_pub_key"

end

/-! ## Requests -/

-- A refused request leaves at most its reason; one that is sent is noted first. Nothing reads `m_busy`
-- while the note is written.
def request (kind : Request) (moment : Moment) : Action Hash Unit :=
  match moment.refusal with
  | some refusal =>
    match refusal.reason with
    | some reason => recordFailure reason 0 moment.now
    | none => return
  | none => do
      revise ({ · with lastRequestAt := some moment.now })
      let journal ← consult (·.journal)
      let _ ← writeMigrationJournal journal
      remember fun memory => { memory with
        busy := true
        requests := memory.requests ++ [⟨memory.callbackGeneration, kind⟩] }

def finish (index : Nat) (pending : Pending) : Action Hash Bool := do
  let memory ← consult id
  remember fun memory => { memory with
    requests := memory.requests.eraseIdx index
    busy := memory.busy && pending.generation ≠ memory.callbackGeneration }
  return pending.generation = memory.callbackGeneration

def requestFailed (index : Nat) (reason : String) (httpStatus now : Int) : Action Hash Unit := do
  let memory ← consult id
  match memory.requests[index]? with
  | none => return
  | some pending => do
      (if pending.generation = memory.callbackGeneration then recordFailure reason httpStatus now else return)
      let _ ← finish index pending
      return

def acknowledge (moment : Moment) : Action Hash Unit := do
  let journal ← consult (·.journal)
  if journal.grantExpiresAt ≤ moment.seconds then do
    chronicle fun history => { history with drawn := history.drawn ++ [moment.nonce] }
    request (.renew journal.offer moment.nonce) moment
  else request .acknowledge moment

def challenge (moment : Moment) : Action Hash Unit := do
  let journal ← consult (·.journal)
  let challenge := journal.offer.object "challenge"
  if challenge.text "address" ≠ "172.29.172.251" ∨ (challenge.value "port").toInt 0 ≠ 18082 then return
  else request (.challenge journal.offer) moment

/-! ## The end of an attempt -/

def cancel : Action Hash Unit := do
  remember fun memory =>
    { memory with callbackGeneration := memory.callbackGeneration + 1, cancelled := true, busy := false }
  let trial ← consult (·.trial)
  if trial then do
    let _ ← persist .rolledBack
    remember ({ · with trial := false })
  else return

def failed : Action Hash Bool := do
  let memory ← consult id
  if !memory.trial ∨ memory.cancelled then return false
  else do
    cancel
    return true

def cleanupFailed : Action Hash Unit := do
  remember fun memory =>
    { memory with
      callbackGeneration := memory.callbackGeneration + 1, cancelled := true, busy := false, trial := false }
  let _ ← persist .recoveryRequired
  return

def persistChange (change : Journal Hash → Journal Hash) (state : JournalState) : Action Hash Bool := do
  let before ← consult (·.journal)
  revise change
  let saved ← persist state
  if saved then return true
  else do
    revise fun _ => before
    return false

def expireStaged : Action Hash Bool := persistChange Journal.clearTrialEvidence .expired

def removeServer : Action Hash Unit := do
  perform fun (world : World Hash) (_ : Outcome) => ({ world with profile := none }, ())
  let loaded ← consult (·.loaded)
  if loaded then cancel else return

/-! ## The start of an attempt -/

def beginActivation (token : String) : Action Hash Unit :=
  remember fun memory => { memory with
    pendingActivationToken := token
    activationToken := ""
    callbackGeneration := memory.callbackGeneration + 1 }

def retire (allowTrial : Bool) : Action Hash Unit :=
  if allowTrial then cancel
  else remember fun memory => { memory with
    callbackGeneration := memory.callbackGeneration + 1, busy := false, trial := false }

def activate (connection : JsonObject) (allowTrial : Bool) (now : Int) : Action Hash JsonObject := do
  let token ← consult (·.pendingActivationToken)
  let active := connection.insert "migrationActivationToken" (.string token)
  update fun world => { world with memory := { world.memory with
    loaded := true
    activationToken := token
    pendingActivationToken := ""
    allowTrial := allowTrial
    cancelled := false
    originalConnection := active
    startedAt := now
    pollAfter := 0
    epoch := 0
    observation := []
    journal := world.journal
    sourceProfile := world.serverJson } }
  return active

section

variable (setting : Setting Hash)

def Journal.staged (journal : Journal Hash) (offer : JsonObject) : Journal Hash :=
  { journal with
    challengeReceipt := []
    offer := offer
    stagedGeneration := generationOf offer
    stagedTargetHash := some (setting.digest (offer.object "target")) }

def Journal.attempt (journal : Journal Hash) (history : History Hash) : Attempt Hash where
  generation := generationOf journal.offer
  targetHash := setting.digest (journal.offer.object "target")
  signingPublicKey := journal.signingPublicKey
  nonce := journal.nonce
  grant := journal.grant
  accepted := history.grants.length
  cleanedAt := history.cleanedAt

def beginTrial : Action Hash Bool := do
  let journal ← consult (·.journal)
  let stored ← storeRecoveryJournal (recoveryJournalForTrial journal (generationOf journal.offer))
    fun history => { history with trials := history.trials + 1 }
  if stored then do
    remember ({ · with trial := true, initialRx := -1, initialTx := -1 })
    chronicle fun history => { history with attempts := history.attempts ++ [journal.attempt setting history] }
    return true
  else return false

/-! ## Replies that only follow a commit or a trial -/

def acceptReceipt (offer envelope : JsonObject) (moment : Moment) : Action Hash Unit := do
  let journal ← consult (·.journal)
  match verifiedReceipt setting journal.signingPublicKey envelope offer with
  | none => return
  | some receipt =>
    if (receipt.value "expiresAt").toDouble 0 ≤ moment.seconds then return
    else do
      revise ({ · with challengeReceipt := envelope })
      let _ ← persist .trial
      return

def acceptRenewal (offer : JsonObject) (nonce : String) (envelope : JsonObject) (moment : Moment) :
    Action Hash Unit := do
  let signer ← consult (·.journal.signingPublicKey)
  match verifyEnvelope setting.toServices envelope (strictBase64 signer (some 32)) with
  | none => return
  | some proof =>
    if !proof.hasExactKeys ["schema", "serverPublicKey", "peerPublicKey", "containerId", "generation",
          "nonce", "grant", "sourceFingerprint", "targetHash", "expiresAt"] ∨
        (proof.value "schema").toInt 0 ≠ schema ∨ proof.text "nonce" ≠ nonce ∨
        proof.find "serverPublicKey" ≠ offer.find "serverPublicKey" ∨
        proof.find "peerPublicKey" ≠ offer.find "peerPublicKey" ∨
        proof.find "containerId" ≠ offer.find "containerId" ∨
        proof.find "generation" ≠ offer.find "generation" ∨
        proof.find "sourceFingerprint" ≠ offer.find "sourceFingerprint" ∨
        proof.text "targetHash" ≠ setting.hex (setting.digest (offer.object "target")) ∨
        (proof.value "expiresAt").toDouble 0 ≤ moment.seconds ∨ proof.text "grant" = "" then
      return
    else do
      chronicle fun history => { history with grants := history.grants ++ [proof.text "grant"] }
      let saved ← persistChange ({ · with
        grant := proof.text "grant", grantExpiresAt := (proof.value "expiresAt").toDouble 0 }) .ackPending
      if saved then acknowledge moment else return

def acceptAcknowledgement (reply : JsonObject) : Action Hash Unit := do
  if (reply.value "acknowledged").toBool false then do
    let _ ← persist .committed
    return
  else return

end

section

variable [DecidableEq Hash] (setting : Setting Hash)

def cleanupCompleted (activationToken : String) (teardownEpoch : Nat) : Action Hash Bool := do
  let world ← read id
  match world.profile with
  | none => return false
  | some profile =>
    if !world.memory.loaded ∨
        !cleanupAuthorizationAllowed activationToken world.memory.activationToken teardownEpoch
          world.journal.lastRecoveryCleanupToken ∨
        (world.journal.state ≠ some .recoveryRequired ∧ world.journal.state ≠ some .rolledBack) ∨
        !rollbackRecoveryAllowed (setting.digest profile) world.journal.sourceHash
          world.journal.candidateHash then
      return false
    else do
      let stored ← storeRecoveryJournal
        (recoveryJournalAfterCleanup setting.toServices world.journal activationToken teardownEpoch)
        (·.cleaned false)
      if stored then do
        remember ({ · with pollAfter := 0 })
        chronicle fun history => { history with confirmed := history.confirmed + 1 }
        return true
      else return false

/-! ## Enrolment -/

def resumeCommit : Action Hash Bool := do
  let world ← read id
  if world.memory.journal.state = some .committing ∧ committedProfileMatches setting world then
    persist .ackPending
  else return true

def drawNonce (moment : Moment) : Action Hash Bool := do
  let memory ← consult id
  if memory.journal.nonce = "" then do
    revise fun journal => { journal with
      nonce := moment.nonce
      sourceHash := some (setting.digest memory.sourceProfile)
      sourceFingerprint := sourceFingerprint setting.toServices (client memory.originalConnection) }
    chronicle fun history => { history with drawn := history.drawn ++ [moment.nonce] }
    persist .enrolling
  else return true

def enroll (moment : Moment) : Action Hash Unit := do
  let expiry ← consult (·.journal.grantExpiresAt)
  (if 0 < expiry ∧ expiry ≤ moment.seconds then
      revise ({ · with grant := "", nonce := "", challengeReceipt := [] })
    else return)
  let ready ← drawNonce setting moment
  if ready then do
    let memory ← consult id
    let configuration := client memory.originalConnection
    if memory.journal.grant = "" then
      request (.bootstrap ⟨configuration.find "client_pub_key", memory.journal.sourceFingerprint,
        memory.journal.nonce⟩ configuration) moment
    else request .offer moment
  else return

def fetch (moment : Moment) : Action Hash Unit := do
  let world ← read id
  let journal := world.memory.journal
  if !world.memory.allowTrial ∧ journal.state ≠ some .ackPending ∧
      !passiveMigrationRequestAllowed journal.state then return
  else if !isSelfHosted setting world then return
  else if journal.state = some .ackPending then
    if !committedProfileMatches setting world ∨ !targetObservationMatches setting world.memory ∨
        !validChallengeReceipt setting journal journal.challengeReceipt false moment.seconds then return
    else acknowledge moment
  else if journal.state ∈ [some .staged, some .committed, some .recoveryRequired,
      some .secretStoreUnavailable] then return
  else enroll setting moment

def enrollOrFetch (moment : Moment) : Action Hash Unit := do
  let resumed ← resumeCommit setting
  if resumed then do
    let memory ← consult id
    let kept ← (if memory.journal.state = some .staged ∧ !memory.trial ∧
        isExpired memory.journal moment.seconds then expireStaged else return true)
    if kept then fetch setting moment else return
  else return

/-! ## Replies -/

def acceptBootstrap (binding : Enrollment) (configuration reply : JsonObject) (moment : Moment) :
    Action Hash Unit := do
  let memory ← consult id
  if !reply.hasExactKeys ["schema", "serverPublicKey", "containerId", "peerPublicKey",
        "sourceFingerprint", "nonce", "grant", "signingPublicKey", "generation", "expiresAt"] ∨
      (reply.value "schema").toInt 0 ≠ schema ∨
      reply.find "nonce" ≠ some (.string binding.nonce) ∨
      reply.find "sourceFingerprint" ≠ some (.string binding.sourceFingerprint) ∨
      reply.find "peerPublicKey" ≠ binding.peerPublicKey ∨
      reply.find "serverPublicKey" ≠ configuration.find "server_pub_key" ∨
      reply.find "containerId" ≠ memory.sourceProfile.find "defaultContainer" ∨
      (reply.value "expiresAt").toDouble 0 ≤ moment.seconds ∨
      strictBase64 (reply.text "signingPublicKey") (some 32) = [] ∨ reply.text "grant" = "" then
    recordFailure "bootstrap_binding_rejected" 200 moment.now
  else if memory.journal.signingPublicKey ≠ "" ∧
      memory.journal.signingPublicKey ≠ reply.text "signingPublicKey" then
    recordFailure "bootstrap_signer_changed" 200 moment.now
  else do
    revise fun journal => { journal with
      grant := reply.text "grant"
      signingPublicKey := reply.text "signingPublicKey"
      containerId := reply.text "containerId"
      serverPublicKey := reply.text "serverPublicKey"
      peerPublicKey := reply.text "peerPublicKey"
      grantExpiresAt := (reply.value "expiresAt").toDouble 0 }
    chronicle fun history => { history with grants := history.grants ++ [reply.text "grant"] }
    let saved ← persist .enrolled
    if saved then enrollOrFetch setting moment else return

def requiredGeneration (journal : Journal Hash) (offer sourceProfile : JsonObject) : Int :=
  if sameGenerationRecoveryAllowed setting.toServices journal offer (setting.digest sourceProfile) then
    truncate ((offer.value "generation").toDouble 0) - 1
  else max (truncate (journal.highestGeneration.getD 0)) (truncate (journal.stagedGeneration.getD 0) - 1)

def offerBinding (journal : Journal Hash) (offer sourceProfile : JsonObject) : Binding where
  serverPublicKey := journal.serverPublicKey
  peerPublicKey := journal.peerPublicKey
  containerId := journal.containerId
  sourceFingerprint := journal.sourceFingerprint
  nonce := journal.nonce
  highestGeneration := requiredGeneration setting journal offer sourceProfile

def acceptOffer (envelope : JsonObject) (moment : Moment) : Action Hash Unit := do
  let world ← read id
  let journal := world.memory.journal
  match verifyEnvelope setting.toServices envelope (strictBase64 journal.signingPublicKey (some 32)) with
  | none => return
  | some offer =>
    match validateOffer offer (offerBinding setting journal offer world.memory.sourceProfile)
      moment.seconds with
    | .error reason => recordFailure reason 200 moment.now
    | .ok () =>
      if journal.sourceHash ≠ some (setting.digest world.serverJson) then
        recordFailure "offer_source_changed" 200 moment.now
      else if generationOf offer = journal.stagedGeneration ∧
          some (setting.digest (offer.object "target")) ≠ journal.stagedTargetHash then return
      else do
        let _ ← persistChange (Journal.staged setting · offer) .staged
        return

def callback (kind : Request) (payload : JsonObject) (moment : Moment) : Action Hash Unit :=
  match kind with
  | .bootstrap binding configuration => acceptBootstrap setting binding configuration payload moment
  | .offer => acceptOffer setting payload moment
  | .challenge offer => acceptReceipt setting offer payload moment
  | .renew offer nonce => acceptRenewal setting offer nonce payload moment
  | .acknowledge => acceptAcknowledgement payload

def replyArrived (index : Nat) (payload : JsonObject) (moment : Moment) : Action Hash Unit := do
  let memory ← consult id
  match memory.requests[index]? with
  | none => return
  | some pending => do
      let current ← finish index pending
      if current ∧ !memory.cancelled then do
        clearFailure
        callback setting pending.request payload moment
      else return

/-! ## Observations -/

def adoptProfile (profile : JsonObject) (seconds : Int) : Action Hash Bool := do
  let sourceHash ← consult (·.journal.sourceHash)
  let swapped ← perform fun (world : World Hash) (outcome : Outcome) =>
    match world.profile with
    | none => (world, false)
    | some previous =>
      match swappedProfile setting previous sourceHash profile, outcome with
      | some after, .done =>
        ({ world with
            profile := some after
            history := { world.history with
              commits := world.history.commits ++ [⟨previous, after, world.journal, seconds⟩] } }, true)
      | _, _ => (world, false)
  if swapped then do
    remember ({ · with sourceProfile := profile, trial := false })
    return true
  else return false

def commit (moment : Moment) : Action Hash Bool := do
  let memory ← consult id
  let profile := committedProfile setting memory.sourceProfile memory.journal.offer
  revise ({ · with candidateHash := some (setting.digest profile) })
  if profile = [] then failed
  else do
    let saved ← persist .committing
    if saved then do
      let swapped ← adoptProfile setting profile moment.seconds
      if swapped then do
        let pending ← persist .ackPending
        if pending then do
          acknowledge moment
          return false
        else return false
      else failed
    else failed

def observeTrial (observation : JsonObject) (moment : Moment) : Action Hash Bool := do
  let before ← consult id
  if observation.text "headerProtectionKeyHash" ≠ setting.hex (setting.hashBytes (offeredKey before.journal)) ∨
      !parametersObserved setting (offeredParameters before.journal) (observation.object "parameterDigests") then
    return false
  else do
    let rx := (observation.value "rxBytes").toDouble (-1)
    let tx := (observation.value "txBytes").toDouble (-1)
    (if before.initialRx < 0 then remember ({ · with initialRx := rx, initialTx := tx }) else return)
    let memory ← consult id
    if memory.journal.challengeReceipt ≠ [] then
      if !validChallengeReceipt setting memory.journal memory.journal.challengeReceipt true moment.seconds then
        failed
      else if rx ≤ memory.initialRx ∨ tx ≤ memory.initialTx then return false
      else commit setting moment
    else do
      challenge moment
      return false

def observe (epoch : Nat) (observation : JsonObject) (moment : Moment) : Action Hash Bool := do
  let memory ← consult id
  if memory.activationToken = "" ∨ observation.text "migrationActivationToken" ≠ memory.activationToken ∨
      memory.cancelled ∨ !memory.loaded ∨ client memory.originalConnection = [] ∨
      !isCurrentHandshake memory observation moment.now then return false
  else if memory.epoch ≠ 0 ∧ memory.epoch ≠ epoch then do
    recordFailure "connection_epoch_changed" 0 moment.now
    cancel
    return false
  else do
    remember ({ · with epoch := epoch, observation := observation })
    if memory.busy ∨ !(observation.value "awg3Capable").toBool false then return false
    else do
      revise ({ · with capabilityConfirmed := true })
      if memory.trial then observeTrial setting observation moment
      else if moment.seconds < memory.pollAfter then return false
      else do
        remember ({ · with pollAfter := moment.seconds + 60 })
        enrollOrFetch setting moment
        return false

/-! ## Activations -/

inductive Prepared where
  | active (connection : JsonObject)
  | candidate (connection : JsonObject)

def settleInterrupted : Action Hash Bool := do
  let memory ← consult id
  if memory.journal.state = some .committing then do
    let _ ← persist (if some (setting.digest memory.sourceProfile) = memory.journal.sourceHash then .rolledBack
      else .recoveryRequired)
    return true
  else if memory.journal.state = some .trial then do
    let _ ← persist .rolledBack
    return true
  else return false

def rebase (configuration : JsonObject) : Action Hash Bool := do
  let memory ← consult id
  let journal := memory.journal
  if journal.state = some .staged ∧ journal.recoveryAuthorization.isNone ∧
      journal.sourceHash ≠ some (setting.digest memory.sourceProfile) ∧
      journal.sourceFingerprint = sourceFingerprint setting.toServices configuration then do
    revise ({ · with sourceHash := some (setting.digest memory.sourceProfile) })
    persist .staged
  else return true

def startTrial (connection active : JsonObject) (moment : Moment) : Action Hash Prepared := do
  let memory ← consult id
  let journal := memory.journal
  if journal.state ≠ some .staged ∨ journal.sourceHash ≠ some (setting.digest memory.sourceProfile) ∨
      !journal.capabilityConfirmed then return .active active
  else if isExpired journal moment.seconds then do
    let _ ← expireStaged
    return .active active
  else
    let patched := patchClient (client connection) journal.offer
    if ((journal.offer.value "generation").toDouble (-1) ≤ journal.highestGeneration.getD 0 ∧
          !sameGenerationRecoveryAllowed setting.toServices journal journal.offer
            (setting.digest memory.sourceProfile)) ∨ patched = [] then
      return .active active
    else do
      let started ← beginTrial setting
      if started then
        return .candidate ((active.insert "awg_config_data" (.object patched)).insert "hostName"
          (patched.value "hostName"))
      else return .active active

def prepareTrial (connection active : JsonObject) (moment : Moment) : Action Hash Prepared := do
  let settled ← settleInterrupted setting
  if settled then return .active active
  else do
    let ready ← rebase setting (client connection)
    if ready then startTrial setting connection active moment
    else return .active active

def prepare (connection : JsonObject) (allowTrial : Bool) (moment : Moment) : Action Hash Prepared := do
  retire allowTrial
  let active ← activate connection allowTrial moment.now
  if client connection = [] then return .active active
  else do
    let resumed ← resumeCommit setting
    if resumed ∧ allowTrial then prepareTrial setting connection active moment
    else return .active active

/-! ## The user -/

def editServer (profile : JsonObject) : Action Hash Bool :=
  perform fun world _ =>
    match world.profile with
    | none => (world, false)
    | some _ => ({ world with profile := some (withoutStorageServerId profile) }, true)

def edit (profile : JsonObject) (now : Int) : Action Hash Unit := do
  let stored ← editServer profile
  let memory ← consult id
  if stored ∧ memory.loaded ∧ memory.sourceProfile ≠ [] ∧
      setting.digest (withoutStorageServerId profile) ≠ setting.digest memory.sourceProfile then do
    recordFailure "profile_changed" 0 now
    cancel
  else return

/-! ## Runs -/

inductive Entry where
  | beginActivation (token : String)
  | prepare (connection : JsonObject) (allowTrial : Bool) (moment : Moment)
  | observe (epoch : Nat) (observation : JsonObject) (moment : Moment)
  | reply (index : Nat) (payload : JsonObject) (moment : Moment)
  | requestFailed (index : Nat) (reason : String) (httpStatus now : Int)
  | deadline
  | cancel
  | cleanupFailed
  | cleanupCompleted (activationToken : String) (teardownEpoch : Nat)
  | edit (profile : JsonObject) (now : Int)
  | remove
  | restart

def quietly (action : Action Hash α) : Action Hash Unit := do
  let _ ← action
  return

def Entry.run : Entry → Action Hash Unit
  | .beginActivation token => Migration.beginActivation token
  | .prepare connection allowTrial moment =>
    quietly (Migration.prepare setting connection allowTrial moment)
  | .observe epoch observation moment => quietly (Migration.observe setting epoch observation moment)
  | .reply index payload moment => replyArrived setting index payload moment
  | .requestFailed index reason httpStatus now => Migration.requestFailed index reason httpStatus now
  | .deadline => quietly failed
  | .cancel => Migration.cancel
  | .cleanupFailed => Migration.cleanupFailed
  | .cleanupCompleted token epoch => quietly (Migration.cleanupCompleted setting token epoch)
  | .edit profile now => Migration.edit setting profile now
  | .remove => removeServer
  | .restart => update World.restarted

def controller : Program (World Hash) Outcome Entry where
  enter := Entry.run setting
  restart := World.restarted

end

def World.fresh (profile : JsonObject) : World Hash where
  journal := {}
  profile := some (withoutStorageServerId profile)
  memory := {}
  history := {}

end Amnezia.Migration
