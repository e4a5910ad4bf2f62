import Amnezia.Lib.Runs

/-!
# The headless log uploader

A poll reads the source in one piece; while it waits for a reply the source may change and the process
may stop. SHA-256, the sanitizer and the network are given.
-/

namespace Amnezia.Headless.Logs
open Lib

abbrev Bytes := List UInt8

@[irreducible] def maximumBatchBytes : Nat := 15 * 1024 * 1024

@[irreducible] def rebindTailBytes : Nat := 1024 * 1024

@[irreducible] def cursorAnchorBytes : Nat := 256

@[irreducible] def fingerprintBytes : Nat := 4096

@[irreducible] def maximumPrivateKeyMarkerBytes : Nat := 256

def maximumPendingSecretWhitespaceBytes : Nat := 64 * 1024

def redactedChunk : Bytes := "[REDACTED LOG CHUNK]\n".toList.map fun char => char.toNat.toUInt8

inductive SecretBlockKind where
  | none
  | privateKey
  | openVpnStaticKey
  | tlsAuth
  | tlsCrypt
  deriving DecidableEq, Repr

inductive PendingSecretKind where
  | none
  | scalar
  | array
  deriving DecidableEq, Repr

inductive PendingSecretPhase where
  | none
  | awaitingSeparator
  | awaitingValue
  | overflowAwaitingSeparator
  | overflowAwaitingValue
  | redactingValue
  deriving DecidableEq, Repr

structure StreamState where
  blockKind : SecretBlockKind := .none
  secretArrayOpen : Bool := false
  secretArrayDepth : Nat := 0
  secretArrayQuote : Option Char := none
  secretArrayEscaped : Bool := false
  pendingSecretKind : PendingSecretKind := .none
  pendingSecretPhase : PendingSecretPhase := .none
  pendingSecretWhitespaceBytes : Nat := 0
  deriving DecidableEq, Repr

structure StreamBoundary where
  beginBlockKind : SecretBlockKind := .none
  endBlockMarkerCharactersInInput : Nat := 0
  secretArrayStartCharactersInInput : Nat := 0
  pendingSecretKind : PendingSecretKind := .none
  pendingSecretPhase : PendingSecretPhase := .none
  pendingSecretCharactersInInput : Nat := 0
  pendingSecretWhitespaceBytes : Nat := 0
  deriving DecidableEq, Repr

structure ChunkContext where
  startsInsideRecord : Bool
  endsInsideRecord : Bool
  streamState : StreamState
  boundaryBlockKind : SecretBlockKind
  secretBlockEndMarkerCharacters : Nat
  secretArrayStartCharacters : Nat
  boundaryPendingSecretKind : PendingSecretKind
  boundaryPendingSecretPhase : PendingSecretPhase
  boundaryPendingSecretCharacters : Nat
  boundaryPendingSecretWhitespaceBytes : Nat
  deriving DecidableEq, Repr

structure SanitizedChunk where
  data : Bytes
  streamState : StreamState
  deriving DecidableEq, Repr

-- `sanitizerStateFromJson`: what is accepted of a stored stream state.
def StreamState.pendingInactive (state : StreamState) : Bool :=
  state.pendingSecretKind = .none && state.pendingSecretPhase = .none
    && state.pendingSecretWhitespaceBytes = 0

def StreamState.pendingActive (state : StreamState) : Bool :=
  state.pendingSecretKind ≠ .none && state.pendingSecretPhase ≠ .none
    && ((state.pendingSecretPhase ≠ .overflowAwaitingSeparator
          && state.pendingSecretPhase ≠ .overflowAwaitingValue)
        || state.pendingSecretWhitespaceBytes = maximumPendingSecretWhitespaceBytes)
    && (state.pendingSecretPhase ≠ .redactingValue || state.pendingSecretWhitespaceBytes = 0)

def StreamState.accepted (state : StreamState) : Bool :=
  state.secretArrayDepth ≤ 1024
    && (state.secretArrayQuote = none || state.secretArrayQuote = some '"'
      || state.secretArrayQuote = some '\'')
    && state.pendingSecretWhitespaceBytes ≤ maximumPendingSecretWhitespaceBytes
    && state.secretArrayOpen = decide (0 < state.secretArrayDepth)
    && (state.secretArrayOpen || (state.secretArrayQuote = none && !state.secretArrayEscaped))
    && (state.pendingInactive || state.pendingActive)
    && (!state.secretArrayOpen || state.pendingInactive)

-- The texts that are hashed: each starts with its own words, and a digest in one has a fixed length.
inductive Material (Hash : Type) where
  | token (token : String)
  | target (endpoint clientId installationId sourcePath : String) (token : Hash)
  | source (sourcePath identity : String) (leading : Bytes)
  | cursor (start : Nat) (bytes : Bytes)
  | batch (installationId : String) (fingerprint : Hash) (offset nextOffset : Nat)
  deriving DecidableEq

structure Services (Hash : Type) where
  digest : Material Hash → Hash
  inspectStreamBoundary : (lookbehind input : Bytes) → StreamState → StreamBoundary
  sanitize : Bytes → ChunkContext → SanitizedChunk

structure Installation where
  installationId : String
  sourcePath : String
  deriving DecidableEq, Repr

structure Target where
  endpoint : String
  clientId : String
  token : String
  bootstrap : Bool := false
  deriving DecidableEq, Repr

structure Config where
  enabled : Bool := true
  clientLogs : Target
  deriving DecidableEq, Repr

structure Source where
  identity : String
  size : Nat
  byte : Nat → UInt8

def Source.read (source : Source) (start length : Nat) : Option Bytes :=
  if start + length ≤ source.size then some ((List.range' start length).map source.byte) else none

def Source.leading (source : Source) : Bytes :=
  (List.range' 0 (min source.size fingerprintBytes)).map source.byte

def Source.tailStart (source : Source) : Nat := ((source.size : Int) - rebindTailBytes).toNat

structure DurableState (Hash : Type) where
  offset : Nat := 0
  fingerprint : Option Hash := none
  awaitingStable : Bool := false
  redactNext : Bool := false
  highWater : Nat := 0
  sourceIdentity : Option String := none
  cursorAnchor : Option Hash := none
  targetBinding : Option Hash := none
  sanitizerLookbehind : Bytes := []
  sanitizerState : StreamState := {}
  deriving DecidableEq

-- `stateToJson` leaves the lookbehind out.
def DurableState.stored {Hash : Type} (state : DurableState Hash) : DurableState Hash :=
  { state with sanitizerLookbehind := [] }

-- `stateFromJson` on a file that `saveState` has written
def DurableState.accepted {Hash : Type} (state : DurableState Hash) : Bool :=
  state.offset ≤ state.highWater && (state.sourceIdentity.getD "").length ≤ 512
    && state.targetBinding.isSome && (state.offset = 0 || state.cursorAnchor.isSome)
    && state.sanitizerState.accepted

structure Request (Hash : Type) where
  id : Hash
  identity : String
  fingerprint : Hash
  offset : Nat
  nextOffset : Nat
  deriving DecidableEq

variable {Hash : Type} [DecidableEq Hash] (services : Services Hash) (installation : Installation)

def targetBinding (config : Config) : Hash :=
  services.digest (.target config.clientLogs.endpoint config.clientLogs.clientId
    installation.installationId installation.sourcePath
    (services.digest (.token config.clientLogs.token)))

def sourceFingerprint (source : Source) : Hash :=
  services.digest (.source installation.sourcePath source.identity source.leading)

def batchId (offset nextOffset : Nat) (fingerprint : Hash) : Hash :=
  services.digest (.batch installation.installationId fingerprint offset nextOffset)

def cursorAnchor (source : Source) (offset : Nat) : Except String (Option Hash) :=
  if offset = 0 then .ok none
  else
    let start := offset - cursorAnchorBytes
    match source.read start (offset - start) with
    | some bytes => .ok (some (services.digest (.cursor start bytes)))
    | none => .error "cursor_anchor_failed"

inductive Decision (Hash : Type) where
  | confirm (state : DurableState Hash)
  | idle (state : DurableState Hash)
  | post (request : Request Hash) (payload : Bytes) (candidate : DurableState Hash)
  deriving DecidableEq

def rebind (source : Source) (working : DurableState Hash) : DurableState Hash :=
  { working with
    offset := source.tailStart, redactNext := true, cursorAnchor := none,
    sanitizerLookbehind := [], sanitizerState := {} }

def readLookbehind (source : Source) (working : DurableState Hash) :
    Except String (DurableState Hash) :=
  if !working.redactNext && 0 < working.offset && working.sanitizerLookbehind.isEmpty then
    let start := working.offset - maximumPrivateKeyMarkerBytes
    match source.read start (working.offset - start) with
    | some bytes => .ok { working with sanitizerLookbehind := bytes }
    | none => .error "sanitizer_lookbehind_failed"
  else .ok working

def followIdentity (source : Source) (working : DurableState Hash) :
    Except String (DurableState Hash) :=
  if working.sourceIdentity.isSome && working.sourceIdentity ≠ some source.identity then
    if working.awaitingStable || working.offset ≤ source.size then .error "source_identity_changed"
    else .ok { rebind source working with fingerprint := none, highWater := source.size }
  else .ok working

def checkCursorAnchor (source : Source) (working : DurableState Hash) :
    Except String (DurableState Hash) :=
  if working.cursorAnchor.isSome && working.offset ≤ source.size then
    match cursorAnchor services source working.offset with
    | .ok anchor => if anchor = working.cursorAnchor then .ok working else .error "cursor_anchor_mismatch"
    | .error _ => .error "cursor_anchor_mismatch"
  else .ok working

def followFingerprint (source : Source) (working : DurableState Hash) :
    Except String (DurableState Hash) :=
  let fingerprint := sourceFingerprint services installation source
  if working.fingerprint = none then
    .ok { rebind source working with fingerprint := some fingerprint, highWater := source.size }
  else if working.fingerprint ≠ some fingerprint then
    if working.awaitingStable then .error "source_epoch_changed_before_confirmation"
    else .ok { rebind source working with fingerprint := some fingerprint, highWater := source.size }
  else .ok working

def followTruncation (source : Source) (working : DurableState Hash) :
    Except String (DurableState Hash) :=
  if source.size < working.offset then
    if working.awaitingStable then .error "source_truncated_before_confirmation"
    else .ok (rebind source working)
  else .ok working

def locate (source : Source) (working : DurableState Hash) : Except String (DurableState Hash) := do
  let working ← readLookbehind source working
  let working ← followIdentity source working
  let working ← checkCursorAnchor services source working
  let working ← followFingerprint services installation source working
  followTruncation source { working with sourceIdentity := some source.identity }

def insideRecord (bytes : Bytes) : Bool :=
  bytes.getLast?.any fun byte => byte ≠ 10 && byte ≠ 13

def chunkContext (lookbehind raw : Bytes) (state : StreamState) : ChunkContext :=
  let boundary := services.inspectStreamBoundary lookbehind raw state
  { startsInsideRecord := insideRecord lookbehind
    endsInsideRecord := insideRecord raw
    streamState := state
    boundaryBlockKind := boundary.beginBlockKind
    secretBlockEndMarkerCharacters := boundary.endBlockMarkerCharactersInInput
    secretArrayStartCharacters := boundary.secretArrayStartCharactersInInput
    boundaryPendingSecretKind := boundary.pendingSecretKind
    boundaryPendingSecretPhase := boundary.pendingSecretPhase
    boundaryPendingSecretCharacters := boundary.pendingSecretCharactersInInput
    boundaryPendingSecretWhitespaceBytes := boundary.pendingSecretWhitespaceBytes }

def sanitizeChunk (lookbehind raw : Bytes) (state : StreamState) : SanitizedChunk :=
  services.sanitize raw (chunkContext services lookbehind raw state)

def rightBytes (count : Nat) (bytes : Bytes) : Bytes := bytes.drop (bytes.length - count)

def chunkPayload (working : DurableState Hash) (raw : Bytes) : Bytes × Bytes × StreamState :=
  if working.redactNext then (redactedChunk, [], {})
  else
    let sanitized := sanitizeChunk services working.sanitizerLookbehind raw working.sanitizerState
    (sanitized.data, rightBytes maximumPrivateKeyMarkerBytes (working.sanitizerLookbehind ++ raw),
      sanitized.streamState)

def prepareUpload (binding : Hash) (source : Source) (working : DurableState Hash) :
    Except String (Decision Hash) := do
  let nextOffset := min source.size (working.offset + maximumBatchBytes)
  match source.read working.offset (nextOffset - working.offset) with
  | none => .error "source_read_failed"
  | some raw =>
    let fingerprint := sourceFingerprint services installation source
    let (payload, lookbehind, stream) := chunkPayload services working raw
    let anchor ← cursorAnchor services source nextOffset
    .ok (.post
      { id := batchId services installation working.offset nextOffset fingerprint
        identity := source.identity, fingerprint, offset := working.offset, nextOffset }
      payload
      { offset := nextOffset, fingerprint := some fingerprint, awaitingStable := true
        redactNext := false, highWater := source.size, sourceIdentity := some source.identity
        cursorAnchor := anchor, targetBinding := some binding, sanitizerLookbehind := lookbehind
        sanitizerState := stream })

def resumeRedacted (source : Source) (working : DurableState Hash) : DurableState Hash :=
  if working.awaitingStable && working.offset < source.size then
    { working with
      awaitingStable := false, redactNext := true, highWater := source.size
      sanitizerLookbehind := [], sanitizerState := {} }
  else working

def proceed (binding : Hash) (source : Source) (working : DurableState Hash) :
    Except String (Decision Hash) := do
  if working.awaitingStable && source.size = working.offset
      && working.fingerprint = some (sourceFingerprint services installation source) then
    let anchor ← cursorAnchor services source working.offset
    .ok (.confirm { working with
      awaitingStable := false, highWater := source.size, cursorAnchor := anchor })
  else
    let working := resumeRedacted source working
    if source.size ≤ working.offset then
      let anchor ← cursorAnchor services source working.offset
      .ok (.idle { working with cursorAnchor := anchor })
    else prepareUpload services installation binding source working

def scan (binding : Hash) (source : Source) (working : DurableState Hash) :
    Except String (Decision Hash) := do
  let working ← locate services installation source working
  proceed services installation binding source working

inductive State where
  | disabled
  | pending
  | healthy
  | error
  deriving DecidableEq, Repr

inductive Waiting (Hash : Type) where
  | enrolment
  | upload (request : Request Hash) (candidate : DurableState Hash)
  deriving DecidableEq

-- What has happened, for the record: the code does not keep it.
inductive Event (Hash : Type) where
  | posted (request : Request Hash) (payload : Bytes)
  | recorded (request : Request Hash) (state : DurableState Hash)
  | confirmed (source : Source) (state : DurableState Hash)
  | idled (state : DurableState Hash)
  | quarantined

structure World (Hash : Type) where
  source : Option Source
  configFile : Config
  stateFile : Option (DurableState Hash)
  config : Config
  memory : DurableState Hash
  state : State
  lastReason : String
  waiting : Option (Waiting Hash)
  log : List (Event Hash)

inductive WriteOutcome where
  | written
  | failed
  | unconfirmed
  deriving DecidableEq, Repr

structure Faults where
  opening : Option String := none
  reading : Option String := none
  quarantine : Bool := false
  config : WriteOutcome := .written
  save : WriteOutcome := .written
  deriving DecidableEq, Repr

structure EnrolmentReply where
  transportAccepted : Bool
  status : Nat
  endpoint : String
  clientId : String
  token : String
  deriving DecidableEq, Repr

structure UploadReply (Hash : Type) where
  transportAccepted : Bool
  status : Nat
  batchAccepted : String
  batchId : Option Hash
  deriving DecidableEq

def World.setError (world : World Hash) (reason : String) : World Hash :=
  { world with state := .error, lastReason := reason, waiting := none }

def World.saveState (world : World Hash) (state : DurableState Hash) (event : Event Hash) :
    WriteOutcome → World Hash
  | .failed => world
  | _ => { world with stateFile := some state.stored, log := world.log ++ [event] }

def World.saveAndApply (world : World Hash) (state : DurableState Hash) (event : Event Hash)
    (save : WriteOutcome) (next : State) (reason : String) : World Hash :=
  let saved := world.saveState state event save
  if save = .written then
    { saved with memory := state, state := next, lastReason := reason, waiting := none }
  else saved.setError "state_write_failed"

def World.quarantineState (world : World Hash) : World Hash :=
  match world.stateFile with
  | some _ => { world with stateFile := none, log := world.log ++ [.quarantined] }
  | none => world

def World.quarantineFails (world : World Hash) (fails : Bool) : Bool :=
  world.stateFile.isSome && fails

def conclude (save : WriteOutcome) (source : Source) (world : World Hash) :
    Except String (Decision Hash) → World Hash
  | .error reason => world.setError reason
  | .ok (.confirm state) =>
    world.saveAndApply state (.confirmed source state) save .healthy "stable_source_confirmed"
  | .ok (.idle state) =>
    world.saveAndApply state (.idled state) save .pending "waiting_for_log_data"
  | .ok (.post request payload candidate) =>
    { world with
      waiting := some (.upload request candidate), log := world.log ++ [.posted request payload] }

def examine (faults : Faults) (binding : Hash) (source : Source) (world : World Hash) : World Hash :=
  match faults.reading with
  | some reason => world.setError reason
  | none =>
    let working := { world.memory with targetBinding := some binding }
    conclude faults.save source world (scan services installation binding source working)

def readSource (faults : Faults) (world : World Hash) : World Hash :=
  match faults.opening, world.source with
  | some reason, _ => world.setError reason
  | none, none => world.setError "source_read_failed"
  | none, some source =>
    let binding := targetBinding services installation world.config
    if world.memory.targetBinding.isSome && world.memory.targetBinding ≠ some binding then
      if world.quarantineFails faults.quarantine then world.setError "state_quarantine_failed"
      else
        examine services installation faults binding source
          { world.quarantineState with memory := { targetBinding := some binding } }
    else examine services installation faults binding source world

def poll (faults : Faults) (world : World Hash) : World Hash :=
  if world.waiting.isSome || world.state = .disabled || world.state = .error then world
  else if world.config.clientLogs.token = "" && world.config.clientLogs.bootstrap then
    { world with waiting := some .enrolment }
  else readSource services installation faults world

def EnrolmentReply.enrolled (reply : EnrolmentReply) (target : Target) : Bool :=
  reply.transportAccepted && 200 ≤ reply.status && reply.status < 300
    && reply.endpoint = target.endpoint && reply.clientId = target.clientId && reply.token ≠ ""

def rebindTarget (faults : Faults) (world : World Hash) : World Hash :=
  let binding := targetBinding services installation world.config
  if world.memory.targetBinding.isSome && world.memory.targetBinding ≠ some binding then
    if world.quarantineFails faults.quarantine then world.setError "state_quarantine_failed"
    else
      readSource services installation faults
        { world.quarantineState with memory := { targetBinding := some binding } }
  else
    readSource services installation faults
      { world with memory := { world.memory with targetBinding := some binding } }

def enrolled (reply : EnrolmentReply) (faults : Faults) (world : World Hash) : World Hash :=
  let target := world.config.clientLogs
  if reply.enrolled target then
    let config := { world.config with clientLogs := { target with token := reply.token, bootstrap := false } }
    match faults.config with
    | .written =>
      rebindTarget services installation faults
        { world with config, configFile := config, waiting := none }
    | .failed => { world with config }.setError "config_write_failed"
    | .unconfirmed => { world with config, configFile := config }.setError "config_write_failed"
  else world.setError "bootstrap_failed"

def UploadReply.success (reply : UploadReply Hash) : Bool :=
  reply.transportAccepted && 200 ≤ reply.status && reply.status < 300

def UploadReply.accepts (reply : UploadReply Hash) (request : Request Hash) : Bool :=
  reply.success && reply.batchAccepted = "1" && reply.batchId = some request.id

def answered (reply : UploadReply Hash) (save : WriteOutcome) (request : Request Hash)
    (candidate : DurableState Hash) (world : World Hash) : World Hash :=
  if reply.accepts request then
    world.saveAndApply candidate (.recorded request candidate) save .pending
      "receipt_accepted_waiting_stability"
  else world.setError (if reply.success then "receipt_mismatch" else "upload_failed")

def loadState (faults : Faults) (world : World Hash) : World Hash :=
  let binding := targetBinding services installation world.config
  let fresh := { world with memory := { targetBinding := some binding } }
  match world.stateFile with
  | none => { fresh with state := .pending, lastReason := "ready" }
  | some stored =>
    match faults.reading with
    | some reason => fresh.setError reason
    | none =>
      if stored.accepted && stored.targetBinding = some binding then
        { world with memory := stored, state := .pending, lastReason := "ready" }
      else if faults.quarantine then fresh.setError "state_quarantine_failed"
      else { fresh.quarantineState with state := .pending, lastReason := "ready" }

def load (faults : Faults) (world : World Hash) : World Hash :=
  match faults.opening with
  | some reason => world.setError reason
  | none =>
    let world := { world with config := world.configFile }
    if world.config.enabled then loadState services installation faults world
    else { world with state := .disabled, lastReason := "disabled_by_provisioning" }

def restart (config : Option Config) (faults : Faults) (world : World Hash) : World Hash :=
  load services installation faults
    { world with
      configFile := config.getD world.configFile, memory := {}, waiting := none, state := .disabled
      lastReason := "not_configured" }

inductive Label (Hash : Type) where
  | change (source : Option Source)
  | restart (config : Option Config) (faults : Faults)
  | poll (faults : Faults)
  | enrolled (reply : EnrolmentReply) (faults : Faults)
  | answered (reply : UploadReply Hash) (save : WriteOutcome)

def step (world : World Hash) : Label Hash → World Hash
  | .change source => { world with source }
  | .restart config faults => restart services installation config faults world
  | .poll faults => poll services installation faults world
  | .enrolled reply faults =>
    match world.waiting with
    | some .enrolment => enrolled services installation reply faults world
    | _ => world
  | .answered reply save =>
    match world.waiting with
    | some (.upload request candidate) => answered reply save request candidate world
    | _ => world

def Step (before : World Hash) (label : Label Hash) (after : World Hash) : Prop :=
  after = step services installation before label

def World.initial (source : Option Source) (config : Config) : World Hash :=
  { source, configFile := config, stateFile := none, config, memory := {}, state := .disabled
    lastReason := "not_configured", waiting := none, log := [] }

end Amnezia.Headless.Logs
