import Amnezia.Headless.LogCursor

/-! # Plain content is sent only from a confirmed position -/

namespace Amnezia.Headless.Logs
open Lib Relation

variable {Hash : Type} {services : Services Hash} {installation : Installation}

def Event.Keeps (offset : Nat) (identity : String) (fingerprint : Hash) : Event Hash → Prop
  | .posted _ _ => True
  | .recorded _ _ => False
  | .confirmed _ state | .idled state =>
    state.offset = offset ∧ state.sourceIdentity = some identity ∧ state.fingerprint = some fingerprint
  | .quarantined => False

def Received (log : List (Event Hash)) (offset : Nat) (identity : String) (fingerprint : Hash) : Prop :=
  ∃ front request state back, log = front ++ .recorded request state :: back ∧
    request.nextOffset = offset ∧ request.identity = identity ∧ request.fingerprint = fingerprint ∧
    ∀ event ∈ back, event.Keeps offset identity fingerprint

variable (services installation) in
def Stable (log : List (Event Hash)) (offset : Nat) (identity : String) (fingerprint : Hash) : Prop :=
  ∃ front source state back, log = front ++ .confirmed source state :: back ∧
    Received front offset identity fingerprint ∧ source.size = offset ∧ source.identity = identity ∧
    sourceFingerprint services installation source = fingerprint ∧
    ∀ event ∈ back, event.Keeps offset identity fingerprint

section

variable {log : List (Event Hash)} {event : Event Hash}
variable {state working candidate : DurableState Hash} {world : World Hash} {binding : Hash}
variable {source : Source} {request : Request Hash} {payload : Bytes}

theorem Received.snoc {offset : Nat} {identity : String} {fingerprint : Hash}
    (received : Received log offset identity fingerprint)
    (keeps : event.Keeps offset identity fingerprint) :
    Received (log ++ [event]) offset identity fingerprint := by
  obtain ⟨front, request, state, back, rfl, next, same, print, kept⟩ := received
  refine ⟨front, request, state, back ++ [event], by simp, next, same, print, fun other member => ?_⟩
  rcases List.mem_append.mp member with old | new
  · exact kept other old
  · rw [List.mem_singleton.mp new]
    exact keeps

theorem Stable.snoc {offset : Nat} {identity : String} {fingerprint : Hash}
    (stable : Stable services installation log offset identity fingerprint)
    (keeps : event.Keeps offset identity fingerprint) :
    Stable services installation (log ++ [event]) offset identity fingerprint := by
  obtain ⟨front, source, state, back, rfl, received, size, same, print, kept⟩ := stable
  refine ⟨front, source, state, back ++ [event], by simp, received, size, same, print, fun other member => ?_⟩
  rcases List.mem_append.mp member with old | new
  · exact kept other old
  · rw [List.mem_singleton.mp new]
    exact keeps

variable (services installation) in
structure Grounded (log : List (Event Hash)) (state : DurableState Hash) : Prop where
  fresh : state.fingerprint = none → state.awaitingStable = false
  awaiting : state.awaitingStable = true → ∃ identity fingerprint, state.sourceIdentity = some identity ∧
    state.fingerprint = some fingerprint ∧ Received log state.offset identity fingerprint
  plain : state.awaitingStable = false → state.redactNext = false → ∀ fingerprint,
    state.fingerprint = some fingerprint → ∃ identity, state.sourceIdentity = some identity ∧
      Stable services installation log state.offset identity fingerprint

theorem Grounded.posted (grounded : Grounded services installation log state) :
    Grounded services installation (log ++ [.posted request payload]) state where
  fresh := grounded.fresh
  awaiting awaits := by
    obtain ⟨identity, fingerprint, same, print, received⟩ := grounded.awaiting awaits
    exact ⟨identity, fingerprint, same, print, received.snoc trivial⟩
  plain settled plain fingerprint print := by
    obtain ⟨identity, same, stable⟩ := grounded.plain settled plain fingerprint print
    exact ⟨identity, same, stable.snoc trivial⟩

theorem grounded_fresh (log : List (Event Hash)) (binding : Option Hash) :
    Grounded services installation log { targetBinding := binding } :=
  ⟨fun _ => rfl, fun awaits => (by cases awaits), fun _ _ _ print => (by cases print)⟩

def DurableState.position (state : DurableState Hash) : DurableState Hash :=
  { state with targetBinding := none, sanitizerLookbehind := [] }

theorem Grounded.transfer {other : DurableState Hash}
    (grounded : Grounded services installation log state) (same : other.position = state.position) :
    Grounded services installation log other := by
  simp only [DurableState.position, DurableState.mk.injEq] at same
  obtain ⟨offset, print, awaiting, redacts, -, identity, -⟩ := same
  refine ⟨?_, ?_, ?_⟩
  · rw [print, awaiting]
    exact grounded.fresh
  · rw [print, awaiting, offset, identity]
    exact grounded.awaiting
  · rw [print, awaiting, offset, identity, redacts]
    exact grounded.plain

def PlainPosts (services : Services Hash) (installation : Installation) (log : List (Event Hash)) : Prop :=
  ∀ front request payload back, log = front ++ .posted request payload :: back → payload ≠ redactedChunk →
    Stable services installation front request.offset request.identity request.fingerprint

theorem PlainPosts.snoc (posts : PlainPosts services installation log)
    (last : ∀ request payload, event = .posted request payload → payload ≠ redactedChunk →
      Stable services installation log request.offset request.identity request.fingerprint) :
    PlainPosts services installation (log ++ [event]) := by
  intro front request payload back split plain
  rcases List.eq_nil_or_concat back with rfl | ⟨rest, final, rfl⟩
  · obtain ⟨rfl, same⟩ := List.append_inj' split rfl
    exact last request payload (List.cons.inj same).1 plain
  · rw [List.concat_eq_append, ← List.cons_append, ← List.append_assoc] at split
    obtain ⟨rfl, -⟩ := List.append_inj' split rfl
    exact posts front request payload rest rfl plain

variable [DecidableEq Hash]

variable (services installation) in
structure Recorded (world : World Hash) : Prop where
  awake : world.waiting.isSome = true → world.state.running = true
  filed : ∀ stored, world.stateFile = some stored → Grounded services installation world.log stored
  memory : world.state.running = true → world.memory.position = (world.stateFile.getD {}).position
  waiting : ∀ request candidate, world.waiting = some (.upload request candidate) →
    ∃ binding source payload, scan services installation binding source (world.working binding) =
      .ok (.post request payload candidate)
  posts : PlainPosts services installation world.log

theorem Recorded.grounded (recorded : Recorded services installation world)
    (running : world.state.running = true) (binding : Hash) :
    Grounded services installation world.log (world.working binding) := by
  have same : (world.working binding).position = (world.stateFile.getD {}).position :=
    recorded.memory running
  cases file : world.stateFile with
  | none =>
    rw [file] at same
    exact (grounded_fresh world.log none).transfer same
  | some stored =>
    rw [file] at same
    exact (recorded.filed stored file).transfer same

theorem grounded_confirm (grounded : Grounded services installation log working)
    (decided : scan services installation binding source working = .ok (.confirm state)) :
    Grounded services installation (log ++ [.confirmed source state]) state := by
  obtain ⟨located, found, awaits, size, anchor, -, rfl⟩ := scan_ok decided grounded.fresh
  rcases found.position with held | rebound
  · obtain ⟨lookbehind, rfl, -⟩ := held.same
    obtain ⟨identity, fingerprint, same, print, received⟩ := grounded.awaiting awaits
    have name := held.identity_eq same
    have content : sourceFingerprint services installation source = fingerprint := by
      have known := held.fingerprint
      rw [print] at known
      exact (Option.some.inj known).symm
    refine ⟨fun _ => rfl, fun awaits => (by cases awaits), fun _ _ other known => ?_⟩
    obtain rfl : fingerprint = other := Option.some.inj (print.symm.trans known)
    exact ⟨source.identity, rfl, log, source, _, [], rfl, name ▸ received, size, rfl, content,
      fun _ member => by cases member⟩
  · rw [rebound.awaiting] at awaits
    cases awaits

theorem grounded_idle (grounded : Grounded services installation log working)
    (decided : scan services installation binding source working = .ok (.idle state)) :
    Grounded services installation (log ++ [.idled state]) state := by
  obtain ⟨located, found, settled, size, anchor, -, rfl⟩ := scan_ok decided grounded.fresh
  refine ⟨fun _ => settled, fun awaits => ?_, fun _ plain fingerprint print => ?_⟩
  · rw [settled] at awaits
    cases awaits
  · rcases found.position with held | rebound
    · obtain ⟨lookbehind, rfl, -⟩ := held.same
      obtain ⟨identity, same, stable⟩ := grounded.plain settled plain fingerprint print
      have name := held.identity_eq same
      exact ⟨identity, by rw [name], stable.snoc ⟨rfl, by rw [name], print⟩⟩
    · rw [rebound.redacts] at plain
      cases plain

theorem grounded_record (fresh : working.fingerprint = none → working.awaitingStable = false)
    (decided : scan services installation binding source working = .ok (.post request payload candidate)) :
    Grounded services installation (log ++ [.recorded request candidate]) candidate := by
  obtain ⟨located, -, posting⟩ := scan_post decided fresh
  obtain ⟨anchor, -, shape⟩ := posting.state
  rw [shape]
  refine ⟨fun print => (by cases print), fun _ => ?_, fun settled => (by cases settled)⟩
  exact ⟨request.identity, request.fingerprint, rfl, rfl, log, request, _, [], rfl, rfl, rfl, rfl,
    fun _ member => by cases member⟩

theorem stable_of_plain_post (grounded : Grounded services installation log working)
    (decided : scan services installation binding source working = .ok (.post request payload candidate))
    (plain : payload ≠ redactedChunk) :
    Stable services installation log request.offset request.identity request.fingerprint := by
  obtain ⟨located, found, posting⟩ := scan_post decided grounded.fresh
  obtain ⟨settled, unredacted⟩ := settled_of_plain posting plain
  rcases found.position with held | rebound
  · obtain ⟨lookbehind, rfl, -⟩ := held.same
    obtain ⟨identity, same, stable⟩ := grounded.plain settled unredacted _ held.fingerprint
    have name := held.identity_eq same
    rw [posting.start, posting.identity, posting.fingerprint, resumeRedacted_offset, name]
    exact stable
  · rw [rebound.redacts] at unredacted
    cases unredacted

variable {permits : World Hash → Event Hash → Prop}

theorem grounded_saves (recorded : Recorded services installation world)
    (saves : Saves services installation permits world event state) :
    Grounded services installation (world.log ++ [event]) state := by
  cases saves with
  | confirmed present decided running => exact grounded_confirm (recorded.grounded running _) decided
  | idled present decided running => exact grounded_idle (recorded.grounded running _) decided
  | recorded permitted waiting accepted =>
    obtain ⟨binding, source, payload, decided⟩ := recorded.waiting _ _ waiting
    have running : world.state.running = true := recorded.awake (by simp [waiting])
    exact grounded_record (recorded.grounded running binding).fresh decided

variable {before after : World Hash}

theorem Change.recorded (change : Change services installation permits before after)
    (recorded : Recorded services installation before) : Recorded services installation after := by
  cases change with
  | quiet source stateFile log waiting awake memory =>
    refine ⟨awake, ?_, fun running => ?_, fun request candidate uploads => ?_, ?_⟩
    · rw [stateFile, log]
      exact recorded.filed
    · obtain ⟨ran, binding, same⟩ := memory running
      rw [stateFile, ← recorded.memory ran, same]
      rfl
    · rw [uploads] at waiting
      cases waiting
    · rw [log]
      exact recorded.posts
  | fresh source stateFile memory log waiting =>
    refine ⟨?_, fun stored file => ?_, fun _ => ?_, fun request candidate uploads => ?_, ?_⟩
    · simp [waiting]
    · rw [stateFile] at file
      cases file
    · rw [stateFile, memory]
      rfl
    · rw [waiting] at uploads
      cases uploads
    · rw [log]
      unfold World.quarantineState
      split
      · apply recorded.posts.snoc
        intro request payload same
        cases same
      · exact recorded.posts
  | resumed source found stateFile memory log waiting =>
    refine ⟨?_, ?_, fun _ => ?_, fun request candidate uploads => ?_, ?_⟩
    · simp [waiting]
    · rw [stateFile, log, ← found]
      exact recorded.filed
    · rw [stateFile, memory]
      rfl
    · rw [waiting] at uploads
      cases uploads
    · rw [log]
      exact recorded.posts
  | posted permitted present running decided =>
    refine ⟨fun _ => running, fun stored file => ?_, fun _ => recorded.memory running, ?_, ?_⟩
    · exact (recorded.filed stored file).posted
    · rintro request candidate ⟨⟩
      exact ⟨_, _, _, decided⟩
    · apply recorded.posts.snoc
      rintro request payload ⟨⟩ plain
      exact stable_of_plain_post (recorded.grounded running _) decided plain
  | saved saves source stateFile log waiting memory =>
    refine ⟨?_, fun stored file => ?_, fun running => ?_, fun request candidate uploads => ?_, ?_⟩
    · simp [waiting]
    · rw [stateFile] at file
      rw [log, ← Option.some.inj file]
      exact (grounded_saves recorded saves).transfer rfl
    · rw [stateFile, memory running]
      rfl
    · rw [waiting] at uploads
      cases uploads
    · rw [log]
      apply recorded.posts.snoc
      rintro request payload ⟨⟩
      cases saves

theorem Reaches.recorded (reached : Reaches services installation permits before after)
    (recorded : Recorded services installation before) : Recorded services installation after := by
  induction reached with
  | refl => exact recorded
  | tail _ last ih => exact last.recorded ih

theorem Step.recorded {label : Label Hash}
    (step : Step services installation before label after) (recorded : Recorded services installation before) :
    Recorded services installation after := by
  by_cases changes : ∃ source, label = .change source
  · obtain ⟨source, rfl⟩ := changes
    rw [step]
    exact ⟨recorded.awake, recorded.filed, recorded.memory, recorded.waiting, recorded.posts⟩
  · have reached : Reaches services installation (fun _ _ => True) before after := by
      rw [step]
      exact step_reaches recorded.awake (fun source same => changes ⟨source, same⟩) (fun _ _ _ => trivial)
        fun _ _ _ _ _ => trivial
    exact reached.recorded recorded

theorem recorded_initial (source : Option Source) (config : Config) :
    Recorded services installation (World.initial source config) where
  awake waiting := by cases waiting
  filed stored file := by cases file
  memory running := by cases running
  waiting request candidate uploads := by cases uploads
  posts front request payload back split := by
    cases front <;> cases split

theorem Run.recorded {labels : List (Label Hash)} (run : Run (Step services installation) before labels after)
    (recorded : Recorded services installation before) : Recorded services installation after := by
  induction run with
  | nil => exact recorded
  | cons first _ ih => exact ih (first.recorded recorded)

def World.durableOffset (world : World Hash) : Nat := (world.stateFile.getD {}).offset

def World.durableFingerprint (world : World Hash) : Option Hash := (world.stateFile.getD {}).fingerprint

theorem Recorded.offset_eq (recorded : Recorded services installation world)
    (running : world.state.running = true) : world.memory.offset = world.durableOffset := by
  have same := congrArg DurableState.offset (recorded.memory running)
  exact same

omit [DecidableEq Hash] in
theorem offset_of_reached {located : DurableState Hash}
    (found : Located services installation source working located) (reached : source.size = located.offset) :
    located.offset ≤ working.offset := by
  rcases found.position with held | rebound
  · obtain ⟨lookbehind, rfl, -⟩ := held.same
    exact Nat.le_refl _
  · have tail := rebound.tail
    unfold Source.tailStart rebindTailBytes at tail
    omega

def Event.isReceipt : Event Hash → Bool
  | .recorded _ _ => true
  | _ => false

theorem Change.offset_le
    (change : Change services installation (fun _ event => event.isReceipt = false) before after)
    (recorded : Recorded services installation before) : after.durableOffset ≤ before.durableOffset := by
  cases change with
  | quiet source stateFile log waiting awake memory =>
    have same : after.durableOffset = before.durableOffset := by
      rw [World.durableOffset, World.durableOffset, stateFile]
    exact Nat.le_of_eq same
  | fresh source stateFile memory log waiting =>
    unfold World.durableOffset
    rw [stateFile]
    exact Nat.zero_le _
  | resumed source found stateFile memory log waiting =>
    have same : after.durableOffset = before.durableOffset := by
      rw [World.durableOffset, World.durableOffset, stateFile, found]
    exact Nat.le_of_eq same
  | posted permitted present running decided => exact Nat.le_refl _
  | saved saves source stateFile log waiting memory =>
    have file : after.durableOffset = _ := congrArg (fun file => (Option.getD file {}).offset) stateFile
    rw [file]
    cases saves with
    | confirmed present decided running =>
      obtain ⟨located, found, -, size, anchor, -, rfl⟩ := scan_ok decided (recorded.grounded running _).fresh
      rw [← recorded.offset_eq running]
      have bound := offset_of_reached found size
      exact bound
    | idled present decided running =>
      obtain ⟨located, found, -, size, anchor, -, rfl⟩ := scan_ok decided (recorded.grounded running _).fresh
      rw [← recorded.offset_eq running]
      have bound := offset_of_reached found size
      exact bound
    | recorded permitted waiting accepted => cases permitted

theorem Reaches.offset_le
    (reached : Reaches services installation (fun _ event => event.isReceipt = false) before after)
    (recorded : Recorded services installation before) : after.durableOffset ≤ before.durableOffset := by
  induction reached with
  | refl => exact Nat.le_refl _
  | tail front last ih =>
    have kept := Reaches.recorded front recorded
    exact Nat.le_trans (last.offset_le kept) ih

theorem request_range (fresh : working.fingerprint = none → working.awaitingStable = false)
    (decided : scan services installation binding source working = .ok (.post request payload candidate)) :
    candidate.offset = request.nextOffset ∧
      request.id = batchId services installation request.offset request.nextOffset request.fingerprint ∧
      (request.offset = working.offset ∨
        (working.fingerprint ≠ some request.fingerprint ∨ request.nextOffset < working.offset) ∧
          request.offset = request.nextOffset - rebindTailBytes) := by
  obtain ⟨located, found, posting⟩ := scan_post decided fresh
  obtain ⟨anchor, -, shape⟩ := posting.state
  have next := posting.next
  have start := posting.start
  rw [resumeRedacted_offset] at next start
  refine ⟨congrArg DurableState.offset shape, posting.id, ?_⟩
  rcases found.position with held | rebound
  · obtain ⟨lookbehind, rfl, -⟩ := held.same
    exact .inl start
  · right
    constructor
    · rw [posting.fingerprint]
      exact rebound.epoch.imp_right fun truncated => by omega
    · have tail := rebound.tail
      unfold Source.tailStart rebindTailBytes at tail
      unfold maximumBatchBytes at next
      unfold rebindTailBytes
      omega

structure Advances (services : Services Hash) (installation : Installation) (before : World Hash)
    (label : Label Hash) (after : World Hash) (request : Request Hash) : Prop where
  answered : ∃ reply save, label = .answered reply save ∧ reply.accepts request = true
  waiting : ∃ candidate, before.waiting = some (.upload request candidate)
  id : request.id = batchId services installation request.offset request.nextOffset request.fingerprint
  ends : request.nextOffset = after.durableOffset
  starts : request.offset = before.durableOffset ∨
    before.durableFingerprint ≠ some request.fingerprint ∧
      request.offset = request.nextOffset - rebindTailBytes

theorem answered_advances {reply : UploadReply Hash} {save : WriteOutcome}
    (recorded : Recorded services installation world)
    (forward : world.durableOffset < (step services installation world (.answered reply save)).durableOffset) :
    ∃ request, Advances services installation world (.answered reply save)
      (step services installation world (.answered reply save)) request := by
  simp only [step] at forward ⊢
  cases flight : world.waiting with
  | none => simp [flight] at forward
  | some waiting =>
    cases waiting with
    | enrolment => simp [flight] at forward
    | upload request candidate =>
      simp only [flight, answered] at forward ⊢
      split at forward
      · rename_i accepted
        obtain ⟨binding, source, payload, decided⟩ := recorded.waiting _ _ flight
        have running : world.state.running = true := recorded.awake (by simp [flight])
        obtain ⟨ends, id, starts⟩ := request_range (recorded.grounded running binding).fresh decided
        have same : (world.working binding).offset = world.durableOffset := recorded.offset_eq running
        have print : (world.working binding).fingerprint = world.durableFingerprint := by
          have same := congrArg DurableState.fingerprint (recorded.memory running)
          exact same
        rw [same, print] at starts
        have moved : (world.saveAndApply candidate (.recorded request candidate) save .pending
            "receipt_accepted_waiting_stability").durableOffset = request.nextOffset := by
          cases save with
          | failed => exact absurd forward (Nat.lt_irrefl _)
          | written => exact ends
          | unconfirmed => exact ends
        rw [moved] at forward
        refine ⟨request, ⟨reply, save, rfl, accepted⟩, ⟨candidate, flight⟩, id, ?_, ?_⟩
        · rw [if_pos accepted, moved]
        · exact starts.imp_right (And.imp_left (·.resolve_right (by omega)))
      · exact absurd forward (Nat.lt_irrefl _)

theorem step_advances {label : Label Hash}
    (recorded : Recorded services installation world)
    (forward : world.durableOffset < (step services installation world label).durableOffset) :
    ∃ request, Advances services installation world label (step services installation world label) request := by
  cases kind : label.isAnswer with
  | true =>
    cases label with
    | answered reply save => exact answered_advances recorded forward
    | _ => cases kind
  | false =>
    refine absurd forward (Nat.not_lt.mpr ?_)
    by_cases changes : ∃ source, label = .change source
    · obtain ⟨source, rfl⟩ := changes
      exact Nat.le_refl _
    · exact Reaches.offset_le (step_reaches recorded.awake (fun source same => changes ⟨source, same⟩)
        (by simp [kind]) fun _ _ _ _ _ => rfl) recorded

theorem plain_content_from_confirmed_position {source : Option Source} {config : Config}
    {labels : List (Label Hash)} {world : World Hash}
    (run : Run (Step services installation) (World.initial source config) labels world) :
    PlainPosts services installation world.log ∧
      ∀ label, world.durableOffset < (step services installation world label).durableOffset →
        ∃ request, Advances services installation world label
          (step services installation world label) request := by
  have recorded := Run.recorded run (recorded_initial source config)
  exact ⟨recorded.posts, fun label forward => step_advances recorded forward⟩

def execute (services : Services Hash) (installation : Installation) (world : World Hash)
    (labels : List (Label Hash)) : World Hash :=
  labels.foldl (step services installation) world

theorem run_execute (world : World Hash) (labels : List (Label Hash)) :
    Run (Step services installation) world labels (execute services installation world labels) :=
  run_foldl _ world labels

theorem memory_holds_recorded_position (source : Option Source) (config : Config) (labels : List (Label Hash)) :
    let world := execute services installation (World.initial source config) labels
    (world.state.running = true → world.memory.position = (world.stateFile.getD {}).position) ∧
      ∀ request candidate, world.waiting = some (.upload request candidate) → world.state.running = true ∧
        ∃ binding source payload, scan services installation binding source (world.working binding) =
          .ok (.post request payload candidate) := by
  have recorded : Recorded services installation _ :=
    Run.recorded (run_execute _ labels) (recorded_initial source config)
  refine ⟨recorded.memory, fun request candidate waiting => ⟨recorded.awake ?_, recorded.waiting _ _ waiting⟩⟩
  rw [waiting]
  rfl

end

namespace Sample

def pieces {α : Type} (size : Nat) : Nat → List α → List (List α)
  | 0, items => [items]
  | count + 1, items => items.take size :: pieces size count (items.drop size)

theorem flatten_pieces {α : Type} (size count : Nat) (items : List α) :
    (pieces size count items).flatten = items := by
  induction count generalizing items with
  | zero => simp [pieces]
  | succ count ih => simp [pieces, ih]

def blocks (bytes : Bytes) : List (List Bytes) := (pieces 256 16 bytes).map (pieces 16 16)

theorem flatten_blocks (bytes : Bytes) : ((blocks bytes).map List.flatten).flatten = bytes := by
  unfold blocks
  rw [List.map_map]
  have same : List.flatten ∘ pieces 16 16 = (id : Bytes → Bytes) := funext fun part => flatten_pieces 16 16 part
  rw [same, List.map_id, flatten_pieces]

inductive Digest where
  | token (token : String)
  | target (endpoint clientId installationId sourcePath : String) (token : Digest)
  | source (sourcePath identity : String) (leading : List (List Bytes))
  | cursor (start : Nat) (bytes : Bytes)
  | batch (installationId : String) (fingerprint : Digest) (offset nextOffset : Nat)
  deriving DecidableEq

def digest : Material Digest → Digest
  | .token token => .token token
  | .target endpoint clientId installationId sourcePath token =>
    .target endpoint clientId installationId sourcePath token
  | .source sourcePath identity leading => .source sourcePath identity (blocks leading)
  | .cursor start bytes => .cursor start bytes
  | .batch installationId fingerprint offset nextOffset =>
    .batch installationId fingerprint offset nextOffset

def plain : Services Digest where
  digest := digest
  inspectStreamBoundary _ _ _ := {}
  sanitize input _ := { data := input, streamState := {} }

def host : Installation := ⟨"0123456789abcdef", "/var/log/amnezia.log"⟩

def config : Config := { clientLogs := { endpoint := "https://collector/", clientId := "client", token := "token" } }

def log (size : Nat) : Source := ⟨"unix:1:2", size, fun position => if position % 10 = 9 then 10 else 97⟩

def initial (size : Nat) : World Digest := World.initial (some (log size)) config

def receipt (offset nextOffset size : Nat) : Label Digest :=
  .answered ⟨true, 204, "1", some (batchId plain host offset nextOffset
    (sourceFingerprint plain host (log size)))⟩ .written

def underway (world : World Digest) : Option (Nat × Nat) :=
  match world.waiting with
  | some (.upload request _) => some (request.offset, request.nextOffset)
  | _ => none

def sendsPlain : Event Digest → Bool
  | .posted _ payload => payload ≠ redactedChunk
  | _ => false

def confirming (size : Nat) : List (Label Digest) :=
  [.restart none {}, .poll {}, receipt 0 size size, .poll {}]

def sending : World Digest :=
  execute plain host (initial 5000) (confirming 5000 ++ [.change (some (log 5010)), .poll {}])

def regrown : World Digest :=
  execute plain host (initial 10)
    (confirming 10 ++ [.change (some (log (rebindTailBytes + 11))), .poll {}])

end Sample

theorem plain_content_from_confirmed_position_sample :
    (Sample.sending.log.any Sample.sendsPlain = true ∧
        Sample.underway Sample.sending = some (5000, 5010)) ∧
      PlainPosts Sample.plain Sample.host Sample.sending.log ∧
      ∃ request, Advances Sample.plain Sample.host Sample.sending (Sample.receipt 5000 5010 5010)
        (step Sample.plain Sample.host Sample.sending (Sample.receipt 5000 5010 5010)) request := by
  have evaluated : (Sample.sending.log.any Sample.sendsPlain = true ∧
        Sample.underway Sample.sending = some (5000, 5010)) ∧
      Sample.sending.durableOffset <
        (step Sample.plain Sample.host Sample.sending (Sample.receipt 5000 5010 5010)).durableOffset := by
    decide +kernel
  obtain ⟨posts, advances⟩ := plain_content_from_confirmed_position
    (run_execute (Sample.initial 5000) (Sample.confirming 5000 ++ [.change (some (Sample.log 5010)), .poll {}]) :
      Run (Step Sample.plain Sample.host) _ _ _)
  exact ⟨evaluated.1, posts, advances _ evaluated.2⟩

theorem rebinding_skips_content :
    Run (Step Sample.plain Sample.host) (Sample.initial 10)
        (Sample.confirming 10 ++ [.change (some (Sample.log (rebindTailBytes + 11))), .poll {}]) Sample.regrown ∧
      Sample.regrown.durableOffset = 10 ∧
      Sample.underway Sample.regrown = some (11, rebindTailBytes + 11) ∧
      (step Sample.plain Sample.host Sample.regrown
        (Sample.receipt 11 (rebindTailBytes + 11) (rebindTailBytes + 11))).durableOffset =
          rebindTailBytes + 11 :=
  ⟨run_execute _ _, by decide +kernel⟩

end Amnezia.Headless.Logs
