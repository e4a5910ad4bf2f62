import Amnezia.Headless.LogAvailability

/-! # One batch id, one body -/

namespace Amnezia.Headless.Logs
open Lib Relation

/-! ## Sources with the same leading bytes -/

def Source.Extends (old new : Source) : Prop :=
  new.identity = old.identity → new.leading = old.leading → old.GrowsTo new

theorem Source.GrowsTo.refl (source : Source) : source.GrowsTo source := ⟨rfl, Nat.le_refl _, fun _ _ => rfl⟩

structure Newest (history : List Source) (source : Source) : Prop where
  member : source ∈ history
  extends_ : ∀ old ∈ history, old.Extends source

def Source.slice (source : Source) (start stop : Nat) : Bytes :=
  (List.range' start (stop - start)).map source.byte

def Source.behind (source : Source) (offset : Nat) : Bytes :=
  source.slice (offset - maximumPrivateKeyMarkerBytes) offset

variable {start : Nat} {old : Source} {source : Source} {stop : Nat}

theorem read_eq_slice {bytes : Bytes}
    (reading : source.read start (stop - start) = some bytes) : bytes = source.slice start stop := by
  unfold Source.read at reading
  split at reading
  · exact (Option.some.inj reading).symm
  · cases reading

theorem Source.GrowsTo.slice_eq {new : Source} (grows : old.GrowsTo new)
    (ordered : start ≤ stop) (inside : stop ≤ old.size) : new.slice start stop = old.slice start stop :=
  grows.map_eq (by omega)

theorem Source.GrowsTo.behind_eq {new : Source} (grows : old.GrowsTo new) {offset : Nat}
    (inside : offset ≤ old.size) : new.behind offset = old.behind offset :=
  grows.slice_eq (by omega) inside

theorem rightBytes_behind (source : Source) (ordered : start ≤ stop) :
    rightBytes maximumPrivateKeyMarkerBytes (source.behind start ++ source.slice start stop) =
      source.behind stop := by
  have joined : source.behind start ++ source.slice start stop =
      (List.range' (start - maximumPrivateKeyMarkerBytes)
        (start - (start - maximumPrivateKeyMarkerBytes) + (stop - start))).map source.byte := by
    unfold Source.behind Source.slice
    rw [← List.map_append, ← List.range'_append_1]
    congr 3
    omega
  unfold rightBytes
  rw [joined, ← List.map_drop, List.drop_range']
  unfold Source.behind Source.slice
  simp only [List.length_map, List.length_range']
  congr 2 <;> omega

variable {Hash : Type} {services : Services Hash} {installation : Installation} {state : DurableState Hash}
variable {event : Event Hash} {history : List Source}

theorem grows_of_fingerprint (injective : Function.Injective services.digest)
    (newest : Newest history source) (member : old ∈ history)
    (same : sourceFingerprint services installation old = sourceFingerprint services installation source) :
    old.GrowsTo source := by
  have materials := injective same
  simp only [Material.source.injEq, true_and] at materials
  exact newest.extends_ old member materials.1.symm materials.2.symm

/-! ## What is known of a post -/

def Request.Rim (request : Request Hash) : Prop :=
  request.offset = 0 ∨ request.nextOffset = request.offset + rebindTailBytes

def body (services : Services Hash) (source : Source) (request : Request Hash) (stream : StreamState) : Bytes :=
  (sanitizeChunk services (source.behind request.offset) (source.slice request.offset request.nextOffset)
    stream).data

structure Covers (services : Services Hash) (installation : Installation) (history : List Source)
    (request : Request Hash) : Prop where
  id : request.id = batchId services installation request.offset request.nextOffset request.fingerprint
  range : request.offset < request.nextOffset
  source : ∃ source ∈ history, sourceFingerprint services installation source = request.fingerprint ∧
    request.nextOffset ≤ source.size

def Past (services : Services Hash) (installation : Installation) (history : List Source)
    (state : DurableState Hash) (request : Request Hash) (payload : Bytes) : Prop :=
  request.offset < state.offset ∨
    (payload = redactedChunk ∧ (request.Rim ∨ state.awaitingStable = true ∨ state.redactNext = true)) ∨
    (request.offset = state.offset ∧ state.awaitingStable = false ∧ state.redactNext = false ∧
      ∃ source ∈ history, sourceFingerprint services installation source = request.fingerprint ∧
        request.nextOffset ≤ source.size ∧ payload = body services source request state.sanitizerState)

structure Continues (services : Services Hash) (installation : Installation) (history : List Source)
    (log : List (Event Hash)) (state : DurableState Hash) : Prop where
  redacts : state.redactNext = true → state.offset = 0 ∧ state.awaitingStable = false
  plain : state.redactNext = false → state.fingerprint.isSome = true → 0 < state.offset
  past : ∀ request payload, .posted request payload ∈ log → state.fingerprint = some request.fingerprint →
    Past services installation history state request payload

def Behind (services : Services Hash) (installation : Installation) (history : List Source)
    (state : DurableState Hash) : Prop :=
  state.redactNext = false → state.sanitizerLookbehind ≠ [] →
    ∃ source ∈ history, state.fingerprint = some (sourceFingerprint services installation source) ∧
      state.offset ≤ source.size ∧ state.sanitizerLookbehind = source.behind state.offset

theorem Continues.transfer {log : List (Event Hash)} {other : DurableState Hash}
    (continues : Continues services installation history log state) (same : other.position = state.position) :
    Continues services installation history log other := by
  simp only [DurableState.position, DurableState.mk.injEq] at same
  obtain ⟨offset, print, awaiting, redacts, -, -, -, -, -, stream⟩ := same
  refine ⟨?_, ?_, fun request payload member known => ?_⟩
  · rw [redacts, offset, awaiting]
    exact continues.redacts
  · rw [redacts, print, offset]
    exact continues.plain
  · have past := continues.past request payload member (print ▸ known)
    unfold Past at past ⊢
    rw [offset, awaiting, redacts, stream]
    exact past

theorem continues_fresh (history : List Source) (log : List (Event Hash)) :
    Continues services installation history log {} :=
  ⟨fun redacts => (by cases redacts), fun _ known => (by cases known), fun _ _ _ known => (by cases known)⟩

/-! ## More sources, more posts -/

variable {payload : Bytes} {request : Request Hash}

theorem Past.mono {later : List Source} (grows : history ⊆ later)
    (past : Past services installation history state request payload) :
    Past services installation later state request payload := by
  rcases past with before | redacted | ⟨here, settled, plain, source, member, rest⟩
  · exact .inl before
  · exact .inr (.inl redacted)
  · exact .inr (.inr ⟨here, settled, plain, source, grows member, rest⟩)

theorem Continues.mono {later : List Source} {log : List (Event Hash)}
    (grows : history ⊆ later) (continues : Continues services installation history log state) :
    Continues services installation later log state :=
  ⟨continues.redacts, continues.plain,
    fun request payload member known => (continues.past request payload member known).mono grows⟩

theorem Continues.append {log : List (Event Hash)} (continues : Continues services installation history log state)
    (last : ∀ request payload, event = .posted request payload → state.fingerprint = some request.fingerprint →
      Past services installation history state request payload) :
    Continues services installation history (log ++ [event]) state := by
  refine ⟨continues.redacts, continues.plain, fun request payload member known => ?_⟩
  rcases List.mem_append.mp member with old | new
  · exact continues.past request payload old known
  · exact last request payload (List.mem_singleton.mp new).symm known

theorem Behind.mono {later : List Source} (grows : history ⊆ later)
    (behind : Behind services installation history state) : Behind services installation later state := by
  intro plain present
  obtain ⟨source, member, rest⟩ := behind plain present
  exact ⟨source, grows member, rest⟩

inductive PostKind (services : Services Hash) (source : Source) (working : DurableState Hash)
    (request : Request Hash) (payload : Bytes) (candidate : DurableState Hash) : Prop where
  | rim (redacted : payload = redactedChunk) (rim : request.Rim) (lookbehind : candidate.sanitizerLookbehind = [])
  | resumed (redacted : payload = redactedChunk) (awaits : working.awaitingStable = true)
      (start : request.offset = working.offset) (print : working.fingerprint = some request.fingerprint)
      (lookbehind : candidate.sanitizerLookbehind = [])
  | plain (settled : working.awaitingStable = false) (unredacted : working.redactNext = false)
      (positive : 0 < working.offset) (start : request.offset = working.offset)
      (print : working.fingerprint = some request.fingerprint)
      (content : payload = body services source request working.sanitizerState)
      (lookbehind : candidate.sanitizerLookbehind = source.behind request.nextOffset)

section Chunks

variable {binding : Hash} {working candidate : DurableState Hash}
 {payload : Bytes}

section

variable (posting : Posting services installation binding source working request payload candidate)
include posting

theorem redacted_chunk
    (redacts : working.redactNext = true) : payload = redactedChunk ∧ candidate.sanitizerLookbehind = [] := by
  obtain ⟨raw, -, chunk⟩ := posting.chunk
  simp only [chunkPayload, redacts, if_true, Prod.mk.injEq] at chunk
  exact ⟨chunk.1, chunk.2.1⟩

theorem plain_chunk
    (plain : working.redactNext = false) (behind : working.sanitizerLookbehind = source.behind working.offset) :
    payload = body services source request working.sanitizerState ∧
      candidate.sanitizerLookbehind = source.behind request.nextOffset := by
  obtain ⟨raw, reading, chunk⟩ := posting.chunk
  have content := read_eq_slice reading
  have before := posting.before
  have next := posting.next
  simp only [chunkPayload, plain, Bool.false_eq_true, if_false, behind, ← posting.start, Prod.mk.injEq] at chunk
  rw [content] at chunk
  refine ⟨chunk.1, ?_⟩
  rw [chunk.2.1]
  apply rightBytes_behind
  rw [next, posting.start]
  omega

theorem rim_of_tail
    (tail : working.offset = source.tailStart) : request.Rim ∧ request.nextOffset = source.size := by
  have before := posting.before
  have next := posting.next
  have start := posting.start
  unfold Request.Rim
  unfold Source.tailStart at tail
  unfold rebindTailBytes at tail ⊢
  unfold maximumBatchBytes at next
  omega

end

end Chunks

/-! ## What a scan posts -/

section Scan

variable {log : List (Event Hash)} {binding : Hash}
 {working located candidate : DurableState Hash} {request : Request Hash} {payload : Bytes}
 (injective : Function.Injective services.digest) (newest : Newest history source)

include injective newest

theorem past_of_reached (covers : Covers services installation history request)
    (print : request.fingerprint = sourceFingerprint services installation source)
    (reached : state.offset = source.size) : Past services installation history state request payload := by
  obtain ⟨old, member, same, inside⟩ := covers.source
  have grows := grows_of_fingerprint injective newest member (same.trans print)
  have size := grows.size
  have range := covers.range
  exact .inl (by omega)

variable (behind : Behind services installation history working)

include behind

theorem held_lookbehind {result : DurableState Hash} (held : Held services installation source working result)
    (plain : working.redactNext = false) (positive : 0 < working.offset) :
    result.sanitizerLookbehind = source.behind working.offset := by
  obtain ⟨lookbehind, rfl, kept | reading⟩ := held.same
  · obtain ⟨rfl, redacts | start | present⟩ := kept
    · rw [plain] at redacts
      cases redacts
    · omega
    · obtain ⟨old, member, print, inside, same⟩ := behind plain present
      have equal := Option.some.inj (print.symm.trans held.fingerprint)
      have grows := grows_of_fingerprint injective newest member equal
      rw [grows.behind_eq inside]
      exact same
  · exact read_eq_slice reading

variable (continues : Continues services installation history log working)
  (found : Located services installation source working located)

include continues found

theorem post_kind (posting : Posting services installation binding source (resumeRedacted source located) request
    payload candidate) : PostKind services source working request payload candidate := by
  rcases found.position with held | rebound
  · have print : working.fingerprint = some request.fingerprint := by
      rw [posting.fingerprint, held.fingerprint]
    obtain ⟨lookbehind, shape, -⟩ := held.same
    have start : request.offset = working.offset := by
      rw [posting.start, resumeRedacted_offset, shape]
    have before := posting.before
    rw [resumeRedacted_offset] at before
    cases awaits : working.awaitingStable with
    | true =>
      have awaiting : located.awaitingStable = true := by rw [shape]; exact awaits
      have redacts : (resumeRedacted source located).redactNext = true := by
        simp [resumeRedacted, before, awaiting]
      obtain ⟨redacted, cleared⟩ := redacted_chunk posting redacts
      exact .resumed redacted awaits start print cleared
    | false =>
      have kept : resumeRedacted source located = located := by simp [resumeRedacted, shape, awaits]
      rw [kept] at posting
      cases redacts : working.redactNext with
      | true =>
        obtain ⟨redacted, cleared⟩ := redacted_chunk posting (by rw [shape]; exact redacts)
        exact .rim redacted (.inl (start.trans (continues.redacts redacts).1)) cleared
      | false =>
        have positive := continues.plain redacts (by rw [print]; rfl)
        have known := held_lookbehind injective newest behind held redacts positive
        have offset : located.offset = working.offset := by rw [shape]
        have stream : located.sanitizerState = working.sanitizerState := by rw [shape]
        obtain ⟨content, next⟩ := plain_chunk posting (by rw [shape]; exact redacts) (by rw [known, offset])
        rw [stream] at content
        exact .plain awaits redacts positive start print content next
  · have kept : resumeRedacted source located = located := by simp [resumeRedacted, rebound.awaiting]
    rw [kept] at posting
    obtain ⟨redacted, cleared⟩ := redacted_chunk posting rebound.redacts
    exact .rim redacted (rim_of_tail posting rebound.tail).1 cleared

/-! ## What a scan saves -/

theorem continues_settled (covers : ∀ request payload, .posted request payload ∈ log →
      Covers services installation history request)
    (size : source.size = located.offset) (offset : state.offset = located.offset)
    (print : state.fingerprint = located.fingerprint) (redacts : state.redactNext = located.redactNext)
    (lookbehind : state.sanitizerLookbehind = located.sanitizerLookbehind) (settled : state.awaitingStable = false) :
    Continues services installation history log state ∧ Behind services installation history state := by
  have past : ∀ request payload, .posted request payload ∈ log → state.fingerprint = some request.fingerprint →
      Past services installation history state request payload := by
    intro request payload member known
    have same := Option.some.inj (found.fingerprint.symm.trans (print.symm.trans known))
    exact past_of_reached injective newest (covers request payload member) same.symm (offset.trans size.symm)
  rcases found.position with held | rebound
  · obtain ⟨behindNow, shape, -⟩ := held.same
    have place : located.offset = working.offset := by rw [shape]
    have redacting : located.redactNext = working.redactNext := by rw [shape]
    have positive (plain : working.redactNext = false) : 0 < working.offset :=
      continues.plain plain (by rw [held.fingerprint]; rfl)
    refine ⟨⟨fun redacted => ⟨?_, settled⟩, fun plain _ => ?_, past⟩, fun plain _ => ?_⟩
    · rw [offset, place]
      exact (continues.redacts (redacting.symm.trans (redacts.symm.trans redacted))).1
    · rw [offset, place]
      exact positive (redacting.symm.trans (redacts.symm.trans plain))
    · have unredacted := redacting.symm.trans (redacts.symm.trans plain)
      have known := held_lookbehind injective newest behind held unredacted (positive unredacted)
      refine ⟨source, newest.member, print.trans found.fingerprint, offset.symm ▸ found.inside, ?_⟩
      rw [lookbehind, known, offset, place]
  · have tail := rebound.tail
    have redacted := redacts.trans rebound.redacts
    refine ⟨⟨fun _ => ⟨?_, settled⟩, fun plain => ?_, past⟩, fun plain => ?_⟩
    · unfold Source.tailStart rebindTailBytes at tail
      omega
    · exact absurd (plain.symm.trans redacted) Bool.false_ne_true
    · exact absurd (plain.symm.trans redacted) Bool.false_ne_true

variable (posting : Posting services installation binding source (resumeRedacted source located) request payload
  candidate)

include posting

theorem continues_candidate (covers : ∀ request payload, .posted request payload ∈ log →
      Covers services installation history request) :
    Continues services installation history (log ++ [.posted request payload]) candidate ∧
      Behind services installation history candidate := by
  have kind := post_kind injective newest behind continues found posting
  obtain ⟨anchor, -, shape⟩ := posting.state
  have offset : candidate.offset = request.nextOffset := by rw [shape]
  have awaits : candidate.awaitingStable = true := by rw [shape]
  have unredacted : candidate.redactNext = false := by rw [shape]
  have print : candidate.fingerprint = some request.fingerprint := by rw [shape]
  have range : request.offset < request.nextOffset := by
    have before := posting.before
    have start := posting.start
    have next := posting.next
    unfold maximumBatchBytes at next
    omega
  have inside : request.nextOffset ≤ source.size := by
    rw [posting.next]
    exact Nat.min_le_left _ _
  refine ⟨Continues.append ⟨fun redacted => ?_, fun _ _ => ?_, fun other bytes member same => ?_⟩ ?_, ?_⟩
  · exact absurd (unredacted.symm.trans redacted) Bool.false_ne_true
  · omega
  · have epoch : other.fingerprint = request.fingerprint := Option.some.inj (same.symm.trans print)
    rcases found.position with held | rebound
    · obtain ⟨lookbehind, located_eq, -⟩ := held.same
      have start : request.offset = working.offset := by
        rw [posting.start, resumeRedacted_offset, located_eq]
      have known : working.fingerprint = some other.fingerprint := by
        rw [held.fingerprint, epoch, posting.fingerprint]
      rcases continues.past other bytes member known with before | ⟨redacted, -⟩ | ⟨here, -⟩
      · exact .inl (by omega)
      · exact .inr (.inl ⟨redacted, .inr (.inl awaits)⟩)
      · exact .inl (by omega)
    · have kept : resumeRedacted source located = located := by simp [resumeRedacted, rebound.awaiting]
      rw [kept] at posting
      have reached := (rim_of_tail posting rebound.tail).2
      exact past_of_reached injective newest (covers other bytes member) (epoch.trans posting.fingerprint)
        (offset.trans reached)
  · rintro other bytes ⟨⟩ -
    exact .inl (by omega)
  · intro _ present
    cases kind with
    | rim _ _ cleared => exact absurd cleared present
    | resumed _ _ _ _ cleared => exact absurd cleared present
    | plain _ _ _ _ _ _ known =>
      refine ⟨source, newest.member, print.trans (congrArg some posting.fingerprint), ?_, ?_⟩
      · exact offset ▸ inside
      · rw [known, offset]

theorem past_of_post : Past services installation history working request payload := by
  cases post_kind injective newest behind continues found posting with
  | rim redacted rim _ => exact .inr (.inl ⟨redacted, .inl rim⟩)
  | resumed redacted awaits _ _ _ => exact .inr (.inl ⟨redacted, .inr (.inl awaits)⟩)
  | plain settled unredacted _ start _ content _ =>
    refine .inr (.inr ⟨start, settled, unredacted, source, newest.member, posting.fingerprint.symm, ?_, content⟩)
    rw [posting.next]
    exact Nat.min_le_left _ _

def Apart (source : Source) (state : DurableState Hash) : Prop :=
  state.fingerprint = none ∨ source.size ≠ state.offset + rebindTailBytes

theorem rim_of_post (apart : Apart source working) (rim : request.Rim) : payload = redactedChunk := by
  cases post_kind injective newest behind continues found posting with
  | rim redacted _ _ => exact redacted
  | resumed redacted _ _ _ _ => exact redacted
  | plain _ _ positive start print _ _ =>
    have next := posting.next
    have begins := posting.start
    unfold maximumBatchBytes at next
    rcases apart with unset | apart
    · rw [unset] at print
      cases print
    · unfold Request.Rim at rim
      unfold rebindTailBytes at rim apart
      omega

theorem body_of_post (apart : Apart source working) {other : Request Hash} {content : Bytes}
    (covers : Covers services installation history other) (redacted : other.Rim → content = redactedChunk)
    (member : .posted other content ∈ log) (same : request.id = other.id) : payload = content := by
  have ids := injective (posting.id.symm.trans (same.trans covers.id))
  simp only [Material.batch.injEq, true_and] at ids
  obtain ⟨print, start, next⟩ := ids
  have rims : other.Rim ↔ request.Rim := by
    unfold Request.Rim
    rw [start, next]
  cases post_kind injective newest behind continues found posting with
  | rim alike rim _ => rw [alike, redacted (rims.mpr rim)]
  | resumed redacted awaits begins known _ =>
    rcases continues.past other content member (print ▸ known) with before | ⟨alike, -⟩ | ⟨-, settled, -⟩
    · omega
    · rw [redacted, alike]
    · exact absurd (settled.symm.trans awaits) Bool.false_ne_true
  | plain settled unredacted positive begins known plain _ =>
    rcases continues.past other content member (print ▸ known) with
      before | ⟨alike, rim | awaits | redacts⟩ | ⟨-, -, -, old, found, epoch, inside, alike⟩
    · omega
    · rw [alike]
      exact rim_of_post injective newest behind continues ‹_› posting apart (rims.mp rim)
    · exact absurd (settled.symm.trans awaits) Bool.false_ne_true
    · exact absurd (unredacted.symm.trans redacts) Bool.false_ne_true
    · have grows := grows_of_fingerprint injective newest found (epoch.trans (print.symm.trans posting.fingerprint))
      have range := covers.range
      rw [plain, alike]
      unfold body
      rw [start, next, grows.behind_eq (by omega), grows.slice_eq (by omega) inside]

end Scan

/-! ## Every post so far -/

structure Posts (services : Services Hash) (installation : Installation) (history : List Source)
    (log : List (Event Hash)) : Prop where
  covers : ∀ request payload, .posted request payload ∈ log → Covers services installation history request
  rims : ∀ request payload, .posted request payload ∈ log → request.Rim → payload = redactedChunk
  unique : ∀ first second firstBody secondBody, .posted first firstBody ∈ log →
    .posted second secondBody ∈ log → first.id = second.id → firstBody = secondBody

structure Bodies (services : Services Hash) (installation : Installation) (history : List Source)
    (world : World Hash) : Prop where
  posts : Posts services installation history world.log
  stored : ∀ stored, world.stateFile = some stored → Continues services installation history world.log stored
  cleared : ∀ stored, world.stateFile = some stored → stored.sanitizerLookbehind = []
  behind : world.state.running = true → Behind services installation history world.memory
  waiting : ∀ request candidate, world.waiting = some (.upload request candidate) →
    Continues services installation history world.log candidate ∧
      Behind services installation history candidate

theorem Bodies.mono {later : List Source} {world : World Hash} (grows : history ⊆ later)
    (bodies : Bodies services installation history world) : Bodies services installation later world where
  posts := by
    refine ⟨fun request payload member => ?_, bodies.posts.rims, bodies.posts.unique⟩
    obtain ⟨id, range, source, found, rest⟩ := bodies.posts.covers request payload member
    exact ⟨id, range, source, grows found, rest⟩
  stored stored file := (bodies.stored stored file).mono grows
  cleared := bodies.cleared
  behind running := (bodies.behind running).mono grows
  waiting request candidate uploads :=
    ⟨(bodies.waiting request candidate uploads).1.mono grows, (bodies.waiting request candidate uploads).2.mono grows⟩

theorem Posts.of_log {log later : List (Event Hash)} (posts : Posts services installation history log)
    (old : ∀ request payload, .posted request payload ∈ later → .posted request payload ∈ log) :
    Posts services installation history later where
  covers request payload member := posts.covers request payload (old _ _ member)
  rims request payload member := posts.rims request payload (old _ _ member)
  unique first second _ _ one two := posts.unique first second _ _ (old _ _ one) (old _ _ two)

def Event.isPost : Event Hash → Bool
  | .posted _ _ => true
  | _ => false

theorem mem_of_mem_append {log : List (Event Hash)}
    (other : event.isPost = false) (member : .posted request payload ∈ log ++ [event]) :
    .posted request payload ∈ log := by
  rcases List.mem_append.mp member with old | new
  · exact old
  · rw [← List.mem_singleton.mp new] at other
    cases other

variable [DecidableEq Hash]

theorem Bodies.working {world : World Hash}
    (bodies : Bodies services installation history world) (recorded : Recorded services installation world)
    (running : world.state.running = true) (binding : Hash) :
    Continues services installation history world.log (world.working binding) := by
  have same : (world.working binding).position = (world.stateFile.getD {}).position :=
    recorded.memory running
  cases file : world.stateFile with
  | none =>
    rw [file] at same
    exact (continues_fresh history world.log).transfer same
  | some stored =>
    rw [file] at same
    exact (bodies.stored stored file).transfer same

/-! ## Each change keeps the posts apart -/

def Separates (world : World Hash) (event : Event Hash) : Prop :=
  event.isPost = true → ∀ source, world.source = some source → Apart source world.memory

variable {world before after : World Hash}

section

variable (injective : Function.Injective services.digest)
include injective

theorem continues_saves (newest : ∀ source, world.source = some source → Newest history source)
    (recorded : Recorded services installation world) (bodies : Bodies services installation history world)
    (saves : Saves services installation Separates world event state) :
    event.isPost = false ∧ Continues services installation history world.log state ∧
      Behind services installation history state := by
  cases saves with
  | @confirmed binding source state present decided running =>
    obtain ⟨located, found, awaits, size, anchor, -, rfl⟩ :=
      scan_ok decided (recorded.grounded running binding).fresh
    have behind : Behind services installation history (world.working binding) := bodies.behind running
    exact ⟨rfl, continues_settled injective (newest source present) behind
      (bodies.working recorded running binding) found bodies.posts.covers size rfl rfl rfl rfl rfl⟩
  | @idled binding source state present decided running =>
    obtain ⟨located, found, settled, size, anchor, -, rfl⟩ :=
      scan_ok decided (recorded.grounded running binding).fresh
    have behind : Behind services installation history (world.working binding) := bodies.behind running
    exact ⟨rfl, continues_settled injective (newest source present) behind
      (bodies.working recorded running binding) found bodies.posts.covers size rfl rfl rfl rfl settled⟩
  | recorded permitted waiting accepted => exact ⟨rfl, bodies.waiting _ _ waiting⟩

theorem posted_bodies {binding : Hash} {candidate : DurableState Hash} (newest : Newest history source)
    (recorded : Recorded services installation world) (bodies : Bodies services installation history world)
    (apart : Apart source (world.working binding)) (running : world.state.running = true)
    (decided : scan services installation binding source (world.working binding) =
      .ok (.post request payload candidate)) :
    Bodies services installation history
      { world with
        waiting := some (.upload request candidate), log := world.log ++ [.posted request payload] } := by
  have continues := bodies.working recorded running binding
  have behind : Behind services installation history (world.working binding) := bodies.behind running
  obtain ⟨located, found, posting⟩ := scan_post decided (recorded.grounded running binding).fresh
  have same (other : Request Hash) (content : Bytes) (member : .posted other content ∈ world.log)
      (equal : request.id = other.id) : payload = content :=
    body_of_post injective newest behind continues found posting apart (bodies.posts.covers other content member)
      (bodies.posts.rims other content member) member equal
  have kept : Continues services installation history (world.log ++ [.posted request payload])
      (world.working binding) := by
    apply continues.append
    rintro other content ⟨⟩ -
    exact past_of_post injective newest behind continues found posting
  refine ⟨⟨?_, ?_, ?_⟩, fun stored file => ?_, bodies.cleared, bodies.behind, ?_⟩
  · intro other content member
    rcases List.mem_append.mp member with old | new
    · exact bodies.posts.covers other content old
    · cases List.mem_singleton.mp new
      have before := posting.before
      have start := posting.start
      have next := posting.next
      unfold maximumBatchBytes at next
      exact ⟨posting.id, by omega, source, newest.member, posting.fingerprint.symm, by omega⟩
  · intro other content member rim
    rcases List.mem_append.mp member with old | new
    · exact bodies.posts.rims other content old rim
    · cases List.mem_singleton.mp new
      exact rim_of_post injective newest behind continues found posting apart rim
  · intro first second firstBody secondBody one two equal
    rcases List.mem_append.mp one with oldOne | newOne <;> rcases List.mem_append.mp two with oldTwo | newTwo
    · exact bodies.posts.unique first second _ _ oldOne oldTwo equal
    · cases List.mem_singleton.mp newTwo
      exact (same first firstBody oldOne equal.symm).symm
    · cases List.mem_singleton.mp newOne
      exact same second secondBody oldTwo equal
    · cases List.mem_singleton.mp newOne
      cases List.mem_singleton.mp newTwo
      rfl
  · have position := recorded.memory running
    rw [show world.stateFile = some stored from file] at position
    exact kept.transfer position.symm
  · rintro other content ⟨⟩
    exact continues_candidate injective newest behind continues found posting bodies.posts.covers

theorem Change.bodies (change : Change services installation Separates before after)
    (newest : ∀ source, before.source = some source → Newest history source)
    (recorded : Recorded services installation before) (bodies : Bodies services installation history before) :
    Bodies services installation history after := by
  have idle {after : World Hash} (waiting : after.waiting.any Waiting.isUpload = false) :
      ∀ request candidate, after.waiting = some (.upload request candidate) →
        Continues services installation history after.log candidate ∧
          Behind services installation history candidate := by
    intro request candidate uploads
    rw [uploads] at waiting
    cases waiting
  cases change with
  | quiet source stateFile log waiting awake memory =>
    refine ⟨log ▸ bodies.posts, ?_, ?_, fun running => ?_, idle waiting⟩
    · rw [stateFile, log]
      exact bodies.stored
    · rw [stateFile]
      exact bodies.cleared
    · obtain ⟨ran, binding, same⟩ := memory running
      rw [same]
      exact bodies.behind ran
  | fresh source stateFile memory log waiting =>
    refine ⟨bodies.posts.of_log fun request payload member => ?_, fun stored file => ?_, fun stored file => ?_,
      fun _ _ present => ?_, idle (by rw [waiting]; rfl)⟩
    · rw [log] at member
      cases file : before.stateFile with
      | none => simpa [World.quarantineState, file] using member
      | some stored => simpa [World.quarantineState, file] using member
    · rw [stateFile] at file
      cases file
    · rw [stateFile] at file
      cases file
    · rw [memory] at present
      exact absurd rfl present
  | resumed source found stateFile memory log waiting =>
    refine ⟨log ▸ bodies.posts, ?_, ?_, fun _ _ present => ?_, idle (by rw [waiting]; rfl)⟩
    · rw [stateFile, log, ← found]
      exact bodies.stored
    · rw [stateFile, ← found]
      exact bodies.cleared
    · rw [memory] at present
      exact absurd (bodies.cleared _ found) present
  | @posted binding source request payload candidate permitted present running decided =>
    exact posted_bodies injective (newest source present) recorded bodies (permitted rfl source present) running
      decided
  | saved saves source stateFile log waiting memory =>
    obtain ⟨other, continues, behind⟩ := continues_saves injective newest recorded bodies saves
    refine ⟨bodies.posts.of_log fun request payload member => mem_of_mem_append other (log ▸ member),
      fun stored file => ?_, fun stored file => ?_, fun running => ?_, idle (by rw [waiting]; rfl)⟩
    · rw [stateFile] at file
      rw [log, ← Option.some.inj file]
      refine (continues.append ?_).transfer rfl
      rintro request payload rfl
      cases other
    · rw [stateFile] at file
      rw [← Option.some.inj file]
      rfl
    · rw [memory running]
      exact behind

end

variable {permits : World Hash → Event Hash → Prop}

theorem Change.source_eq
    (change : Change services installation permits before after) : after.source = before.source := by
  cases change with
  | quiet source => exact source
  | fresh source => exact source
  | resumed source => exact source
  | posted => rfl
  | saved _ source => exact source

theorem Reaches.source_eq
    (reached : Reaches services installation permits before after) : after.source = before.source := by
  induction reached with
  | refl => rfl
  | tail _ last ih => exact last.source_eq.trans ih

theorem step_source (recorded : Recorded services installation before) {label : Label Hash}
    (kept : ∀ source, label ≠ .change source) :
    (step services installation before label).source = before.source :=
  Reaches.source_eq (step_reaches recorded.awake kept (fun _ _ _ => trivial) fun _ _ _ _ _ => trivial :
    Reaches services installation (fun _ _ => True) before _)

theorem Reaches.bodies (injective : Function.Injective services.digest)
    (reached : Reaches services installation Separates before after)
    (newest : ∀ source, before.source = some source → Newest history source)
    (recorded : Recorded services installation before) (bodies : Bodies services installation history before) :
    Bodies services installation history after ∧
      ∀ source, after.source = some source → Newest history source := by
  refine ⟨?_, reached.source_eq ▸ newest⟩
  induction reached with
  | refl => exact bodies
  | tail front last ih =>
    exact last.bodies injective (Reaches.source_eq front ▸ newest) (Reaches.recorded front recorded) ih

/-! ## Runs with the history of the source -/

structure Tracked (Hash : Type) where
  world : World Hash
  history : List Source

def Tracked.initial (source : Option Source) (config : Config) : Tracked Hash :=
  ⟨World.initial source config, source.toList⟩

-- The source is only appended to as long as its identity and leading bytes stay, and no poll finds it
-- ending exactly the tail of a new epoch after the position.
def Tame (before : Tracked Hash) : Label Hash → Prop
  | .change source => ∀ new, source = some new → ∀ old ∈ before.history, old.Extends new
  | .poll _ | .enrolled _ _ => ∀ source, before.world.source = some source →
      source.size ≠ before.world.memory.offset + rebindTailBytes
  | _ => True

def Label.sources : Label Hash → List Source
  | .change source => source.toList
  | _ => []

def Tracked.step (services : Services Hash) (installation : Installation) (tracked : Tracked Hash)
    (label : Label Hash) : Tracked Hash :=
  ⟨Logs.step services installation tracked.world label, tracked.history ++ label.sources⟩

structure Traced (services : Services Hash) (installation : Installation) (tracked : Tracked Hash) : Prop where
  recorded : Recorded services installation tracked.world
  newest : ∀ source, tracked.world.source = some source → Newest tracked.history source
  bodies : Bodies services installation tracked.history tracked.world

theorem newest_append (later : ∀ old ∈ history, old.Extends source) :
    Newest (history ++ [source]) source := by
  refine ⟨by simp, fun old member => ?_⟩
  rcases List.mem_append.mp member with past | here
  · exact later old past
  · rw [List.mem_singleton.mp here]
    exact fun _ _ => .refl source

theorem traced_step (injective : Function.Injective services.digest) {tracked : Tracked Hash}
    {label : Label Hash} (traced : Traced services installation tracked) (tame : Tame tracked label) :
    Traced services installation (tracked.step services installation label) := by
  have recorded : Recorded services installation (tracked.step services installation label).world :=
    Step.recorded rfl traced.recorded
  by_cases changes : ∃ changed, label = .change changed
  · obtain ⟨changed, rfl⟩ := changes
    have grows : tracked.history ⊆ tracked.history ++ changed.toList := List.subset_append_left _ _
    refine ⟨recorded, fun source present => ?_, Bodies.mono grows ?_⟩
    · obtain rfl : changed = some source := present
      exact newest_append (tame source rfl)
    · have bodies := traced.bodies
      exact ⟨bodies.posts, bodies.stored, bodies.cleared, bodies.behind, bodies.waiting⟩
  · have kept (changed : Option Source) : label ≠ .change changed := fun same => changes ⟨changed, same⟩
    have same : tracked.history ++ label.sources = tracked.history := by
      cases label with
      | change source => exact absurd rfl (kept source)
      | _ => exact List.append_nil _
    have reached : Reaches services installation Separates tracked.world
        (Logs.step services installation tracked.world label) := by
      refine step_reaches traced.recorded.awake kept (fun _ _ _ => nofun) ?_
      intro scans world place request payload _ source present
      have apart : source.size ≠ tracked.world.memory.offset + rebindTailBytes := by
        cases label with
        | poll faults => exact tame source (place.1 ▸ present)
        | enrolled reply faults => exact tame source (place.1 ▸ present)
        | _ => cases scans
      rcases place.2 with unset | offset
      · exact .inl unset
      · exact .inr (offset ▸ apart)
    obtain ⟨bodies, newest⟩ := reached.bodies injective traced.newest traced.recorded traced.bodies
    refine ⟨recorded, ?_, ?_⟩
    · simp only [Tracked.step, same]
      exact newest
    · simp only [Tracked.step, same]
      exact bodies

theorem traced_initial (source : Option Source) (config : Config) :
    Traced services installation (Tracked.initial source config) := by
  refine ⟨recorded_initial source config, fun current present => ?_, ?_⟩
  · obtain rfl : source = some current := present
    show Newest ([] ++ [current]) current
    exact newest_append fun old member => (by cases member)
  · refine ⟨⟨fun _ _ member => ?_, fun _ _ member => ?_, fun _ _ _ _ member => ?_⟩, fun _ file => ?_,
      fun _ file => ?_, fun running => ?_, fun _ _ uploads => ?_⟩
    · cases member
    · cases member
    · cases member
    · cases file
    · cases file
    · cases running
    · cases uploads

theorem batch_identifies_body (injective : Function.Injective services.digest) {source : Option Source}
    {config : Config} {labels : List (Label Hash)} {tracked : Tracked Hash}
    (run : Run (fun before label after => after = before.step services installation label ∧
      Tame before label) (Tracked.initial source config) labels tracked) :
    ∀ first second firstBody secondBody, .posted first firstBody ∈ tracked.world.log →
      .posted second secondBody ∈ tracked.world.log → first.id = second.id → firstBody = secondBody := by
  have kept : ∀ past before label after, Traced services installation before →
      after = before.step services installation label ∧ Tame before label →
      (fun (_ : List (Label Hash)) after => Traced services installation after) (past ++ [label]) after := by
    rintro - before label - traced ⟨rfl, tame⟩
    exact traced_step injective traced tame
  exact (run.invariant kept [] (traced_initial source config)).bodies.posts.unique

/-! ## Retries of one installation -/

namespace Sample

theorem digest_injective : Function.Injective digest := by
  intro first second same
  cases first <;> cases second <;> simp only [digest, Digest.token.injEq, Digest.target.injEq,
    Digest.source.injEq, Digest.cursor.injEq, Digest.batch.injEq, reduceCtorEq] at same
  · rw [same]
  · obtain ⟨rfl, rfl, rfl, rfl, rfl⟩ := same
    rfl
  · obtain ⟨rfl, rfl, pieces⟩ := same
    have bytes := congrArg (fun leading => (leading.map List.flatten).flatten) pieces
    simp only [flatten_blocks] at bytes
    rw [bytes]
  · obtain ⟨rfl, rfl⟩ := same
    rfl
  · obtain ⟨rfl, rfl, rfl, rfl⟩ := same
    rfl

def tracked : Tracked Digest := Tracked.initial (some (log 5000)) config

def lost : Label Digest := .answered ⟨false, 0, "", none⟩ .written

def overwritten : Source :=
  { log 5010 with byte := fun position => if 5000 ≤ position ∧ position < 5009 then 98 else (log 5010).byte position }

def retried (source : Source) : List (Label Digest) :=
  confirming 5000 ++ [.change (some (log 5010)), .poll {}, lost, .change (some source), .restart none {}, .poll {}]

def posts (events : List (Event Digest)) : List (Request Digest × Bytes) :=
  events.filterMap fun event =>
    match event with
    | .posted request payload => some (request, payload)
    | _ => none

theorem mem_of_posts {events : List (Event Digest)} {request : Request Digest}
    (member : (request, payload) ∈ posts events) : .posted request payload ∈ events := by
  obtain ⟨event, found, same⟩ := List.mem_filterMap.mp member
  cases event with
  | posted other content =>
    obtain ⟨rfl, rfl⟩ := Prod.mk.inj (Option.some.inj same)
    exact found
  | _ => cases same

def lastLine : Request Digest where
  id := batchId plain host 5000 5010 (sourceFingerprint plain host (log 5010))
  identity := "unix:1:2"
  fingerprint := sourceFingerprint plain host (log 5010)
  offset := 5000
  nextOffset := 5010

theorem tame_poll {tracked : Tracked Digest} (size : Nat) (present : tracked.world.source = some (log size))
    (short : size < 10000) : Tame tracked (.poll {}) := by
  intro source found
  obtain rfl := Option.some.inj (present.symm.trans found)
  show size ≠ _
  unfold rebindTailBytes
  omega

theorem extends_log (old new : Nat) (size : old ≤ new) : (log old).Extends (log new) := fun _ _ => grows old new size

theorem along_retried : Along (Tracked.step plain host) Tame tracked (retried (log 5010)) := by
  have kept (labels : List (Label Digest)) (label : Label Digest) (other : ∀ source, label ≠ .change source) :
      (step plain host (execute plain host (initial 5000) labels) label).source =
        (execute plain host (initial 5000) labels).source :=
    step_source (Run.recorded (run_execute _ labels) (recorded_initial _ _)) other
  have change : ∀ old ∈ [log 5000, log 5010], old.Extends (log 5010) := by
    intro old member
    rcases List.mem_cons.mp member with rfl | member
    · exact extends_log 5000 5010 (by omega)
    · rw [List.mem_singleton.mp member]
      exact extends_log 5010 5010 (by omega)
  refine ⟨trivial, tame_poll 5000 ?_ (by omega), trivial, tame_poll 5000 ?_ (by omega), ?_,
    tame_poll 5010 rfl (by omega), trivial, ?_, trivial, tame_poll 5010 ?_ (by omega), trivial⟩
  · exact kept [] (.restart none {}) nofun
  · exact (kept [.restart none {}, .poll {}] (receipt 0 5000 5000) nofun).trans
      ((kept [.restart none {}] (.poll {}) nofun).trans (kept [] (.restart none {}) nofun))
  · rintro new ⟨⟩ old member
    have first : old ∈ [log 5000] := member
    rw [List.mem_singleton.mp first]
    exact extends_log 5000 5010 (by omega)
  · rintro new ⟨⟩ old member
    exact change old member
  · exact kept (confirming 5000 ++ [.change (some (log 5010)), .poll {}, lost, .change (some (log 5010))])
      (.restart none {}) nofun

end Sample

theorem batch_identifies_body_sample :
    ((Sample.posts ((Sample.retried (Sample.log 5010)).foldl (Tracked.step Sample.plain Sample.host)
        Sample.tracked).world.log).map fun post => (post.1.offset, post.1.nextOffset)) =
          [(0, 5000), (5000, 5010), (5000, 5010)] ∧
      ∀ first second firstBody secondBody,
        .posted first firstBody ∈ ((Sample.retried (Sample.log 5010)).foldl
          (Tracked.step Sample.plain Sample.host) Sample.tracked).world.log →
        .posted second secondBody ∈ ((Sample.retried (Sample.log 5010)).foldl
          (Tracked.step Sample.plain Sample.host) Sample.tracked).world.log →
        first.id = second.id → firstBody = secondBody :=
  ⟨by decide +kernel, batch_identifies_body Sample.digest_injective (run_along Sample.along_retried)⟩

theorem overwritten_log_changes_body :
    ∃ after firstBody secondBody,
      Run (fun before label after => after = before.step Sample.plain Sample.host label) Sample.tracked
        (Sample.retried Sample.overwritten) after ∧
      .posted Sample.lastLine firstBody ∈ after.world.log ∧
      .posted Sample.lastLine secondBody ∈ after.world.log ∧ firstBody ≠ secondBody := by
  have evaluated : (Sample.lastLine, [97, 97, 97, 97, 97, 97, 97, 97, 97, 10]) ∈
        Sample.posts ((Sample.retried Sample.overwritten).foldl (Tracked.step Sample.plain Sample.host)
          Sample.tracked).world.log ∧
      (Sample.lastLine, [98, 98, 98, 98, 98, 98, 98, 98, 98, 10]) ∈
        Sample.posts ((Sample.retried Sample.overwritten).foldl (Tracked.step Sample.plain Sample.host)
          Sample.tracked).world.log := by
    decide +kernel
  refine ⟨_, _, _, run_foldl _ _ _, Sample.mem_of_posts evaluated.1, Sample.mem_of_posts evaluated.2, ?_⟩
  decide

end Amnezia.Headless.Logs
