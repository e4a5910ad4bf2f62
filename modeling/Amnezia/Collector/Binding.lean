import Amnezia.Collector.Threads
import Mathlib.Data.List.Induction

/-! # A batch has one body -/

namespace Amnezia.Collector
open Lib

variable {Hash : Type} {services : Services Hash} {options : Options}

def Held (services : Services Hash) (world : World Hash) (client batch : Text) : Prop :=
  ∃ binding, Binds services world client batch binding

def replay [DecidableEq Hash] (services : Services Hash) (request : Request) (binding : Binding Hash) :
    Response :=
  if binding = bindingOf services request.body then .accepted true else .refused 409

/-! ## From the lookup to the answer -/

def examines : List (Operation Hash) → Bool
  | .lockClient :: _ | .lookup :: _ | .inspect _ :: _ | .measure _ :: _ => true
  | _ => false

inductive Decided (response : Response) : List (Operation Hash) → Prop where
  | answering : Decided response [.answer response]
  | expiring : Decided response [.expire, .answer response]
  | recording : Decided response [.record, .answer response]

def rank : List (Operation Hash) → Nat
  | .lockClient :: _ => 7
  | .lookup :: _ => 6
  | .inspect _ :: _ => 5
  | .measure _ :: _ => 4
  | .record :: _ => 3
  | .expire :: _ => 2
  | _ => 1

variable {response : Response} {operations : List (Operation Hash)}

theorem Decided.rank_le (decided : Decided response operations) : rank operations ≤ 3 := by
  cases decided with
  | answering => simp [rank]
  | expiring => simp [rank]
  | recording => simp [rank]

variable {rest : List (Operation Hash)} {operation : Operation Hash}

section

variable [DecidableEq Hash] {world : World Hash} {request : Request} {binding : Binding Hash}

theorem compare_decided {agreed : List (Operation Hash)} (fits : options.fits binding.length)
    (accepts : Decided (.accepted true) agreed) :
    Decided (replay services request binding) (compare services options request binding agreed) := by
  have sized : ¬ (binding.length = 0 || options.uploadBytes < binding.length) = true := by
    obtain ⟨positive, bounded⟩ := fits
    simp only [Bool.or_eq_true, decide_eq_true_eq]
    omega
  unfold compare replay
  rw [if_neg sized]
  split
  · exact accepts
  · exact .answering

section

variable (kept : Kept services options world request.client request.batch)
include kept

section

variable (binds : Binds services world request.client request.batch binding)
include binds

theorem inspect_next {found : Option (Option (Binding Hash))} (holds : Found services world request found) :
    (∃ file, inspect services options request found world.files = [.measure file]) ∨
      Decided (replay services request binding) (inspect services options request found world.files) := by
  have located (unbound : Unbound world request.client request.batch) :
      ∃ file, findLog request.client request.batch world.files = some file := by
    cases missing : findLog request.client request.batch world.files with
    | some file => exact ⟨file, rfl⟩
    | none =>
      rcases binds with ⟨file, member, _⟩ | ⟨row, member, bound⟩
      · simp [findLog_none missing] at member
      · simp [unbound row member] at bound
  match found, holds with
  | some (some expected), agrees =>
    have equal := Agrees.eq_of_binds agrees binds
    subst equal
    exact .inr (compare_decided (kept.fits binds) .answering)
  | some none, unbound =>
    obtain ⟨file, found⟩ := located unbound
    exact .inl ⟨file, by simp [inspect, found]⟩
  | none, empty =>
    have none : world.receipts request.client request.batch = [] := empty
    obtain ⟨file, found⟩ := located fun row member => by simp [none] at member
    exact .inl ⟨file, by simp [inspect, found]⟩

theorem measure_next {file : LogFile} (named : file.holds request.client request.batch = true)
    (only : ∀ other ∈ world.logs request.client request.batch, other = file)
    (unbound : Unbound world request.client request.batch) :
    Decided (replay services request binding) (measure services options request file world.files) := by
  rcases binds with ⟨stored, member, bound⟩ | ⟨row, member, bound⟩
  · have same := only stored member
    subst same
    have present : ∃ other, world.files.find? stored.samePath = some other := by
      cases missing : world.files.find? stored.samePath with
      | some other => exact ⟨other, rfl⟩
      | none =>
        have absent := List.find?_eq_none.mp missing stored (List.mem_filter.mp member).1
        simp [LogFile.samePath] at absent
    obtain ⟨other, found⟩ := present
    have same := only other (List.mem_filter.mpr ⟨List.mem_of_find?_eq_some found,
      LogFile.samePath_holds (List.find?_some found) named⟩)
    subst same
    simp only [measure, found, bound]
    exact compare_decided (kept.fits (.inl ⟨other, member, bound⟩)) .recording
  · simp [unbound row member] at bound

end

end

theorem examine_next (now : Moment) {held : Bool}
    (kept : Kept services options world request.client request.batch)
    (binds : Binds services world request.client request.batch binding)
    (progress : Progress services world request held (operation :: rest))
    (examining : examines (operation :: rest) = true) :
    (execute services options now (some request) operation rest world).1 = world ∧
      (examines (execute services options now (some request) operation rest world).2 = true ∨
        Decided (replay services request binding)
          (execute services options now (some request) operation rest world).2) ∧
      rank (execute services options now (some request) operation rest world).2 <
        rank (operation :: rest) := by
  generalize pending : operation :: rest = operations at progress
  cases progress with
  | waiting =>
    cases pending
    exact ⟨rfl, .inl rfl, by simp [rank, execute]⟩
  | locked =>
    cases pending
    exact ⟨rfl, .inl rfl, by simp [rank, execute]⟩
  | looked found holds =>
    cases pending
    simp only [execute, List.append_nil, true_and]
    rcases inspect_next kept binds holds with ⟨file, next⟩ | decided
    · rw [next]
      exact ⟨.inl rfl, by simp [rank]⟩
    · exact ⟨.inr decided, Nat.lt_of_le_of_lt decided.rank_le (by simp [rank])⟩
  | located file named only unbound =>
    cases pending
    simp only [execute, List.append_nil, true_and]
    have decided := measure_next kept binds named only unbound
    exact ⟨.inr decided, Nat.lt_of_le_of_lt decided.rank_le (by simp [rank])⟩
  | writing vacant => cases pending; simp [examines] at examining
  | written file stores vacant => cases pending; simp [examines] at examining
  | reserving file stores vacant => cases pending; simp [examines] at examining
  | removing removed file stores vacant => exact absurd binds vacant.not_binds
  | settled _ settles agrees =>
    subst pending
    have settled := settles operation (by simp)
    cases operation with
    | lockClient => simp [Operation.settles] at settled
    | lookup => simp [Operation.settles] at settled
    | inspect found => simp [Operation.settles] at settled
    | measure file => simp [Operation.settles] at settled
    | _ => simp [examines] at examining

theorem Decided.next (now : Moment) (decided : Decided response (operation :: rest)) :
    (operation = .answer response ∧
      (execute services options now (some request) operation rest world).2 = []) ∨
      (Decided response (execute services options now (some request) operation rest world).2 ∧
        rank (execute services options now (some request) operation rest world).2 <
          rank (operation :: rest)) := by
  cases decided with
  | answering => exact .inl ⟨rfl, rfl⟩
  | expiring => exact .inr ⟨.answering, by simp [rank, execute]⟩
  | recording =>
    simp only [execute]
    split
    · exact .inr ⟨.expiring, by simp [rank]⟩
    · exact .inr ⟨.answering, by simp [rank]⟩

end

/-! ## The binding stays -/

variable {thread : Thread Hash}

section

variable [DecidableEq Hash] {before after : World Hash} {request : Request} {binding : Binding Hash}

theorem Agrees.moves (sound : Sound services options before)
    (moves : Moves services options before after) {client batch : Text} (digest : digestId batch = true)
    (binds : Binds services before client batch binding) :
    Agrees services after client batch binding := by
  have agrees := (sound.kept client batch digest).agrees binds
  cases moves with
  | idles => exact agrees
  | refuses status => exact agrees.loses ⟨.refl _, .refl _⟩
  | spawns asked operations waits => exact agrees.loses ⟨.refl _, .refl _⟩
  | stops => exact agrees.loses ⟨.refl _, .refl _⟩
  | @runs _ now thread operation rest member pending enabled ran =>
    by_cases own : ∃ asked, thread.request = some asked ∧ client = asked.client ∧ batch = asked.batch
    · obtain ⟨asked, requested, rfl, rfl⟩ := own
      have progress := (sound.threads thread member asked requested).progress
      rw [pending] at progress
      have effect := ran.effect
      rw [requested] at effect
      cases effect with
      | prunes files rows => exact agrees.loses (.of_sublists files rows _ _)
      | renames files rows some => exact absurd binds progress.of_rename.2.not_binds
      | records files rows same =>
        cases same
        have equal := progress.of_record.eq_of_binds binds
        subst equal
        exact progress.of_record.record files rows
    · refine agrees.loses (sound.ran_loses member pending ran.effect digest ?_)
      intro asked requested _ same
      exact own ⟨asked, requested, same⟩

theorem Binds.moves (sound : Sound services options before)
    (moves : Moves services options before after) {client batch : Text} (digest : digestId batch = true)
    (binds : Binds services before client batch binding) (held : Held services after client batch) :
    Binds services after client batch binding := by
  obtain ⟨other, bound⟩ := held
  have equal := (Agrees.moves sound moves digest binds).eq_of_binds bound
  subst equal
  exact bound

/-! ## One request -/

def World.undecided (world : World Hash) (id : Nat) : Prop :=
  ∃ thread ∈ world.threads, thread.id = id ∧ examines thread.operations = true

structure Tracked (services : Services Hash) (id : Nat) (request : Request) (binding : Binding Hash)
    (world : World Hash) : Prop where
  known : id < world.nextId
  events : ∀ event ∈ world.log, event.id = id → event = .answered id (replay services request binding)
  threads : ∀ thread ∈ world.threads, thread.id = id → thread.request = some request ∧
    ((examines thread.operations = true ∧ Binds services world request.client request.batch binding) ∨
      Decided (replay services request binding) thread.operations)

omit [DecidableEq Hash] in
theorem examines_events {id : Nat}
    (examining : examines (operation :: rest) = true) : operation.events id = [] := by
  cases operation with
  | rename file => simp [examines] at examining
  | answer response => simp [examines] at examining
  | _ => rfl

omit [DecidableEq Hash] in
theorem Decided.events {id : Nat} (decided : Decided response (operation :: rest)) :
    ∀ event ∈ operation.events id, event = .answered id response := by
  cases decided with
  | answering => simp [Operation.events]
  | expiring => simp [Operation.events]
  | recording => simp [Operation.events]

theorem Tracked.ran_own {id : Nat} {now : Moment} (sound : Sound services options before)
    (tracked : Tracked services id request binding before) (member : thread ∈ before.threads)
    (same : thread.id = id) (pending : thread.operations = operation :: rest)
    (ran : Ran services options now before thread operation rest after) :
    Tracked services id request binding after := by
  obtain ⟨requested, stage⟩ := tracked.threads thread member same
  have state := sound.threads thread member request requested
  have progress := state.progress
  rw [pending] at progress stage
  have kept := sound.kept request.client request.batch (checkRequest_none state.accepted).2.1
  refine ⟨ran.nextId ▸ tracked.known, fun event logged known => ?_, fun other present own => ?_⟩
  · rw [ran.log] at logged
    rcases List.mem_append.mp logged with old | new
    · exact tracked.events event old known
    · rw [same] at new
      rcases stage with ⟨examining, _⟩ | decided
      · rw [examines_events examining] at new
        cases new
      · exact decided.events event new
  · rcases ran.threads other present with ⟨_, different⟩ | ⟨rfl, unfinished⟩
    · exact absurd (own.trans same.symm) different
    · refine ⟨requested, ?_⟩
      simp only [Thread.advance]
      rw [requested] at unfinished ⊢
      rcases stage with ⟨examining, binds⟩ | decided
      · obtain ⟨unchanged, next, _⟩ := examine_next now kept binds progress examining
        rcases next with examining | decided
        · refine .inl ⟨examining, ?_⟩
          have files := ran.files
          have rows := ran.rows
          rw [requested, unchanged] at files rows
          simpa only [Binds, World.logs, World.receipts, files, rows] using binds
        · exact .inr decided
      · rcases decided.next now with ⟨_, finished⟩ | ⟨decided, _⟩
        · exact absurd finished unfinished
        · exact .inr decided

theorem Tracked.moves {id : Nat} (sound : Sound services options before)
    (digest : digestId request.batch = true)
    (tracked : Tracked services id request binding before)
    (moves : Moves services options before after)
    (held : after.undecided id → Held services after request.client request.batch) :
    Tracked services id request binding after := by
  have stays (thread : Thread Hash) (old : thread ∈ before.threads) (present : thread ∈ after.threads)
      (same : thread.id = id) : thread.request = some request ∧
        ((examines thread.operations = true ∧ Binds services after request.client request.batch binding) ∨
          Decided (replay services request binding) thread.operations) := by
    obtain ⟨requested, stage⟩ := tracked.threads thread old same
    rcases stage with ⟨examining, binds⟩ | decided
    · have still := held ⟨thread, present, same, examining⟩
      exact ⟨requested, .inl ⟨examining, binds.moves sound moves digest still⟩⟩
    · exact ⟨requested, .inr decided⟩
  cases moves with
  | idles => exact tracked
  | refuses status =>
    refine ⟨Nat.lt_succ_of_lt tracked.known, fun event logged known => ?_, fun thread member =>
      stays thread member member⟩
    rcases List.mem_append.mp logged with old | new
    · exact tracked.events event old known
    · rw [List.mem_singleton.mp new] at known
      exact absurd known (Nat.ne_of_gt tracked.known)
  | spawns asked operations waits =>
    refine ⟨Nat.lt_succ_of_lt tracked.known, tracked.events, fun thread member same => ?_⟩
    rcases List.mem_append.mp member with old | new
    · exact stays thread old member same
    · rw [List.mem_singleton.mp new] at same
      exact absurd same (Nat.ne_of_gt tracked.known)
  | stops => exact ⟨tracked.known, tracked.events, nofun⟩
  | @runs _ now thread operation rest member pending enabled ran =>
    by_cases same : thread.id = id
    · exact tracked.ran_own sound member same pending ran
    · refine ⟨ran.nextId ▸ tracked.known, fun event logged known => ?_, fun other present own => ?_⟩
      · rw [ran.log] at logged
        rcases List.mem_append.mp logged with old | new
        · exact tracked.events event old known
        · exact absurd ((Operation.events_id new).symm.trans known) same
      · rcases ran.threads other present with ⟨old, _⟩ | ⟨rfl, _⟩
        · exact stays other old present own
        · exact absurd own same

end

/-! ## The answer comes -/

section

variable [DecidableEq Hash] {world after : World Hash} {request : Request} {binding : Binding Hash}
  {id : Nat}

omit [DecidableEq Hash] in
theorem Sound.find (sound : Sound services options world)
    (member : thread ∈ world.threads) : world.find thread.id = some thread := by
  cases found : world.find thread.id with
  | none => exact absurd (List.find?_eq_none.mp found thread member) (by simp)
  | some other =>
    obtain ⟨present, same⟩ := find_some found
    rw [sound.unique present member same]

theorem step_log (services : Services Hash) (options : Options) (world : World Hash) (label : Label)
    {event : Event} (logged : event ∈ world.log) : event ∈ (step services options world label).log := by
  have moves := step_moves services options world label
  generalize step services options world label = after at moves
  cases moves with
  | idles => exact logged
  | refuses status => exact List.mem_append_left _ logged
  | spawns request operations waits => exact logged
  | runs member pending enabled ran =>
    rw [ran.log]
    exact List.mem_append_left _ logged
  | stops => exact logged

theorem foldl_log (services : Services Hash) (options : Options) (labels : List Label) :
    ∀ {world : World Hash} {event : Event}, event ∈ world.log →
      event ∈ (labels.foldl (step services options) world).log := by
  induction labels with
  | nil => exact fun logged => logged
  | cons label labels ih => exact fun logged => ih (step_log services options _ label logged)

omit [DecidableEq Hash] in
theorem rank_pos (operations : List (Operation Hash)) : 0 < rank operations := by
  unfold rank
  split <;> omega

omit [DecidableEq Hash] in
theorem enabled_of_decided (decided : Decided response thread.operations) : world.enabled thread = true := by
  generalize pending : thread.operations = operations at decided
  cases decided with
  | answering => simp [World.enabled, pending]
  | expiring => simp [World.enabled, pending]
  | recording => simp [World.enabled, pending]

omit [DecidableEq Hash] in
theorem enabled_of_examines (examining : examines thread.operations = true)
    (early : rank thread.operations < 7) : world.enabled thread = true := by
  unfold World.enabled
  split
  · rename_i pending
    simp [pending, rank] at early
  · rename_i pending
    simp [pending, examines] at examining
  · rename_i pending
    simp [pending, examines] at examining
  · rfl

theorem Tracked.enabled (tracked : Tracked services id request binding world)
    (member : thread ∈ world.threads) (own : thread.id = id) (early : rank thread.operations < 7) :
    world.enabled thread = true := by
  rcases (tracked.threads thread member own).2 with ⟨examining, _⟩ | decided
  · exact enabled_of_examines examining early
  · exact enabled_of_decided decided

omit [DecidableEq Hash] in
theorem rank_le (operations : List (Operation Hash)) : rank operations ≤ 7 := by
  unfold rank
  split <;> omega

omit [DecidableEq Hash] in
theorem Progress.rank_lt (progress : Progress services world request true operations) : rank operations < 7 := by
  cases progress with
  | removing removed file stores vacant => cases removed <;> simp [rank, storeOperations]
  | settled operations settles agrees =>
    unfold rank
    split
    · exact absurd (settles .lockClient List.mem_cons_self) Bool.false_ne_true
    all_goals omega
  | _ => simp [rank]

theorem Tracked.advance (now : Moment) (sound : Sound services options world)
    (tracked : Tracked services id request binding world) (member : thread ∈ world.threads)
    (own : thread.id = id) (enabled : world.enabled thread = true) :
    Tracked services id request binding (step services options world (.run id now)) ∧
      (.answered id (replay services request binding) ∈
        (step services options world (.run id now)).log ∨
      ∃ next ∈ (step services options world (.run id now)).threads, next.id = id ∧
        rank next.operations < rank thread.operations) := by
  have found := sound.find member
  rw [own] at found
  simp only [step, found, enabled, if_true]
  cases pending : thread.operations with
  | nil => simp [World.enabled, pending] at enabled
  | cons operation rest =>
    have ran : Ran services options now world thread operation rest
      (world.run services options now thread) := run_ran pending
    refine ⟨tracked.ran_own sound member own pending ran, ?_⟩
    obtain ⟨requested, stage⟩ := tracked.threads thread member own
    have state := sound.threads thread member request requested
    have progress := state.progress
    have kept := sound.kept request.client request.batch (checkRequest_none state.accepted).2.1
    have continues := ran.continues member
    rw [pending] at progress stage
    rw [requested] at continues
    rcases stage with ⟨examining, binds⟩ | decided
    · obtain ⟨_, next, closer⟩ := examine_next now kept binds progress examining
      refine .inr ⟨_, continues ?_, own, closer⟩
      intro empty
      rw [empty] at next
      rcases next with none | none
      · cases none
      · cases none
    · rcases decided.next now with ⟨answers, _⟩ | ⟨next, closer⟩
      · refine .inl ?_
        rw [ran.log, answers, own]
        simp [Operation.events]
      · refine .inr ⟨_, continues ?_, own, closer⟩
        intro empty
        rw [empty] at next
        cases next

theorem Tracked.answers (times : List Moment) : ∀ {world : World Hash} {thread : Thread Hash},
    Sound services options world → Tracked services id request binding world →
    thread ∈ world.threads → thread.id = id → world.enabled thread = true →
    rank thread.operations ≤ times.length →
    .answered id (replay services request binding) ∈
      ((times.map (.run id)).foldl (step services options) world).log := by
  induction times with
  | nil =>
    intro world thread _ _ _ _ _ short
    have positive := rank_pos thread.operations
    simp only [List.length_nil] at short
    omega
  | cons now times ih =>
    intro world thread sound tracked member own enabled short
    obtain ⟨stays, next⟩ := tracked.advance now sound member own enabled
    rw [List.map_cons, List.foldl_cons]
    rcases next with answered | ⟨next, present, same, closer⟩
    · exact foldl_log services options _ answered
    · have bound := rank_le thread.operations
      refine ih (sound.moves (step_moves services options world _)) stays present same
        (stays.enabled present same (by omega)) ?_
      simp only [List.length_cons] at short
      omega

theorem enabled_alone (sound : Sound services options world)
    (member : thread ∈ world.threads) (requested : thread.request = some request)
    (tracked : Tracked services thread.id request binding world)
    (alone : ∀ other ∈ world.threads, other.holdsClient = true →
      other.client = some request.client → other.id = thread.id) :
    world.enabled thread = true := by
  by_cases early : rank thread.operations < 7
  · exact tracked.enabled member rfl early
  · have state := sound.threads thread member request requested
    cases holding : thread.holdsClient with
    | false =>
      simp only [World.enabled, (holding ▸ state.progress).waits, Bool.not_eq_true', List.any_eq_false]
      intro other present
      cases held : other.holdsClient with
      | false => simp
      | true =>
        intro same
        have client : other.client = some request.client := by
          simpa [Thread.client, requested] using same
        have equal := sound.unique present member (alone other present held client)
        rw [equal, holding] at held
        cases held
    | true =>
      exact absurd (holding ▸ state.progress).rank_lt early

/-! ## Whole runs -/

structure Resting (services : Services Hash) (options : Options) (world : World Hash) : Prop where
  idle : world.threads = []
  unlogged : world.log = []
  kept : ∀ client batch, digestId batch = true → Kept services options world client batch

omit [DecidableEq Hash] in
theorem Resting.sound (resting : Resting services options world) : Sound services options world where
  kept := resting.kept
  ids := by simp [resting.idle]
  fresh := by simp [resting.idle]
  logged := by simp [resting.unlogged]
  exclusive := by simp [resting.idle]
  threads := by simp [resting.idle]

theorem Sound.foldl (labels : List Label) : ∀ {world : World Hash}, Sound services options world →
    Sound services options (labels.foldl (step services options) world) := by
  induction labels with
  | nil => exact fun sound => sound
  | cons label labels ih => exact fun sound => ih (sound.moves (step_moves services options _ label))

theorem Tracked.arrive {bootstraps : Nat} (sound : Sound services options world)
    (accepted : checkRequest options 0 request = none)
    (slot : world.uploads + bootstraps < maximumUploads)
    (binds : Binds services world request.client request.batch binding) :
    Tracked services world.nextId request binding
      (step services options world (.arrive 0 bootstraps request)) := by
  simp only [step, World.arrive, accepted, if_neg (Nat.not_le.mpr slot)]
  refine ⟨Nat.lt_succ_self _, fun event member known => ?_, fun thread member own => ?_⟩
  · exact absurd known (Nat.ne_of_lt (sound.logged event member))
  · rcases List.mem_append.mp member with old | new
    · exact absurd own (Nat.ne_of_lt (sound.fresh thread old))
    · rw [List.mem_singleton.mp new]
      exact ⟨rfl, .inl ⟨rfl, binds⟩⟩

theorem Tracked.foldl (later : List Label) (sound : Sound services options world)
    (digest : digestId request.batch = true)
    (tracked : Tracked services id request binding world)
    (held : ∀ front, front <+: later → (front.foldl (step services options) world).undecided id →
      Held services (front.foldl (step services options) world) request.client request.batch) :
    Tracked services id request binding (later.foldl (step services options) world) := by
  induction later using List.reverseRecOn with
  | nil => exact tracked
  | append_singleton later label ih =>
    have before := ih fun front isFront => held front (isFront.trans (List.prefix_append _ _))
    have last := held (later ++ [label]) (List.prefix_refl _)
    rw [List.foldl_append] at last ⊢
    exact before.moves (sound.foldl later) digest (step_moves services options _ label) last

theorem replay_stored (body : Bytes) :
    replay services request (bindingOf services body) =
      if request.body = body then .accepted true else .refused 409 := by
  unfold replay
  by_cases same : request.body = body
  · simp [same]
  · have different : bindingOf services body ≠ bindingOf services request.body := by
      intro equal
      exact same (services.sha256_injective (congrArg Binding.hash equal)).symm
    simp [same, different]

end

theorem batch_has_one_body [DecidableEq Hash] (services : Services Hash) (options : Options)
    (start : World Hash) (resting : Resting services options start) (labels : List Label) :
    let world := labels.foldl (step services options) start
    (∀ client batch, digestId batch = true → (world.logs client batch).length ≤ 1) ∧
    ∀ (request : Request) (binding : Binding Hash) (bootstraps : Nat),
      checkRequest options 0 request = none → world.uploads + bootstraps < maximumUploads →
      Binds services world request.client request.batch binding →
      (∀ body, binding = bindingOf services body → replay services request binding =
        if request.body = body then .accepted true else .refused 409) ∧
      ∀ later : List Label,
        let arrived := step services options world (.arrive 0 bootstraps request)
        let after := later.foldl (step services options) arrived
        (∀ front, front <+: later →
          (front.foldl (step services options) arrived).undecided world.nextId →
          Held services (front.foldl (step services options) arrived) request.client request.batch) →
        (∀ event ∈ after.log, event.id = world.nextId →
          event = .answered world.nextId (replay services request binding)) ∧
        ∀ thread ∈ after.threads, thread.id = world.nextId →
          (∀ other ∈ after.threads, other.holdsClient = true →
            other.client = some request.client → other.id = world.nextId) →
          ∀ times : List Moment, 7 ≤ times.length →
            .answered world.nextId (replay services request binding) ∈
              ((times.map (.run world.nextId)).foldl (step services options) after).log := by
  intro world
  have sound : Sound services options world := resting.sound.foldl labels
  refine ⟨fun client batch digest => (sound.kept client batch digest).singleLog, ?_⟩
  intro request binding bootstraps accepted slot binds
  refine ⟨fun body stored => stored ▸ replay_stored body, fun later => ?_⟩
  intro arrived after held
  have arrives : Sound services options arrived := sound.moves (step_moves services options world _)
  have tracked : Tracked services world.nextId request binding after :=
    Tracked.foldl later arrives (checkRequest_none accepted).2.1
      (Tracked.arrive sound accepted slot binds) held
  refine ⟨tracked.events, fun thread member own alone times long => ?_⟩
  have reached : Sound services options after := arrives.foldl later
  have requested := (tracked.threads thread member own).1
  have enabled := enabled_alone reached member requested (own.symm ▸ tracked)
    fun other present holds same => (alone other present holds same).trans own.symm
  exact tracked.answers times reached member own enabled
    ((rank_le thread.operations).trans long)

namespace Sample

def plain : Services Bytes := ⟨id, fun _ _ same => same, fun _ => ['0']⟩

def defaults : Options := {}

def empty : World Bytes := ⟨[], [], none, 0, [], 0, []⟩

def request (body : Bytes) : Request :=
  ⟨List.replicate 64 'a', List.replicate 64 'b', [], "client".toList, body⟩

def now : Moment := ⟨1000000, 0⟩

def storing : List Label := .arrive 0 0 (request [1]) :: List.replicate 17 (.run 0 now)

def stored : World Bytes := storing.foldl (step plain defaults) empty

def waiting : Thread Bytes :=
  { id := 1, request := some (request [2]), operations := [.lockClient, .lookup] }

def crowd : List Label := List.replicate 4 (.arrive 0 0 (request [2]))

end Sample

theorem resting_empty : Resting Sample.plain Sample.defaults Sample.empty := by
  refine ⟨rfl, rfl, fun client batch _ => ⟨?_, ?_, ⟨⟨[], 0⟩, ?_⟩, ?_, ?_⟩⟩
  · exact Nat.zero_le 1
  · exact Nat.zero_le 1
  · exact ⟨nofun, nofun⟩
  · nofun
  · nofun

theorem batch_has_one_body_sample :
    (∀ client batch, digestId batch = true → (Sample.stored.logs client batch).length ≤ 1) ∧
    .answered Sample.stored.nextId (.refused 409) ∈
      (((List.replicate 7 Sample.now).map (.run Sample.stored.nextId)).foldl
        (step Sample.plain Sample.defaults)
        (step Sample.plain Sample.defaults Sample.stored (.arrive 0 0 (Sample.request [2])))).log := by
  have facts := batch_has_one_body Sample.plain Sample.defaults Sample.empty resting_empty Sample.storing
  have binds : Binds Sample.plain Sample.stored (Sample.request [2]).client (Sample.request [2]).batch
      ⟨[1], 1⟩ := by decide +kernel
  have still : Binds Sample.plain
      (step Sample.plain Sample.defaults Sample.stored (.arrive 0 0 (Sample.request [2])))
      (Sample.request [2]).client (Sample.request [2]).batch ⟨[1], 1⟩ := by decide +kernel
  obtain ⟨stored, answers⟩ := facts.2 (Sample.request [2]) ⟨[1], 1⟩ 0 (by decide +kernel)
    (by decide +kernel) binds
  have refused : replay Sample.plain (Sample.request [2]) ⟨[1], 1⟩ = .refused 409 := by decide +kernel
  have held : ∀ front, front <+: ([] : List Label) →
      (front.foldl (step Sample.plain Sample.defaults)
        (step Sample.plain Sample.defaults Sample.stored (.arrive 0 0 (Sample.request [2])))).undecided
          Sample.stored.nextId →
      Held Sample.plain (front.foldl (step Sample.plain Sample.defaults)
        (step Sample.plain Sample.defaults Sample.stored (.arrive 0 0 (Sample.request [2]))))
          (Sample.request [2]).client (Sample.request [2]).batch := by
    intro front isFront _
    rw [List.prefix_nil.mp isFront]
    exact ⟨_, still⟩
  have answered := (answers [] held).2 Sample.waiting (by decide +kernel) (by decide +kernel)
    (by decide +kernel) (List.replicate 7 Sample.now) (Nat.le_refl 7)
  rw [refused] at answered
  exact ⟨facts.1, answered⟩

theorem checks_precede_binding :
    Binds Sample.plain Sample.stored (Sample.request []).client (Sample.request []).batch
      (bindingOf Sample.plain [1]) ∧
    .answered 1 (.refused 413) ∈
      (step Sample.plain Sample.defaults Sample.stored (.arrive 0 0 (Sample.request []))).log ∧
    Binds Sample.plain (Sample.crowd.foldl (step Sample.plain Sample.defaults) Sample.stored)
      (Sample.request [1]).client (Sample.request [1]).batch (bindingOf Sample.plain [1]) ∧
    .answered 5 (.refused 503) ∈
      (step Sample.plain Sample.defaults
        (Sample.crowd.foldl (step Sample.plain Sample.defaults) Sample.stored)
        (.arrive 0 0 (Sample.request [1]))).log := by
  decide +kernel

end Amnezia.Collector
