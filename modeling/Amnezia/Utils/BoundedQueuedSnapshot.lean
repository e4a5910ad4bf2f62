import Mathlib.Logic.Function.Basic
import Amnezia.Lib.Runs

/-!
# Bounded queued snapshots

`requestBoundedQueuedSnapshot` as two threads that execute their atomic statements in any order. The
receiver's thread runs one event handler at a time, the target's thread runs the queued reader.
-/

namespace Amnezia.BoundedQueuedSnapshot
open Lib

inductive Status where
  | ready
  | timeout
  | targetUnavailable
  | queueFailed
  deriving DecidableEq, Repr

inductive Flag where
  | cancelled
  | resolved
  | promiseFinished
  | targetDestroyed
  | queueFailed
  deriving DecidableEq, Repr

inductive Thread where
  | receiver
  | target
  deriving DecidableEq, Repr

-- What a thread has still to execute, one atomic statement per constructor.
inductive Code (Value : Type) where
  | done
  | store (flag : Flag) (next : Code Value)
  | load (flag : Flag) (set clear : Code Value)
  | exchange (flag : Flag) (set clear : Code Value)
  | lock (next : Code Value)
  | unlock (next : Code Value)
  | addResult (value : Value) (next : Code Value)
  | finish (next : Code Value)
  | loadTarget (alive destroyed : Code Value)
  | read
  | resultCount
  | takeResult
  | detach (next : Code Value)
  | complete (status : Status) (value : Option Value)

inductive Stage where
  | setup
  | later (status : Status)
  | running
  | over
  deriving DecidableEq, Repr

structure State (Value : Type) where
  receiver : Bool
  target : Bool
  stage : Stage := .setup
  watcher : Bool := false
  owned : Bool := false
  timer : Bool := false
  readerEvent : Bool := false
  finishedEvent : Bool := false
  destroyedEvent : Bool := false
  flags : Flag → Bool := fun _ => false
  locked : Bool := false
  result : Option Value := none
  code : Thread → Code Value := fun _ => .done
  reads : List Value := []
  calls : List (Status × Option Value) := []

variable {Value : Type}

def finishPromise (value : Option Value) (next : Code Value) : Code Value :=
  .lock (.exchange .promiseFinished (.unlock next)
    (match value with
    | none => .unlock (.finish next)
    | some value =>
      .load .cancelled (.unlock (.finish next)) (.addResult value (.unlock (.finish next)))))

def resolve (status : Status) (value : Option Value) : Code Value :=
  .exchange .resolved .done
    (.store .cancelled (finishPromise none (.detach (.complete status value))))

def watcherDestroyed : Code Value :=
  .store .cancelled (.store .resolved (finishPromise none .done))

def watcherFinished : Code Value :=
  .load .queueFailed (resolve .queueFailed none)
    (.load .targetDestroyed (resolve .targetUnavailable none) .resultCount)

def timeout : Code Value :=
  .load .queueFailed (resolve .queueFailed none)
    (.load .targetDestroyed (resolve .targetUnavailable none) (resolve .timeout none))

def targetDestroyed : Code Value := .store .targetDestroyed (resolve .targetUnavailable none)

def queuedReader : Code Value :=
  .load .cancelled (finishPromise none .done)
    (.loadTarget .read (.store .targetDestroyed (finishPromise none .done)))

def queueFailed : Code Value := .store .queueFailed (finishPromise none .done)

def State.set (s : State Value) (flag : Flag) : State Value :=
  { s with flags := Function.update s.flags flag true }

def exec (value : Value) (s : State Value) : Code Value → State Value × Code Value
  | .done => (s, .done)
  | .store flag next => (s.set flag, next)
  | .load flag set clear => (s, if s.flags flag then set else clear)
  | .exchange flag set clear => (s.set flag, if s.flags flag then set else clear)
  | .lock next => if s.locked then (s, .lock next) else ({ s with locked := true }, next)
  | .unlock next => ({ s with locked := false }, next)
  | .addResult value next => ({ s with result := some value }, next)
  | .finish next => ({ s with finishedEvent := true }, next)
  | .loadTarget alive destroyed => (s, if s.target then alive else destroyed)
  | .read =>
    ({ s with reads := s.reads ++ [value] },
      .load .cancelled (finishPromise none .done) (finishPromise (some value) .done))
  | .resultCount => (s, if s.result.isNone then resolve .targetUnavailable none else .takeResult)
  | .takeResult => (s, resolve .ready s.result)
  | .detach next => ({ s with timer := false, owned := false }, next)
  | .complete status value => ({ s with calls := s.calls ++ [(status, value)] }, .done)

inductive Label (Value : Type) where
  | setup (available queued : Bool)
  | deliverLater
  | deliverFinished
  | deliverTimeout
  | deliverDestroyed
  | destroyReceiver
  | destroyWatcher
  | destroyTarget
  | dequeueReader
  | statement (thread : Thread) (value : Value)

def State.start (s : State Value) (thread : Thread) (code : Code Value) : State Value :=
  { s with code := Function.update s.code thread code }

def setup (s : State Value) (available queued : Bool) : State Value :=
  if !s.target || !available then { s with stage := .later .targetUnavailable }
  else
    State.start { s with
      stage := .running
      watcher := true
      owned := true
      timer := true
      readerEvent := queued } .receiver (if queued then .done else queueFailed)

def destroyWatcher (s : State Value) : State Value :=
  State.start { s with watcher := false } .receiver watcherDestroyed

def handle (s : State Value) : Label Value → State Value
  | .setup available queued =>
    if s.receiver ∧ s.stage = .setup then setup s available queued else s
  | .deliverLater =>
    match s.stage with
    | .later status =>
      if s.receiver then { s with stage := .over, calls := s.calls ++ [(status, none)] } else s
    | _ => s
  | .deliverFinished =>
    if s.watcher ∧ s.finishedEvent then
      State.start { s with finishedEvent := false } .receiver watcherFinished
    else s
  | .deliverTimeout =>
    if s.watcher ∧ s.timer then State.start { s with timer := false } .receiver timeout else s
  | .deliverDestroyed =>
    if s.watcher ∧ s.destroyedEvent then
      State.start { s with destroyedEvent := false } .receiver targetDestroyed
    else s
  | .destroyReceiver =>
    if s.watcher ∧ s.owned then destroyWatcher { s with receiver := false }
    else { s with receiver := false }
  | .destroyWatcher => if s.watcher then destroyWatcher s else s
  | _ => s

def step (s : State Value) : Label Value → State Value
  | .destroyTarget =>
    { s with
      target := false
      readerEvent := false
      destroyedEvent := s.destroyedEvent || s.target && s.watcher }
  | .dequeueReader =>
    if s.readerEvent then State.start { s with readerEvent := false } .target queuedReader else s
  | .statement thread value =>
    (exec value s (s.code thread)).1.start thread (exec value s (s.code thread)).2
  | event =>
    match s.code .receiver with
    | .done => handle s event
    | _ => s

def initial (receiver target : Bool) : State Value := { receiver, target }

/-! ## What the code of a thread stands for -/

def Truthful (reads : List Value) (status : Status) (value : Option Value) : Prop :=
  (status = .ready ∧ ∃ read, value = some read ∧ reads = [read]) ∨ (status ≠ .ready ∧ value = none)

def Code.won : Code Value → Bool
  | .complete _ _ => true
  | .store _ next | .lock next | .unlock next | .addResult _ next | .finish next | .detach next => next.won
  | .load _ set clear | .loadTarget set clear => set.won || clear.won
  | .exchange flag set clear => set.won || flag ≠ .resolved && clear.won
  | _ => false

def Code.contends : Code Value → Bool
  | .resultCount | .takeResult => true
  | .store _ next | .lock next | .unlock next | .addResult _ next | .finish next | .detach next =>
    next.contends
  | .load _ set clear | .loadTarget set clear => set.contends || clear.contends
  | .exchange flag set clear => flag = .resolved || (set.contends || clear.contends)
  | _ => false

-- A completion or a store of `resolved` lies ahead without a store of `cancelled` before it.
def Code.late : Code Value → Bool
  | .complete _ _ => true
  | .store flag next => flag = .resolved || flag ≠ .cancelled && next.late
  | .lock next | .unlock next | .addResult _ next | .finish next | .detach next => next.late
  | .load _ set clear | .loadTarget set clear | .exchange _ set clear => set.late || clear.late
  | _ => false

def Code.Fits (thread : Thread) (reads : List Value) (result : Option Value) : Code Value → Prop
  | .done => True
  | .store _ next | .lock next | .unlock next | .finish next => next.Fits thread reads result
  | .load _ set clear => set.Fits thread reads result ∧ clear.Fits thread reads result
  | .exchange flag set clear =>
    (flag = .resolved → thread = .receiver ∧ ∃ next, clear = .store .cancelled next) ∧
      set.Fits thread reads result ∧ clear.Fits thread reads result
  | .addResult value next => reads = [value] ∧ next.Fits thread reads result
  | .loadTarget alive destroyed => alive.Fits thread reads result ∧ destroyed.Fits thread reads result
  | .read => thread = .target ∧ reads = []
  | .resultCount => thread = .receiver
  | .takeResult => thread = .receiver ∧ result ≠ none
  | .detach next => next.won = true ∧ next.Fits thread reads result
  | .complete status value => Truthful reads status value

structure Inv (s : State Value) : Prop where
  fits : ∀ thread, (s.code thread).Fits thread s.reads s.result
  once : s.reads.length ≤ 1
  queued : s.readerEvent = true → s.reads = [] ∧ s.code .target = .done
  result : ∀ value, s.result = some value → s.reads = [value]
  truthful : ∀ call ∈ s.calls, Truthful s.reads call.1 call.2
  single : s.calls.length ≤ 1
  called : s.calls ≠ [] → s.flags .resolved = true ∧ s.flags .cancelled = true ∨ s.stage = .over
  late : ∀ thread, (s.code thread).late = true → s.flags .cancelled = true
  settled : s.flags .resolved = true → s.flags .cancelled = true ∨
    ∃ next, s.code .receiver = .store .cancelled next
  won : ∀ thread, (s.code thread).won = true → thread = .receiver ∧
    s.calls = [] ∧ s.flags .resolved = true ∧ s.receiver = true
  idle : s.stage ≠ .running → s.watcher = false ∧ (∀ thread, s.code thread = .done) ∧ s.readerEvent = false
  deferred : ∀ status, s.stage = .later status → status ≠ .ready
  early : s.stage ≠ .running → s.stage ≠ .over → s.calls = [] ∧ s.reads = []
  detached : s.watcher = true → s.owned = false → s.flags .resolved = true
  orphan : s.receiver = false → s.flags .resolved = true ∨
    s.watcher = false ∧ (s.code .receiver).contends = false

/-! ## One step -/

@[simp] theorem State.start_self (s : State Value) (thread : Thread) (code : Code Value) :
    (s.start thread code).code thread = code :=
  Function.update_self ..

variable {thread : Thread} {reads : List Value} {result : Option Value} {code : Code Value}

theorem State.start_of_ne (s : State Value) {other : Thread} (different : other ≠ thread)
    (code : Code Value) : (s.start thread code).code other = s.code other :=
  Function.update_of_ne different ..

theorem Truthful.read {status : Status} {value : Option Value} (truthful : Truthful [] status value)
    (reads : List Value) : Truthful reads status value := by
  obtain ⟨-, read, -, empty⟩ | silent := truthful
  · cases empty
  · exact .inr silent

theorem fits_finishPromise (next : Code Value)
    (fits : next.Fits thread reads result) (value : Option Value)
    (known : ∀ read, value = some read → reads = [read]) : (finishPromise value next).Fits thread reads result := by
  cases value with
  | none => exact ⟨nofun, fits, fits⟩
  | some value => exact ⟨nofun, fits, fits, known value rfl, fits⟩

theorem fits_resolve {status : Status} {value : Option Value}
    (truthful : Truthful reads status value) : (resolve status value).Fits .receiver reads result :=
  ⟨fun _ => ⟨rfl, _, rfl⟩, trivial, fits_finishPromise (.detach (.complete status value)) ⟨rfl, truthful⟩ none nofun⟩

theorem Code.Fits.mono {reads' : List Value} {result' : Option Value} (fits : code.Fits thread reads result)
    (grows : reads' = reads ∨ reads = [] ∧ thread = .receiver) (answers : result ≠ none → result' ≠ none) :
    code.Fits thread reads' result' := by
  induction code with
  | done => trivial
  | resultCount => exact fits
  | store flag next ih | lock next ih | unlock next ih | finish next ih => exact ih fits
  | load flag set clear ihSet ihClear => exact ⟨ihSet fits.1, ihClear fits.2⟩
  | exchange flag set clear ihSet ihClear => exact ⟨fits.1, ihSet fits.2.1, ihClear fits.2.2⟩
  | loadTarget alive destroyed ihAlive ihDestroyed => exact ⟨ihAlive fits.1, ihDestroyed fits.2⟩
  | addResult value next ih =>
    obtain rfl | ⟨empty, -⟩ := grows
    · exact ⟨fits.1, ih fits.2⟩
    · exact nomatch empty.symm.trans fits.1
  | read =>
    obtain rfl | ⟨-, receiver⟩ := grows
    · exact fits
    · exact nomatch receiver.symm.trans fits.1
  | takeResult => exact ⟨fits.1, answers fits.2⟩
  | detach next ih => exact ⟨fits.1, ih fits.2⟩
  | complete status value =>
    obtain rfl | ⟨rfl, -⟩ := grows
    · exact fits
    · exact fits.read _

namespace Inv

variable {s : State Value}

theorem keeps_settled (inv : Inv s) {flags : Flag → Bool} (kept : ∀ flag, s.flags flag = true → flags flag = true)
    (stores : ∀ next, s.code thread = .store .cancelled next → flags .cancelled = true)
    (resolved : s.flags .resolved = true) (code : Code Value) :
    flags .cancelled = true ∨ ∃ next, Function.update s.code thread code .receiver = .store .cancelled next := by
  rcases inv.settled resolved with cancelled | ⟨next, pending⟩
  · exact .inl (kept .cancelled cancelled)
  · cases thread with
    | receiver => exact .inl (stores next pending)
    | target =>
      have other : Thread.receiver ≠ .target := nofun
      exact .inr ⟨next, (Function.update_of_ne other ..).trans pending⟩

theorem moves (inv : Inv s) (busy : s.code thread ≠ .done) (code : Code Value)
    (fits : code.Fits thread s.reads s.result) (flags : Flag → Bool)
    (kept : ∀ flag, s.flags flag = true → flags flag = true)
    (late : code.late = true → (s.code thread).late = true ∨ flags .cancelled = true)
    (settled : flags .resolved = true → flags .cancelled = true ∨
      ∃ next, Function.update s.code thread code .receiver = .store .cancelled next)
    (won : code.won = true → (s.code thread).won = true ∨
      thread = .receiver ∧ s.calls = [] ∧ flags .resolved = true ∧ s.receiver = true)
    (contends : code.contends = true → flags .resolved = true ∨ (s.code thread).contends = true)
    (locked event : Bool) :
    Inv (State.start { s with flags, locked, finishedEvent := event } thread code) :=
  { inv with
    fits := (Function.forall_update_iff s.code fun thread code => code.Fits thread s.reads s.result).mpr
      ⟨fits, fun other _ => inv.fits other⟩
    queued := fun event => by
      have ⟨unread, silent⟩ := inv.queued event
      have other : Thread.target ≠ thread := fun same => busy (same ▸ silent)
      exact ⟨unread, (State.start_of_ne _ other code).trans silent⟩
    called := fun called => (inv.called called).imp_left (And.imp (kept .resolved) (kept .cancelled))
    late := (Function.forall_update_iff s.code fun _ code => code.late = true → flags .cancelled = true).mpr
      ⟨fun ahead => (late ahead).elim (fun before => kept .cancelled (inv.late thread before)) id,
        fun other _ before => kept .cancelled (inv.late other before)⟩
    settled := settled
    won := (Function.forall_update_iff s.code fun thread code => code.won = true → thread = .receiver ∧
        s.calls = [] ∧ flags .resolved = true ∧ s.receiver = true).mpr
      ⟨fun win => (won win).elim
        (fun before => have ⟨receiver, uncalled, resolved, alive⟩ := inv.won thread before
          ⟨receiver, uncalled, kept .resolved resolved, alive⟩) id,
        fun other _ before => have ⟨receiver, uncalled, resolved, alive⟩ := inv.won other before
          ⟨receiver, uncalled, kept .resolved resolved, alive⟩⟩
    idle := fun other => absurd ((inv.idle other).2.1 thread) busy
    detached := fun watched free => kept .resolved (inv.detached watched free)
    orphan := fun dead => by
      rcases inv.orphan dead with resolved | ⟨gone, silent⟩
      · exact .inl (kept .resolved resolved)
      · by_cases resolved : flags .resolved = true
        · exact .inl resolved
        · refine .inr ⟨gone, ?_⟩
          cases thread with
          | target => exact silent
          | receiver =>
            rw [State.start_self, ← Bool.not_eq_true]
            exact fun may => absurd ((contends may).resolve_left resolved) (by simp [silent]) }

theorem next (inv : Inv s) {before : Code Value} (pending : s.code thread = before)
    (busy : before ≠ .done) (code : Code Value) (fits : code.Fits thread s.reads s.result)
    (won : code.won = true → before.won = true) (contends : code.contends = true → before.contends = true)
    (late : code.late = true → before.late = true) (unstored : ∀ next, before ≠ .store .cancelled next)
    (locked event : Bool) :
    Inv (State.start { s with locked, finishedEvent := event } thread code) := by
  subst pending
  exact inv.moves busy code fits s.flags (fun _ => id) (fun ahead => .inl (late ahead))
    (fun resolved => inv.keeps_settled (fun _ => id) (fun next same => absurd same (unstored next)) resolved code)
    (fun win => .inl (won win)) (fun may => .inr (contends may)) locked event

theorem kept_update (flags : Flag → Bool) (flag other : Flag) (before : flags other = true) :
    Function.update flags flag true other = true := by
  by_cases same : other = flag
  · rw [same, Function.update_self]
  · rwa [Function.update_of_ne same]

theorem statement (inv : Inv s) (thread : Thread) (value : Value) : Inv (step s (.statement thread value)) := by
  obtain ⟨before, code⟩ : ∃ before, s.code thread = before := ⟨_, rfl⟩
  have fits := inv.fits thread
  dsimp only [step]
  rw [code] at fits ⊢
  cases before with
  | done =>
    have same : s.start thread .done = s := by rw [← code, State.start, Function.update_eq_self]
    rw [exec, same]
    exact inv
  | store flag next =>
    refine inv.moves (by simp [code]) next fits _ (kept_update s.flags flag) (fun ahead => ?_) (fun resolved => ?_)
      (fun win => .inl (by simpa [code, Code.won] using win))
      (fun may => .inr (by simpa [code, Code.contends] using may)) _ _
    · by_cases cancels : flag = .cancelled
      · exact .inr (by rw [cancels, Function.update_self])
      · exact .inl (by simp [code, Code.late, cancels, ahead])
    · by_cases resolves : flag = .resolved
      · have ahead : (s.code thread).late = true := by simp [code, Code.late, resolves]
        exact .inl (kept_update s.flags flag .cancelled (inv.late thread ahead))
      · rw [Function.update_of_ne (Ne.symm resolves)] at resolved
        refine inv.keeps_settled (kept_update s.flags flag) (fun other same => ?_) resolved next
        rw [code, Code.store.injEq] at same
        rw [same.1, Function.update_self]
  | load flag set clear | loadTarget set clear =>
    dsimp only [exec]
    split_ifs
    · exact inv.next code nofun set fits.1 (by simp +contextual [Code.won]) (by simp +contextual [Code.contends])
        (by simp +contextual [Code.late]) nofun _ _
    · exact inv.next code nofun clear fits.2 (by simp +contextual [Code.won])
        (by simp +contextual [Code.contends]) (by simp +contextual [Code.late]) nofun _ _
  | exchange flag set clear =>
    dsimp only [exec]
    split_ifs with before
    · have same : s.set flag = s := by rw [State.set, ← before, Function.update_eq_self]
      rw [same]
      exact inv.next code nofun set fits.2.1 (by simp +contextual [Code.won])
        (by simp +contextual [Code.contends]) (by simp +contextual [Code.late]) nofun _ _
    · refine inv.moves (by simp [code]) clear fits.2.2 _ (kept_update s.flags flag) (fun ahead => ?_)
        (fun resolved => ?_) (fun win => ?_) (fun may => ?_) _ _
      · exact .inl (by simp [code, Code.late, ahead])
      · by_cases resolves : flag = .resolved
        · obtain ⟨rfl, next, rfl⟩ := fits.1 resolves
          exact .inr ⟨next, Function.update_self ..⟩
        · rw [Function.update_of_ne (Ne.symm resolves)] at resolved
          exact inv.keeps_settled (kept_update s.flags flag) (by simp [code]) resolved clear
      · by_cases resolves : flag = .resolved
        · subst resolves
          obtain ⟨receives, -⟩ := fits.1 rfl
          refine .inr ⟨receives, ?_, Function.update_self .., ?_⟩
          · by_contra called
            rcases inv.called called with ⟨resolved, -⟩ | past
            · exact before resolved
            · exact absurd ((inv.idle (by simp [past])).2.1 thread) (by simp [code])
          · by_contra dead
            rcases inv.orphan (by simpa using dead) with resolved | ⟨-, silent⟩
            · exact before resolved
            · rw [← receives, code] at silent
              simp [Code.contends] at silent
        · exact .inl (by simp [code, Code.won, resolves, win])
      · exact .inr (by simp [code, Code.contends, may])
  | lock next =>
    dsimp only [exec]
    split_ifs
    · exact inv.next code nofun (.lock next) fits id id id nofun _ _
    · exact inv.next code nofun next fits id id id nofun _ _
  | unlock next | finish next => exact inv.next code nofun next fits id id id nofun _ _
  | addResult value next =>
    have after := inv.next code nofun next fits.2 id id id nofun s.locked s.finishedEvent
    exact
      { after with
        fits := fun other => (after.fits other).mono (.inl rfl) fun _ => nofun
        result := by rintro read ⟨⟩; exact fits.1 }
  | read =>
    obtain ⟨rfl, empty⟩ := fits
    have busy : s.code .target ≠ .done := by simp [code]
    have grows (status : Status) (value : Option Value) (truthful : Truthful s.reads status value)
        (reads : List Value) : Truthful reads status value :=
      Truthful.read (by rwa [empty] at truthful) reads
    have single : s.reads ++ [value] = [value] := by rw [empty]; rfl
    have after := inv.next code nofun .done trivial nofun nofun nofun nofun s.locked s.finishedEvent
    exact
      { after with
        fits := (Function.forall_update_iff s.code fun thread code =>
          code.Fits thread (s.reads ++ [value]) s.result).mpr
            ⟨⟨fits_finishPromise .done trivial none nofun,
                fits_finishPromise .done trivial (some value) fun read same => by cases same; exact single⟩,
              fun other _ => (inv.fits other).mono (.inr ⟨empty, by cases other <;> simp_all⟩) id⟩
        once := by simp [exec, State.start, empty]
        queued := fun event => absurd (inv.queued event).2 busy
        result := fun value answered => absurd (inv.result value answered) (by simp [empty])
        truthful := fun call member => grows _ _ (inv.truthful call member) _
        late := (Function.forall_update_iff s.code fun _ code => code.late = true → s.flags .cancelled = true).mpr
          ⟨nofun, fun other _ => inv.late other⟩
        settled := inv.settled
        won := (Function.forall_update_iff s.code fun thread code => code.won = true → thread = .receiver ∧
          s.calls = [] ∧ s.flags .resolved = true ∧ s.receiver = true).mpr
            ⟨nofun, fun other _ => inv.won other⟩
        idle := fun other => absurd ((inv.idle other).2.1 .target) busy
        early := fun other => absurd ((inv.idle other).2.1 .target) busy
        orphan := inv.orphan }
  | resultCount =>
    obtain rfl : thread = .receiver := fits
    dsimp only [exec]
    split_ifs with missing
    · exact inv.next code nofun (resolve .targetUnavailable none) (fits_resolve (.inr ⟨nofun, rfl⟩)) nofun
        (fun _ => rfl) nofun nofun _ _
    · exact inv.next code nofun .takeResult ⟨rfl, by simpa using missing⟩ nofun (fun _ => rfl) nofun nofun _ _
  | takeResult =>
    obtain ⟨rfl, answered⟩ := fits
    obtain ⟨read, answer⟩ := Option.ne_none_iff_exists'.mp answered
    exact inv.next code nofun _ (fits_resolve (.inl ⟨rfl, read, answer, inv.result read answer⟩)) nofun
      (fun _ => rfl) nofun nofun _ _
  | detach next =>
    have won := inv.won thread (by simpa [code, Code.won] using fits.1)
    have after := inv.next code nofun next fits.2 id id id nofun s.locked s.finishedEvent
    exact { after with detached := fun _ _ => won.2.2.1 }
  | complete status value =>
    obtain ⟨rfl, uncalled, resolved, alive⟩ := inv.won thread (by simp [code, Code.won])
    have busy : s.code .receiver ≠ .done := by simp [code]
    have after := inv.next code nofun .done trivial nofun nofun nofun nofun s.locked s.finishedEvent
    exact
      { after with
        truthful := by simpa [exec, uncalled, State.start, Code.Fits] using fits
        single := by simp [exec, uncalled, State.start]
        called := fun _ => .inl ⟨resolved, inv.late .receiver (by simp [code, Code.late])⟩
        won := (Function.forall_update_iff s.code fun thread code => code.won = true → _).mpr
          ⟨nofun, fun other different win => absurd (inv.won other win).1 different⟩
        early := fun other => absurd ((inv.idle other).2.1 .receiver) busy }

theorem handle (inv : Inv s) (idle : s.code .receiver = .done) (event : Label Value) : Inv (handle s event) := by
  have fits (code : Code Value) (fits : code.Fits .receiver s.reads s.result) (thread : Thread) :
      (Function.update s.code .receiver code thread).Fits thread s.reads s.result :=
    (Function.forall_update_iff s.code fun thread code => code.Fits thread s.reads s.result).mpr
      ⟨fits, fun other _ => inv.fits other⟩ thread
  have lost (code : Code Value) (fresh : code.won = false) (thread : Thread) :
      (Function.update s.code .receiver code thread).won = false := by
    refine (Function.forall_update_iff s.code fun _ code => code.won = false).mpr
      ⟨fresh, fun other different => ?_⟩ thread
    rw [← Bool.not_eq_true]
    exact fun win => different (inv.won other win).1
  have early (code : Code Value) (fresh : code.late = false) (thread : Thread)
      (ahead : (Function.update s.code .receiver code thread).late = true) : s.flags .cancelled = true :=
    (Function.forall_update_iff s.code fun _ code => code.late = true → s.flags .cancelled = true).mpr
      ⟨fun ahead => absurd ahead (by simp [fresh]), fun other _ => inv.late other⟩ thread ahead
  have cancelled (resolved : s.flags .resolved = true) : s.flags .cancelled = true :=
    (inv.settled resolved).resolve_right (by simp [idle])
  have begins (watched : s.watcher = true) (code : Code Value) (fit : code.Fits .receiver s.reads s.result)
      (fresh : code.won = false) (guarded : code.late = false) (timer finished notice : Bool) :
      Inv (State.start { s with timer, finishedEvent := finished, destroyedEvent := notice } .receiver code) :=
    { inv with
      fits := fits code fit
      late := early code guarded
      settled := fun resolved => .inl (cancelled resolved)
      won := fun thread win => absurd win (by simp [State.start, lost code fresh])
      idle := fun other => absurd watched (by simp [(inv.idle other).1])
      orphan := fun dead => .inl ((inv.orphan dead).resolve_right (by simp [watched])) }
  have destroyed (watched : s.watcher = true) (receiver : Bool) : Inv (destroyWatcher { s with receiver }) :=
    { inv with
      fits := fits _ (fits_finishPromise .done trivial none nofun)
      late := early watcherDestroyed rfl
      settled := fun resolved => .inl (cancelled resolved)
      won := fun thread win => absurd win (by simp [destroyWatcher, State.start, lost watcherDestroyed rfl])
      idle := fun other => absurd watched (by simp [(inv.idle other).1])
      detached := nofun
      orphan := fun _ => .inr ⟨rfl, rfl⟩ }
  cases event with
  | setup available queued =>
    dsimp only [BoundedQueuedSnapshot.handle]
    split_ifs with first
    · obtain ⟨alive, stage⟩ := first
      obtain ⟨-, silent, -⟩ := inv.idle (by simp [stage])
      obtain ⟨uncalled, unread⟩ := inv.early (by simp [stage]) (by simp [stage])
      have opens (code : Code Value) (fit : code.Fits .receiver s.reads s.result) (fresh : code.won = false)
          (guarded : code.late = false) : Inv (State.start { s with
            stage := .running
            watcher := true
            owned := true
            timer := true
            readerEvent := queued } .receiver code) :=
        { inv with
          fits := fits code fit
          queued := fun _ => ⟨unread, silent .target⟩
          called := fun called => absurd uncalled called
          late := early code guarded
          settled := fun resolved => .inl (cancelled resolved)
          won := fun thread win => absurd win (by simp [State.start, lost code fresh])
          idle := fun other => absurd rfl other
          deferred := nofun
          early := fun other => absurd rfl other
          detached := nofun
          orphan := fun dead => absurd alive (by simp [show s.receiver = false from dead]) }
      unfold setup
      split_ifs
      · exact
          { inv with
            called := fun called => absurd uncalled called
            idle := fun _ => inv.idle (by simp [stage])
            deferred := by rintro status ⟨⟩; decide
            early := fun _ _ => ⟨uncalled, unread⟩ }
      · exact opens .done trivial rfl rfl
      · exact opens queueFailed (fits_finishPromise .done trivial none nofun) rfl rfl
    · exact inv
  | deliverLater =>
    dsimp only [BoundedQueuedSnapshot.handle]
    cases stage : s.stage with
    | later status =>
      obtain ⟨uncalled, -⟩ := inv.early (by simp [stage]) (by simp [stage])
      have truthful : Truthful s.reads status none := .inr ⟨inv.deferred status stage, rfl⟩
      dsimp only
      split_ifs
      · exact
          { inv with
            truthful := by simpa [uncalled] using truthful
            single := by simp [uncalled]
            called := fun _ => .inr rfl
            won := fun thread win => absurd win (by simp [(inv.idle (by simp [stage])).2.1, Code.won])
            idle := fun _ => inv.idle (by simp [stage])
            deferred := nofun
            early := fun _ other => absurd rfl other }
      · exact inv
    | _ => exact inv
  | deliverFinished =>
    dsimp only [BoundedQueuedSnapshot.handle]
    split_ifs with posted
    · refine begins posted.1 watcherFinished ⟨fits_resolve ?_, fits_resolve ?_, rfl⟩ rfl rfl _ _ _
      all_goals exact .inr ⟨nofun, rfl⟩
    · exact inv
  | deliverTimeout =>
    dsimp only [BoundedQueuedSnapshot.handle]
    split_ifs with posted
    · refine begins posted.1 timeout ⟨fits_resolve ?_, fits_resolve ?_, fits_resolve ?_⟩ rfl rfl _ _ _
      all_goals exact .inr ⟨nofun, rfl⟩
    · exact inv
  | deliverDestroyed =>
    dsimp only [BoundedQueuedSnapshot.handle]
    split_ifs with posted
    · exact begins posted.1 targetDestroyed (fits_resolve (.inr ⟨nofun, rfl⟩)) rfl rfl _ _ _
    · exact inv
  | destroyReceiver =>
    dsimp only [BoundedQueuedSnapshot.handle]
    split_ifs with owner
    · exact destroyed owner.1 false
    · exact
        { inv with
          won := fun thread win => by
            obtain rfl := (inv.won thread win).1
            simp [idle, Code.won] at win
          orphan := fun _ => by
            by_cases watched : s.watcher = true
            · exact .inl (inv.detached watched (by simpa [watched] using owner))
            · exact .inr ⟨by simpa using watched, by simp [idle, Code.contends]⟩ }
  | destroyWatcher =>
    dsimp only [BoundedQueuedSnapshot.handle]
    split_ifs with watched
    · exact destroyed watched s.receiver
    · exact inv
  | _ => exact inv

theorem step (inv : Inv s) (label : Label Value) : Inv (step s label) := by
  have handled (event : Label Value) : Inv (match s.code .receiver with
      | .done => BoundedQueuedSnapshot.handle s event
      | _ => s) := by
    cases code : s.code .receiver with
    | done => exact inv.handle code event
    | _ => exact inv
  cases label with
  | destroyTarget =>
    exact
      { inv with
        queued := nofun
        idle := fun other => ⟨(inv.idle other).1, (inv.idle other).2.1, rfl⟩ }
  | dequeueReader =>
    dsimp only [BoundedQueuedSnapshot.step]
    split_ifs with event
    · have fits : (queuedReader : Code Value).Fits .target s.reads s.result :=
        ⟨fits_finishPromise .done trivial none nofun, ⟨rfl, (inv.queued event).1⟩,
          fits_finishPromise .done trivial none nofun⟩
      exact
        { inv with
          fits := (Function.forall_update_iff s.code fun thread code => code.Fits thread s.reads s.result).mpr
            ⟨fits, fun other _ => inv.fits other⟩
          queued := nofun
          late := (Function.forall_update_iff s.code fun _ code => code.late = true → s.flags .cancelled = true).mpr
            ⟨nofun, fun other _ => inv.late other⟩
          settled := inv.settled
          won := (Function.forall_update_iff s.code fun thread code => code.won = true → thread = .receiver ∧
            s.calls = [] ∧ s.flags .resolved = true ∧ s.receiver = true).mpr
              ⟨nofun, fun other _ => inv.won other⟩
          idle := fun other => absurd event (by simp [(inv.idle other).2.2])
          orphan := inv.orphan }
    · exact inv
  | statement thread value => exact inv.statement thread value
  | _ => exact handled _

theorem initial (receiver target : Bool) : Inv (initial receiver target : State Value) where
  fits _ := trivial
  once := Nat.zero_le _
  queued := nofun
  result := nofun
  truthful := nofun
  single := Nat.zero_le _
  called called := absurd rfl called
  late := nofun
  settled := nofun
  won := nofun
  idle _ := ⟨rfl, fun _ => rfl, rfl⟩
  deferred := nofun
  early _ _ := ⟨rfl, rfl⟩
  detached := nofun
  orphan _ := .inr ⟨rfl, rfl⟩

end Inv

/-! ## After the receiver's destruction, and after a resolution -/

theorem handle_frame (s : State Value) (event : Label Value) :
    (handle s event).flags = s.flags ∧ (handle s event).reads = s.reads ∧
      (handle s event).code .target = s.code .target ∧
      (s.receiver = false → (handle s event).receiver = false ∧ (handle s event).calls = s.calls) := by
  cases event with
  | setup available queued =>
    dsimp only [handle, setup]
    split_ifs <;> exact ⟨rfl, rfl, rfl, fun dead => ⟨dead, rfl⟩⟩
  | deliverLater =>
    dsimp only [handle]
    split
    · split_ifs with alive
      · exact ⟨rfl, rfl, rfl, fun dead => absurd alive (by simp [dead])⟩
      · exact ⟨rfl, rfl, rfl, fun dead => ⟨dead, rfl⟩⟩
    · exact ⟨rfl, rfl, rfl, fun dead => ⟨dead, rfl⟩⟩
  | deliverFinished | deliverTimeout | deliverDestroyed | destroyWatcher =>
    dsimp only [handle]
    split_ifs <;> exact ⟨rfl, rfl, rfl, fun dead => ⟨dead, rfl⟩⟩
  | destroyReceiver =>
    dsimp only [handle]
    split_ifs <;> exact ⟨rfl, rfl, rfl, fun _ => ⟨rfl, rfl⟩⟩
  | _ => exact ⟨rfl, rfl, rfl, fun dead => ⟨dead, rfl⟩⟩

theorem exec_calls (value : Value) (s : State Value) (code : Code Value) :
    (exec value s code).1.receiver = s.receiver ∧
      ((exec value s code).1.calls = s.calls ∨ code.won = true) := by
  cases code with
  | complete status value => exact ⟨rfl, .inr rfl⟩
  | lock next =>
    dsimp only [exec]
    split_ifs <;> exact ⟨rfl, .inl rfl⟩
  | _ => exact ⟨rfl, .inl rfl⟩

variable {s : State Value}

theorem Inv.orphaned (inv : Inv s) (dead : s.receiver = false) (label : Label Value) :
    (BoundedQueuedSnapshot.step s label).receiver = false ∧
      (BoundedQueuedSnapshot.step s label).calls = s.calls := by
  have handled (event : Label Value) : let after := match s.code .receiver with
        | .done => BoundedQueuedSnapshot.handle s event
        | _ => s
      after.receiver = false ∧ after.calls = s.calls := by
    cases s.code .receiver with
    | done => exact (handle_frame s event).2.2.2 dead
    | _ => exact ⟨dead, rfl⟩
  cases label with
  | destroyTarget => exact ⟨dead, rfl⟩
  | dequeueReader =>
    dsimp only [BoundedQueuedSnapshot.step]
    split_ifs <;> exact ⟨dead, rfl⟩
  | statement thread value =>
    obtain ⟨receiver, same | won⟩ := exec_calls value s (s.code thread)
    · exact ⟨receiver.trans dead, same⟩
    · exact absurd (inv.won thread won).2.2.2 (by simp [dead])
  | _ => exact handled _

def Code.readable : Code Value → Bool
  | .read => true
  | .store _ next | .lock next | .unlock next | .addResult _ next | .finish next | .detach next =>
    next.readable
  | .load flag set clear => set.readable || flag ≠ .cancelled && clear.readable
  | .exchange _ set clear | .loadTarget set clear => set.readable || clear.readable
  | _ => false

theorem Code.Fits.not_readable (fits : code.Fits .receiver reads result) : code.readable = false := by
  induction code with
  | read => exact nomatch fits.1
  | store flag next ih | lock next ih | unlock next ih | finish next ih => exact ih fits
  | addResult value next ih | detach next ih => exact ih fits.2
  | load flag set clear ihSet ihClear => simp [Code.readable, ihSet fits.1, ihClear fits.2]
  | loadTarget set clear ihSet ihClear => simp [Code.readable, ihSet fits.1, ihClear fits.2]
  | exchange flag set clear ihSet ihClear => simp [Code.readable, ihSet fits.2.1, ihClear fits.2.2]
  | _ => rfl

theorem exec_not_readable (cancelled : s.flags .cancelled = true)
    (unreadable : code.readable = false) (value : Value) :
    (exec value s code).1.flags .cancelled = true ∧ (exec value s code).1.reads = s.reads ∧
      (exec value s code).1.code = s.code ∧ (exec value s code).2.readable = false := by
  cases code with
  | read => cases unreadable
  | store flag next => exact ⟨Inv.kept_update s.flags flag .cancelled cancelled, rfl, rfl, unreadable⟩
  | load flag set clear =>
    refine ⟨cancelled, rfl, rfl, ?_⟩
    simp only [Code.readable, Bool.or_eq_false_iff] at unreadable
    dsimp only [exec]
    split_ifs with loaded
    · exact unreadable.1
    · have other : flag ≠ .cancelled := by rintro rfl; exact loaded cancelled
      simpa [other] using unreadable.2
  | exchange flag set clear =>
    simp only [Code.readable, Bool.or_eq_false_iff] at unreadable
    refine ⟨Inv.kept_update s.flags flag .cancelled cancelled, rfl, rfl, ?_⟩
    dsimp only [exec]
    split_ifs
    · exact unreadable.1
    · exact unreadable.2
  | loadTarget set clear =>
    simp only [Code.readable, Bool.or_eq_false_iff] at unreadable
    refine ⟨cancelled, rfl, rfl, ?_⟩
    dsimp only [exec]
    split_ifs
    · exact unreadable.1
    · exact unreadable.2
  | lock next =>
    dsimp only [exec]
    split_ifs <;> exact ⟨cancelled, rfl, rfl, unreadable⟩
  | resultCount =>
    refine ⟨cancelled, rfl, rfl, ?_⟩
    dsimp only [exec]
    split_ifs <;> rfl
  | takeResult | done | complete => exact ⟨cancelled, rfl, rfl, rfl⟩
  | _ => exact ⟨cancelled, rfl, rfl, unreadable⟩

structure Barred (s : State Value) : Prop where
  cancelled : s.flags .cancelled = true
  unread : s.reads = []
  target : (s.code .target).readable = false

theorem Barred.step (barred : Barred s) (inv : Inv s) (label : Label Value) :
    Barred (step s label) := by
  have handled (event : Label Value) : Barred (match s.code .receiver with
      | .done => handle s event
      | _ => s) := by
    cases s.code .receiver with
    | done =>
      obtain ⟨flags, reads, target, -⟩ := handle_frame s event
      exact ⟨by rw [flags]; exact barred.cancelled, reads.trans barred.unread, by rw [target]; exact barred.target⟩
    | _ => exact barred
  cases label with
  | destroyTarget => exact { barred with }
  | dequeueReader =>
    dsimp only [BoundedQueuedSnapshot.step]
    split_ifs
    · exact ⟨barred.cancelled, barred.unread, rfl⟩
    · exact barred
  | statement thread value =>
    have unreadable : (s.code thread).readable = false := by
      cases thread with
      | receiver => exact (inv.fits .receiver).not_readable
      | target => exact barred.target
    obtain ⟨cancelled, reads, code, next⟩ := exec_not_readable barred.cancelled unreadable value
    refine ⟨cancelled, reads.trans barred.unread, ?_⟩
    cases thread with
    | receiver =>
      dsimp only [BoundedQueuedSnapshot.step]
      rw [State.start_of_ne _ (by decide), code]
      exact barred.target
    | target =>
      dsimp only [BoundedQueuedSnapshot.step]
      rwa [State.start_self]
  | _ => exact handled _

/-! ## Every interleaving -/

theorem steps {I : State Value → Prop} (keeps : ∀ s label, I s → I (step s label))
    (holds : I s) (labels : List (Label Value)) : I (labels.foldl step s) := by
  have run := run_foldl step s labels
  refine run.invariant (I := fun _ s => I s) ?_ [] holds
  rintro - s label - before rfl
  exact keeps s label before

theorem requestBoundedQueuedSnapshot_completes_once (receiver target : Bool) (labels : List (Label Value)) :
    let s := labels.foldl step (initial receiver target)
    s.calls.length ≤ 1 ∧ s.reads.length ≤ 1 ∧
      (∀ status value, (status, value) ∈ s.calls →
        (status = .ready ∧ ∃ read, value = some read ∧ s.reads = [read]) ∨ (status ≠ .ready ∧ value = none)) ∧
      (s.receiver = false → ∀ later : List (Label Value), (later.foldl step s).calls = s.calls) ∧
      (s.readerEvent = true → s.calls ≠ [] ∨ s.flags .resolved = true ∧ s.code .receiver = .done →
        ∀ later : List (Label Value), (later.foldl step s).reads = []) := by
  intro s
  have inv : Inv s := steps (fun _ label inv => inv.step label) (Inv.initial receiver target) labels
  refine ⟨inv.single, inv.once, fun status value member => inv.truthful _ member, ?_, ?_⟩
  · intro dead later
    have kept : Inv (later.foldl step s) ∧ (later.foldl step s).receiver = false ∧
        (later.foldl step s).calls = s.calls := by
      refine steps (I := fun after => Inv after ∧ after.receiver = false ∧ after.calls = s.calls) ?_
        ⟨inv, dead, rfl⟩ later
      rintro after label ⟨inv, dead, same⟩
      obtain ⟨still, calls⟩ := inv.orphaned dead label
      exact ⟨inv.step label, still, calls.trans same⟩
    exact kept.2.2
  · intro queued resolution later
    obtain ⟨unread, silent⟩ := inv.queued queued
    have cancelled : s.flags .cancelled = true := by
      rcases resolution with called | ⟨resolved, handled⟩
      · refine ((inv.called called).resolve_right fun past => ?_).2
        exact absurd queued (by simp [(inv.idle (by simp [past])).2.2])
      · exact (inv.settled resolved).resolve_right (by simp [handled])
    have barred : Barred s := ⟨cancelled, unread, by rw [silent]; rfl⟩
    have kept : Inv (later.foldl step s) ∧ Barred (later.foldl step s) :=
      steps (I := fun after => Inv after ∧ Barred after)
        (fun _ label both => ⟨both.1.step label, both.2.step both.1 label⟩) ⟨inv, barred⟩ later
    exact kept.2.unread

example : (List.foldl step (initial true true) ([.setup true true, .dequeueReader] ++
    List.replicate 10 (.statement .target 7) ++ [.deliverFinished] ++
    List.replicate 11 (.statement .receiver 0))).calls = [(.ready, some 7)] := by
  decide

end Amnezia.BoundedQueuedSnapshot
