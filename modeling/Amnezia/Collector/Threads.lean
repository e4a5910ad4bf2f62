import Amnezia.Collector.Batch

/-! # Threads of the collector -/

namespace Amnezia.Collector
open Lib

variable {Hash : Type} {services : Services Hash} {options : Options}

/-! ## What an operation does -/

inductive Effect (services : Services Hash) (options : Options) (now : Moment) (request : Option Request)
    (before after : World Hash) : Operation Hash → Prop where
  | prunes {operation : Operation Hash} (files : after.files.Sublist before.files)
      (rows : after.rows.Sublist before.rows) : Effect services options now request before after operation
  | renames {file : LogFile} (files : after.files = removeFile file before.files ++ [file])
      (rows : after.rows = before.rows) (asked : request.isSome) :
      Effect services options now request before after (.rename file)
  | records {asked : Request} (files : after.files = before.files)
      (rows : after.rows = recordRequest services options now asked before.rows)
      (requested : request = some asked) : Effect services options now request before after .record

theorem execute_effect [DecidableEq Hash] (services : Services Hash) (options : Options) (now : Moment)
    (request : Option Request) (operation : Operation Hash) (rest : List (Operation Hash))
    (world : World Hash) :
    Effect services options now request world
      (execute services options now request operation rest world).1 operation := by
  cases operation with
  | remove file => exact .prunes (removeFile_sublist _ _) (.refl _)
  | expire => exact .prunes (.refl _) (expireRows_sublist _ _ _)
  | rename file =>
    cases request with
    | none => exact .prunes (.refl _) (.refl _)
    | some request => exact .renames rfl rfl rfl
  | record =>
    cases request with
    | none => exact .prunes (.refl _) (.refl _)
    | some request => exact .records rfl rfl rfl
  | maintenance => exact .prunes (.refl _) (.refl _)
  | stamp => exact .prunes (.refl _) (.refl _)
  | _ =>
    cases request with
    | none => exact .prunes (.refl _) (.refl _)
    | some request => exact .prunes (.refl _) (.refl _)

variable {operation : Operation Hash} {before after : World Hash}

theorem Effect.loses {now : Moment} {request : Option Request} {client batch : Text}
    (effect : Effect services options now request before after operation)
    (digest : digestId batch = true)
    (stores : ∀ asked file, request = some asked → operation = .rename file →
      Stores asked file ∧ digestId asked.batch = true)
    (different : ∀ asked, request = some asked → ¬ (client = asked.client ∧ batch = asked.batch)) :
    Loses before after client batch := by
  cases effect with
  | prunes files rows => exact .of_sublists files rows client batch
  | @renames file files rows some =>
    obtain ⟨asked, rfl⟩ := Option.isSome_iff_exists.mp some
    obtain ⟨stored, requested⟩ := stores asked file rfl rfl
    have elsewhere : file.holds client batch = false := by
      cases holds : file.holds client batch with
      | false => rfl
      | true => exact absurd (stored.eq_of_holds requested digest holds) (different asked rfl)
    constructor
    · simp only [World.logs, files, List.filter_append, List.filter_cons_of_neg, elsewhere,
        List.filter_nil, List.append_nil, Bool.false_eq_true, not_false_eq_true]
      exact (removeFile_sublist file before.files).filter _
    · rw [World.receipts, rows]
      exact .refl _
  | @records asked files rows requested =>
    constructor
    · rw [World.logs, files]
      exact .refl _
    · rw [World.receipts, rows]
      exact recordRequest_sublist now asked before.rows (different asked requested)

/-! ## How far a thread is -/

def Found (services : Services Hash) (world : World Hash) (request : Request) :
    Option (Option (Binding Hash)) → Prop
  | none => world.receipts request.client request.batch = []
  | some none => Unbound world request.client request.batch
  | some (some binding) => Agrees services world request.client request.batch binding

def Operation.settles : Operation Hash → Bool
  | .lockClient | .lookup | .inspect _ | .measure _ | .write | .reserve _ | .rename _ => false
  | _ => true

inductive Progress (services : Services Hash) (world : World Hash) (request : Request) :
    Bool → List (Operation Hash) → Prop where
  | waiting : Progress services world request false [.lockClient, .lookup]
  | locked : Progress services world request true [.lookup]
  | looked (found : Option (Option (Binding Hash))) (holds : Found services world request found) :
      Progress services world request true [.inspect found]
  | located (file : LogFile) (named : file.holds request.client request.batch = true)
      (only : ∀ other ∈ world.logs request.client request.batch, other = file)
      (unbound : Unbound world request.client request.batch) :
      Progress services world request true [.measure file]
  | writing (vacant : Vacant world request.client request.batch) :
      Progress services world request true [.write]
  | written (file : LogFile) (stores : Stores request file)
      (vacant : Vacant world request.client request.batch) :
      Progress services world request true [.lockStorage, .reserve file]
  | reserving (file : LogFile) (stores : Stores request file)
      (vacant : Vacant world request.client request.batch) :
      Progress services world request true [.reserve file]
  | removing (removed : List LogFile) (file : LogFile) (stores : Stores request file)
      (vacant : Vacant world request.client request.batch) :
      Progress services world request true (removed.map .remove ++ storeOperations file)
  | settled (operations : List (Operation Hash))
      (settles : ∀ operation ∈ operations, operation.settles = true)
      (agrees : .record ∈ operations →
        Agrees services world request.client request.batch (bindingOf services request.body)) :
      Progress services world request true operations

variable {request : Request} {found : Option (Option (Binding Hash))}

theorem Found.loses (holds : Found services before request found)
    (loses : Loses before after request.client request.batch) : Found services after request found := by
  match found, holds with
  | none, empty => exact List.sublist_nil.mp (Eq.subst empty loses.receipts)
  | some none, unbound => exact Unbound.loses unbound loses
  | some (some _), agrees => exact Agrees.loses agrees loses

variable {held : Bool} {operations : List (Operation Hash)}

theorem Progress.loses (progress : Progress services before request held operations)
    (loses : Loses before after request.client request.batch) :
    Progress services after request held operations := by
  cases progress with
  | waiting => exact .waiting
  | locked => exact .locked
  | looked found holds => exact .looked found (holds.loses loses)
  | located file named only unbound =>
    exact .located file named (fun other member => only other (loses.logs.subset member))
      (unbound.loses loses)
  | writing vacant => exact .writing (vacant.loses loses)
  | written file stores vacant => exact .written file stores (vacant.loses loses)
  | reserving file stores vacant => exact .reserving file stores (vacant.loses loses)
  | removing removed file stores vacant => exact .removing removed file stores (vacant.loses loses)
  | settled operations settles agrees =>
    exact .settled operations settles fun pending => (agrees pending).loses loses

variable {world : World Hash}

theorem Progress.waits
    (progress : Progress services world request false operations) : operations = [.lockClient, .lookup] := by
  cases progress
  rfl

variable {rest : List (Operation Hash)} {file : LogFile}

theorem Progress.of_rename (progress : Progress services world request held (.rename file :: rest)) :
    Stores request file ∧ Vacant world request.client request.batch := by
  generalize pending : (.rename file :: rest : List (Operation Hash)) = operations at progress
  cases progress with
  | removing removed stored stores vacant =>
    cases removed with
    | nil =>
      have equal : file = stored := by simpa [storeOperations] using (List.cons.inj pending).1
      exact ⟨equal ▸ stores, vacant⟩
    | cons first removed => simp at pending
  | settled _ settles _ =>
    have settled := settles (.rename file) (by simp [← pending])
    simp [Operation.settles] at settled
  | _ => simp at pending

theorem Progress.of_record (progress : Progress services world request held (.record :: rest)) :
    Agrees services world request.client request.batch (bindingOf services request.body) := by
  generalize pending : (.record :: rest : List (Operation Hash)) = operations at progress
  cases progress with
  | removing removed stored stores vacant => exact vacant.agrees _
  | settled _ _ agrees => exact agrees (by simp [← pending])
  | _ => simp at pending

section

variable {now : Moment}

theorem Vacant.logs_rename (vacant : Vacant before request.client request.batch)
    (stores : Stores request file) (files : after.files = removeFile file before.files ++ [file]) :
    after.logs request.client request.batch = [file] := by
  have removed : (removeFile file before.files).filter (fun other => other.holds request.client request.batch)
      = [] :=
    List.sublist_nil.mp (vacant.logs ▸ (removeFile_sublist file before.files).filter _)
  simp [World.logs, files, removed, stores.holds]

theorem Agrees.rename (vacant : Vacant before request.client request.batch)
    (stores : Stores request file) (files : after.files = removeFile file before.files ++ [file])
    (rows : after.rows = before.rows) :
    Agrees services after request.client request.batch (bindingOf services request.body) where
  logs := by
    intro other member
    rw [vacant.logs_rename stores files] at member
    rw [List.mem_singleton.mp member, stores.content]
  receipts := by
    intro row member
    rw [World.receipts, rows] at member
    have none := vacant.receipts
    rw [World.receipts] at none
    simp [none] at member

theorem Agrees.record
    (agrees : Agrees services before request.client request.batch (bindingOf services request.body))
    (files : after.files = before.files)
    (rows : after.rows = recordRequest services options now request before.rows) :
    Agrees services after request.client request.batch (bindingOf services request.body) where
  logs := by
    intro other member
    rw [World.logs, files] at member
    exact agrees.logs other member
  receipts := by
    intro row member binding bound
    rw [World.receipts, rows] at member
    obtain ⟨member, isFor⟩ := List.mem_filter.mp member
    rcases recordRequest_binding member isFor bound with new | ⟨old, present, same, old_bound⟩
    · exact new
    · exact agrees.receipts old (List.mem_filter.mpr ⟨present, same⟩) binding old_bound

theorem Kept.effect (kept : Kept services options before request.client request.batch)
    (fits : options.fits request.body.length)
    (progress : Progress services before request held (operation :: rest))
    (effect : Effect services options now (some request) before after operation) :
    Kept services options after request.client request.batch := by
  cases effect with
  | prunes files rows => exact kept.loses (.of_sublists files rows _ _)
  | renames files rows asked =>
    obtain ⟨stores, vacant⟩ := progress.of_rename
    have logs := vacant.logs_rename stores files
    have receipts : after.receipts request.client request.batch = [] := by
      rw [World.receipts, rows]
      exact vacant.receipts
    exact
      { singleLog := by simp [logs]
        singleReceipt := by simp [receipts]
        agree := ⟨_, Agrees.rename vacant stores files rows⟩
        logFits := by
          intro other member
          rw [logs] at member
          rw [List.mem_singleton.mp member, stores.content]
          exact fits
        receiptFits := by simp [receipts] }
  | records files rows requested =>
    cases requested
    have agrees := progress.of_record
    exact
      { singleLog := by
          rw [World.logs, files]
          exact kept.singleLog
        singleReceipt := by
          rw [World.receipts, rows]
          exact recordRequest_length now request before.rows kept.singleReceipt
        agree := ⟨_, agrees.record files rows⟩
        logFits := by
          intro other member
          rw [World.logs, files] at member
          exact kept.logFits other member
        receiptFits := by
          intro row member binding bound
          rw [(agrees.record files rows).receipts row member binding bound]
          exact fits }

end

section

theorem receipt_eq (world : World Hash) (client batch : Text) :
    receipt world.rows client batch = (world.receipts client batch).head?.map Row.binding := by
  rw [receipt, World.receipts, List.head?_filter]

theorem receipt_found (kept : Kept services options world request.client request.batch) :
    Found services world request (receipt world.rows request.client request.batch) := by
  rw [receipt_eq]
  cases rows : world.receipts request.client request.batch with
  | nil => exact rows
  | cons row others =>
    have alone : others = [] := by
      have single := kept.singleReceipt
      rw [rows] at single
      exact List.eq_nil_of_length_eq_zero (by simpa using single)
    subst alone
    simp only [List.head?_cons, Option.map_some]
    cases bound : row.binding with
    | none =>
      intro other member
      rw [rows] at member
      rw [List.mem_singleton.mp member]
      exact bound
    | some binding => exact kept.agrees (.inr ⟨row, by simp [rows], bound⟩)

variable {client batch : Text}

theorem findLog_mem (found : findLog client batch world.files = some file) : file ∈ world.logs client batch := by
  have member := List.mem_of_find?_eq_some found
  rw [logFiles, List.mem_insertionSort] at member
  have holds : file.holds client batch = true := by
    unfold findLog at found
    simpa using List.find?_some found
  exact List.mem_filter.mpr ⟨member, holds⟩

theorem findLog_none (missing : findLog client batch world.files = none) : world.logs client batch = [] := by
  apply List.filter_eq_nil_iff.mpr
  intro other member
  refine List.find?_eq_none.mp missing other ?_
  rw [logFiles, List.mem_insertionSort]
  exact member

theorem Kept.only (kept : Kept services options world request.client request.batch)
    (member : file ∈ world.logs request.client request.batch) :
    ∀ other ∈ world.logs request.client request.batch, other = file := by
  intro other present
  have single := kept.singleLog
  cases logs : world.logs request.client request.batch with
  | nil => simp [logs] at member
  | cons first rest =>
    rw [logs] at single
    have alone : rest = [] := List.eq_nil_of_length_eq_zero (by simpa using single)
    rw [logs, alone] at member present
    rw [List.mem_singleton.mp member, List.mem_singleton.mp present]

theorem LogFile.samePath_holds {other : LogFile} (same : file.samePath other = true)
    (holds : file.holds client batch = true) : other.holds client batch = true := by
  simp only [LogFile.samePath, Bool.and_eq_true, decide_eq_true_eq] at same
  simp only [LogFile.holds] at holds ⊢
  rw [← same.1, ← same.2]
  exact holds

end

section

variable [DecidableEq Hash]

theorem Progress.compare {expected : Binding Hash} {agreed : List (Operation Hash)}
    (settles : ∀ operation ∈ agreed, operation.settles = true)
    (agrees : Agrees services world request.client request.batch expected) :
    Progress services world request true (compare services options request expected agreed) := by
  unfold Collector.compare
  split
  · exact .settled _ (by simp [Operation.settles]) (by simp)
  · split
    · rename_i equal
      exact .settled _ settles fun _ => equal ▸ agrees
    · exact .settled _ (by simp [Operation.settles]) (by simp)

omit [DecidableEq Hash] in
theorem Progress.located_of_find (kept : Kept services options world request.client request.batch)
    (unbound : Unbound world request.client request.batch)
    (found : findLog request.client request.batch world.files = some file) :
    Progress services world request true [.measure file] :=
  .located file (List.mem_filter.mp (findLog_mem found)).2 (kept.only (findLog_mem found)) unbound

theorem Progress.inspect (kept : Kept services options world request.client request.batch)
    (holds : Found services world request found) :
    Progress services world request true (inspect services options request found world.files) := by
  cases located : findLog request.client request.batch world.files with
  | some file =>
    match found, holds with
    | some (some binding), agrees => exact .compare (by simp [Operation.settles]) agrees
    | some none, unbound =>
      simp only [Collector.inspect, located]
      exact .located_of_find kept unbound located
    | none, empty =>
      simp only [Collector.inspect, located]
      refine .located_of_find kept (fun row member => ?_) located
      rw [show world.receipts request.client request.batch = [] from empty] at member
      cases member
  | none =>
    have logs := findLog_none located
    match found, holds with
    | some (some binding), agrees => exact .compare (by simp [Operation.settles]) agrees
    | some none, unbound =>
      simp only [Collector.inspect, located]
      refine .settled _ (by simp [Operation.settles]) fun _ => ⟨by simp [logs], ?_⟩
      intro row member other bound
      rw [unbound row member] at bound
      cases bound
    | none, empty =>
      simp only [Collector.inspect, located]
      exact .writing ⟨logs, empty⟩

theorem Progress.measure (kept : Kept services options world request.client request.batch)
    (named : file.holds request.client request.batch = true) :
    Progress services world request true (measure services options request file world.files) := by
  unfold Collector.measure
  split
  · rename_i current found
    have member : current ∈ world.logs request.client request.batch :=
      List.mem_filter.mpr ⟨List.mem_of_find?_eq_some found,
        LogFile.samePath_holds (List.find?_some found) named⟩
    exact .compare (by simp [Operation.settles]) (kept.agrees (.inl ⟨current, member, rfl⟩))
  · exact .settled _ (by simp [Operation.settles]) (by simp)

omit [DecidableEq Hash] in
theorem settles_remove (removed : List LogFile) :
    ∀ operation ∈ removed.map (.remove : LogFile → Operation Hash),
      operation.settles = true ∧ operation ≠ .record := by
  intro operation member
  obtain ⟨file, _, rfl⟩ := List.mem_map.mp member
  exact ⟨rfl, nofun⟩

theorem execute_settles (services : Services Hash) (options : Options) (request : Request) (now : Moment)
    (operation : Operation Hash) (rest : List (Operation Hash)) (world : World Hash)
    (settles : operation.settles = true) (next : Operation Hash)
    (member : next ∈ (execute services options now (some request) operation rest world).2) :
    next ∈ rest ∨ (next.settles = true ∧ next ≠ .record) := by
  cases operation with
  | record =>
    simp only [execute] at member
    split at member
    · rcases List.mem_cons.mp member with rfl | member
      · exact .inr ⟨rfl, nofun⟩
      · exact .inl member
    · exact .inl member
  | prune =>
    simp only [execute] at member
    rcases List.mem_append.mp member with removes | member
    · exact .inr (settles_remove _ next removes)
    · exact .inl member
  | maintenance =>
    simp only [execute] at member
    split at member
    · simp only [List.append_assoc, List.mem_append, List.mem_cons, List.not_mem_nil, or_false] at member
      rcases member with removes | (rfl | rfl) | member
      · exact .inr (settles_remove _ next removes)
      · exact .inr ⟨rfl, nofun⟩
      · exact .inr ⟨rfl, nofun⟩
      · exact .inl member
    · exact .inl member
  | lockClient => simp [Operation.settles] at settles
  | lookup => simp [Operation.settles] at settles
  | inspect found => simp [Operation.settles] at settles
  | measure file => simp [Operation.settles] at settles
  | write => simp [Operation.settles] at settles
  | reserve file => simp [Operation.settles] at settles
  | rename file => simp [Operation.settles] at settles
  | _ => exact .inl member

omit [DecidableEq Hash] in
theorem Agrees.effect {now : Moment}
    (agrees : Agrees services before request.client request.batch (bindingOf services request.body))
    (settles : operation.settles = true)
    (effect : Effect services options now (some request) before after operation) :
    Agrees services after request.client request.batch (bindingOf services request.body) := by
  cases effect with
  | prunes files rows => exact agrees.loses (.of_sublists files rows _ _)
  | renames files rows asked => simp [Operation.settles] at settles
  | records files rows requested =>
    cases requested
    exact agrees.record files rows

theorem Progress.execute (now : Moment) (kept : Kept services options world request.client request.batch)
    (progress : Progress services world request held (operation :: rest)) :
    Progress services (execute services options now (some request) operation rest world).1 request true
      (execute services options now (some request) operation rest world).2 := by
  have effect := execute_effect services options now (some request) operation rest world
  generalize pending : operation :: rest = operations at progress
  cases progress with
  | waiting =>
    cases pending
    exact .locked
  | locked =>
    cases pending
    exact .looked _ (receipt_found kept)
  | looked found holds =>
    cases pending
    simp only [Collector.execute, List.append_nil]
    exact .inspect kept holds
  | located file named only unbound =>
    cases pending
    simp only [Collector.execute, List.append_nil]
    exact .measure kept named
  | writing vacant =>
    cases pending
    exact .written _ (newFile_stores services request now) vacant
  | written file stores vacant =>
    cases pending
    exact .reserving file stores vacant
  | reserving file stores vacant =>
    cases pending
    simp only [Collector.execute, List.append_nil]
    split
    · exact .removing _ file stores vacant
    · refine .settled _ (fun next member => ?_) fun recorded => vacant.agrees _
      rcases List.mem_append.mp member with removes | member
      · exact (settles_remove _ next removes).1
      · revert member
        simp +contextual [Operation.settles, or_imp]
  | removing removed file stores vacant =>
    cases removed with
    | nil =>
      obtain ⟨rfl, rfl⟩ := List.cons.inj pending
      refine .settled _ ?_ fun _ => ?_
      · simp [Collector.execute, maintenanceOperations, Operation.settles]
      · exact .rename vacant stores rfl rfl
    | cons first removed =>
      obtain ⟨rfl, rfl⟩ := List.cons.inj pending
      have lost : Loses world { world with files := removeFile first world.files }
          request.client request.batch :=
        ⟨(removeFile_sublist first world.files).filter _, .refl _⟩
      exact (Progress.removing removed file stores vacant).loses lost
  | settled _ settles agrees =>
    subst pending
    have settled := settles operation (by simp)
    have next := execute_settles services options request now operation rest world settled
    refine .settled _ (fun following member => ?_) fun recorded => ?_
    · rcases next following member with old | new
      · exact settles following (by simp [old])
      · exact new.1
    · rcases next .record recorded with old | new
      · exact (agrees (by simp [old])).effect settled effect
      · exact absurd rfl new.2

end

/-! ## Every reached world -/

def Event.id : Event → Nat
  | .stored id => id
  | .answered id _ => id

theorem Operation.events_id {id : Nat} {event : Event}
    (member : event ∈ operation.events id) : event.id = id := by
  cases operation with
  | rename file => rw [List.mem_singleton.mp member]; rfl
  | answer response => rw [List.mem_singleton.mp member]; rfl
  | _ => cases member

structure Thread.Sound (services : Services Hash) (options : Options) (world : World Hash)
    (thread : Thread Hash) (request : Request) : Prop where
  accepted : checkRequest options 0 request = none
  progress : Progress services world request thread.holdsClient thread.operations

structure Sound (services : Services Hash) (options : Options) (world : World Hash) : Prop where
  kept : ∀ client batch, digestId batch = true → Kept services options world client batch
  ids : (world.threads.map Thread.id).Nodup
  fresh : ∀ thread ∈ world.threads, thread.id < world.nextId
  logged : ∀ event ∈ world.log, event.id < world.nextId
  exclusive : ∀ first ∈ world.threads, ∀ second ∈ world.threads, first.holdsClient = true →
    second.holdsClient = true → first.client = second.client → first.id = second.id
  threads : ∀ thread ∈ world.threads, ∀ request, thread.request = some request →
    thread.Sound services options world request

theorem checkRequest_none {authentication : Nat}
    (accepted : checkRequest options authentication request = none) :
    authentication = 0 ∧ digestId request.batch = true ∧ options.fits request.body.length := by
  simp only [checkRequest] at accepted
  split at accepted
  · cases accepted
  · rename_i authenticated
    split at accepted
    · cases accepted
    · split at accepted
      · cases accepted
      · split at accepted
        · cases accepted
        · rename_i digest
          split at accepted
          · cases accepted
          · rename_i sized
            simp only [Bool.or_eq_true, decide_eq_true_eq, not_or, Nat.not_lt] at sized
            exact ⟨by omega, by simpa using digest, List.length_pos_iff.mpr sized.1, sized.2⟩

theorem Sound.unique (sound : Sound services options world)
    {first second : Thread Hash} (one : first ∈ world.threads) (two : second ∈ world.threads)
    (same : first.id = second.id) : first = second :=
  List.inj_on_of_nodup_map sound.ids one two same

section

variable {now : Moment} {thread : Thread Hash}
 {operation : Operation Hash} {rest : List (Operation Hash)}

def Thread.advance (thread : Thread Hash) (operation : Operation Hash)
    (operations : List (Operation Hash)) : Thread Hash :=
  { thread with
    holdsClient := (thread.locks operation).1, holdsStorage := (thread.locks operation).2, operations }

structure Ran [DecidableEq Hash] (services : Services Hash) (options : Options) (now : Moment) (before : World Hash)
    (thread : Thread Hash) (operation : Operation Hash) (rest : List (Operation Hash))
    (after : World Hash) : Prop where
  effect : Effect services options now thread.request before after operation
  files : after.files = (execute services options now thread.request operation rest before).1.files
  rows : after.rows = (execute services options now thread.request operation rest before).1.rows
  nextId : after.nextId = before.nextId
  log : after.log = before.log ++ operation.events thread.id
  ids : (after.threads.map Thread.id).Sublist (before.threads.map Thread.id)
  threads : ∀ other ∈ after.threads, (other ∈ before.threads ∧ other.id ≠ thread.id) ∨
    (other = thread.advance operation
      (execute services options now thread.request operation rest before).2 ∧
      (execute services options now thread.request operation rest before).2 ≠ [])
  continues : thread ∈ before.threads →
    (execute services options now thread.request operation rest before).2 ≠ [] →
    thread.advance operation (execute services options now thread.request operation rest before).2 ∈
      after.threads

theorem execute_nextId [DecidableEq Hash] (services : Services Hash) (options : Options) (now : Moment)
    (request : Option Request) (operation : Operation Hash) (rest : List (Operation Hash))
    (world : World Hash) :
    (execute services options now request operation rest world).1.nextId = world.nextId := by
  cases operation with
  | remove file => rfl
  | expire => rfl
  | maintenance => rfl
  | stamp => rfl
  | _ =>
    cases request with
    | none => rfl
    | some request => rfl

theorem Effect.congr {middle : World Hash} {request : Option Request}
    (effect : Effect services options now request before middle operation)
    (files : after.files = middle.files) (rows : after.rows = middle.rows) :
    Effect services options now request before after operation := by
  cases effect with
  | prunes keptFiles keptRows => exact .prunes (files ▸ keptFiles) (rows ▸ keptRows)
  | renames newFiles sameRows asked => exact .renames (files.trans newFiles) (rows.trans sameRows) asked
  | records sameFiles newRows requested =>
    exact .records (files.trans sameFiles) (rows.trans newRows) requested

theorem replaceThread_ids (thread : Thread Hash) (threads : List (Thread Hash)) :
    (replaceThread thread threads).map Thread.id = threads.map Thread.id := by
  rw [replaceThread, List.map_map]
  refine List.map_congr_left fun other _ => ?_
  simp only [Function.comp_apply]
  split
  · rename_i same
    exact same.symm
  · rfl

theorem run_ran [DecidableEq Hash] (pending : thread.operations = operation :: rest) :
    Ran services options now before thread operation rest (before.run services options now thread) := by
  have effect := execute_effect services options now thread.request operation rest before
  have nextId := execute_nextId services options now thread.request operation rest before
  simp only [World.run, pending]
  split
  · rename_i finished
    refine ⟨effect.congr rfl rfl, rfl, rfl, nextId, rfl, List.filter_sublist.map _, ?_, ?_⟩
    · intro other member
      exact .inl (by simpa using List.mem_filter.mp member)
    · exact fun _ unfinished => absurd finished unfinished
  · rename_i unfinished
    refine ⟨effect.congr rfl rfl, rfl, rfl, nextId, rfl, ?_, ?_, fun member _ => ?_⟩
    · simp [replaceThread_ids]
    · intro other member
      obtain ⟨old, present, rfl⟩ := List.mem_map.mp member
      split
      · exact .inr ⟨rfl, unfinished⟩
      · rename_i different
        exact .inl ⟨present, different⟩
    · exact List.mem_map.mpr ⟨thread, member, if_pos rfl⟩

theorem Sound.ran_loses (sound : Sound services options before) (member : thread ∈ before.threads)
    (pending : thread.operations = operation :: rest)
    (effect : Effect services options now thread.request before after operation) {client batch : Text}
    (digest : digestId batch = true)
    (different : ∀ asked, thread.request = some asked → thread.holdsClient = true →
      ¬ (client = asked.client ∧ batch = asked.batch)) :
    Loses before after client batch := by
  by_cases locking : operation = .lockClient
  · subst locking
    cases effect with
    | prunes files rows => exact .of_sublists files rows client batch
  · refine effect.loses digest ?_ fun asked requested => different asked requested ?_
    · rintro asked file requested rfl
      have own := sound.threads thread member asked requested
      have progress := own.progress
      rw [pending] at progress
      exact ⟨progress.of_rename.1, (checkRequest_none own.accepted).2.1⟩
    · cases holding : thread.holdsClient with
      | true => rfl
      | false =>
        have progress := (sound.threads thread member asked requested).progress
        rw [holding, pending] at progress
        exact absurd (List.cons.inj progress.waits).1 locking

theorem Sound.ran_kept (sound : Sound services options before) (member : thread ∈ before.threads)
    (pending : thread.operations = operation :: rest)
    (effect : Effect services options now thread.request before after operation) (client batch : Text)
    (digest : digestId batch = true) : Kept services options after client batch := by
  by_cases own : ∃ asked, thread.request = some asked ∧ client = asked.client ∧ batch = asked.batch
  · obtain ⟨asked, requested, rfl, rfl⟩ := own
    have state := sound.threads thread member asked requested
    have progress := state.progress
    rw [pending] at progress
    rw [requested] at effect
    exact (sound.kept _ _ digest).effect (checkRequest_none state.accepted).2.2 progress effect
  · refine (sound.kept client batch digest).loses (sound.ran_loses member pending effect digest ?_)
    intro asked requested _ same
    exact own ⟨asked, requested, same⟩

variable {other : Thread Hash}

theorem Sound.ran_other (sound : Sound services options before) (member : thread ∈ before.threads)
    (pending : thread.operations = operation :: rest)
    (effect : Effect services options now thread.request before after operation)
    (present : other ∈ before.threads) (different : other.id ≠ thread.id)
    (wanted : other.request = some request) :
    other.Sound services options after request := by
  have state := sound.threads other present request wanted
  refine ⟨state.accepted, ?_⟩
  by_cases waits : other.holdsClient = false
  · have progress := state.progress
    rw [waits] at progress ⊢
    rw [progress.waits]
    exact .waiting
  · refine state.progress.loses
      (sound.ran_loses member pending effect (checkRequest_none state.accepted).2.1 ?_)
    rintro asked requested holding ⟨same, _⟩
    refine waits (Bool.eq_false_iff.mpr fun held => ?_)
    exact different (sound.exclusive other present thread member held holding
      (by simp [Thread.client, requested, wanted, same]))

theorem Sound.ran_own [DecidableEq Hash] (sound : Sound services options before)
    (member : thread ∈ before.threads) (pending : thread.operations = operation :: rest)
    (ran : Ran services options now before thread operation rest after)
    (requested : thread.request = some request) :
    Progress services after request true
      (execute services options now thread.request operation rest before).2 := by
  have state := sound.threads thread member request requested
  have progress := state.progress
  rw [pending] at progress
  have kept := sound.kept request.client request.batch (checkRequest_none state.accepted).2.1
  have next := progress.execute now kept
  rw [requested]
  refine next.loses (.of_eq ?_ ?_ _ _)
  · rw [ran.files, requested]
  · rw [ran.rows, requested]

theorem Thread.locks_client (thread : Thread Hash) (operation : Operation Hash) :
    (thread.locks operation).1 = true ↔ thread.holdsClient = true ∨ operation = .lockClient := by
  cases operation with
  | lockClient => simp [Thread.locks]
  | _ => simp [Thread.locks]

theorem enabled_lockClient (enabled : world.enabled thread = true)
    (pending : thread.operations = .lockClient :: rest)
    (present : other ∈ world.threads) (held : other.holdsClient = true) : other.client ≠ thread.client := by
  simp only [World.enabled, pending, Bool.not_eq_true', List.any_eq_false] at enabled
  intro same
  exact enabled other present (by simp [held, same])

section

variable (sound : Sound services options before)
include sound

theorem Sound.ran [DecidableEq Hash]
    (present : thread ∈ before.threads) (pending : thread.operations = operation :: rest)
    (enabled : before.enabled thread = true)
    (ran : Ran services options now before thread operation rest after) :
    Sound services options after where
  kept := sound.ran_kept present pending ran.effect
  ids := ran.ids.nodup sound.ids
  fresh := by
    intro other member
    rw [ran.nextId]
    rcases ran.threads other member with ⟨old, _⟩ | ⟨rfl, _⟩
    · exact sound.fresh other old
    · exact sound.fresh thread present
  logged := by
    intro event member
    rw [ran.nextId]
    rw [ran.log] at member
    rcases List.mem_append.mp member with old | new
    · exact sound.logged event old
    · rw [Operation.events_id new]
      exact sound.fresh thread present
  exclusive := by
    have apart (other : Thread Hash) (old : other ∈ before.threads) (held : other.holdsClient = true)
        (locked : (thread.locks operation).1 = true) (same : other.client = thread.client) :
        other.id = thread.id := by
      rcases (thread.locks_client operation).mp locked with holding | rfl
      · exact sound.exclusive other old thread present held holding same
      · exact absurd same (enabled_lockClient enabled pending old held)
    intro first one second two firstHolds secondHolds same
    rcases ran.threads first one with ⟨old, _⟩ | ⟨rfl, _⟩
    · rcases ran.threads second two with ⟨other, _⟩ | ⟨rfl, _⟩
      · exact sound.exclusive first old second other firstHolds secondHolds same
      · exact apart first old firstHolds secondHolds same
    · rcases ran.threads second two with ⟨other, _⟩ | ⟨rfl, _⟩
      · exact (apart second other secondHolds firstHolds same.symm).symm
      · rfl
  threads := by
    intro other member request wanted
    rcases ran.threads other member with ⟨old, different⟩ | ⟨rfl, _⟩
    · exact sound.ran_other present pending ran.effect old different wanted
    · have state := sound.threads thread present request wanted
      have locked : (thread.locks operation).1 = true := by
        refine (thread.locks_client operation).mpr ?_
        cases holding : thread.holdsClient with
        | true => exact .inl rfl
        | false =>
          have progress := state.progress
          rw [holding, pending] at progress
          exact .inr (List.cons.inj progress.waits).1
      refine ⟨state.accepted, ?_⟩
      simp only [Thread.advance, locked]
      exact sound.ran_own present pending ran wanted

theorem Sound.spawn (request : Option Request) (operations : List (Operation Hash))
    (waits : ∀ asked, request = some asked → checkRequest options 0 asked = none ∧
      operations = [.lockClient, .lookup]) :
    Sound services options (before.spawn request operations) where
  kept := fun client batch digest => (sound.kept client batch digest).loses ⟨.refl _, .refl _⟩
  ids := by
    simp only [World.spawn, List.map_append, List.map_cons, List.map_nil]
    refine List.Nodup.append sound.ids (List.nodup_singleton _) ?_
    intro id old new
    obtain ⟨thread, member, rfl⟩ := List.mem_map.mp old
    have bound := sound.fresh thread member
    rw [List.mem_singleton.mp new] at bound
    exact Nat.lt_irrefl _ bound
  fresh := by
    intro thread member
    rcases List.mem_append.mp member with old | new
    · exact Nat.lt_succ_of_lt (sound.fresh thread old)
    · rw [List.mem_singleton.mp new]
      exact Nat.lt_succ_self _
  logged := fun event member => Nat.lt_succ_of_lt (sound.logged event member)
  exclusive := by
    intro first one second two firstHolds secondHolds same
    rcases List.mem_append.mp one with old | new
    · rcases List.mem_append.mp two with other | new
      · exact sound.exclusive first old second other firstHolds secondHolds same
      · rw [List.mem_singleton.mp new] at secondHolds
        cases secondHolds
    · rw [List.mem_singleton.mp new] at firstHolds
      cases firstHolds
  threads := by
    intro thread member asked wanted
    rcases List.mem_append.mp member with old | new
    · have state := sound.threads thread old asked wanted
      exact ⟨state.accepted, state.progress.loses ⟨.refl _, .refl _⟩⟩
    · rw [List.mem_singleton.mp new] at wanted ⊢
      obtain ⟨accepted, rfl⟩ := waits asked wanted
      exact ⟨accepted, .waiting⟩

theorem Sound.refuse (status : Nat) :
    Sound services options (before.refuse status) :=
  { sound with
    kept := fun client batch digest => (sound.kept client batch digest).loses ⟨.refl _, .refl _⟩
    fresh := fun thread member => Nat.lt_succ_of_lt (sound.fresh thread member)
    logged := by
      intro event member
      rcases List.mem_append.mp member with old | new
      · exact Nat.lt_succ_of_lt (sound.logged event old)
      · rw [List.mem_singleton.mp new]
        exact Nat.lt_succ_self _
    threads := by
      intro thread member asked wanted
      have state := sound.threads thread member asked wanted
      exact ⟨state.accepted, state.progress.loses ⟨.refl _, .refl _⟩⟩ }

end

inductive Moves [DecidableEq Hash] (services : Services Hash) (options : Options) (before : World Hash) :
    World Hash → Prop where
  | idles : Moves services options before before
  | refuses (status : Nat) : Moves services options before (before.refuse status)
  | spawns (request : Option Request) (operations : List (Operation Hash))
      (waits : ∀ asked, request = some asked → checkRequest options 0 asked = none ∧
        operations = [.lockClient, .lookup]) :
      Moves services options before (before.spawn request operations)
  | runs {after : World Hash} {now : Moment} {thread : Thread Hash} {operation : Operation Hash}
      {rest : List (Operation Hash)} (member : thread ∈ before.threads)
      (pending : thread.operations = operation :: rest) (enabled : before.enabled thread = true)
      (ran : Ran services options now before thread operation rest after) :
      Moves services options before after
  | stops : Moves services options before { before with threads := [], recordings := 0 }

theorem find_some {id : Nat} (found : world.find id = some thread) :
    thread ∈ world.threads ∧ thread.id = id := by
  unfold World.find at found
  exact ⟨List.mem_of_find?_eq_some found, by simpa using List.find?_some found⟩

variable [DecidableEq Hash]

theorem step_moves (services : Services Hash) (options : Options) (before : World Hash) (label : Label) :
    Moves services options before (step services options before label) := by
  cases label with
  | arrive authentication bootstraps request =>
    simp only [step, World.arrive]
    split
    · exact .refuses _
    · rename_i accepted
      split
      · exact .refuses 503
      · refine .spawns (some request) _ fun asked same => ?_
        cases same
        have authenticated := (checkRequest_none accepted).1
        subst authenticated
        exact ⟨accepted, rfl⟩
  | maintain => exact .spawns none _ nofun
  | stop => exact .stops
  | run id now =>
    simp only [step]
    cases found : before.find id with
    | none => exact .idles
    | some thread =>
      simp only []
      split
      · rename_i enabled
        cases pending : thread.operations with
        | nil => simp [World.enabled, pending] at enabled
        | cons operation rest => exact .runs (find_some found).1 pending enabled (run_ran pending)
      · exact .idles

theorem Sound.moves (sound : Sound services options before)
    (moves : Moves services options before after) : Sound services options after := by
  cases moves with
  | idles => exact sound
  | refuses status => exact sound.refuse status
  | spawns request operations waits => exact sound.spawn request operations waits
  | runs member pending enabled ran => exact sound.ran member pending enabled ran
  | stops =>
    exact
      { kept := fun client batch digest => (sound.kept client batch digest).loses ⟨.refl _, .refl _⟩
        ids := .nil
        fresh := nofun
        logged := sound.logged
        exclusive := nofun
        threads := nofun }

end

end Amnezia.Collector
