import Amnezia.Collector.Store

/-! # The file and the row of one batch -/

namespace Amnezia.Collector
open Lib

variable {Hash : Type} (services : Services Hash) (options : Options)

def World.logs (world : World Hash) (client batch : Text) : List LogFile :=
  world.files.filter fun file => file.holds client batch

def World.receipts (world : World Hash) (client batch : Text) : List (Row Hash) :=
  world.rows.filter fun row => row.isFor client batch

structure Loses (before after : World Hash) (client batch : Text) : Prop where
  logs : (after.logs client batch).Sublist (before.logs client batch)
  receipts : (after.receipts client batch).Sublist (before.receipts client batch)

def Options.fits (length : Nat) : Prop := 0 < length ∧ length ≤ options.uploadBytes

structure Agrees (world : World Hash) (client batch : Text) (binding : Binding Hash) : Prop where
  logs : ∀ file ∈ world.logs client batch, bindingOf services file.content = binding
  receipts : ∀ row ∈ world.receipts client batch, ∀ other, row.binding = some other → other = binding

structure Kept (world : World Hash) (client batch : Text) : Prop where
  singleLog : (world.logs client batch).length ≤ 1
  singleReceipt : (world.receipts client batch).length ≤ 1
  agree : ∃ binding, Agrees services world client batch binding
  logFits : ∀ file ∈ world.logs client batch, options.fits file.content.length
  receiptFits : ∀ row ∈ world.receipts client batch, ∀ binding, row.binding = some binding →
    options.fits binding.length

structure Vacant (world : World Hash) (client batch : Text) : Prop where
  logs : world.logs client batch = []
  receipts : world.receipts client batch = []

def Unbound (world : World Hash) (client batch : Text) : Prop :=
  ∀ row ∈ world.receipts client batch, row.binding = none

def Binds (world : World Hash) (client batch : Text) (binding : Binding Hash) : Prop :=
  (∃ file ∈ world.logs client batch, bindingOf services file.content = binding) ∨
    ∃ row ∈ world.receipts client batch, row.binding = some binding

instance [DecidableEq Hash] (world : World Hash) (client batch : Text) (binding : Binding Hash) :
    Decidable (Binds services world client batch binding) := inferInstanceAs (Decidable (_ ∨ _))

variable {services options}

section

variable {before after : World Hash} {client batch : Text} {binding : Binding Hash}

theorem Loses.of_eq (files : after.files = before.files) (rows : after.rows = before.rows)
    (client batch : Text) : Loses before after client batch := by
  constructor
  · rw [World.logs, World.logs, files]
  · rw [World.receipts, World.receipts, rows]

theorem Loses.of_sublists (files : after.files.Sublist before.files)
    (rows : after.rows.Sublist before.rows) (client batch : Text) : Loses before after client batch :=
  ⟨files.filter _, rows.filter _⟩

theorem Agrees.loses (agrees : Agrees services before client batch binding)
    (loses : Loses before after client batch) : Agrees services after client batch binding :=
  ⟨fun file member => agrees.logs file (loses.logs.subset member),
    fun row member => agrees.receipts row (loses.receipts.subset member)⟩

theorem Vacant.loses (vacant : Vacant before client batch) (loses : Loses before after client batch) :
    Vacant after client batch :=
  ⟨List.sublist_nil.mp (vacant.logs ▸ loses.logs),
    List.sublist_nil.mp (vacant.receipts ▸ loses.receipts)⟩

theorem Unbound.loses (unbound : Unbound before client batch) (loses : Loses before after client batch) :
    Unbound after client batch :=
  fun row member => unbound row (loses.receipts.subset member)

theorem Kept.loses (kept : Kept services options before client batch)
    (loses : Loses before after client batch) : Kept services options after client batch where
  singleLog := loses.logs.length_le.trans kept.singleLog
  singleReceipt := loses.receipts.length_le.trans kept.singleReceipt
  agree := by
    obtain ⟨binding, agrees⟩ := kept.agree
    exact ⟨binding, agrees.loses loses⟩
  logFits := fun file member => kept.logFits file (loses.logs.subset member)
  receiptFits := fun row member => kept.receiptFits row (loses.receipts.subset member)

theorem Vacant.agrees (vacant : Vacant before client batch) (binding : Binding Hash) :
    Agrees services before client batch binding :=
  ⟨by simp [vacant.logs], by simp [vacant.receipts]⟩

theorem Vacant.not_binds (vacant : Vacant before client batch) :
    ¬ Binds services before client batch binding := by
  simp [Binds, vacant.logs, vacant.receipts]

theorem Agrees.eq_of_binds (agrees : Agrees services before client batch binding) {other : Binding Hash}
    (binds : Binds services before client batch other) : other = binding := by
  rcases binds with ⟨file, member, rfl⟩ | ⟨row, member, bound⟩
  · exact agrees.logs file member
  · exact agrees.receipts row member other bound

theorem Kept.agrees (kept : Kept services options before client batch)
    (binds : Binds services before client batch binding) : Agrees services before client batch binding := by
  obtain ⟨expected, agrees⟩ := kept.agree
  rw [agrees.eq_of_binds binds]
  exact agrees

theorem Kept.fits (kept : Kept services options before client batch)
    (binds : Binds services before client batch binding) : options.fits binding.length := by
  rcases binds with ⟨file, member, rfl⟩ | ⟨row, member, bound⟩
  · exact kept.logFits file member
  · exact kept.receiptFits row member binding bound

end

variable {request : Request}

section

variable {client batch other : Text}

theorem suffix_length (batch : Text) : (suffix batch).length = batch.length + 5 := by
  simp [suffix]

theorem digestId_length (digest : digestId batch = true) : batch.length = 64 := by
  simp only [digestId, Bool.and_eq_true, decide_eq_true_eq] at digest
  exact digest.1

structure Stores (request : Request) (file : LogFile) : Prop where
  client : file.client = request.client
  content : file.content = request.body
  named : suffix request.batch <:+ file.name

theorem newFile_stores (services : Services Hash) (request : Request) (now : Moment) :
    Stores request (newFile services request now) where
  client := rfl
  content := rfl
  named := by
    simp only [newFile, fileName]
    exact List.suffix_append _ _

theorem Stores.holds {file : LogFile} (stores : Stores request file) :
    file.holds request.client request.batch = true := by
  simp [LogFile.holds, stores.client, List.isSuffixOf_iff_suffix, stores.named]

theorem Stores.eq_of_holds {file : LogFile} (stores : Stores request file)
    (requested : digestId request.batch = true) (digest : digestId batch = true)
    (holds : file.holds client batch = true) : client = request.client ∧ batch = request.batch := by
  simp only [LogFile.holds, Bool.and_eq_true, Bool.or_eq_true, decide_eq_true_eq,
    List.isSuffixOf_iff_suffix] at holds
  refine ⟨holds.1.symm.trans stores.client, ?_⟩
  have length := digestId_length digest
  have requestedLength := digestId_length requested
  rcases holds.2 with named | named
  · have long := stores.named.length_le
    rw [named, suffix_length] at long
    simp [length, requestedLength] at long
  · have equal : suffix batch = suffix request.batch :=
      List.IsSuffix.eq_of_length
        (List.suffix_of_suffix_length_le named stores.named (by simp [suffix_length, length, requestedLength]))
        (by simp [suffix_length, length, requestedLength])
    simpa [suffix] using equal

end

section

variable {rows : List (Row Hash)} {client batch : Text}

theorem keepNewest_sublist (limit : Nat) (chosen : Row Hash → Bool) (rows : List (Row Hash)) :
    (keepNewest limit chosen rows).Sublist rows := by
  unfold keepNewest
  have kept := (List.filter_sublist (l := rows.zipIdx)
    (p := fun entry => !chosen entry.1 ||
      (rows.zipIdx.filter fun other => chosen other.1 && newer other entry).length < limit)).map Prod.fst
  rwa [List.zipIdx_map_fst] at kept

theorem expireRows_sublist (options : Options) (now : Moment) (rows : List (Row Hash)) :
    (expireRows options now rows).Sublist rows :=
  (keepNewest_sublist _ _ _).trans List.filter_sublist

theorem removeFile_sublist (file : LogFile) (files : List LogFile) : (removeFile file files).Sublist files :=
  List.filter_sublist

theorem bindRow_isFor (owner other : Text) (binding : Binding Hash) (row : Row Hash) :
    (bindRow owner other binding row).isFor client batch = row.isFor client batch := by
  unfold bindRow
  split
  · rfl
  · rfl

variable {row : Row Hash} {binding : Binding Hash}

theorem bindRow_eq {owner other : Text}
    (different : row.isFor owner other = false) : bindRow owner other binding row = row := by
  simp [bindRow, different]

theorem Row.isFor_unique {owner other : Text} (first : row.isFor client batch = true)
    (second : row.isFor owner other = true) : client = owner ∧ batch = other := by
  simp only [Row.isFor, Bool.and_eq_true, decide_eq_true_eq] at first second
  exact ⟨first.1.symm.trans second.1, first.2.symm.trans second.2⟩

theorem recordRequest_sublist (now : Moment) (request : Request) (rows : List (Row Hash))
    (different : ¬ (client = request.client ∧ batch = request.batch)) :
    ((recordRequest services options now request rows).filter fun row => row.isFor client batch).Sublist
      (rows.filter fun row => row.isFor client batch) := by
  unfold recordRequest record
  refine ((keepNewest_sublist _ _ _).filter _).trans ?_
  have untouched (row : Row Hash) (isFor : row.isFor client batch = true) :
      row.isFor request.client request.batch = false := by
    cases same : row.isFor request.client request.batch with
    | false => rfl
    | true => exact absurd (Row.isFor_unique isFor same) different
  rw [List.filter_map]
  have keys : (fun row : Row Hash => row.isFor client batch) ∘
      bindRow request.client request.batch (bindingOf services request.body) =
        fun row => row.isFor client batch := by
    funext row
    exact bindRow_isFor _ _ _ _
  rw [keys]
  have inserted : (insertOrIgnore ⟨request.client, request.batch, now.seconds,
      some (bindingOf services request.body)⟩ rows).filter (fun row => row.isFor client batch) =
        rows.filter fun row => row.isFor client batch := by
    unfold insertOrIgnore
    split
    · rfl
    · have new : (⟨request.client, request.batch, now.seconds,
          some (bindingOf services request.body)⟩ : Row Hash).isFor client batch = false := by
        simp only [Row.isFor, Bool.and_eq_false_iff, decide_eq_false_iff_not]
        by_cases same : request.client = client
        · exact .inr fun equal => different ⟨same.symm, equal.symm⟩
        · exact .inl same
      simp [new]
  rw [inserted]
  have fixed : (rows.filter fun row => row.isFor client batch).map
      (bindRow request.client request.batch (bindingOf services request.body)) =
        rows.filter fun row => row.isFor client batch := by
    conv_rhs => rw [← List.map_id (rows.filter fun row => row.isFor client batch)]
    apply List.map_congr_left
    intro row member
    exact bindRow_eq (untouched row (List.mem_filter.mp member).2)
  rw [fixed]

theorem insertOrIgnore_length (row : Row Hash) (rows : List (Row Hash))
    (single : (rows.filter fun other => other.isFor row.client row.batch).length ≤ 1) :
    ((insertOrIgnore row rows).filter fun other => other.isFor row.client row.batch).length ≤ 1 := by
  unfold insertOrIgnore
  split
  · exact single
  · rename_i absent
    have none : (rows.filter fun other => other.isFor row.client row.batch) = [] := by
      apply List.filter_eq_nil_iff.mpr
      intro other member found
      exact absent (List.any_eq_true.mpr ⟨other, member, found⟩)
    rw [List.filter_append, none]
    exact List.length_filter_le _ _

theorem recordRequest_length (now : Moment) (request : Request) (rows : List (Row Hash))
    (single : (rows.filter fun row => row.isFor request.client request.batch).length ≤ 1) :
    ((recordRequest services options now request rows).filter fun row =>
      row.isFor request.client request.batch).length ≤ 1 := by
  unfold recordRequest record
  refine (((keepNewest_sublist _ _ _).filter _).length_le).trans ?_
  rw [List.filter_map, List.length_map]
  simp only [Function.comp_def, bindRow_isFor]
  exact insertOrIgnore_length ⟨request.client, request.batch, now.seconds,
    some (bindingOf services request.body)⟩ rows single

theorem recordRequest_binding {now : Moment} (member : row ∈ recordRequest services options now request rows)
    (isFor : row.isFor request.client request.batch = true)
    (bound : row.binding = some binding) :
    binding = bindingOf services request.body ∨
      ∃ old ∈ rows, old.isFor request.client request.batch = true ∧ old.binding = some binding := by
  unfold recordRequest record at member
  obtain ⟨old, inserted, rfl⟩ := List.mem_map.mp ((keepNewest_sublist _ _ _).subset member)
  rw [bindRow_isFor] at isFor
  unfold bindRow at bound
  split at bound
  · exact .inl (Option.some.inj bound).symm
  · unfold insertOrIgnore at inserted
    split at inserted
    · exact .inr ⟨old, inserted, isFor, bound⟩
    · rcases List.mem_append.mp inserted with present | new
      · exact .inr ⟨old, present, isFor, bound⟩
      · rw [List.mem_singleton.mp new] at bound
        exact .inl (Option.some.inj bound).symm

end

end Amnezia.Collector
