import Amnezia.Headless.UpdateRules

/-! # What the garbage collection may change -/

namespace Amnezia.Headless
open Lib Procedure

variable {Content α : Type} {world : World Content}

@[simp] theorem Pair.get_set_self (pair : Pair α) (name : ManagedFile) (value : α) :
    (pair.set name value).get name = value := by
  cases name <;> rfl

theorem Pair.get_set (pair : Pair α) (name other : ManagedFile) (value : α) :
    (pair.set name value).get other = if other = name then value else pair.get other := by
  cases name <;> cases other <;> rfl

namespace Disk

variable {disk : Disk Content} {directory other : DirectoryName} {name : ManagedFile}
variable {content : Option Content}

theorem lookup_setFile_of_ne (different : other ≠ directory) :
    (disk.setFile directory name content).directories.lookup other = disk.directories.lookup other := by
  unfold setFile
  cases disk.directories.lookup directory with
  | none => rfl
  | some files => exact AList.lookup_insert_ne different

variable {otherName : ManagedFile}

theorem file_setFile_of_ne (different : other ≠ directory) :
    (disk.setFile directory name content).file other otherName = disk.file other otherName := by
  unfold file
  rw [lookup_setFile_of_ne different]

variable {files : Pair (Option Content)}

theorem file_setFile (present : disk.directories.lookup directory = some files) (name other : ManagedFile)
    (content : Option Content) :
    (disk.setFile directory name content).file directory other =
      if other = name then content else disk.file directory other := by
  have changed : (disk.setFile directory name content).directories.lookup directory =
      some (files.set name content) := by
    simp only [setFile, present, AList.lookup_insert]
  simp only [file, changed, present, Option.bind_some, Pair.get_set]

theorem file_of_setFile_none {content : Content}
    (found : (disk.setFile directory name none).file other otherName = some content) :
    disk.file other otherName = some content := by
  by_cases same : other = directory
  · subst same
    cases present : disk.directories.lookup other with
    | none =>
      rw [setFile, present] at found
      exact found
    | some files =>
      rw [file_setFile present] at found
      split at found
      · contradiction
      · exact found
  · rwa [file_setFile_of_ne same] at found

theorem setFile_eq (disk : Disk Content) (directory : DirectoryName) (name : ManagedFile)
    (content : Option Content) :
    disk.setFile directory name content =
      { disk with directories := (disk.setFile directory name content).directories } := by
  unfold setFile
  cases disk.directories.lookup directory with
  | none => rfl
  | some files => rfl

theorem file_insert :
    file { disk with directories := disk.directories.insert directory files } other name =
      if other = directory then files.get name else disk.file other name := by
  unfold file
  split
  · next same =>
    subst same
    simp only [AList.lookup_insert, Option.bind_some]
  · next different => rw [AList.lookup_insert_ne different]

theorem pairIn_congr {other : Disk Content}
    (same : other.directories.lookup directory = disk.directories.lookup directory) :
    other.pairIn directory = disk.pairIn directory := by
  simp only [pairIn, file, same]

theorem lookup_of_fresh (fresh : disk.freshUuid ≤ directory.uuid) : disk.directories.lookup directory = none := by
  rw [AList.lookup_eq_none, AList.mem_keys]
  unfold freshUuid at fresh
  revert fresh
  induction disk.directories.keys with
  | nil => exact fun _ => List.not_mem_nil
  | cons first rest ih =>
    intro fresh
    rw [List.foldr_cons] at fresh
    rw [List.mem_cons, not_or]
    refine ⟨?_, ih (by omega)⟩
    rintro rfl
    omega

end Disk

def World.named (world : World Content) : List DirectoryName :=
  world.memory.rollbackDirectory.toList ++ world.memory.currentRollbackDirectory.toList ++
    (world.disk.journal.map Journal.directories).getD []

structure Collected (before after : World Content) : Prop where
  same : after = { before with disk := { before.disk with
    rollbackReceipt := after.disk.rollbackReceipt
    gcMarker := after.disk.gcMarker
    directories := after.disk.directories } }
  receipt : after.disk.rollbackReceipt = before.disk.rollbackReceipt ∨ after.disk.rollbackReceipt = none
  kept : ∀ directory ∈ before.named,
    after.disk.directories.lookup directory = before.disk.directories.lookup directory
  files : ∀ directory name content, after.disk.file directory name = some content →
    before.disk.file directory name = some content

namespace Collected

variable {later : World Content}

theorem refl (world : World Content) : Collected world world :=
  ⟨rfl, .inl rfl, fun _ _ => rfl, fun _ _ _ found => found⟩

theorem marker (collected : Collected world later) (change : Option (List Garbage)) :
    Collected world (later.onDisk fun disk => { disk with gcMarker := change }) :=
  { collected with
    same := by
      rw [collected.same]
      rfl }

theorem dropReceipt (collected : Collected world later) :
    Collected world (later.onDisk fun disk => { disk with rollbackReceipt := none }) :=
  { collected with
    same := by
      rw [collected.same]
      rfl
    receipt := .inr rfl }

variable {directory : DirectoryName}

theorem dropFile (collected : Collected world later)
    (unnamed : directory ∉ world.named) (name : ManagedFile) :
    Collected world (later.onDisk fun disk => disk.setFile directory name none) where
  same := by
    rw [collected.same, World.onDisk, Disk.setFile_eq]
  receipt := by
    rw [World.onDisk, Disk.setFile_eq]
    exact collected.receipt
  kept other listed := by
    rw [← collected.kept other listed]
    apply Disk.lookup_setFile_of_ne
    rintro rfl
    exact unnamed listed
  files other otherName content found :=
    collected.files other otherName content (Disk.file_of_setFile_none found)

theorem dropDirectory (collected : Collected world later) (unnamed : directory ∉ world.named) :
    Collected world (later.onDisk fun disk =>
      { disk with directories := disk.directories.erase directory }) where
  same := by
    rw [collected.same]
    rfl
  receipt := collected.receipt
  kept other listed := by
    rw [← collected.kept other listed]
    apply AList.lookup_erase_ne
    rintro rfl
    exact unnamed listed
  files other otherName content found := by
    apply collected.files
    simp only [World.onDisk, Disk.file] at found
    by_cases same : other = directory
    · rw [same, AList.lookup_erase] at found
      contradiction
    · rwa [AList.lookup_erase_ne same] at found

theorem trans {last : World Content} (first : Collected world later) (second : Collected later last) :
    Collected world last := by
  have named : later.named = world.named := by
    rw [first.same]
    rfl
  constructor
  case same =>
    rw [second.same, first.same]
  case receipt =>
    rcases second.receipt with kept | dropped
    · rw [kept]
      exact first.receipt
    · exact .inr dropped
  case kept =>
    intro directory listed
    rw [second.kept directory (named ▸ listed), first.kept directory listed]
  case files =>
    exact fun directory name content found =>
      first.files directory name content (second.files directory name content found)

end Collected

def Within (conditions : Conditions (World Content) Outcome) (property : World Content → Prop)
    (procedure : Action Content α) (world : World Content) : Prop :=
  Ensures (conditions.keeping property) procedure (fun _ => property) world

variable {conditions : Conditions (World Content) Outcome}

variable {start : World Content}

theorem writeGcMarker_within (paths : List Garbage)
    (collected : Collected start world) :
    Within conditions (Collected start) (writeGcMarker paths) world := by
  unfold Within writeGcMarker
  split
  · exact .pure collected
  · refine .bind (Ensures.inspect collected ?_ ?_)
    all_goals
      apply Ensures.commit
      all_goals first
        | exact collected
        | exact collected.marker _

theorem removeRecursively_within {directory : DirectoryName}
    (unnamed : directory ∉ start.named) (collected : Collected start world) :
    Within conditions (Collected start) (removeRecursively directory) world := by
  have removal (name : ManagedFile) {later : World Content} (here : Collected start later) :
      Within conditions (Collected start)
        (attempt fun disk => disk.setFile directory name none) later :=
    Ensures.attempt here (here.dropFile unnamed name) (here.dropFile unnamed name) here
  unfold removeRecursively
  refine .call (removal .amneziad collected) fun first later here => ?_
  refine .call (removal .amneziaCli here) fun second last there => ?_
  split
  · exact Ensures.attempt there (there.dropDirectory unnamed) (there.dropDirectory unnamed) there
  · exact .pure there

theorem removeGarbage_within (path : Garbage) (collected : Collected start world) :
    Within conditions (Collected start) (removeGarbage start.named path) world := by
  cases path with
  | directory directory =>
    refine .bind (Ensures.look ?_)
    split
    · exact .pure collected
    · split
      · exact .pure collected
      · next unnamed => exact removeRecursively_within unnamed collected
  | rollbackReceipt =>
    refine .bind (Ensures.look ?_)
    split
    · exact .pure collected
    · exact Ensures.attempt collected collected.dropReceipt collected.dropReceipt collected

theorem removeAllGarbage_within (paths : List Garbage)
    (collected : Collected start world) :
    Within conditions (Collected start) (removeAllGarbage start.named paths) world := by
  induction paths generalizing world with
  | nil => exact .pure collected
  | cons path rest ih =>
    refine .call (removeGarbage_within path collected) fun removed later here => ?_
    exact .call (ih here) fun others last there => .pure there

theorem retireMarker_within (paths : List Garbage)
    (collected : Collected start world) :
    Within conditions (Collected start) (retireMarker paths) world := by
  refine .bind (Ensures.synchronize collected fun rootSynced => ?_)
  split
  · exact .pure collected
  · have removal : Within conditions (Collected start)
        (attempt fun disk => { disk with gcMarker := none }) world :=
      Ensures.attempt collected (collected.marker none) (collected.marker none) collected
    refine .call removal fun removed later here => ?_
    · split
      · exact .pure here
      · refine .bind (Ensures.synchronize here fun removalSynced => ?_)
        split
        · exact .pure here
        · exact .call (writeGcMarker_within paths here) fun _ last there => .pure there

theorem referencedDirectories_ensures (held : conditions.invariant world) :
    Ensures conditions referencedDirectories
      (fun referenced later => later = world ∧ (referenced = none ∨ referenced = some world.named)) world := by
  refine .bind (Ensures.consult (.bind (Ensures.look ?_)))
  cases present : world.disk.journal with
  | none => exact .pure ⟨rfl, .inr (by simp [World.named, present])⟩
  | some journal =>
    refine .bind (Ensures.inspect held (.pure ⟨rfl, .inr ?_⟩) (.pure ⟨rfl, .inl rfl⟩))
    simp [World.named, present]

theorem markedGarbage_ensures (held : conditions.invariant world) :
    Ensures conditions markedGarbage (fun _ later => later = world) world := by
  refine .bind (Ensures.look ?_)
  split
  · exact .pure rfl
  · exact Ensures.inspect held rfl rfl

theorem collectGarbage_within (world : World Content) :
    Within conditions (Collected world) collectGarbage world := by
  have collected := Collected.refl world
  refine .call (referencedDirectories_ensures collected) ?_
  rintro referenced later ⟨rfl, unreadable | rfl⟩
  · rw [unreadable]
    exact .pure collected
  · refine .call (markedGarbage_ensures collected) ?_
    rintro (_ | marked) later rfl
    · exact .pure collected
    · refine .bind (Ensures.look (.bind (Ensures.look ?_)))
      have recording (paths : List Garbage) (present : Bool) : Within conditions (Collected later)
          (if paths = [] then pure present else writeGcMarker paths) later := by
        split
        · exact .pure collected
        · exact writeGcMarker_within _ collected
      refine .call (recording _ _) fun recorded middle here => ?_
      · split
        · exact .pure here
        · refine .call (removeAllGarbage_within _ here) fun complete last there => ?_
          split
          · exact .pure there
          · exact retireMarker_within _ there

theorem collectGarbage_after (collected : Collected start world) :
    Within conditions (Collected start) collectGarbage world :=
  ((collectGarbage_within world).mono fun _ _ => collected.trans).weaken fun _ => collected.trans

theorem discardTransaction_within (transaction : DirectoryName) (world : World Content) :
    Within conditions (Collected world) (discardTransaction transaction) world := by
  have collected := Collected.refl world
  refine .bind (Ensures.look ?_)
  split
  · exact .pure collected
  · refine .call (writeGcMarker_within _ collected) fun marked later here => ?_
    split
    · exact collectGarbage_after here
    · exact .pure here

end Amnezia.Headless
