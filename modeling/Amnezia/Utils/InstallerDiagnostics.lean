import Amnezia.Ipc.ProcessArguments
import Amnezia.Lib.Json
import Amnezia.Lib.Runs
import Mathlib.Data.List.Dedup
import Mathlib.Data.List.Sort

/-!
# Diagnostics of the Windows installer

`importDirectory` reports the records of the installer's log files and remembers which it has reported.
-/

namespace Amnezia.Utils.InstallerDiagnostics
open Lib Ipc

/-- Parsing, printing and hashing by Qt; times are milliseconds, and a digest is its hexadecimal text. -/
structure Qt (Digest : Type) where
  fromJson : Bytes → Option Json
  toJson : JsonObject → Bytes
  fromString : String → Option Int
  toString : Int → String
  hash : Bytes → Digest

variable {Digest : Type} (qt : Qt Digest)

def maximumBytes : Nat := 5 * 1024 * 1024

def maximumFiles : Nat := 20

def maximumSeen : Nat := 256

def fourteenDays : Int := 14 * 24 * 3600 * 1000

/-! ## `project` -/

def phases : List String :=
  ["installer-start", "existing-install-detected", "replacement-consent", "installation-started",
    "installation-finished", "installation-interrupted", "service-preflight", "service-preflight-restore",
    "service-journal-recovery", "service-journal-clear", "service-snapshot-root", "service-snapshot-transport",
    "legacy-uninstaller-start", "legacy-uninstaller-exit", "legacy-uninstaller-postcondition",
    "legacy-uninstaller-selection", "legacy-uninstaller-wait", "cleanup-verdict", "continuation-next",
    "continuation-commit"]

def failures : List String :=
  ["service-journal-persist-failed", "service-journal-invalid", "service-journal-clear-failed",
    "service-journal-service-query-failed", "service-journal-restore-failed",
    "service-config-snapshot-unavailable", "recovery-disarm-failed", "service-disable-failed",
    "elevated-service-query-failed", "service-query-failed", "service-deletion-pending",
    "admin-rights-unavailable"]

-- `(?:-|$)`
def ends (rest : Text) : Bool := rest.head? = some '-' || rest = [] || rest = ['\n']

-- `(?:-(unknown|[0-9]{1,5}))?(?:-|$)`; `-unknown` gives no exit code, as the hyphen alone does.
def failureExit (rest : Text) : Option Int :=
  let digits := (rest.drop 1).takeWhile Char.isDigit
  if rest.head? = some '-' ∧ digits.length ≤ 5 ∧ ends (rest.drop (1 + digits.length)) then
    match decimal digits with
    | some exitCode => if 65535 < exitCode then none else some exitCode
    | none => some (-1)
  else if ends rest then some (-1) else none

structure Verdict where
  result : String
  reason : String
  exitCode : Int := -1

def verdict (phase detail : String) : Option Verdict :=
  if detail ∈ ["complete", "prepared", "removed"] then some { result := "success", reason := "complete" }
  else if detail ∈ ["failed", "blocked", "multiple", "timeout-active", "present-stopped"] then
    some { result := "failure", reason := detail }
  else if detail ∈ ["installer", "accepted", "automatic"] then some { result := "observed", reason := detail }
  else if phase = "legacy-uninstaller-exit" then do
    let exitCode ← toInt detail.toList
    if exitCode < 0 ∨ 65535 < exitCode then none
    else some { result := if exitCode = 0 then "success" else "failure", reason := "process-exit", exitCode }
  else if detail = "1" ∨ detail = "0" then
    let result := if phase = "installation-interrupted" then "failure"
      else if phase = "installation-finished" then "success" else "observed"
    some { result, reason := "lifecycle" }
  else failures.findSome? fun reason =>
    if reason.toList <+: detail.toList then
      (failureExit (detail.toList.drop reason.length)).map fun exitCode => { result := "failure", reason, exitCode }
    else none

def detailText : Json → Option String
  | .string detail => some detail
  | .number value =>
    if value = (Json.number value).toInt (-1) then some (String.ofList (number ((Json.number value).toInt (-1))))
    else none
  | _ => none

def project (record : JsonObject) (now : Int) : Option JsonObject := do
  if record.find "schema" ≠ some (.number 1) ∨ !(record.value "utc").isString ∨ !(record.value "phase").isString
    then none
  let time ← qt.fromString (record.text "utc")
  if time < now - fourteenDays ∨ now + 3600 * 1000 < time ∨ record.text "phase" ∉ phases then none
  let detail ← detailText (record.value "detail")
  if 512 < utf16Size detail.toList then none
  let verdict ← verdict (record.text "phase") detail
  some ([("schema", .number 1), ("source_kind", .string "updater"), ("utc", .string (qt.toString time)),
    ("phase", .string (record.text "phase")), ("result", .string verdict.result),
    ("reason", .string verdict.reason)] ++
    (if 0 ≤ verdict.exitCode then [("exitCode", .number verdict.exitCode)] else []) ++
    ["isElevated", "isSystem"].filterMap fun key =>
      if (record.value key).isBool then some (key, record.value key) else none)

/-! ## `importDirectory` -/

structure File where
  path : String
  isSymLink : Bool
  lastModified : Int
  isReadable : Bool
  data : Bytes

structure Root where
  isDir : Bool
  isSymLink : Bool
  files : List File
  byTime : files.Pairwise fun first second => second.lastModified ≤ first.lastModified

def select (now : Int) : List File → Nat → Nat → List File
  | [], _, _ => []
  | file :: files, bytes, count =>
    if maximumFiles ≤ count then []
    else if file.isSymLink ∨ file.lastModified < now - fourteenDays ∨ 256 * 1024 < file.data.length then
      select now files bytes count
    else if maximumBytes < bytes + file.data.length then []
    else file :: select now files (bytes + file.data.length) (count + 1)

def newline : UInt8 := 10

def File.lines (file : File) : List Bytes :=
  if file.isReadable then (file.data.rdropWhile (· ≠ newline)).splitOn newline else []

def readLine (now : Int) (line : Bytes) : Option JsonObject :=
  if line = [] ∨ 4096 < line.length then none
  else match qt.fromJson line with
    | some (.object record) => project qt record now
    | _ => none

def insert (canonical : Bytes) (record : JsonObject) : List (Bytes × JsonObject) → List (Bytes × JsonObject)
  | [] => [(canonical, record)]
  | (other, value) :: records =>
    if canonical < other then (canonical, record) :: (other, value) :: records
    else if canonical = other then (canonical, record) :: records
    else (other, value) :: insert canonical record records

def earlier (first second : JsonObject) : Bool :=
  if first.value "utc" ≠ second.value "utc" then first.text "utc" < second.text "utc"
  else qt.toJson first < qt.toJson second

def keepLast {α : Type} (items : List α) : List α := items.drop (items.length - maximumSeen)

def newest (root : Root) (now : Int) : List JsonObject :=
  let read := (select now root.files 0 0).flatMap fun file => file.lines.filterMap (readLine qt now)
  let records := read.foldl (fun records record => insert (qt.toJson record) record records) []
  keepLast ((records.map Prod.snd).insertionSort fun first second => !earlier qt second first)

def identity (record : JsonObject) : Digest := qt.hash (qt.toJson record)

variable [DecidableEq Digest]

def remember : List JsonObject → List Digest → List JsonObject × List Digest
  | [], seen => ([], seen)
  | record :: records, seen =>
    if identity qt record ∈ seen then remember records seen
    else
      let later := remember records (keepLast (seen ++ [identity qt record]))
      (record :: later.1, later.2)

/-- How writing the settings ends; a failed write may have stored them. -/
inductive Sync where
  | written
  | failed (stored : Bool)

structure Call where
  root : Root
  now : Int
  unreadable : Bool := false
  sync : Sync := .written

structure Import (Digest : Type) where
  seen : List Digest
  emitted : List JsonObject
  imported : Int

def importDirectory (call : Call) (seen : List Digest) : Import Digest :=
  if !call.root.isDir || call.root.isSymLink then ⟨seen, [], 0⟩
  else if call.unreadable then ⟨seen, [], -1⟩
  else
    let remembered := remember qt (newest qt call.root call.now) (keepLast seen)
    match call.sync with
    | .written => ⟨remembered.2, remembered.1, remembered.1.length⟩
    | .failed stored => ⟨if stored then remembered.2 else seen, [], -1⟩

/-! ## Runs -/

structure World (Digest : Type) where
  seen : List Digest
  emitted : List JsonObject
  root : Root
  now : Int

def step (world : World Digest) (call : Call) : World Digest :=
  let result := importDirectory qt call world.seen
  ⟨result.seen, world.emitted ++ result.emitted, call.root, call.now⟩

def Root.GrowsTo (old new : Root) : Prop :=
  ∀ file ∈ old.files, ∃ later ∈ new.files, later.path = file.path ∧
    ∃ records, later.data = file.data ++ records ∧ (records = [] ∨ records.getLast? = some newline)

def Follows (world : World Digest) (call : Call) : Prop :=
  world.now ≤ call.now ∧ world.root.GrowsTo call.root

def Root.records (root : Root) (now : Int) : List JsonObject :=
  root.files.flatMap fun file => file.lines.filterMap (readLine qt now)

-- The different identities of the directory's records that the store does not hold.
def Root.unseen (root : Root) (now : Int) (seen : List Digest) : List Digest :=
  ((root.records qt now).map (identity qt)).dedup.filter (· ∉ seen)

def HasRoom (world : World Digest) (call : Call) : Prop :=
  world.seen.length + (call.root.unseen qt call.now world.seen).length ≤ maximumSeen

variable {qt}

theorem select_subset {now : Int} {files : List File} {bytes count : Nat} :
    select now files bytes count ⊆ files := by
  induction files generalizing bytes count with
  | nil => exact List.Subset.refl _
  | cons file files ih =>
    rw [select]
    split
    · exact List.nil_subset _
    · split
      · exact List.subset_cons_of_subset file ih
      · split
        · exact List.nil_subset _
        · exact List.cons_subset_cons file ih

omit [DecidableEq Digest] in
theorem mem_insert {canonical : Bytes} {record : JsonObject} {records : List (Bytes × JsonObject)}
    {entry : Bytes × JsonObject} (listed : entry ∈ insert canonical record records) :
    entry.2 = record ∨ entry ∈ records := by
  induction records with
  | nil => exact .inl (by rw [List.mem_singleton.mp listed])
  | cons first rest ih =>
    rw [insert] at listed
    split at listed
    · exact (List.mem_cons.mp listed).imp_left (congrArg Prod.snd)
    · split at listed
      · exact (List.mem_cons.mp listed).imp (congrArg Prod.snd) (List.mem_cons_of_mem _)
      · rcases List.mem_cons.mp listed with same | later
        · exact .inr (same ▸ List.mem_cons_self)
        · exact (ih later).imp_right (List.mem_cons_of_mem _)

omit [DecidableEq Digest] in
theorem newest_subset {root : Root} {now : Int} : newest qt root now ⊆ root.records qt now := by
  intro record listed
  have sorted := List.mem_of_mem_drop listed
  rw [List.mem_insertionSort, List.mem_map] at sorted
  obtain ⟨entry, inserted, rfl⟩ := sorted
  have read : ∀ (read : List JsonObject) (records : List (Bytes × JsonObject)),
      entry ∈ read.foldl (fun records record => insert (qt.toJson record) record records) records →
      entry.2 ∈ read ∨ entry ∈ records := by
    intro read
    induction read with
    | nil => exact fun _ => .inr
    | cons first rest ih =>
      intro records found
      rcases ih _ found with later | earlier
      · exact .inl (List.mem_cons_of_mem _ later)
      · refine (mem_insert earlier).imp_left fun same => ?_
        rw [same]
        exact List.mem_cons_self
  have line := (read _ _ inserted).resolve_right List.not_mem_nil
  rw [List.mem_flatMap] at line
  obtain ⟨file, chosen, line⟩ := line
  exact List.mem_flatMap.mpr ⟨file, select_subset chosen, line⟩

theorem unseen_lt {known seen : List Digest} {id : Digest} (listed : id ∈ known) (new : id ∉ seen) :
    (known.filter (· ∉ seen ++ [id])).length < (known.filter (· ∉ seen)).length := by
  have split : known.filter (· ∉ seen ++ [id]) = (known.filter (· ∉ seen)).filter (· ≠ id) := by
    rw [List.filter_filter]
    apply List.filter_congr
    intro other _
    simp [and_comm, not_or]
  rw [split]
  apply List.length_filter_lt_length_iff_exists.mpr
  exact ⟨id, List.mem_filter.mpr ⟨listed, by simpa using new⟩, by simp⟩

theorem keepLast_of_fits {α : Type} {items : List α} (fits : items.length ≤ maximumSeen) :
    keepLast items = items := by
  rw [keepLast, Nat.sub_eq_zero_of_le fits, List.drop_zero]

-- While the store has room for every identity that may come, nothing is removed from it.
theorem remember_fits {known : List Digest} {records : List JsonObject} {seen : List Digest}
    (listed : ∀ record ∈ records, identity qt record ∈ known)
    (room : seen.length + (known.filter (· ∉ seen)).length ≤ maximumSeen) :
    (remember qt records seen).2 = seen ++ (remember qt records seen).1.map (identity qt) ∧
      ∀ reported : List Digest, reported.Nodup → reported ⊆ seen →
        (reported ++ (remember qt records seen).1.map (identity qt)).Nodup := by
  induction records generalizing seen with
  | nil =>
    refine ⟨(List.append_nil _).symm, fun reported distinct _ => ?_⟩
    rwa [remember, List.map_nil, List.append_nil]
  | cons record records ih =>
    obtain ⟨here, rest⟩ := List.forall_mem_cons.mp listed
    rw [remember]
    split
    · exact ih rest room
    · next new =>
      have fewer := unseen_lt here new
      have longer : (seen ++ [identity qt record]).length = seen.length + 1 := List.length_append
      have fits : keepLast (seen ++ [identity qt record]) = seen ++ [identity qt record] :=
        keepLast_of_fits (by omega)
      rw [fits]
      have enough : (seen ++ [identity qt record]).length +
          (known.filter (· ∉ seen ++ [identity qt record])).length ≤ maximumSeen := by omega
      obtain ⟨grown, later⟩ := ih rest enough
      refine ⟨by rw [grown, List.append_assoc]; rfl, fun reported distinct known => ?_⟩
      have both := distinct.concat fun again => new (known again)
      rw [List.concat_eq_append] at both
      rw [List.map_cons, List.append_cons]
      exact later _ both (List.append_subset.mpr ⟨fun id listed => List.mem_append_left _ (known listed),
        List.subset_append_right _ _⟩)

/-- No two reported records have one identity, and every one of them is remembered. -/
structure Remembered (qt : Qt Digest) (world : World Digest) : Prop where
  distinct : (world.emitted.map (identity qt)).Nodup
  known : world.emitted.map (identity qt) ⊆ world.seen

theorem Remembered.step {world : World Digest} {call : Call} (remembered : Remembered qt world)
    (room : HasRoom qt world call) : Remembered qt (step qt world call) := by
  have listed : ∀ record ∈ newest qt call.root call.now,
      identity qt record ∈ ((call.root.records qt call.now).map (identity qt)).dedup :=
    fun record found => List.mem_dedup.mpr (List.mem_map_of_mem (newest_subset found))
  obtain ⟨grown, distinct⟩ := remember_fits listed room
  have fits : keepLast world.seen = world.seen := keepLast_of_fits (Nat.le_of_add_right_le room)
  have silent {seen : List Digest} (kept : world.seen ⊆ seen) :
      Remembered qt ⟨seen, world.emitted ++ [], call.root, call.now⟩ := by
    rw [List.append_nil]
    exact ⟨remembered.distinct, List.Subset.trans remembered.known kept⟩
  have wider := List.subset_append_left world.seen
    ((remember qt (newest qt call.root call.now) world.seen).1.map (identity qt))
  simp only [InstallerDiagnostics.step, importDirectory, fits, grown]
  split
  · exact silent (List.Subset.refl _)
  · split
    · exact silent (List.Subset.refl _)
    · cases call.sync with
      | written =>
        refine ⟨?_, ?_⟩
        · simp only [List.map_append]
          exact distinct _ remembered.distinct remembered.known
        · simp only [List.map_append]
          exact List.append_subset.mpr ⟨List.Subset.trans remembered.known wider, List.subset_append_right _ _⟩
      | failed stored =>
        cases stored with
        | false => exact silent (List.Subset.refl _)
        | true => exact silent wider

theorem diagnostics_reported_once {start world : World Digest} {calls : List Call} (initial : start.emitted = [])
    (run : Run (fun before call after => after = step qt before call ∧ Follows before call ∧
      HasRoom qt before call) start calls world) : world.emitted.Nodup := by
  have kept : ∀ past before call after, Remembered qt before →
      after = step qt before call ∧ Follows before call ∧ HasRoom qt before call →
      (fun (_ : List Call) after => Remembered qt after) (past ++ [call]) after := by
    rintro past before call after remembered ⟨rfl, -, room⟩
    exact remembered.step room
  have first : Remembered qt start := by
    refine ⟨?_, ?_⟩
    · rw [initial]
      exact List.nodup_nil
    · rw [initial]
      exact List.nil_subset _
  exact (run.invariant kept [] first).distinct.of_map

/-! ## A record that is forgotten -/

namespace Sample

-- A line of two bytes is a record of the time they spell.
def time (line : Bytes) : Nat := line.foldl (fun time byte => time * 16 + (byte.toNat - 16)) 0

def line (time : Nat) : Bytes := [UInt8.ofNat (16 + time / 16), UInt8.ofNat (16 + time % 16)]

def text (time : Int) : String := String.singleton (Char.ofNat time.toNat)

def utc (text : String) : Nat := (text.toList.headD 'A').toNat

def plainQt : Qt Nat where
  fromJson line := some (.object [("schema", .number 1), ("utc", .string (text (time line + 64))),
    ("phase", .string "installer-start"), ("detail", .string "installer")])
  toJson record := line (utc (record.text "utc") - 64)
  fromString text := some (utc text)
  toString := text
  hash := time

def call (times : List Nat) : Call where
  root := ⟨true, false, [⟨"installer-1.jsonl", false, 0, true, times.flatMap fun time => line time ++ [newline]⟩],
    by simp⟩
  now := 0

def start : World Nat := ⟨[], [], ⟨true, false, [], .nil⟩, 0⟩

-- The latest record, then 255 earlier ones, and then one more.
def latest : List Nat := [257]

def earlier : List Nat := (List.range' 1 255).reverse

def calls : List Call := [call latest, call (latest ++ earlier), call (latest ++ earlier ++ [256])]

theorem follows_start (times : List Nat) : Follows start (call times) :=
  ⟨Int.le_refl _, fun _ listed => absurd listed List.not_mem_nil⟩

theorem grows (times more : List Nat) : (call times).root.GrowsTo (call (times ++ more)).root := by
  rintro file listed
  obtain rfl := List.mem_singleton.mp listed
  refine ⟨_, List.mem_singleton_self _, rfl, more.flatMap fun time => line time ++ [newline], List.flatMap_append, ?_⟩
  rcases List.eq_nil_or_concat more with rfl | ⟨front, last, rfl⟩
  · exact .inl rfl
  · refine .inr ?_
    rw [List.concat_eq_append, List.flatMap_append, List.getLast?_append]
    rfl

theorem not_nodup_of_ends {records : List JsonObject}
    (ends : 1 < records.length ∧ records.head? = records.getLast?) : ¬ records.Nodup := by
  match records, ends with
  | record :: next :: rest, ⟨_, same⟩ =>
    rw [List.head?_cons, List.getLast?_cons_cons] at same
    exact fun distinct => (List.nodup_cons.mp distinct).1 (List.mem_of_getLast? same.symm)

end Sample

theorem diagnostics_reported_once_sample :
    ([Sample.call [257], Sample.call [257, 5]].foldl (step Sample.plainQt) Sample.start).emitted.length = 2 ∧
      ([Sample.call [257], Sample.call [257, 5]].foldl (step Sample.plainQt) Sample.start).emitted.Nodup := by
  have first : HasRoom Sample.plainQt Sample.start (Sample.call [257]) :=
    (by decide +kernel : _ + _ ≤ maximumSeen)
  have second : HasRoom Sample.plainQt (step Sample.plainQt Sample.start (Sample.call [257]))
      (Sample.call ([257] ++ [5])) := (by decide +kernel : _ + _ ≤ maximumSeen)
  refine ⟨by decide +kernel, diagnostics_reported_once rfl (run_along ⟨⟨?_, first⟩, ⟨⟨?_, ?_⟩, second⟩, trivial⟩)⟩
  · exact Sample.follows_start _
  · exact Int.le_refl _
  · exact Sample.grows _ _

theorem diagnostics_reported_again :
    Run (fun before call after => after = step Sample.plainQt before call ∧ Follows before call) Sample.start
        Sample.calls (Sample.calls.foldl (step Sample.plainQt) Sample.start) ∧
      ¬ (Sample.calls.foldl (step Sample.plainQt) Sample.start).emitted.Nodup := by
  refine ⟨run_along ⟨Sample.follows_start _, ⟨Int.le_refl _, ?_⟩, ⟨Int.le_refl _, ?_⟩, trivial⟩, ?_⟩
  · exact Sample.grows _ _
  · exact Sample.grows _ _
  · apply Sample.not_nodup_of_ends
    decide +kernel

end Amnezia.Utils.InstallerDiagnostics
