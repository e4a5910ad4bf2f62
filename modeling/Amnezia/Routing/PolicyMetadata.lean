import Amnezia.Lib.Runs
import Amnezia.Routing.SourceSites

/-! # Acceptance of a managed route policy -/

namespace Amnezia.Routing
open Lib JsonObject
open Ipc (trimmed utf16Size)

/-- The clocks, digests and number conversions that the policy calls. Times are in milliseconds. -/
structure PolicyReader where
  qt : Qt
  digest : JsonObject → String
  isoDateWithMs : String → Option Int
  isoDate : String → Option Int
  toLongLong : Rat → Int

structure Metadata where
  schemaVersion : Int := 1
  revision : String := ""
  revisionNumber : Int := -1
  versioned : Bool := false
  contentHash : String := ""
  declaredContentHash : String := ""
  contentMatchesDeclaration : Bool := true
  issuedAt : Option Int := none
  expiresAt : Option Int := none
  acceptedAt : Option Int := none
  source : String := ""
  trustState : String := "unsigned"
  deriving DecidableEq

variable (reader : PolicyReader)

def dateTimeFromJson : Json → Option Int
  | .string text => (reader.isoDateWithMs text).or (reader.isoDate text)
  | .number value =>
    let timestamp := reader.toLongLong value
    if timestamp > 100000000000 then some timestamp
    else if -9223372036854775808 ≤ timestamp * 1000 then some (timestamp * 1000)
    else none
  | _ => none

def firstValue (primary fallback : JsonObject) (keys : List String) : Option Json :=
  (keys.findSome? (find primary)).or (keys.findSome? (find fallback))

def canonicalRevisionNumber : Json → Option Int
  | .number value =>
    if value.den = 1 ∧ 1 ≤ value.num ∧ value.num ≤ 9007199254740991 then some value.num else none
  | _ => none

-- The empty string of the source is `none`.
def normalizedSha256 (value : String) : Option String :=
  let normalized := reader.qt.toLower (trimmed value.toList)
  if !"sha256:".toList.isPrefixOf normalized ∨ utf16Size normalized ≠ 71 then none
  else if (normalized.drop 7).all fun char => reader.qt.isDigit char || ('a' ≤ char && char ≤ 'f') then
    some (String.ofList normalized)
  else none

def sourceKeys : List String :=
  ["managedSplitTunnelExceptSourceSites", "managedSplitTunnelExceptSites", "serverExcept"]

def containsSourceSites (object : JsonObject) : Bool := sourceKeys.any (contains object)

def isSiteList (value : Json) : Bool := value.isObject || value.isArray

-- `Undefined` is as invalid as `null` here.
def sourceSitesValue (object : JsonObject) : Json :=
  ((sourceKeys.map (value object)).find? isSiteList).getD .null

def policyContent (sites : JsonObject) (forceEnabled : Bool) : JsonObject :=
  [("managedSplitTunnelExceptSourceSites", .object sites), ("managedSplitTunnelForceEnabled", .bool forceEnabled),
    ("schemaVersion", .number 1)]

def canonicalSourcePolicyContent (object : JsonObject) : JsonObject × Bool :=
  let sites := canonicalSourceSites reader.qt (sourceSitesValue object)
  (policyContent sites.1 ((value object "managedSplitTunnelForceEnabled").toBool false),
    containsSourceSites object && sites.2)

def contentHash (content : JsonObject) : String := "sha256:" ++ reader.digest content

def canonicalSourcePolicyHash (object : JsonObject) : String :=
  contentHash reader (canonicalSourcePolicyContent reader object).1

def schemaVersionOf (versioned : Bool) (policy payload : JsonObject) : Int :=
  let stored := if versioned then find policy "schemaVersion"
    else firstValue policy payload ["schemaVersion", "schema_version"]
  match stored with
  | none => 1
  | some (.number value) => if value.den = 1 then Json.toInt 0 (.number value) else 0
  | some (.string text) => if versioned then 0 else (Ipc.toInt text.toList).getD 0
  | some _ => 0

def readDeclaration (policy effective : JsonObject) : Except String Int := do
  let some revision := canonicalRevisionNumber (value policy "revision")
    | throw "policy revision must be a canonical positive integer"
  if !(value policy "content").isObject then throw "versioned policy has no canonical content"
  let content := object policy "content"
  if Json.toInt 0 (value content "schemaVersion") ≠ 1 ∨ !(value content "schemaVersion").isDouble ∨
      !contains content "managedSplitTunnelExceptSourceSites" ∨
      !(value content "managedSplitTunnelForceEnabled").isBool then
    throw "versioned policy content schema is invalid"
  let declared := canonicalSourcePolicyContent reader content
  if !declared.2 ∨ declared.1 ≠ effective then throw "policy content does not match effective source rules"
  if normalizedSha256 reader ((value policy "contentSha256").toString "") ≠ some (contentHash reader effective) then
    throw "policy content digest mismatch"
  return revision

def readIdentity (versioned : Bool) (policy effective : JsonObject) : Except String Metadata := do
  let hash := contentHash reader effective
  if versioned then do
    let revision ← readDeclaration reader policy effective
    return { versioned := true, revisionNumber := revision, revision := toString revision,
             contentHash := hash, declaredContentHash := hash }
  else return { revision := hash, contentHash := hash, declaredContentHash := hash }

def readTimes (versioned : Bool) (policy payload : JsonObject) (now : Int) :
    Except String (Option Int × Option Int) := do
  let issuedValue := firstValue policy payload ["issuedAt", "issued_at", "issued", "generatedAt"]
  let expiresValue := firstValue policy payload ["expiresAt", "expires_at", "expires"]
  let issuedAt := issuedValue.bind (dateTimeFromJson reader)
  let expiresAt := expiresValue.bind (dateTimeFromJson reader)
  if (issuedValue.isSome ∨ versioned) ∧ issuedAt = none then throw "invalid policy issue time"
  if (expiresValue.isSome ∨ versioned) ∧ expiresAt = none then throw "invalid policy expiry time"
  if issuedAt.any (· > now + 600000) then throw "policy issue time is in the future"
  if expiresAt.any (· ≤ now) then throw "policy is expired"
  if issuedAt.any fun issued => expiresAt.any (· ≤ issued) then throw "policy expiry is not after issue time"
  return (issuedAt, expiresAt)

def Metadata.currentHash (current : Metadata) : String :=
  if current.declaredContentHash = "" then current.contentHash else current.declaredContentHash

def compareWithCurrent (metadata current : Metadata) : Except String (Option Int) := do
  if current.versioned ∧ !metadata.versioned then throw "legacy policy cannot replace a versioned policy"
  if metadata.versioned ∧ current.versioned then
    if current.revisionNumber < 1 then throw "stored versioned policy revision is invalid"
    if metadata.revisionNumber < current.revisionNumber then throw "policy revision is older than last-known-good"
    if metadata.revisionNumber = current.revisionNumber then
      if current.currentHash ≠ "" ∧ metadata.declaredContentHash ≠ current.currentHash then
        throw "policy content changed without a new revision"
      if (current.issuedAt.isSome ∧ metadata.issuedAt ≠ current.issuedAt) ∨
          (current.expiresAt.isSome ∧ metadata.expiresAt ≠ current.expiresAt) then
        throw "policy lifecycle changed without a new revision"
      return current.acceptedAt
    else if current.issuedAt.any fun issued => metadata.issuedAt.any (· < issued) then
      throw "policy issue time is older than last-known-good"
    else return none
  else if !metadata.versioned ∧ !current.versioned then
    if metadata.declaredContentHash = current.currentHash ∧ current.acceptedAt.isSome then return current.acceptedAt
    else if current.issuedAt.isSome ∧ metadata.issuedAt = none then
      throw "policy without issue time would replace last-known-good"
    else if current.issuedAt.any fun issued => metadata.issuedAt.any (· < issued) then
      throw "policy is older than last-known-good"
    else return none
  else return none

def validateCandidate (payload : JsonObject) (currentLastKnownGood : Option Metadata) (now : Int) :
    Except String Metadata := do
  if contains payload "policy" ∧ !(value payload "policy").isObject then throw "invalid policy envelope"
  let versioned := contains payload "policy"
  let policy := object payload "policy"
  if schemaVersionOf versioned policy payload ≠ 1 then throw "unsupported policy schema version"
  let effective := canonicalSourcePolicyContent reader payload
  if !effective.2 then throw "invalid canonical source policy"
  let identity ← readIdentity reader versioned policy effective.1
  let (issuedAt, expiresAt) ← readTimes reader versioned policy payload now
  let metadata := { identity with issuedAt, expiresAt }
  match currentLastKnownGood with
  | none => return { metadata with acceptedAt := some now }
  | some current => do
      let acceptedAt ← compareWithCurrent metadata current
      return { metadata with acceptedAt := some (acceptedAt.getD now) }

variable {current : Option Metadata}

section Inversion

variable {reader}

theorem validateCandidate_ok {payload : JsonObject} {now : Int} {metadata : Metadata}
    (accepted : validateCandidate reader payload current now = .ok metadata) :
    (canonicalSourcePolicyContent reader payload).2 = true ∧
      ∃ identity times, readIdentity reader (contains payload "policy") (object payload "policy")
          (canonicalSourcePolicyContent reader payload).1 = .ok identity ∧
        readTimes reader (contains payload "policy") (object payload "policy") payload now = .ok times ∧
        ∃ kept, metadata = { identity with issuedAt := times.1, expiresAt := times.2, acceptedAt := some kept } ∧
          ∀ previous, current = some previous → ∃ keeps, compareWithCurrent
            { identity with issuedAt := times.1, expiresAt := times.2 } previous = .ok keeps := by
  unfold validateCandidate at accepted
  simp only [bind, Except.bind, throw, throwThe, MonadExceptOf.throw, pure, Except.pure] at accepted
  split at accepted
  · cases accepted
  split at accepted
  · cases accepted
  split at accepted
  · cases accepted
  next valid =>
  split at accepted
  · cases accepted
  next identity identified =>
  split at accepted
  · cases accepted
  next times timed =>
  refine ⟨by simpa using valid, identity, times, identified, timed, ?_⟩
  split at accepted
  · exact ⟨now, (Except.ok.inj accepted).symm, fun _ impossible => nomatch impossible⟩
  · next previous =>
    split at accepted
    · cases accepted
    next keeps compared =>
    refine ⟨keeps.getD now, (Except.ok.inj accepted).symm, fun other same => ?_⟩
    cases same
    exact ⟨keeps, compared⟩

theorem readIdentity_ok {versioned : Bool} {policy effective : JsonObject} {identity : Metadata}
    (read : readIdentity reader versioned policy effective = .ok identity) :
    identity.versioned = versioned ∧ identity.contentHash = contentHash reader effective ∧
      identity.declaredContentHash = contentHash reader effective := by
  unfold readIdentity at read
  cases versioned with
  | false =>
    cases read
    exact ⟨rfl, rfl, rfl⟩
  | true =>
    simp only [↓reduceIte, bind, Except.bind, pure, Except.pure] at read
    split at read
    · cases read
    · cases read
      exact ⟨rfl, rfl, rfl⟩

theorem readTimes_ok {versioned : Bool} {policy payload : JsonObject} {now : Int} {times : Option Int × Option Int}
    (read : readTimes reader versioned policy payload now = .ok times) :
    times.1 = (firstValue policy payload ["issuedAt", "issued_at", "issued", "generatedAt"]).bind
      (dateTimeFromJson reader) := by
  unfold readTimes at read
  simp only [bind, Except.bind, throw, throwThe, MonadExceptOf.throw, pure, Except.pure] at read
  split at read
  · cases read
  split at read
  · cases read
  split at read
  · cases read
  split at read
  · cases read
  split at read
  · cases read
  · cases read
    rfl

def notEarlier (first second : Option Int) : Bool := first.all fun time => second.any (time ≤ ·)

theorem compareWithCurrent_legacy {metadata current : Metadata} {keeps : Option Int}
    (compared : compareWithCurrent metadata current = .ok keeps) (legacy : metadata.versioned = false) :
    current.versioned = false ∧
      (metadata.declaredContentHash = current.currentHash ∨
        notEarlier current.issuedAt metadata.issuedAt = true) := by
  unfold compareWithCurrent at compared
  simp only [bind, Except.bind, throw, throwThe, MonadExceptOf.throw, pure, Except.pure, legacy] at compared
  cases former : current.versioned with
  | true =>
    rw [former, if_pos ⟨rfl, rfl⟩] at compared
    cases compared
  | false =>
    refine ⟨rfl, ?_⟩
    simp only [former, Bool.false_eq_true, false_and, ↓reduceIte, Bool.not_false, and_self] at compared
    split at compared
    · next same => exact .inl same.1
    split at compared
    · cases compared
    next present =>
    split at compared
    · cases compared
    next newer =>
    refine .inr ?_
    unfold notEarlier
    cases issued : current.issuedAt with
    | none => rfl
    | some time =>
      cases candidate : metadata.issuedAt with
      | none => exact absurd ⟨by rw [issued]; rfl, candidate⟩ present
      | some later =>
        rw [issued, candidate] at newer
        simpa using newer

end Inversion

structure Deliveries where
  current : Option Metadata
  accepted : List (JsonObject × Metadata)

def deliver (state : Deliveries) (delivery : JsonObject × Int) : Deliveries :=
  match validateCandidate reader delivery.1 state.current delivery.2 with
  | .ok metadata => ⟨some metadata, state.accepted ++ [(delivery.1, metadata)]⟩
  | .error _ => state

def IsLegacy (payload : JsonObject) : Prop := contains payload "policy" = false

def policyContentOf (payload : JsonObject) : JsonObject := (canonicalSourcePolicyContent reader payload).1

def issueTime (payload : JsonObject) : Option Int :=
  (firstValue [] payload ["issuedAt", "issued_at", "issued", "generatedAt"]).bind (dateTimeFromJson reader)

def NeverGoesBack (accepted : List (JsonObject × Metadata)) : Prop :=
  accepted.Pairwise fun earlier later =>
    policyContentOf reader earlier.1 ≠ policyContentOf reader later.1 →
      notEarlier earlier.2.issuedAt later.2.issuedAt = true

-- A policy with the content of the current one does not carry an earlier issue time, or none.
def KeepsIssueTime (state : Deliveries) (delivery : JsonObject × Int) : Prop :=
  ∀ current ∈ state.current,
    contentHash reader (policyContentOf reader delivery.1) = current.currentHash →
    notEarlier current.issuedAt (issueTime reader delivery.1) = true

section Sequences

variable {reader}

theorem notEarlier_trans {first second third : Option Int} (one : notEarlier first second = true)
    (two : notEarlier second third = true) : notEarlier first third = true := by
  unfold notEarlier at *
  cases first with
  | none => rfl
  | some time =>
    cases second with
    | none => cases one
    | some middle =>
      cases third with
      | none => cases two
      | some last =>
        have early : time ≤ middle := of_decide_eq_true one
        have late : middle ≤ last := of_decide_eq_true two
        exact decide_eq_true (Int.le_trans early late)

theorem issuedAt_of_accepted {payload : JsonObject} {now : Int} {metadata : Metadata}
    (legacy : IsLegacy payload) (accepted : validateCandidate reader payload current now = .ok metadata) :
    metadata.issuedAt = issueTime reader payload ∧
      ∀ previous, current = some previous →
        contentHash reader (policyContentOf reader payload) = previous.currentHash ∨
          notEarlier previous.issuedAt metadata.issuedAt = true := by
  obtain ⟨_, identity, times, identified, timed, kept, rfl, compared⟩ := validateCandidate_ok accepted
  have nothing : object payload "policy" = [] := by
    have missing : (payload.lookup "policy").isSome = false := legacy
    rw [Option.isSome_eq_false_iff, Option.isNone_iff_eq_none] at missing
    rw [JsonObject.object, JsonObject.value, missing]
    rfl
  rw [legacy] at identified timed
  rw [nothing] at timed
  obtain ⟨unversioned, _, declared⟩ := readIdentity_ok identified
  refine ⟨readTimes_ok timed, fun previous same => ?_⟩
  obtain ⟨keeps, compared⟩ := compared previous same
  rcases (compareWithCurrent_legacy compared unversioned).2 with equal | later
  · exact .inl (declared.symm.trans equal)
  · exact .inr later

structure Followed (state : Deliveries) : Prop where
  ordered : state.accepted.Pairwise fun earlier later => notEarlier earlier.2.issuedAt later.2.issuedAt = true
  current : ∀ policy ∈ state.accepted, ∃ metadata, state.current = some metadata ∧
    notEarlier policy.2.issuedAt metadata.issuedAt = true

theorem notEarlier_refl (time : Option Int) : notEarlier time time = true := by
  cases time with
  | none => rfl
  | some time => exact decide_eq_true (Int.le_refl time)

theorem deliver_followed {state : Deliveries} {delivery : JsonObject × Int} (followed : Followed state)
    (legacy : IsLegacy delivery.1) (keeps : KeepsIssueTime reader state delivery) :
    Followed (deliver reader state delivery) := by
  unfold deliver
  cases result : validateCandidate reader delivery.1 state.current delivery.2 with
  | error _ => exact followed
  | ok metadata =>
    obtain ⟨issued, compared⟩ := issuedAt_of_accepted legacy result
    have later : ∀ policy ∈ state.accepted, notEarlier policy.2.issuedAt metadata.issuedAt = true := by
      intro policy listed
      obtain ⟨previous, current, early⟩ := followed.current policy listed
      rcases compared previous current with same | late
      · exact notEarlier_trans early (issued ▸ keeps previous current same)
      · exact notEarlier_trans early late
    refine ⟨List.pairwise_append.mpr ⟨followed.ordered, List.pairwise_singleton _ _, ?_⟩, ?_⟩
    · intro policy listed last same
      rw [List.mem_singleton.mp same]
      exact later policy listed
    · intro policy listed
      refine ⟨metadata, rfl, ?_⟩
      rcases List.mem_append.mp listed with earlier | last
      · exact later policy earlier
      · rw [List.mem_singleton.mp last]
        exact notEarlier_refl _

theorem legacy_issue_time_never_goes_back (current : Option Metadata) (deliveries : List (JsonObject × Int))
    (steps : Along (deliver reader) (fun state delivery => IsLegacy delivery.1 ∧ KeepsIssueTime reader state delivery)
      ⟨current, []⟩ deliveries) :
    NeverGoesBack reader (deliveries.foldl (deliver reader) ⟨current, []⟩).accepted := by
  have start : Followed ⟨current, []⟩ := ⟨List.Pairwise.nil, fun _ listed => absurd listed List.not_mem_nil⟩
  have reached := (run_along steps).invariant (I := fun _ state => Followed state) ?_ [] start
  · apply List.Pairwise.imp _ reached.ordered
    exact fun later _ => later
  · rintro _ before delivery after followed ⟨rfl, legacy, keeps⟩
    exact deliver_followed followed legacy keeps

end Sequences

namespace Sample

def policyReader : PolicyReader where
  qt := asciiQt
  digest content := ",".intercalate ((object content "managedSplitTunnelExceptSourceSites").map Prod.fst)
  isoDateWithMs _ := none
  isoDate _ := none
  toLongLong value := value.num

def legacyPolicy (site : String) (issued : Option Rat) : JsonObject :=
  ("serverExcept", .object [(site, .string "")]) :: (issued.map fun time => ("issuedAt", .number time)).toList

def redelivered : List (JsonObject × Int) :=
  [(legacyPolicy "a.example" (some 2000), 5000000), (legacyPolicy "a.example" none, 5000001),
    (legacyPolicy "b.example" (some 1000), 5000002)]

def renewed : List (JsonObject × Int) :=
  [(legacyPolicy "a.example" (some 1000), 5000000), (legacyPolicy "a.example" (some 1000), 5000001),
    (legacyPolicy "b.example" (some 2000), 5000002)]

end Sample

theorem redelivery_forgets_issue_time :
    (∀ delivery ∈ Sample.redelivered, IsLegacy delivery.1) ∧
      ¬NeverGoesBack Sample.policyReader
        (Sample.redelivered.foldl (deliver Sample.policyReader) ⟨none, []⟩).accepted := by
  unfold IsLegacy NeverGoesBack
  decide +kernel

theorem legacy_issue_time_never_goes_back_sample :
    (Sample.renewed.foldl (deliver Sample.policyReader) ⟨none, []⟩).accepted.length = 3 ∧
      NeverGoesBack Sample.policyReader
        (Sample.renewed.foldl (deliver Sample.policyReader) ⟨none, []⟩).accepted := by
  refine ⟨by decide +kernel, ?_⟩
  refine legacy_issue_time_never_goes_back none _ ⟨⟨rfl, ?_⟩, ⟨rfl, ?_⟩, ⟨rfl, ?_⟩, trivial⟩
  · exact fun _ absent => nomatch absent
  · unfold KeepsIssueTime
    decide +kernel
  · unfold KeepsIssueTime
    decide +kernel

section Versions

variable {reader} {metadata previous : Metadata}

structure Supersedes (earlier later : Metadata) : Prop where
  versioned : later.versioned = true
  revision : earlier.revisionNumber ≤ later.revisionNumber
  unchanged : later.revisionNumber = earlier.revisionNumber → later.contentHash = earlier.contentHash ∧
    (earlier.issuedAt.isSome → later.issuedAt = earlier.issuedAt) ∧
    (earlier.expiresAt.isSome → later.expiresAt = earlier.expiresAt)

theorem Supersedes.trans {first second third : Metadata} (one : Supersedes first second)
    (two : Supersedes second third) : Supersedes first third := by
  have before := one.revision
  have after := two.revision
  refine ⟨two.versioned, Int.le_trans before after, fun same => ?_⟩
  obtain ⟨hash, issued, expires⟩ := one.unchanged (by omega)
  obtain ⟨hashAfter, issuedAfter, expiresAfter⟩ := two.unchanged (by omega)
  refine ⟨hashAfter.trans hash, fun known => ?_, fun known => ?_⟩
  · exact (issuedAfter (issued known ▸ known)).trans (issued known)
  · exact (expiresAfter (expires known ▸ known)).trans (expires known)

def Metadata.Hashed (metadata : Metadata) : Prop :=
  metadata.declaredContentHash = metadata.contentHash ∧ metadata.contentHash ≠ ""

theorem hashed_of_accepted {payload : JsonObject} {now : Int}
    (accepted : validateCandidate reader payload current now = .ok metadata) : metadata.Hashed := by
  obtain ⟨-, identity, times, identified, -, kept, rfl, -⟩ := validateCandidate_ok accepted
  obtain ⟨-, hash, declared⟩ := readIdentity_ok identified
  refine ⟨declared.trans hash.symm, fun empty => ?_⟩
  have filled := congrArg String.length (hash.symm.trans empty)
  rw [contentHash, String.length_append] at filled
  exact absurd filled (by simp)

theorem compareWithCurrent_versioned {keeps : Option Int}
    (compared : compareWithCurrent metadata previous = .ok keeps)
    (former : previous.versioned = true) (before : previous.Hashed) (after : metadata.Hashed) :
    Supersedes previous metadata := by
  have known : previous.currentHash = previous.contentHash := by
    rw [Metadata.currentHash, before.1, if_neg before.2]
  unfold compareWithCurrent at compared
  simp only [bind, Except.bind, throw, throwThe, MonadExceptOf.throw, pure, Except.pure, former, known,
    after.1] at compared
  cases versioned : metadata.versioned with
  | false => simp [versioned] at compared
  | true =>
    simp only [versioned, Bool.not_true, Bool.false_eq_true, and_false, ↓reduceIte, and_self] at compared
    split_ifs at compared with invalid older same changed moved
    · obtain ⟨issued, expires⟩ := not_or.mp moved
      refine ⟨versioned, Int.not_lt.mp older, fun _ => ⟨?_, ?_, ?_⟩⟩
      · exact not_ne_iff.mp fun differs => changed ⟨before.2, differs⟩
      · exact fun known => not_ne_iff.mp fun differs => issued ⟨known, differs⟩
      · exact fun known => not_ne_iff.mp fun differs => expires ⟨known, differs⟩
    · exact ⟨versioned, Int.not_lt.mp older, fun equal => absurd equal same⟩

structure Ordered (state : Deliveries) : Prop where
  pairs : state.accepted.Pairwise fun earlier later => earlier.2.versioned = true → Supersedes earlier.2 later.2
  current : ∀ policy ∈ state.accepted, policy.2.versioned = true →
    ∃ metadata, state.current = some metadata ∧ metadata.Hashed ∧ Supersedes policy.2 metadata

theorem deliver_ordered {state : Deliveries} {delivery : JsonObject × Int} (ordered : Ordered state) :
    Ordered (deliver reader state delivery) := by
  unfold deliver
  cases result : validateCandidate reader delivery.1 state.current delivery.2 with
  | error _ => exact ordered
  | ok metadata =>
    have hashed := hashed_of_accepted result
    have later : ∀ policy ∈ state.accepted, policy.2.versioned = true → Supersedes policy.2 metadata := by
      intro policy listed versioned
      obtain ⟨previous, current, known, superseded⟩ := ordered.current policy listed versioned
      obtain ⟨-, identity, times, -, -, kept, rfl, compared⟩ := validateCandidate_ok result
      obtain ⟨keeps, compared⟩ := compared previous current
      have next := compareWithCurrent_versioned compared superseded.versioned known hashed
      exact superseded.trans ⟨next.versioned, next.revision, next.unchanged⟩
    refine ⟨List.pairwise_append.mpr ⟨ordered.pairs, List.pairwise_singleton _ _, ?_⟩, ?_⟩
    · intro policy listed last same
      rw [List.mem_singleton.mp same]
      exact later policy listed
    · intro policy listed versioned
      refine ⟨metadata, rfl, hashed, ?_⟩
      rcases List.mem_append.mp listed with earlier | last
      · exact later policy earlier versioned
      · rw [List.mem_singleton.mp last] at versioned ⊢
        exact ⟨versioned, Int.le_refl _, fun _ => ⟨rfl, fun _ => rfl, fun _ => rfl⟩⟩

theorem versioned_policies_never_go_back (current : Option Metadata) (deliveries : List (JsonObject × Int)) :
    (deliveries.foldl (deliver reader) ⟨current, []⟩).accepted.Pairwise fun earlier later =>
      earlier.2.versioned = true → Supersedes earlier.2 later.2 := by
  have start : Ordered ⟨current, []⟩ := ⟨List.Pairwise.nil, fun _ listed => absurd listed List.not_mem_nil⟩
  have reached := (run_foldl (deliver reader) ⟨current, []⟩ deliveries).invariant (I := fun _ state => Ordered state)
    ?_ [] start
  · exact reached.pairs
  · rintro _ before delivery after ordered rfl
    exact deliver_ordered ordered

end Versions

end Amnezia.Routing
