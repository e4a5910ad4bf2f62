import Amnezia.Routing.PolicyMetadata

/-! # The routing policy of a server -/

namespace Amnezia.Routing
open Lib JsonObject
open Ipc (Text)

structure Snapshot where
  sourceSites : JsonObject
  resolvedSites : JsonObject
  routes : List Text
  unresolvedSites : List String
  revision : String
  contentHash : String
  issuedAt : Option Int
  expiresAt : Option Int
  forceEnabled : Bool
  source : String
  metadata : Metadata

structure Failure where
  code : String
  message : String

variable (reader : PolicyReader)

def maximumPayloadBytes : Nat := 1024 * 1024

-- Without a list this is `QJsonValue()`, which is `null` and not undefined.
def firstSiteValue (payload : JsonObject) (keys : List String) : Option Json :=
  some (((keys.map (value payload)).find? isSiteList).getD .null)

def containsSiteValue (payload : JsonObject) : Bool :=
  (firstSiteValue payload ["server.except", "serverExcept", "managedSplitTunnelExceptSourceSites",
    "managedSplitTunnelExceptSites"]).isSome

structure SiteRoutes where
  routes : List Text := []
  unresolvedSites : List String := []
  isValid : Bool := true

def addSiteRoutes (found : SiteRoutes) (site : String × Json) : SiteRoutes :=
  match canonicalManagedIpv4Route reader.qt site.1.toList with
  | some route => { found with routes := found.routes ++ [route] }
  | none =>
    match validatedManagedRouteTokens reader.qt (site.2.toString "").toList with
    | none => { found with isValid := false }
    | some [] => { found with unresolvedSites := found.unresolvedSites ++ [site.1] }
    | some routes => { found with routes := found.routes ++ routes }

def sortTexts (texts : List Text) : List Text :=
  texts.mergeSort fun first second => !decide (String.ofList second < String.ofList first)

def routesFromSites (sites : JsonObject) : Option (List Text × List String) :=
  let found := sites.foldl (addSiteRoutes reader) {}
  match validatedManagedRoutes reader.qt found.routes with
  | none => none
  | some routes => if found.isValid then some (sortTexts routes.eraseDups, found.unresolvedSites) else none

def boundedSites (source candidate : JsonObject) : Option JsonObject :=
  if candidate.all fun site => contains source site.1 then
    some (candidate.foldl (fun bounded site => bounded.insert site.1 site.2) [])
  else none

def addLiteral (resolved : JsonObject) (site : String × Json) : JsonObject :=
  if (canonicalManagedIpv4Route reader.qt site.1.toList).isSome ∧ !contains resolved site.1 then
    resolved.insert site.1 site.2
  else resolved

def sourceValue (payload : JsonObject) : Json :=
  (firstSiteValue payload ["managedSplitTunnelExceptSourceSites", "managedSplitTunnelExceptSites", "server.except",
    "serverExcept"]).getD .null

def resolvedValue (payload : JsonObject) : Json :=
  (firstSiteValue payload ["server.except", "serverExcept", "managedSplitTunnelExceptSites",
    "managedSplitTunnelExceptSourceSites"]).getD .null

def parseObject (object : JsonObject) (current : Option Metadata) (source : String) (now : Int) :
    Except Failure Snapshot := do
  if !containsSiteValue object then
    throw ⟨"invalid_policy", "server routing policy has no managed site list"⟩
  let sourceSites := canonicalSourceSites reader.qt (sourceValue object)
  let resolvedCandidate := canonicalSourceSites reader.qt (resolvedValue object)
  if !sourceSites.2 ∨ !resolvedCandidate.2 then
    throw ⟨"invalid_policy", "managed site list is invalid or oversized"⟩
  let some bounded := boundedSites sourceSites.1 resolvedCandidate.1
    | throw ⟨"invalid_policy", "resolved managed sites are not bound to source sites"⟩
  let resolvedSites := sourceSites.1.foldl (addLiteral reader) bounded
  match validateCandidate reader object current now with
  | .error message => throw ⟨"stale_or_invalid_policy", message⟩
  | .ok metadata =>
    match routesFromSites reader resolvedSites with
    | none => throw ⟨"invalid_policy", "managed route list is invalid or oversized"⟩
    | some (routes, unresolvedSites) =>
      let forceValue := find object "managedSplitTunnelForceEnabled"
      if forceValue.any fun value => !value.isBool then
        throw ⟨"invalid_policy", "managed routing force flag is malformed"⟩
      else
        return {
          sourceSites := sourceSites.1, resolvedSites, routes, unresolvedSites
          revision := metadata.revision
          contentHash := metadata.contentHash
          issuedAt := metadata.issuedAt
          expiresAt := metadata.expiresAt
          forceEnabled := (forceValue.getD .null).toBool false
          source, metadata }

def parse (fromJson : List UInt8 → Option Json) (payload : List UInt8) (current : Option Metadata) (source : String)
    (now : Int) : Except Failure Snapshot :=
  if payload = [] ∨ payload.length > maximumPayloadBytes then
    throw ⟨"policy_too_large", "server routing policy exceeds the byte limit"⟩
  else
    match fromJson payload with
    | some (.object object) => parseObject reader object current source now
    | _ => throw ⟨"invalid_policy", "server routing policy is not a JSON object"⟩

section Keys

variable {reader}

theorem boundedSites_some {source candidate bounded : JsonObject}
    (same : boundedSites source candidate = some bounded) :
    ∀ key, contains bounded key = true → contains source key = true := by
  unfold boundedSites at same
  split at same
  · next all =>
    cases same
    have kept (sites start : JsonObject) (known : ∀ site ∈ sites, contains source site.1 = true)
        (initial : ∀ key, contains start key = true → contains source key = true) :
        ∀ key, contains (sites.foldl (fun bounded site => bounded.insert site.1 site.2) start) key = true →
          contains source key = true := by
      induction sites generalizing start with
      | nil => exact initial
      | cons site rest ih =>
        refine ih _ (fun other listed => known other (List.mem_cons_of_mem _ listed)) fun key present => ?_
        rcases contains_insert.mp present with rfl | old
        · exact known site List.mem_cons_self
        · exact initial key old
    exact kept candidate [] (List.all_eq_true.mp all) nofun
  · cases same

theorem contains_addLiteral {resolved : JsonObject} {site : String × Json} {key : String} :
    contains (addLiteral reader resolved site) key = true ↔ contains resolved key = true ∨
      (key = site.1 ∧ (canonicalManagedIpv4Route reader.qt site.1.toList).isSome = true) := by
  unfold addLiteral
  split
  · next literal =>
    rw [contains_insert]
    constructor
    · rintro (rfl | old)
      · exact .inr ⟨rfl, literal.1⟩
      · exact .inl old
    · rintro (old | ⟨rfl, _⟩)
      · exact .inr old
      · exact .inl rfl
  · next present =>
    refine ⟨.inl, ?_⟩
    rintro (old | ⟨rfl, isRoute⟩)
    · exact old
    · by_contra missing
      exact present ⟨isRoute, by simpa using missing⟩

variable {sites : JsonObject}

theorem contains_addLiterals {resolved : JsonObject} {key : String} :
    contains (sites.foldl (addLiteral reader) resolved) key = true ↔ contains resolved key = true ∨
      ∃ site ∈ sites, key = site.1 ∧ (canonicalManagedIpv4Route reader.qt site.1.toList).isSome = true := by
  induction sites generalizing resolved with
  | nil => simp
  | cons site rest ih =>
    rw [List.foldl_cons, ih, contains_addLiteral, or_assoc]
    simp only [List.mem_cons, exists_eq_or_imp]

theorem mem_addSiteRoutes {found : SiteRoutes} {route : Text}
    (present : route ∈ found.routes ∨
      ∃ site ∈ sites, canonicalManagedIpv4Route reader.qt site.1.toList = some route) :
    route ∈ (sites.foldl (addSiteRoutes reader) found).routes := by
  induction sites generalizing found with
  | nil =>
    rcases present with old | ⟨site, listed, _⟩
    · exact old
    · exact absurd listed List.not_mem_nil
  | cons site rest ih =>
    apply ih
    rcases present with old | ⟨other, listed, canonical⟩
    · refine .inl ?_
      unfold addSiteRoutes
      split
      · exact List.mem_append_left _ old
      · split
        · exact old
        · exact old
        · exact List.mem_append_left _ old
    · rcases List.mem_cons.mp listed with rfl | later
      · refine .inl ?_
        rw [addSiteRoutes, canonical]
        exact List.mem_append_right _ List.mem_cons_self
      · exact .inr ⟨other, later, canonical⟩

theorem eraseDups_of_nodup {texts : List Text} (distinct : texts.Nodup) : texts.eraseDups = texts := by
  induction texts with
  | nil => rfl
  | cons text rest ih =>
    obtain ⟨absent, later⟩ := List.nodup_cons.mp distinct
    have kept : rest.filter (fun other => !other == text) = rest := by
      refine List.filter_eq_self.mpr fun other listed => ?_
      have different : other ≠ text := fun same => absent (same ▸ listed)
      simpa using different
    rw [List.eraseDups_cons, kept, ih later]

theorem sortTexts_perm (texts : List Text) : (sortTexts texts).Perm texts := List.mergeSort_perm _ _

theorem sortTexts_sorted {texts : List Text} (distinct : texts.Nodup) :
    (sortTexts texts).Pairwise fun first second => String.ofList first < String.ofList second := by
  have ordered : (sortTexts texts).Pairwise
      fun first second => (!decide (String.ofList second < String.ofList first)) = true := by
    refine List.pairwise_mergeSort ?_ ?_ texts
    · intro first second third one two
      simp only [Bool.not_eq_true', decide_eq_false_iff_not, String.not_lt] at one two ⊢
      exact String.le_trans one two
    · intro first second
      simp only [Bool.or_eq_true, Bool.not_eq_true', decide_eq_false_iff_not, String.not_lt]
      exact String.le_total _ _
  have apart : (sortTexts texts).Nodup := (sortTexts_perm texts).nodup_iff.mpr distinct
  refine (ordered.and apart).imp ?_
  rintro first second ⟨notAbove, different⟩
  have notAbove : ¬String.ofList second < String.ofList first := by simpa using notAbove
  by_contra notBelow
  refine different (String.ofList_injective ?_)
  exact String.le_antisymm (String.not_lt.mp notAbove) (String.not_lt.mp notBelow)

theorem routesFromSites_some {routes : List Text} {unresolved : List String}
    (found : routesFromSites reader sites = some (routes, unresolved)) :
    (∀ site ∈ sites, ∀ route, canonicalManagedIpv4Route reader.qt site.1.toList = some route → route ∈ routes) ∧
      routes.Pairwise (fun first second => String.ofList first < String.ofList second) ∧
      ∀ route ∈ routes, isAllowedManagedIpv4Route reader.qt route = true := by
  unfold routesFromSites at found
  dsimp only at found
  split at found
  · cases found
  next collected validated =>
  split at found
  · cases found
    unfold validatedManagedRoutes at validated
    split at validated
    · cases validated
    obtain ⟨list, _, members⟩ := collectRoutes_some routeList_nil validated
    rw [eraseDups_of_nodup list.distinct]
    have same (route : Text) : route ∈ sortTexts collected ↔ route ∈ collected := (sortTexts_perm collected).mem_iff
    refine ⟨fun site listed route canonical => ?_, sortTexts_sorted list.distinct, fun route listed => ?_⟩
    · rw [same, members]
      refine .inr ⟨route, mem_addSiteRoutes (.inr ⟨site, listed, canonical⟩), canonical_canonical canonical⟩
    · exact allowed_of_canonical (list.canonical route ((same route).mp listed))
  · cases found

end Keys

structure SelfConsistent (snapshot : Snapshot) : Prop where
  hash : snapshot.contentHash = canonicalSourcePolicyHash reader
    [("managedSplitTunnelExceptSourceSites", .object snapshot.sourceSites),
      ("managedSplitTunnelForceEnabled", .bool snapshot.forceEnabled)]
  bound : ∀ key, contains snapshot.resolvedSites key = true → contains snapshot.sourceSites key = true
  literals : ∀ site ∈ snapshot.sourceSites, ∀ route,
    canonicalManagedIpv4Route reader.qt site.1.toList = some route → route ∈ snapshot.routes
  sorted : snapshot.routes.Pairwise fun first second => String.ofList first < String.ofList second
  allowed : ∀ route ∈ snapshot.routes, isAllowedManagedIpv4Route reader.qt route = true

def siteListHash (object : JsonObject) (list : Json) : String :=
  contentHash reader (policyContent (canonicalSourceSites reader.qt list).1
    ((value object "managedSplitTunnelForceEnabled").toBool false))

def HashesListInForce (object : JsonObject) : Prop :=
  isSiteList (value object "managedSplitTunnelExceptSourceSites") = true ∨
    isSiteList (value object "managedSplitTunnelExceptSites") = true ∨
    isSiteList (value object "server.except") = false ∨
    siteListHash reader object (value object "serverExcept") =
      siteListHash reader object (value object "server.except")

section Snapshots

variable {reader}

variable {object : JsonObject} {current : Option Metadata}

theorem parseObject_ok {source : String} {now : Int}
    {snapshot : Snapshot} (parsed : parseObject reader object current source now = .ok snapshot) :
    canonicalSourceSites reader.qt (sourceValue object) = (snapshot.sourceSites, true) ∧
      (∃ candidate bounded, boundedSites snapshot.sourceSites candidate = some bounded ∧
        snapshot.resolvedSites = snapshot.sourceSites.foldl (addLiteral reader) bounded) ∧
      (∃ metadata, validateCandidate reader object current now = .ok metadata ∧
        snapshot.contentHash = metadata.contentHash) ∧
      routesFromSites reader snapshot.resolvedSites = some (snapshot.routes, snapshot.unresolvedSites) ∧
      snapshot.forceEnabled = (value object "managedSplitTunnelForceEnabled").toBool false := by
  unfold parseObject at parsed
  simp only [bind, Except.bind, throw, throwThe, MonadExceptOf.throw, pure, Except.pure] at parsed
  split at parsed
  · cases parsed
  split at parsed
  · cases parsed
  next valid =>
  split at parsed
  · next bounded within =>
    split at parsed
    · cases parsed
    next metadata accepted =>
    split at parsed
    · cases parsed
    next routes unresolved found =>
    split at parsed
    · cases parsed
    cases parsed
    simp only [Bool.not_eq_true', not_or, Bool.not_eq_false] at valid
    refine ⟨Prod.ext rfl valid.1, ⟨_, bounded, within, rfl⟩, ⟨metadata, accepted, rfl⟩, found, rfl⟩
  · cases parsed

theorem metadata_contentHash {now : Int} {metadata : Metadata}
    (accepted : validateCandidate reader object current now = .ok metadata) :
    metadata.contentHash = siteListHash reader object (sourceSitesValue object) := by
  obtain ⟨_, identity, times, identified, _, kept, rfl, _⟩ := validateCandidate_ok accepted
  exact (readIdentity_ok identified).2.1

theorem canonicalSourcePolicyHash_of_sites {list : Json} {sites : JsonObject}
    (canonical : canonicalSourceSites reader.qt list = (sites, true)) (forceEnabled : Bool) :
    canonicalSourcePolicyHash reader [("managedSplitTunnelExceptSourceSites", .object sites),
      ("managedSplitTunnelForceEnabled", .bool forceEnabled)] =
      contentHash reader (policyContent sites forceEnabled) := by
  obtain ⟨_, _, readAs⟩ := canonicalSourceSites_iff.mp canonical
  have again : canonicalSourceSites reader.qt (.object sites) = (sites, true) :=
    canonicalSourceSites_iff.mpr ⟨sites, rfl, readAs.canonical.readAs⟩
  unfold canonicalSourcePolicyHash canonicalSourcePolicyContent
  have chosen : sourceSitesValue [("managedSplitTunnelExceptSourceSites", .object sites),
      ("managedSplitTunnelForceEnabled", .bool forceEnabled)] = .object sites := rfl
  rw [chosen, again]
  rfl

theorem sourceSitesValue_of_list (known : isSiteList (value object "managedSplitTunnelExceptSourceSites") = true ∨
      isSiteList (value object "managedSplitTunnelExceptSites") = true ∨
      isSiteList (value object "server.except") = false) : sourceSitesValue object = sourceValue object := by
  unfold sourceSitesValue sourceValue firstSiteValue sourceKeys
  simp only [List.map_cons, List.map_nil, List.find?_cons, Option.getD_some]
  cases first : isSiteList (value object "managedSplitTunnelExceptSourceSites") with
  | true => rfl
  | false =>
    cases second : isSiteList (value object "managedSplitTunnelExceptSites") with
    | true => rfl
    | false =>
      have third := (known.resolve_left (by simp [first])).resolve_left (by simp [second])
      simp only [third]

section

variable (first : isSiteList (value object "managedSplitTunnelExceptSourceSites") = false)
include first

section

variable (second : isSiteList (value object "managedSplitTunnelExceptSites") = false)
include second

theorem sourceValue_of_except (third : isSiteList (value object "server.except") = true) :
    sourceValue object = value object "server.except" := by
  unfold sourceValue firstSiteValue
  simp only [List.map_cons, List.map_nil, List.find?_cons, Option.getD_some, first, second, third]

theorem sourceSitesValue_of_except :
    (canonicalSourceSites reader.qt (sourceSitesValue object)).1 =
      (canonicalSourceSites reader.qt (value object "serverExcept")).1 := by
  unfold sourceSitesValue sourceKeys
  simp only [List.map_cons, List.map_nil, List.find?_cons, first, second]
  cases last : isSiteList (value object "serverExcept") with
  | true => rfl
  | false =>
    cases list : value object "serverExcept" with
    | object members => simp [list, isSiteList, Json.isObject] at last
    | array items => simp [list, isSiteList, Json.isArray] at last
    | _ => rfl

end

end

theorem hash_iff {source : String} {now : Int}
    {snapshot : Snapshot} (parsed : parseObject reader object current source now = .ok snapshot) :
    snapshot.contentHash = canonicalSourcePolicyHash reader
      [("managedSplitTunnelExceptSourceSites", .object snapshot.sourceSites),
        ("managedSplitTunnelForceEnabled", .bool snapshot.forceEnabled)] ↔ HashesListInForce reader object := by
  obtain ⟨canonical, _, ⟨metadata, accepted, same⟩, _, forced⟩ := parseObject_ok parsed
  have applied : contentHash reader (policyContent snapshot.sourceSites snapshot.forceEnabled) =
      siteListHash reader object (sourceValue object) := by
    rw [siteListHash, canonical, forced]
  rw [canonicalSourcePolicyHash_of_sites canonical, same, metadata_contentHash accepted, applied]
  unfold HashesListInForce
  cases first : isSiteList (value object "managedSplitTunnelExceptSourceSites") with
  | true => simp [sourceSitesValue_of_list (.inl first)]
  | false =>
    cases second : isSiteList (value object "managedSplitTunnelExceptSites") with
    | true => simp [sourceSitesValue_of_list (.inr (.inl second))]
    | false =>
      cases third : isSiteList (value object "server.except") with
      | false => simp [sourceSitesValue_of_list (.inr (.inr third))]
      | true =>
        rw [sourceValue_of_except first second third]
        unfold siteListHash
        rw [sourceSitesValue_of_except first second]
        simp

theorem server_policy_self_consistent_iff {fromJson : List UInt8 → Option Json} {payload : List UInt8}
    {object : JsonObject} {current : Option Metadata} {source : String} {now : Int} {snapshot : Snapshot}
    (read : fromJson payload = some (.object object))
    (parsed : parse reader fromJson payload current source now = .ok snapshot) :
    SelfConsistent reader snapshot ↔ HashesListInForce reader object := by
  unfold parse at parsed
  split at parsed
  · cases parsed
  rw [read] at parsed
  dsimp only at parsed
  refine ⟨fun consistent => (hash_iff parsed).mp consistent.hash, fun inForce => ?_⟩
  obtain ⟨_, ⟨candidate, bounded, within, resolved⟩, _, found, _⟩ := parseObject_ok parsed
  obtain ⟨contributed, sorted, allowed⟩ := routesFromSites_some found
  refine ⟨(hash_iff parsed).mpr inForce, ?_, ?_, sorted, allowed⟩
  · intro key present
    rw [resolved, contains_addLiterals] at present
    rcases present with old | ⟨site, listed, rfl, _⟩
    · exact boundedSites_some within key old
    · exact contains_iff.mpr ⟨site.2, listed⟩
  · intro site listed route canonical
    have kept : contains snapshot.resolvedSites site.1 = true := by
      rw [resolved, contains_addLiterals]
      exact .inr ⟨site, listed, rfl, by rw [canonical]; rfl⟩
    obtain ⟨stored, present⟩ := contains_iff.mp kept
    exact contributed (site.1, stored) present route canonical

end Snapshots

namespace Sample

def twoListsText : List UInt8 :=
  Ipc.ascii "\x7b\"server.except\":\x7b\"a.example\":\"\"\x7d,\"serverExcept\":\x7b\"b.example\":\"\"\x7d\x7d"

def twoLists : JsonObject :=
  [("server.except", .object [("a.example", .string "")]), ("serverExcept", .object [("b.example", .string "")])]

def oneListText : List UInt8 := Ipc.ascii "\x7b\"serverExcept\":\x7b\"10.0.0.0/8\":\"\"\x7d\x7d"

def oneList : JsonObject := [("serverExcept", .object [("10.0.0.0/8", .string "")])]

def fromJson (payload : List UInt8) : Option Json :=
  if payload = twoListsText then some (.object twoLists)
  else if payload = oneListText then some (.object oneList)
  else none

end Sample

theorem other_list_is_hashed : ∃ snapshot,
    parse Sample.policyReader Sample.fromJson Sample.twoListsText none "" 0 = .ok snapshot ∧
      ¬SelfConsistent Sample.policyReader snapshot := by
  have whole : parse Sample.policyReader Sample.fromJson Sample.twoListsText none "" 0 =
      parseObject Sample.policyReader Sample.twoLists none "" 0 := by
    have size : ¬(Sample.twoListsText = [] ∨ Sample.twoListsText.length > maximumPayloadBytes) := by decide +kernel
    rw [parse, if_neg size, Sample.fromJson, if_pos rfl]
  have succeeds : (parseObject Sample.policyReader Sample.twoLists none "" 0).isOk = true := by decide +kernel
  cases parsed : parseObject Sample.policyReader Sample.twoLists none "" 0 with
  | error _ =>
    rw [parsed] at succeeds
    cases succeeds
  | ok snapshot =>
    refine ⟨snapshot, whole.trans parsed, fun consistent => ?_⟩
    have inForce := (hash_iff parsed).mp consistent.hash
    unfold HashesListInForce at inForce
    exact absurd inForce (by decide +kernel)

theorem server_policy_self_consistent_iff_sample : ∃ snapshot,
    parse Sample.policyReader Sample.fromJson Sample.oneListText none "" 0 = .ok snapshot ∧
      SelfConsistent Sample.policyReader snapshot := by
  have read : Sample.fromJson Sample.oneListText = some (.object Sample.oneList) := by decide +kernel
  have succeeds : (parse Sample.policyReader Sample.fromJson Sample.oneListText none "" 0).isOk = true := by
    decide +kernel
  cases parsed : parse Sample.policyReader Sample.fromJson Sample.oneListText none "" 0 with
  | error _ =>
    rw [parsed] at succeeds
    cases succeeds
  | ok snapshot =>
    refine ⟨snapshot, rfl, (server_policy_self_consistent_iff read parsed).mpr ?_⟩
    unfold HashesListInForce
    decide +kernel

end Amnezia.Routing
