import Amnezia.Lib.Json
import Amnezia.Routing.ManagedRoutes
import Mathlib.Data.List.Perm.Subperm

/-! # The source sites of a managed policy -/

namespace Amnezia.Routing
open Lib JsonObject
open Ipc (Text trimmed isSpace utf16Size)

variable (qt : Qt)

structure Collected where
  sites : JsonObject
  isValid : Bool
  totalRouteBudget : Nat

def Collected.invalid (collected : Collected) : Collected := { collected with isValid := false }

def canonicalValue (routes : List Text) : Json := .string (String.ofList (joined routes))

def readSite (rawSite : String) : Json → Option (String × List Text)
  | .string value =>
    let site := qt.toLower (trimmed rawSite.toList)
    if isAllowedManagedSiteKey qt site = false then none
    else
      let directRoute := canonicalManagedIpv4Route qt site
      match validatedManagedRouteTokens qt value.toList with
      | none => none
      | some routes =>
        if directRoute.isSome ∧ routes ≠ [] then none
        else some (String.ofList (directRoute.getD site), routes)
  | _ => none

def insertSite (collected : Collected) (rawSite : String) (rawValue : Json) : Collected :=
  match readSite qt rawSite rawValue with
  | none => collected.invalid
  | some (site, routes) =>
    match collected.sites.find site with
    | some previous => if previous = canonicalValue routes then collected else collected.invalid
    | none =>
      let budget := collected.totalRouteBudget + routes.length + 1
      if budget > maximumTotalRouteCount then
        { collected with isValid := false, totalRouteBudget := budget }
      else
        { collected with
          sites := collected.sites.insert site (canonicalValue routes)
          totalRouteBudget := budget }

def itemSite (item : Json) : String × Json :=
  let object := item.toObject
  ((value object "hostname").toString ((value object "url").toString ""), value object "ip")

def insertItem (collected : Collected) (item : Json) : Collected :=
  if item.isObject then insertSite qt collected (itemSite item).1 (itemSite item).2 else collected.invalid

def insertSites (collected : Collected) (pairs : List (String × Json)) : Collected :=
  pairs.foldl (fun collected pair => insertSite qt collected pair.1 pair.2) collected

def canonicalSourceSites : Json → JsonObject × Bool
  | .object members =>
    let collected := insertSites qt ⟨[], members.length ≤ maximumSiteCount, 0⟩ members
    (collected.sites, collected.isValid)
  | .array items =>
    let collected := items.foldl (insertItem qt) ⟨[], items.length ≤ maximumSiteCount, 0⟩
    (collected.sites, collected.isValid)
  | _ => ([], false)

/-! ## Lower case -/

section Casing

variable {qt}

theorem toLower_toLower (text : Text) : qt.toLower (qt.toLower text) = qt.toLower text := by
  have small (letters : Text) (fixed : ∀ letter ∈ letters, qt.lower letter = [letter]) :
      letters.flatMap qt.lower = letters := by
    induction letters with
    | nil => rfl
    | cons letter rest ih =>
      rw [List.flatMap_cons, fixed letter List.mem_cons_self,
        ih fun other listed => fixed other (List.mem_cons_of_mem _ listed), List.singleton_append]
  refine small _ fun letter listed => ?_
  obtain ⟨char, _, inside⟩ := List.mem_flatMap.mp listed
  exact qt.lower_lower char letter inside

theorem trimmed_toLower (text : Text) : trimmed (qt.toLower (trimmed text)) = qt.toLower (trimmed text) := by
  refine trimmed_of_ends ?_ ?_
  · intro small first
    cases body : trimmed text with
    | nil =>
      rw [body] at first
      cases first
    | cons char rest =>
      rw [body, Qt.toLower, List.flatMap_cons, List.head?_append_of_ne_nil _ (qt.lower_ne_nil char)] at first
      rw [qt.isSpace_lower char small (List.mem_of_head? first)]
      exact head_trimmed (by rw [body]; rfl)
  · intro small last
    rcases List.eq_nil_or_concat (trimmed text) with body | ⟨rest, char, body⟩
    · rw [body] at last
      cases last
    · rw [body, List.concat_eq_append, Qt.toLower, List.flatMap_append, List.flatMap_singleton,
        List.getLast?_append_of_ne_nil _ (qt.lower_ne_nil char)] at last
      rw [qt.isSpace_lower char small (List.mem_of_getLast? last)]
      exact getLast_trimmed (by rw [body]; simp)

end Casing

/-! ## One entry -/

variable {routes : List Text} {site : String}

section Entries

variable {qt}

theorem toLower_of_routeChars {text : Text} (chars : ∀ char ∈ text, isRouteChar char = true) :
    qt.toLower text = text := by
  have fixed (char : Char) (inside : isRouteChar char = true) : qt.lower char = [char] := by
    have range := isRouteChar_range inside
    rw [qt.lower_ascii char (by omega)]
    refine congrArg List.singleton (dif_neg ?_)
    rintro ⟨lower, _⟩
    have : 65 ≤ char.toNat := lower
    omega
  unfold Qt.toLower
  induction text with
  | nil => rfl
  | cons first rest ih =>
    rw [List.flatMap_cons, fixed first (chars first List.mem_cons_self),
      ih fun other listed => chars other (List.mem_cons_of_mem _ listed), List.singleton_append]

structure IsHostname (qt : Qt) (site : Text) : Prop where
  noSlash : '/' ∉ site
  noAddress : qt.host site = .unknown
  lower : qt.toLower site = site
  bare : trimmed site = site
  allowed : isAllowedManagedSiteKey qt site = true

theorem canonical_eq_none_of_hostname {site : Text} (hostname : IsHostname qt site) :
    canonicalManagedIpv4Route qt site = none := by
  cases canonical : canonicalManagedIpv4Route qt site with
  | none => rfl
  | some route =>
    exfalso
    obtain ⟨address, length, parsed, _, _⟩ := canonical_eq_some.mp canonical
    have whole : site.splitOn '/' = [site] := by
      rw [List.splitOn_eq_splitOnP, List.splitOnP_eq_singleton]
      exact fun char listed => beq_false_of_ne fun same => hostname.noSlash (same ▸ listed)
    unfold parseCanonicalIpv4Route at parsed
    simp [hostname.bare, whole, hostname.noAddress] at parsed

theorem allowedKey_of_canonical {value route : Text} (canonical : canonicalManagedIpv4Route qt value = some route) :
    isAllowedManagedSiteKey qt route = true := by
  have spelled := spelling_of_canonical canonical
  have bare : trimmed route = route :=
    trimmed_eq_self fun char listed => isSpace_of_isRouteChar (spelled.chars char listed)
  have size : utf16Size route = route.length := utf16Size_of_routeChars spelled.chars
  have short := spelled.short
  have isRoute : '/' ∈ route ∨ qt.host route ≠ .unknown := by
    obtain ⟨address, length, _, _, rfl⟩ := canonical_eq_some.mp canonical
    unfold routeText
    split
    · exact .inr (by rw [qt.host_dotted]; nofun)
    · exact .inl (List.mem_append_right _ List.mem_cons_self)
  have fits : ¬(route = [] ∨ utf16Size route > maximumSiteKeyLength) := by
    rw [size]
    unfold maximumSiteKeyLength
    rintro (empty | long)
    · exact spelled.filled empty
    · omega
  unfold isAllowedManagedSiteKey
  dsimp only
  rw [bare, toLower_of_routeChars spelled.chars, if_neg fits, if_pos isRoute]
  exact allowed_of_canonical (canonical_canonical canonical)

theorem canonical_isSome_of_allowed {value : Text} (allowed : isAllowedManagedIpv4Route qt value = true) :
    (canonicalManagedIpv4Route qt value).isSome = true := by
  unfold canonicalManagedIpv4Route
  rw [if_pos allowed]
  unfold isAllowedManagedIpv4Route at allowed
  cases parsed : parseCanonicalIpv4Route qt value with
  | none =>
    rw [parsed] at allowed
    cases allowed
  | some found => rfl

theorem hostname_of_allowed {site : Text} (bare : trimmed site = site) (lower : qt.toLower site = site)
    (allowed : isAllowedManagedSiteKey qt site = true) (direct : canonicalManagedIpv4Route qt site = none) :
    IsHostname qt site := by
  have noRoute : ¬('/' ∈ site ∨ qt.host site ≠ .unknown) := by
    intro isRoute
    unfold isAllowedManagedSiteKey at allowed
    dsimp only at allowed
    rw [bare, lower, if_pos isRoute] at allowed
    split at allowed
    · cases allowed
    · have some := canonical_isSome_of_allowed allowed
      rw [direct] at some
      cases some
  rw [not_or, not_not] at noRoute
  exact ⟨noRoute.1, noRoute.2, lower, bare, allowed⟩

inductive Entry (qt : Qt) : String → List Text → Prop
  | route {route : Text} (canonical : canonicalManagedIpv4Route qt route = some route) :
      Entry qt (String.ofList route) []
  | hostname {site : Text} {routes : List Text} (hostname : IsHostname qt site) (list : RouteList qt routes)
      (bound : routes.length ≤ maximumRoutesPerSite) : Entry qt (String.ofList site) routes

theorem entry_of_readSite {rawSite : String} {rawValue : Json}
    (read : readSite qt rawSite rawValue = some (site, routes)) : Entry qt site routes := by
  unfold readSite at read
  split at read
  · next value =>
    dsimp only at read
    split at read
    · cases read
    next allowed =>
    split at read
    · cases read
    next found validated =>
    split at read
    · cases read
    next consistent =>
    obtain ⟨rfl, rfl⟩ := Prod.mk.inj (Option.some.inj read)
    rw [Bool.not_eq_false] at allowed
    obtain ⟨list, bound, _⟩ := validatedTokens_some validated
    cases direct : canonicalManagedIpv4Route qt (qt.toLower (trimmed rawSite.toList)) with
    | some route =>
      have none : found = [] := by
        by_contra some
        exact consistent ⟨by rw [direct]; rfl, some⟩
      rw [none, Option.getD_some]
      exact .route (canonical_canonical direct)
    | none =>
      rw [Option.getD_none]
      exact .hostname (hostname_of_allowed (trimmed_toLower _) (toLower_toLower _) allowed direct) list bound
  · cases read

theorem readSite_of_entry (entry : Entry qt site routes) :
    readSite qt site (canonicalValue routes) = some (site, routes) := by
  cases entry with
  | @route route canonical =>
    have spelled := spelling_of_canonical canonical
    have bare := trimmed_eq_self fun char listed => isSpace_of_isRouteChar (spelled.chars char listed)
    have lower : qt.toLower route = route := toLower_of_routeChars spelled.chars
    have nothing : validatedManagedRouteTokens qt (joined []) = some [] :=
      validatedTokens_joined routeList_nil (Nat.zero_le _)
    simp only [readSite, canonicalValue, String.toList_ofList, bare, lower, allowedKey_of_canonical canonical,
      canonical, nothing]
    rfl
  | hostname hostname list bound =>
    simp only [readSite, canonicalValue, String.toList_ofList, hostname.bare, hostname.lower, hostname.allowed,
      canonical_eq_none_of_hostname hostname, validatedTokens_joined list bound]
    rfl

end Entries

/-! ## The budget -/

def listedRoutes (value : Json) : List Text := splitTokens (value.toString "").toList

def reserved : JsonObject → Nat
  | [] => 0
  | (_, value) :: rest => (listedRoutes value).length + 1 + reserved rest

theorem length_le_reserved (sites : JsonObject) : sites.length ≤ reserved sites := by
  induction sites with
  | nil => exact Nat.le_refl 0
  | cons member rest ih =>
    rw [reserved, List.length_cons]
    omega

theorem reserved_insert {sites : JsonObject} {key : String} {value : Json} (missing : find sites key = none) :
    reserved (sites.insert key value) = reserved sites + (listedRoutes value).length + 1 := by
  induction sites with
  | nil =>
    simp only [JsonObject.insert, reserved]
    omega
  | cons first rest ih =>
    obtain ⟨other, old⟩ := first
    rw [find, List.lookup_cons] at missing
    unfold JsonObject.insert
    split
    · next same =>
      subst same
      simp at missing
    split
    · simp only [reserved]
      omega
    · next different _ =>
      rw [beq_false_of_ne different] at missing
      simp only [reserved, ih missing]
      omega

theorem reserved_le_of_subset {part whole : JsonObject} (first : Ordered part) (second : Ordered whole)
    (inside : part ⊆ whole) : reserved part ≤ reserved whole := by
  induction whole generalizing part with
  | nil =>
    rw [List.subset_nil.mp inside]
  | cons least rest ih =>
    obtain ⟨above, ordered⟩ := List.pairwise_cons.mp second
    cases part with
    | nil => exact Nat.zero_le _
    | cons head tail =>
      obtain ⟨higher, orderedTail⟩ := List.pairwise_cons.mp first
      by_cases same : head = least
      · subst same
        have later : tail ⊆ rest := by
          intro member listed
          rcases List.mem_cons.mp (inside (List.mem_cons_of_mem _ listed)) with rfl | there
          · exact absurd (higher _ listed) (String.lt_irrefl _)
          · exact there
        have bound := ih orderedTail ordered later
        rw [reserved, reserved]
        omega
      · have headLater : head ∈ rest := (List.mem_cons.mp (inside List.mem_cons_self)).resolve_left same
        have later : head :: tail ⊆ rest := by
          intro member listed
          rcases List.mem_cons.mp (inside listed) with rfl | there
          · rcases List.mem_cons.mp listed with rfl | inTail
            · exact headLater
            · exact absurd (higher _ inTail) (String.lt_asymm (above _ headLater))
          · exact there
        have bound := ih first ordered later
        rw [reserved.eq_2 least.1 least.2 rest]
        omega

/-! ## Runs of entries -/

section Runs

variable {qt}

theorem Entry.spelled (entry : Entry qt site routes) :
    ∀ route ∈ routes, Spelling route := by
  cases entry with
  | route => exact fun _ listed => absurd listed List.not_mem_nil
  | hostname _ list _ => exact fun route listed => spelling_of_canonical (list.canonical route listed)

theorem Entry.listedRoutes (entry : Entry qt site routes) :
    listedRoutes (canonicalValue routes) = routes := by
  rw [Routing.listedRoutes, canonicalValue, Json.toString, String.toList_ofList, splitTokens_joined entry.spelled]

structure CanonicalSites (qt : Qt) (sites : JsonObject) : Prop where
  ordered : Ordered sites
  entries : ∀ member ∈ sites, ∃ routes, member.2 = canonicalValue routes ∧ Entry qt member.1 routes
  bounded : reserved sites ≤ maximumTotalRouteCount

def Yields (qt : Qt) (pair member : String × Json) : Prop :=
  ∃ routes, readSite qt pair.1 pair.2 = some (member.1, routes) ∧ member.2 = canonicalValue routes

variable {pair : String × Json} {collected : Collected} {pairs : List (String × Json)}
variable {sites : JsonObject}

theorem Yields.unique {first second : String × Json} (one : Yields qt pair first) (other : Yields qt pair second) :
    first = second := by
  obtain ⟨routes, read, value⟩ := one
  obtain ⟨others, again, same⟩ := other
  rw [read] at again
  obtain ⟨key, equal⟩ := Prod.mk.inj (Option.some.inj again)
  exact Prod.ext key (by rw [value, same, equal])

structure Sound (qt : Qt) (collected : Collected) : Prop where
  canonical : CanonicalSites qt collected.sites
  budget : collected.totalRouteBudget = reserved collected.sites

theorem insertSite_valid (sound : Sound qt collected)
    (valid : (insertSite qt collected pair.1 pair.2).isValid = true) :
    collected.isValid = true ∧ Sound qt (insertSite qt collected pair.1 pair.2) ∧
      collected.sites ⊆ (insertSite qt collected pair.1 pair.2).sites ∧
      ∃ member ∈ (insertSite qt collected pair.1 pair.2).sites, Yields qt pair member ∧
        ∀ other ∈ (insertSite qt collected pair.1 pair.2).sites, other ∈ collected.sites ∨ other = member := by
  unfold insertSite at valid ⊢
  cases read : readSite qt pair.1 pair.2 with
  | none =>
    rw [read] at valid
    cases valid
  | some found =>
    obtain ⟨site, routes⟩ := found
    rw [read] at valid
    dsimp only at valid ⊢
    cases old : collected.sites.find site with
    | some previous =>
      rw [old] at valid
      dsimp only at valid ⊢
      split at valid
      · next same =>
        rw [if_pos same]
        refine ⟨valid, sound, fun _ listed => listed, (site, previous), ?_, ⟨routes, read, same⟩, fun _ => .inl⟩
        exact sound.canonical.ordered.find_iff.mp old
      · cases valid
    | none =>
      rw [old] at valid
      dsimp only at valid ⊢
      split at valid
      · cases valid
      next fits =>
      rw [if_neg fits]
      have entry := entry_of_readSite read
      have size : reserved (collected.sites.insert site (canonicalValue routes)) = _ := reserved_insert old
      rw [entry.listedRoutes, ← sound.budget] at size
      refine ⟨valid, ⟨⟨ordered_insert sound.canonical.ordered, ?_, ?_⟩, size.symm⟩, ?_,
        (site, canonicalValue routes), mem_insert_self _ _ _, ⟨routes, read, rfl⟩, ?_⟩
      · intro member listed
        rcases mem_insert listed with rfl | earlier
        · exact ⟨routes, rfl, entry⟩
        · exact sound.canonical.entries member earlier
      · rw [size]
        exact Nat.le_of_not_lt fits
      · exact fun member listed => mem_insert_of_missing old listed
      · exact fun other listed => (mem_insert listed).symm

theorem insertSite_isValid {rawSite : String} {rawValue : Json}
    (valid : (insertSite qt collected rawSite rawValue).isValid = true) : collected.isValid = true := by
  unfold insertSite at valid
  split at valid
  · cases valid
  split at valid
  · split at valid
    · exact valid
    · cases valid
  · dsimp only at valid
    split at valid
    · cases valid
    · exact valid

theorem insertSites_isValid
    (valid : (insertSites qt collected pairs).isValid = true) : collected.isValid = true := by
  induction pairs generalizing collected with
  | nil => exact valid
  | cons pair rest ih => exact insertSite_isValid (ih valid)

theorem insertSites_valid (sound : Sound qt collected)
    (valid : (insertSites qt collected pairs).isValid = true) :
    Sound qt (insertSites qt collected pairs) ∧ collected.sites ⊆ (insertSites qt collected pairs).sites ∧
      (∀ pair ∈ pairs, ∃ member ∈ (insertSites qt collected pairs).sites, Yields qt pair member) ∧
      ∀ member ∈ (insertSites qt collected pairs).sites,
        member ∈ collected.sites ∨ ∃ pair ∈ pairs, Yields qt pair member := by
  induction pairs generalizing collected with
  | nil => exact ⟨sound, fun _ => id, fun _ listed => absurd listed List.not_mem_nil, fun _ => .inl⟩
  | cons pair rest ih =>
    obtain ⟨_, next, grows, member, inside, yields, others⟩ := insertSite_valid sound (insertSites_isValid valid)
    obtain ⟨last, larger, all, origins⟩ := ih next valid
    refine ⟨last, fun _ listed => larger (grows listed), ?_, ?_⟩
    · intro other listed
      rcases List.mem_cons.mp listed with rfl | later
      · exact ⟨member, larger inside, yields⟩
      · exact all other later
    · intro other listed
      rcases origins other listed with early | ⟨origin, later, from'⟩
      · rcases others other early with earlier | rfl
        · exact .inl earlier
        · exact .inr ⟨pair, List.mem_cons_self, yields⟩
      · exact .inr ⟨origin, List.mem_cons_of_mem _ later, from'⟩

theorem insertSite_within (canonical : CanonicalSites qt sites)
    (sound : Sound qt collected) (inside : collected.sites ⊆ sites) (valid : collected.isValid = true)
    {member : String × Json} (known : member ∈ sites) (yields : Yields qt pair member) :
    (insertSite qt collected pair.1 pair.2).isValid = true ∧
      (insertSite qt collected pair.1 pair.2).sites ⊆ sites := by
  obtain ⟨site, value⟩ := member
  obtain ⟨routes, read, rfl⟩ := yields
  have entry := entry_of_readSite read
  unfold insertSite
  rw [read]
  dsimp only
  cases old : collected.sites.find site with
  | some previous =>
    have same : previous = canonicalValue routes := by
      have first := canonical.ordered.find_iff.mpr (inside (sound.canonical.ordered.find_iff.mp old))
      have second := canonical.ordered.find_iff.mpr known
      exact Option.some.inj (first.symm.trans second)
    dsimp only
    rw [if_pos same]
    exact ⟨valid, inside⟩
  | none =>
    have size : reserved (collected.sites.insert site (canonicalValue routes)) = _ := reserved_insert old
    rw [entry.listedRoutes, ← sound.budget] at size
    have grown : collected.sites.insert site (canonicalValue routes) ⊆ sites := by
      intro other listed
      rcases mem_insert listed with rfl | earlier
      · exact known
      · exact inside earlier
    have fits := reserved_le_of_subset (ordered_insert sound.canonical.ordered) canonical.ordered grown
    have bounded := canonical.bounded
    dsimp only
    rw [if_neg (by omega)]
    exact ⟨valid, grown⟩

theorem insertSites_within (canonical : CanonicalSites qt sites)
    (all : ∀ pair ∈ pairs, ∃ member ∈ sites, Yields qt pair member) (sound : Sound qt collected)
    (inside : collected.sites ⊆ sites) (valid : collected.isValid = true) :
    (insertSites qt collected pairs).isValid = true ∧ (insertSites qt collected pairs).sites ⊆ sites := by
  induction pairs generalizing collected with
  | nil => exact ⟨valid, inside⟩
  | cons pair rest ih =>
    obtain ⟨member, known, yields⟩ := all pair List.mem_cons_self
    obtain ⟨valid, inside⟩ := insertSite_within canonical sound inside valid known yields
    have next := (insertSite_valid sound valid).2.1
    exact ih (fun other listed => all other (List.mem_cons_of_mem _ listed)) next inside valid

theorem sound_empty (valid : Bool) : Sound qt ⟨[], valid, 0⟩ :=
  ⟨⟨ordered_nil, fun _ listed => absurd listed List.not_mem_nil, Nat.zero_le _⟩, rfl⟩

theorem insertSites_eq (canonical : CanonicalSites qt sites)
    (all : ∀ pair ∈ pairs, ∃ member ∈ sites, Yields qt pair member)
    (origins : ∀ member ∈ sites, ∃ pair ∈ pairs, Yields qt pair member) :
    (insertSites qt ⟨[], true, 0⟩ pairs).isValid = true ∧ (insertSites qt ⟨[], true, 0⟩ pairs).sites = sites := by
  obtain ⟨valid, inside⟩ := insertSites_within canonical all (sound_empty true) (List.nil_subset _) rfl
  obtain ⟨last, _, entered, _⟩ := insertSites_valid (sound_empty true) valid
  refine ⟨valid, last.canonical.ordered.ext canonical.ordered fun member => ⟨fun listed => inside listed, ?_⟩⟩
  intro listed
  obtain ⟨pair, there, yields⟩ := origins member listed
  obtain ⟨other, present, again⟩ := entered pair there
  rwa [yields.unique again]

end Runs

/-! ## The whole value -/

def sitePairs : Json → Option (List (String × Json))
  | .object members => some members
  | .array items => if items.all Json.isObject then some (items.map itemSite) else none
  | _ => none

variable {pairs : List (String × Json)}

section Values

variable {qt}

theorem insertItems_of_objects {items : List Json} (objects : items.all Json.isObject = true)
    (collected : Collected) :
    items.foldl (insertItem qt) collected = insertSites qt collected (items.map itemSite) := by
  induction items generalizing collected with
  | nil => rfl
  | cons item rest ih =>
    rw [List.all_cons, Bool.and_eq_true] at objects
    rw [List.foldl_cons, insertItem, if_pos objects.1, ih objects.2]
    rfl

theorem insertItems_isValid {items : List Json} {collected : Collected}
    (valid : (items.foldl (insertItem qt) collected).isValid = true) :
    collected.isValid = true ∧ items.all Json.isObject = true := by
  induction items generalizing collected with
  | nil => exact ⟨valid, rfl⟩
  | cons item rest ih =>
    obtain ⟨first, others⟩ := ih valid
    unfold insertItem at first
    split at first
    · next object => exact ⟨insertSite_isValid first, by rw [List.all_cons, object, others]; rfl⟩
    · cases first

variable {value : Json} {sites : JsonObject}

theorem canonicalSourceSites_of_pairs
    (read : sitePairs value = some pairs) (count : pairs.length ≤ maximumSiteCount) :
    canonicalSourceSites qt value =
      ((insertSites qt ⟨[], true, 0⟩ pairs).sites, (insertSites qt ⟨[], true, 0⟩ pairs).isValid) := by
  unfold sitePairs at read
  split at read
  · cases read
    rw [canonicalSourceSites, decide_eq_true count]
  · split at read
    · next items objects =>
      cases read
      rw [List.length_map] at count
      rw [canonicalSourceSites, decide_eq_true count, insertItems_of_objects objects]
    · cases read
  · cases read

theorem pairs_of_valid (valid : (canonicalSourceSites qt value).2 = true) :
    ∃ pairs, sitePairs value = some pairs ∧ pairs.length ≤ maximumSiteCount := by
  unfold canonicalSourceSites at valid
  split at valid
  · next members => exact ⟨members, rfl, of_decide_eq_true (insertSites_isValid valid)⟩
  · next items =>
    obtain ⟨count, objects⟩ := insertItems_isValid valid
    refine ⟨items.map itemSite, by rw [sitePairs, if_pos objects], ?_⟩
    rw [List.length_map]
    exact of_decide_eq_true count
  · cases valid

structure ReadAs (qt : Qt) (pairs : List (String × Json)) (sites : JsonObject) : Prop where
  count : pairs.length ≤ maximumSiteCount
  canonical : CanonicalSites qt sites
  all : ∀ pair ∈ pairs, ∃ member ∈ sites, Yields qt pair member
  origins : ∀ member ∈ sites, ∃ pair ∈ pairs, Yields qt pair member

theorem canonicalSourceSites_iff :
    canonicalSourceSites qt value = (sites, true) ↔
      ∃ pairs, sitePairs value = some pairs ∧ ReadAs qt pairs sites := by
  constructor
  · intro canonical
    obtain ⟨pairs, read, count⟩ := pairs_of_valid (by rw [canonical])
    rw [canonicalSourceSites_of_pairs read count] at canonical
    obtain ⟨same, valid⟩ := Prod.mk.inj canonical
    obtain ⟨sound, _, all, origins⟩ := insertSites_valid (sound_empty true) valid
    rw [same] at all origins
    refine ⟨pairs, read, count, same ▸ sound.canonical, all, fun member listed => ?_⟩
    exact (origins member listed).resolve_left List.not_mem_nil
  · rintro ⟨pairs, read, readAs⟩
    obtain ⟨valid, same⟩ := insertSites_eq readAs.canonical readAs.all readAs.origins
    rw [canonicalSourceSites_of_pairs read readAs.count, valid, same]

theorem ReadAs.of_same_pairs {others : List (String × Json)} (readAs : ReadAs qt pairs sites)
    (count : others.length ≤ maximumSiteCount) (same : ∀ pair, pair ∈ others ↔ pair ∈ pairs) :
    ReadAs qt others sites := by
  refine ⟨count, readAs.canonical, fun pair listed => readAs.all pair ((same pair).mp listed), ?_⟩
  intro member listed
  obtain ⟨pair, there, yields⟩ := readAs.origins member listed
  exact ⟨pair, (same pair).mpr there, yields⟩

theorem CanonicalSites.readAs (canonical : CanonicalSites qt sites) : ReadAs qt sites sites := by
  have itself : ∀ member ∈ sites, Yields qt member member := by
    intro member listed
    obtain ⟨routes, value, entry⟩ := canonical.entries member listed
    exact ⟨routes, by rw [value]; exact readSite_of_entry entry, value⟩
  refine ⟨?_, canonical, fun member listed => ⟨member, listed, itself member listed⟩,
    fun member listed => ⟨member, listed, itself member listed⟩⟩
  exact Nat.le_trans (length_le_reserved sites) canonical.bounded

end Values

/-! ## Canonical form -/

structure SpellsNetwork (qt : Qt) (key : Text) (address : Ipv4) (length : Nat) : Prop where
  fits : length ≤ 32
  aligned : address &&& ipv4Mask length = address
  allowed : isAllowedRoute address length = true
  read : parseCanonicalIpv4Route qt key = some (address, length)
  unique : ∀ text, parseCanonicalIpv4Route qt text = some (address, length) →
    canonicalManagedIpv4Route qt text = some key

section Form

variable {qt}

theorem spellsNetwork_of_canonical {route : Text} (canonical : canonicalManagedIpv4Route qt route = some route) :
    ∃ address length, SpellsNetwork qt route address length := by
  obtain ⟨address, length, parsed, allowed, same⟩ := canonical_eq_some.mp canonical
  obtain ⟨fits, aligned⟩ := parse_some parsed
  exact ⟨address, length, fits, aligned, allowed, parsed,
    fun text read => canonical_eq_some.mpr ⟨address, length, read, allowed, same⟩⟩

variable {items : List Json} {sites : JsonObject}

theorem sitePairs_array (read : sitePairs (.array items) = some pairs) :
    items.all Json.isObject = true ∧ pairs = items.map itemSite := by
  rw [sitePairs] at read
  split at read
  · next objects => exact ⟨objects, (Option.some.inj read).symm⟩
  · cases read

theorem canonicalSourceSites_of_perm {others : List Json}
    (valid : canonicalSourceSites qt (.array items) = (sites, true)) (perm : others.Perm items) :
    canonicalSourceSites qt (.array others) = (sites, true) := by
  obtain ⟨pairs, read, readAs⟩ := canonicalSourceSites_iff.mp valid
  obtain ⟨objects, rfl⟩ := sitePairs_array read
  have all : others.all Json.isObject = true := by rw [perm.all_eq, objects]
  have renamed := perm.map itemSite
  refine canonicalSourceSites_iff.mpr ⟨others.map itemSite, by rw [sitePairs, if_pos all], ?_⟩
  exact readAs.of_same_pairs (renamed.length_eq ▸ readAs.count) fun pair => renamed.mem_iff

theorem canonicalSourceSites_of_object {members : JsonObject}
    (valid : canonicalSourceSites qt (.array items) = (sites, true)) (distinct : (members.map Prod.fst).Nodup)
    (same : ∀ pair, pair ∈ members ↔ pair ∈ items.map itemSite) :
    canonicalSourceSites qt (.object members) = (sites, true) := by
  obtain ⟨pairs, read, readAs⟩ := canonicalSourceSites_iff.mp valid
  obtain ⟨objects, rfl⟩ := sitePairs_array read
  have inside : members ⊆ items.map itemSite := fun pair listed => (same pair).mp listed
  have count := (List.subperm_of_subset (List.Nodup.of_map _ distinct) inside).length_le
  exact canonicalSourceSites_iff.mpr ⟨members, rfl, readAs.of_same_pairs (Nat.le_trans count readAs.count) same⟩

theorem canonicalSourceSites_of_array {members : JsonObject}
    (valid : canonicalSourceSites qt (.object members) = (sites, true))
    (objects : ∀ item ∈ items, item.isObject = true) (perm : (items.map itemSite).Perm members) :
    canonicalSourceSites qt (.array items) = (sites, true) := by
  obtain ⟨pairs, read, readAs⟩ := canonicalSourceSites_iff.mp valid
  cases read
  have all : items.all Json.isObject = true := List.all_eq_true.mpr objects
  refine canonicalSourceSites_iff.mpr ⟨items.map itemSite, by rw [sitePairs, if_pos all], ?_⟩
  exact readAs.of_same_pairs (perm.length_eq ▸ readAs.count) fun pair => perm.mem_iff

def StoredSite (qt : Qt) (key : String) (stored : Json) : Prop :=
  (∃ address length, SpellsNetwork qt key.toList address length ∧ stored = .string "") ∨
    (IsHostname qt key.toList ∧ ∃ routes : List Text, routes.Nodup ∧
      (∀ route ∈ routes, canonicalManagedIpv4Route qt route = some route ∧
        isAllowedManagedIpv4Route qt route = true) ∧
      stored = .string (String.ofList ([',', ' '].intercalate routes)))

theorem storedSite_of_entry {key : String} (entry : Entry qt key routes) :
    StoredSite qt key (canonicalValue routes) := by
  cases entry with
  | route canonical =>
    rw [StoredSite, String.toList_ofList]
    obtain ⟨address, length, spells⟩ := spellsNetwork_of_canonical canonical
    exact .inl ⟨address, length, spells, rfl⟩
  | hostname hostname list bound =>
    rw [StoredSite, String.toList_ofList]
    refine .inr ⟨hostname, routes, list.distinct, fun route present => ?_, rfl⟩
    have canonical := list.canonical route present
    exact ⟨canonical, allowed_of_canonical canonical⟩

theorem canonicalSourceSites_canonicalises {value : Json} {sites : JsonObject}
    (valid : canonicalSourceSites qt value = (sites, true)) :
    canonicalSourceSites qt (.object sites) = (sites, true) ∧
    (∀ items others, value = .array items → others.Perm items →
      canonicalSourceSites qt (.array others) = (sites, true)) ∧
    (∀ items members, value = .array items → (members.map Prod.fst).Nodup →
      (∀ pair, pair ∈ members ↔ pair ∈ items.map itemSite) →
      canonicalSourceSites qt (.object members) = (sites, true)) ∧
    (∀ members items, value = .object members → (∀ item ∈ items, item.isObject = true) →
      (items.map itemSite).Perm members → canonicalSourceSites qt (.array items) = (sites, true)) ∧
    (∀ key stored, (key, stored) ∈ sites → StoredSite qt key stored) ∧ reserved sites ≤ 4096 := by
  obtain ⟨pairs, read, readAs⟩ := canonicalSourceSites_iff.mp valid
  refine ⟨canonicalSourceSites_iff.mpr ⟨sites, rfl, readAs.canonical.readAs⟩, ?_, ?_, ?_, ?_,
    readAs.canonical.bounded⟩
  · rintro items others rfl perm
    exact canonicalSourceSites_of_perm valid perm
  · rintro items members rfl distinct same
    exact canonicalSourceSites_of_object valid distinct same
  · rintro members items rfl objects perm
    exact canonicalSourceSites_of_array valid objects perm
  · intro key stored listed
    obtain ⟨routes, same, entry⟩ := readAs.canonical.entries _ listed
    have same : stored = canonicalValue routes := same
    exact same ▸ storedSite_of_entry entry

end Form

def sampleSites : Json :=
  .array [.object [("hostname", .string " Example.COM"), ("ip", .string "8.8.8.8/32; 9.9.9.0/24, 8.8.8.8")],
    .object [("url", .string "10.0.0.0/8"), ("ip", .string "")],
    .object [("hostname", .string "example.com"), ("ip", .string "8.8.8.8,9.9.9.0/24")]]

theorem canonicalSourceSites_canonicalises_sample :
    canonicalSourceSites asciiQt sampleSites =
      ([("10.0.0.0/8", .string ""), ("example.com", .string "8.8.8.8, 9.9.9.0/24")], true) ∧
    canonicalSourceSites asciiQt (.object [("10.0.0.0/8", .string ""),
        ("example.com", .string "8.8.8.8, 9.9.9.0/24")]) =
      ([("10.0.0.0/8", .string ""), ("example.com", .string "8.8.8.8, 9.9.9.0/24")], true) := by
  have read : canonicalSourceSites asciiQt sampleSites =
      ([("10.0.0.0/8", .string ""), ("example.com", .string "8.8.8.8, 9.9.9.0/24")], true) := by
    decide +kernel
  exact ⟨read, (canonicalSourceSites_canonicalises read).1⟩

end Amnezia.Routing
