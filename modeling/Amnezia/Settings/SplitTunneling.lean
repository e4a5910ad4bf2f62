import Amnezia.Lib.FiniteMap
import Amnezia.Lib.Json
import Amnezia.Lib.Runs
import Amnezia.Routing.ManagedRoutes
import Mathlib.Order.BooleanAlgebra.Set

/-!
# The sites of the split tunnel

Both copies of the sites are read as one function, from a host name to the set of its addresses. Maps are
not kept in the order of their keys.
-/

namespace Amnezia.Settings
open Lib JsonObject
open Ipc (Text)
open Routing (Host dotted)

local instance : LawfulBEq Text := inferInstance

inductive RouteMode where
  | vpnAllSites | vpnOnlyForwardSites | vpnAllExceptSites
  deriving DecidableEq

abbrev Sites := FiniteMap Text (List Text)

def mergeIps (known ips : List Text) : List Text :=
  ips.foldl (fun known ip => if ip ≠ [] ∧ ip ∉ known then known ++ [ip] else known) known

def siteIpList (value : List Text) : List Text := (value.filter (· ≠ [])).eraseDups

def addVpnSite (sites : Sites) (site : Text) (ips : List Text) : Sites :=
  let siteExisted := site ∈ sites
  if siteExisted ∧ ips = [] then sites
  else
    let known := siteIpList ((sites.lookup site).getD [])
    let mergedIps := mergeIps known ips
    if siteExisted ∧ mergedIps = known then sites else sites.insert site mergedIps

def addVpnSites (allSites sites : Sites) : Sites :=
  sites.entries.foldl (fun allSites entry =>
    allSites.insert entry.1 (mergeIps (siteIpList ((allSites.lookup entry.1).getD [])) entry.2)) allSites

abbrev Shown := List (Text × List Text)

structure State where
  currentRouteMode : RouteMode
  sites : Shown
  stored : RouteMode → Sites
  lookups : List Text := []

namespace State

def vpnSites (state : State) : Sites := state.stored state.currentRouteMode

def write (state : State) (shown : Shown) (sites : Sites) : State :=
  { state with sites := shown, stored := Function.update state.stored state.currentRouteMode sites }

def fillSites (state : State) : State :=
  { state with sites := state.vpnSites.entries.map fun entry => (entry.1, siteIpList entry.2) }

end State

def construct (routeMode : RouteMode) (stored : RouteMode → Sites) : State :=
  State.fillSites ⟨if routeMode = .vpnAllSites then .vpnOnlyForwardSites else routeMode, [], stored, []⟩

def mergeSite (hostname : Text) (ips : List Text) : Shown → Shown
  | [] => []
  | (name, known) :: rest =>
    if name = hostname then (name, mergeIps known ips) :: rest else (name, known) :: mergeSite hostname ips rest

def showSite (hostname : Text) (ips : List Text) (sites : Shown) : Shown :=
  if hostname ∈ sites.map Prod.fst then mergeSite hostname ips sites else sites ++ [(hostname, ips)]

def showSites (shown : Shown) (sites : Sites) : Shown :=
  sites.entries.foldl (fun shown entry => showSite entry.1 entry.2 shown) shown

def addSiteInternal (state : State) (hostname : Text) (ips : List Text) : State × Bool :=
  if hostname ∈ state.vpnSites ∧ ips = [] then (state, false)
  else
    let sites := showSite hostname ips state.sites
    if sites = state.sites then (state, false)
    else (state.write sites (addVpnSite state.vpnSites hostname ips), true)

def addSites (state : State) (sites : Sites) (replaceExisting : Bool) : State :=
  state.write (showSites (if replaceExisting then [] else state.sites) sites)
    (addVpnSites (if replaceExisting then ∅ else state.vpnSites) sites)

def isNumber (maximum : Nat) (text : Text) : Bool :=
  (List.range (maximum + 1)).any fun number => (Nat.repr number).toList = text

def isDotted (text : Text) : Bool :=
  let parts := text.splitOn '.'
  parts.length = 4 && parts.all (isNumber 255)

def ipAddressWithSubnetRegExp (text : Text) : Bool :=
  match text.splitOn '/' with
  | [address] => isDotted address
  | [address, length] => isDotted address && isNumber 32 length
  | _ => false

-- `QString::replace` with an empty text; the number counts what is left of an occurrence.
def eraseAll (word : Text) : Nat → Text → Text
  | _, [] => []
  | skip + 1, _ :: rest => eraseAll word skip rest
  | 0, char :: rest =>
    if word <+: char :: rest then eraseAll word (word.length - 1) rest else char :: eraseAll word 0 rest

def normalizeHostname (hostname : Text) : Text :=
  let normalized := eraseAll "https://".toList 0 hostname
  let normalized := eraseAll "http://".toList 0 normalized
  let normalized := eraseAll "ftp://".toList 0 normalized
  if ipAddressWithSubnetRegExp normalized then normalized
  else ((normalized.splitOn '/').filter (· ≠ [])).headD []

def validateHostname (hostname : Text) : Bool :=
  if hostname = [] then false
  else if '.' ∉ hostname ∧ !ipAddressWithSubnetRegExp hostname then false
  else true

def addSite (state : State) (hostname : Text) : State :=
  let normalizedHostname := normalizeHostname hostname
  if !validateHostname normalizedHostname then state
  else
    let (added, isNew) := addSiteInternal state normalizedHostname []
    if ipAddressWithSubnetRegExp normalizedHostname then added
    else if isNew then { added with lookups := normalizedHostname :: added.lookups }
    else added

def removeSite (state : State) (hostname : Text) : State :=
  if hostname ∈ state.sites.map Prod.fst then
    state.write (state.sites.eraseP fun site => site.1 = hostname) (state.vpnSites.erase hostname)
  else state

def removeSites (state : State) : State := state.write [] ∅

def setRouteMode (state : State) (routeMode : RouteMode) : State :=
  State.fillSites { state with currentRouteMode := routeMode }

def ipv4Text : Host → Option Text
  | .ipv4 address => some (dotted address)
  | .ipv6 | .unknown => none

def processSiteAfterResolve (state : State) (hostname : Text) (ips : List Text) : State :=
  state.write (mergeSite hostname ips state.sites) (addVpnSite state.vpnSites hostname ips)

def allIpv4 (addresses : List Host) : List Text := (addresses.filterMap ipv4Text).eraseDups

def onHostResolved (state : State) (hostName : Text) (addresses : List Host) : State :=
  if allIpv4 addresses ≠ [] then processSiteAfterResolve state hostName (allIpv4 addresses) else state

def readIps (object : JsonObject) : List Text :=
  let listed := if (value object "ips").isArray then
    (value object "ips").toArray.map fun item => (item.toString "").toList else []
  let singleIp := (text object "ip").toList
  siteIpList (if singleIp ≠ [] then listed ++ [singleIp] else listed)

def readSites (items : List Json) : Sites :=
  items.foldl (fun sites item =>
    let hostname := normalizeHostname (text item.toObject "hostname").toList
    if validateHostname hostname then sites.insert hostname (readIps item.toObject) else sites) ∅

-- A document that does not parse is none.
def importSitesFromJson (state : State) (document : Option Json) (replaceExisting : Bool) : State :=
  match document with
  | some (.array items) => addSites state (readSites items) replaceExisting
  | _ => state

inductive Label where
  | addSite (hostname : Text)
  | removeSite (hostname : Text)
  | removeSites
  | setRouteMode (routeMode : RouteMode)
  | importSites (document : Option Json) (replaceExisting : Bool)
  | answer (lookup hostName : Text) (addresses : List Host)

def step (state : State) : Label → State
  | .addSite hostname => addSite state hostname
  | .removeSite hostname => removeSite state hostname
  | .removeSites => removeSites state
  | .setRouteMode routeMode => setRouteMode state routeMode
  | .importSites document replaceExisting => importSitesFromJson state document replaceExisting
  | .answer lookup hostName addresses =>
    if lookup ∈ state.lookups then
      onHostResolved { state with lookups := state.lookups.erase lookup } hostName addresses
    else state

abbrev View := Text → Option (Set Text)

def Shown.view (sites : Shown) : View := fun hostname => (sites.lookup hostname).map fun ips => {ip | ip ∈ ips}

def storedView (sites : Sites) : View := fun hostname =>
  (sites.lookup hostname).map fun value => {ip | ip ∈ siteIpList value}

def View.hosts (view : View) : Set Text := {hostname | view hostname ≠ none}

def View.absorb (view : View) (hostname : Text) (ips : List Text) : View :=
  Function.update view hostname (some ((view hostname).getD ∅ ∪ {ip | ip ∈ ips ∧ ip ≠ []}))

variable {hostname : Text} {ips : List Text} {sites : Shown}

theorem absorb_eq_self {view : View} {known : Set Text}
    (present : view hostname = some known) (covered : ∀ ip ∈ ips, ip ≠ [] → ip ∈ known) :
    view.absorb hostname ips = view := by
  rw [View.absorb, present, Option.getD_some,
    Set.union_eq_self_of_subset_right fun ip new => covered ip new.1 new.2, ← present, Function.update_eq_self]

theorem hosts_update_some (view : View) (hostname : Text) (ips : Set Text) :
    View.hosts (Function.update view hostname (some ips)) = insert hostname view.hosts := by
  ext other
  by_cases same : other = hostname
  · subst same
    simp [View.hosts]
  · simp [View.hosts, same]

theorem hosts_update_none (view : View) (hostname : Text) :
    View.hosts (Function.update view hostname none) = view.hosts \ {hostname} := by
  ext other
  by_cases same : other = hostname
  · subst same
    simp [View.hosts]
  · simp [View.hosts, same]

theorem hosts_foldl_absorb (entries : List (Sigma fun _ : Text => List Text)) (view : View) :
    View.hosts (entries.foldl (fun view entry => view.absorb entry.1 entry.2) view) =
      view.hosts ∪ {hostname | hostname ∈ entries.keys} := by
  induction entries generalizing view with
  | nil => simp
  | cons entry entries ih =>
    rw [List.foldl_cons, ih, View.absorb, hosts_update_some]
    ext other
    simp only [List.keys_cons, List.mem_cons, Set.mem_union, Set.mem_insert_iff, Set.mem_ofPred_eq]
    tauto

theorem mem_mergeIps {known : List Text} {ip : Text} :
    ip ∈ mergeIps known ips ↔ ip ∈ known ∨ ip ∈ ips ∧ ip ≠ [] := by
  unfold mergeIps
  induction ips generalizing known with
  | nil => simp
  | cons first ips ih =>
    rw [List.foldl_cons, ih]
    split_ifs with new
    · simp only [List.mem_append, List.mem_cons, List.not_mem_nil, or_false]
      grind
    · grind

theorem mem_siteIpList {value : List Text} {ip : Text} : ip ∈ siteIpList value ↔ ip ∈ value ∧ ip ≠ [] := by
  simp [siteIpList]

theorem storedView_merge (sites : Sites) (hostname : Text) (ips : List Text) :
    storedView (sites.insert hostname (mergeIps (siteIpList ((sites.lookup hostname).getD [])) ips)) =
      (storedView sites).absorb hostname ips := by
  ext other : 1
  by_cases same : other = hostname
  · subst same
    rw [storedView, AList.lookup_insert, View.absorb, Function.update_self, Option.map_some, storedView]
    refine congrArg some (Set.ext fun ip => ?_)
    cases sites.lookup other with
    | none => simp [mem_siteIpList, mem_mergeIps]
    | some value =>
      simp [mem_siteIpList, mem_mergeIps]
      tauto
  · rw [storedView, AList.lookup_insert_ne same, View.absorb, Function.update_of_ne same]
    rfl

theorem storedView_addVpnSite (sites : Sites) (hostname : Text) (ips : List Text) :
    storedView (addVpnSite sites hostname ips) = (storedView sites).absorb hostname ips := by
  have known {value : List Text} (found : sites.lookup hostname = some value) :
      storedView sites hostname = some {ip | ip ∈ siteIpList value} := congrArg (Option.map _) found
  rw [addVpnSite]
  dsimp only
  split_ifs with silent same
  · obtain ⟨value, found⟩ := Option.isSome_iff_exists.mp (AList.lookup_isSome.mpr silent.1)
    rw [silent.2, absorb_eq_self (known found) (by simp)]
  · obtain ⟨value, found⟩ := Option.isSome_iff_exists.mp (AList.lookup_isSome.mpr same.1)
    rw [found, Option.getD_some] at same
    rw [absorb_eq_self (known found)]
    intro ip listed filled
    exact same.2 ▸ mem_mergeIps.mpr (.inr ⟨listed, filled⟩)
  · exact storedView_merge sites hostname ips

theorem storedView_addVpnSites (allSites sites : Sites) : storedView (addVpnSites allSites sites) =
    sites.entries.foldl (fun view entry => view.absorb entry.1 entry.2) (storedView allSites) :=
  (List.foldl_hom storedView fun sites entry => (storedView_merge sites entry.1 entry.2).symm).symm

theorem storedView_erase (sites : Sites) (hostname : Text) :
    storedView (sites.erase hostname) = Function.update (storedView sites) hostname none := by
  ext other : 1
  by_cases same : other = hostname
  · subst same
    rw [storedView, AList.lookup_erase, Function.update_self]
    rfl
  · rw [storedView, AList.lookup_erase_ne same, Function.update_of_ne same]
    rfl

theorem hosts_empty : (storedView ∅).hosts = ∅ := by
  simp [View.hosts, storedView]

theorem view_cons (site : Text × List Text) (sites : Shown) :
    Shown.view (site :: sites) = Function.update sites.view site.1 (some {ip | ip ∈ site.2}) := by
  ext other : 1
  rw [Shown.view, List.lookup_cons]
  by_cases same : other = site.1
  · rw [same, beq_self_eq_true, Function.update_self, Option.map_some]
  · rw [beq_false_of_ne same, Function.update_of_ne same]
    rfl

theorem names_eq_hosts (sites : Shown) : {hostname | hostname ∈ sites.map Prod.fst} = sites.view.hosts := by
  induction sites with
  | nil => simp [Shown.view, View.hosts]
  | cons site rest ih =>
    rw [view_cons, hosts_update_some, ← ih]
    ext other
    simp

theorem view_of_absent (absent : hostname ∉ sites.map Prod.fst) :
    sites.view hostname = none := by
  have outside : hostname ∉ sites.view.hosts := names_eq_hosts sites ▸ absent
  exact not_not.mp outside

theorem names_mergeSite (hostname : Text) (ips : List Text) (sites : Shown) :
    (mergeSite hostname ips sites).map Prod.fst = sites.map Prod.fst := by
  induction sites with
  | nil => rfl
  | cons site rest ih =>
    rw [mergeSite]
    split_ifs
    · rfl
    · rw [List.map_cons, ih, List.map_cons]

theorem view_mergeSite (present : hostname ∈ sites.map Prod.fst) (ips : List Text) :
    Shown.view (mergeSite hostname ips sites) = sites.view.absorb hostname ips := by
  induction sites with
  | nil => cases present
  | cons site rest ih =>
    rw [mergeSite, view_cons]
    split_ifs with found
    · subst found
      rw [view_cons, View.absorb, Function.update_self, Function.update_idem]
      refine congrArg (fun ips => Function.update (Shown.view rest) site.1 (some ips)) (Set.ext fun ip => ?_)
      simp [mem_mergeIps]
    · have inside : hostname ∈ rest.map Prod.fst := (List.mem_cons.mp present).resolve_left (Ne.symm found)
      rw [view_cons, ih inside, View.absorb, View.absorb, Function.update_of_ne (Ne.symm found),
        Function.update_comm found]

theorem view_showSite (clean : [] ∉ ips) (hostname : Text) (sites : Shown) :
    Shown.view (showSite hostname ips sites) = sites.view.absorb hostname ips := by
  rw [showSite]
  split_ifs with present
  · exact view_mergeSite present ips
  · have filled : {ip | ip ∈ ips} = (∅ : Set Text) ∪ {ip | ip ∈ ips ∧ ip ≠ []} := by
      rw [Set.empty_union]
      exact Set.ext fun ip => ⟨fun listed => ⟨listed, fun empty => clean (empty ▸ listed)⟩, And.left⟩
    rw [View.absorb, view_of_absent present, Option.getD_none, ← filled]
    induction sites with
    | nil => exact view_cons (hostname, ips) []
    | cons site rest ih =>
      rw [List.map_cons, List.mem_cons, not_or] at present
      rw [List.cons_append, view_cons, ih present.2, view_cons, Function.update_comm (Ne.symm present.1)]

theorem nodup_showSite (once : (sites.map Prod.fst).Nodup) (hostname : Text) (ips : List Text) :
    ((showSite hostname ips sites).map Prod.fst).Nodup := by
  rw [showSite]
  split_ifs with present
  · rwa [names_mergeSite]
  · rw [List.map_append]
    exact List.nodup_append'.mpr ⟨once, List.nodup_singleton _, by simpa using present⟩

theorem view_eraseP (once : (sites.map Prod.fst).Nodup) (hostname : Text) :
    Shown.view (sites.eraseP fun site => site.1 = hostname) = Function.update sites.view hostname none := by
  induction sites with
  | nil => exact (Function.update_eq_self hostname _).symm
  | cons site rest ih =>
    rw [List.map_cons, List.nodup_cons] at once
    rw [List.eraseP_cons]
    by_cases found : site.1 = hostname
    · subst found
      rw [decide_eq_true rfl, cond_true, view_cons, Function.update_idem, ← view_of_absent once.1,
        Function.update_eq_self]
    · rw [decide_eq_false found, cond_false, view_cons, ih once.2, view_cons, Function.update_comm found]

theorem lookup_entries (hostname : Text) (entries : List (Sigma fun _ : Text => List Text)) :
    (entries.map fun entry => (entry.1, siteIpList entry.2)).lookup hostname =
      (entries.dlookup hostname).map siteIpList := by
  induction entries with
  | nil => rfl
  | cons entry entries ih =>
    by_cases same : hostname = entry.1
    · subst same
      rw [List.map_cons, List.lookup_cons_self, List.dlookup_cons_eq, Option.map_some]
    · rw [List.map_cons, List.lookup_cons, beq_false_of_ne same, List.dlookup_cons_ne _ _ same]
      exact ih

theorem view_fillSites (state : State) : state.fillSites.sites.view = storedView state.vpnSites := by
  ext hostname : 1
  rw [Shown.view, State.fillSites, lookup_entries, Option.map_map]
  rfl

theorem nodup_fillSites (state : State) : (state.fillSites.sites.map Prod.fst).Nodup := by
  rw [State.fillSites, List.map_map]
  exact state.vpnSites.nodupKeys

theorem readIps_filled (object : JsonObject) : [] ∉ readIps object := fun empty => (mem_siteIpList.mp empty).2 rfl

theorem readSites_filled (items : List Json) : ∀ entry ∈ (readSites items).entries, [] ∉ entry.2 := by
  suffices filled : ∀ sites : Sites, (∀ entry ∈ sites.entries, [] ∉ entry.2) →
      ∀ entry ∈ (items.foldl (fun sites item =>
        let hostname := normalizeHostname (text item.toObject "hostname").toList
        if validateHostname hostname then sites.insert hostname (readIps item.toObject) else sites) sites).entries,
        [] ∉ entry.2 from filled ∅ (by simp)
  intro sites filled
  induction items generalizing sites with
  | nil => exact filled
  | cons item items ih =>
    refine ih _ ?_
    dsimp only
    split_ifs
    · intro entry listed
      rcases List.mem_cons.mp listed with rfl | old
      · exact readIps_filled _
      · exact filled entry ((List.kerase_sublist _ _).subset old)
    · exact filled

theorem showSites_spec {entries : List (Sigma fun _ : Text => List Text)} (filled : ∀ entry ∈ entries, [] ∉ entry.2)
    {shown : Shown} (once : (shown.map Prod.fst).Nodup) :
    ((entries.foldl (fun shown entry => showSite entry.1 entry.2 shown) shown).map Prod.fst).Nodup ∧
      Shown.view (entries.foldl (fun shown entry => showSite entry.1 entry.2 shown) shown) =
        entries.foldl (fun view entry => view.absorb entry.1 entry.2) shown.view := by
  induction entries generalizing shown with
  | nil => exact ⟨once, rfl⟩
  | cons entry entries ih =>
    rw [List.foldl_cons, List.foldl_cons, ← view_showSite (filled entry List.mem_cons_self)]
    exact ih (fun other listed => filled other (List.mem_cons_of_mem _ listed)) (nodup_showSite once _ _)

structure Wishes where
  mode : RouteMode
  hosts : RouteMode → Set Text

def Wishes.change (wishes : Wishes) (change : Set Text → Set Text) : Wishes :=
  { wishes with hosts := Function.update wishes.hosts wishes.mode (change (wishes.hosts wishes.mode)) }

def wish (wishes : Wishes) : Label → Wishes
  | .addSite hostname =>
    if validateHostname (normalizeHostname hostname) then wishes.change (insert (normalizeHostname hostname))
    else wishes
  | .removeSite hostname => wishes.change (· \ {hostname})
  | .removeSites => wishes.change fun _ => ∅
  | .setRouteMode routeMode => { wishes with mode := routeMode }
  | .importSites (some (.array items)) replaceExisting =>
    wishes.change fun hosts => (if replaceExisting then ∅ else hosts) ∪ {hostname | hostname ∈ readSites items}
  | .importSites _ _ => wishes
  | .answer _ _ _ => wishes

def Wishes.of (state : State) : Wishes :=
  ⟨state.currentRouteMode, fun mode => {hostname | hostname ∈ state.stored mode}⟩

def Expected (state : State) : Label → Prop
  | .answer lookup hostName addresses =>
    lookup ∈ state.lookups → allIpv4 addresses ≠ [] → hostName ∈ state.sites.map Prod.fst
  | _ => True

structure Kept (wishes : Wishes) (state : State) : Prop where
  once : (state.sites.map Prod.fst).Nodup
  shown : state.sites.view = storedView state.vpnSites
  mode : wishes.mode = state.currentRouteMode
  wished : ∀ mode, (storedView (state.stored mode)).hosts = wishes.hosts mode

variable {change : Set Text → Set Text}

theorem change_eq_self {wishes : Wishes}
    (same : change (wishes.hosts wishes.mode) = wishes.hosts wishes.mode) : wishes.change change = wishes := by
  rw [Wishes.change, same, Function.update_eq_self]

section
variable {wishes : Wishes} {state : State}

section

variable (kept : Kept wishes state)
include kept

theorem Kept.names : {hostname | hostname ∈ state.sites.map Prod.fst} = wishes.hosts wishes.mode := by
  rw [names_eq_hosts, kept.shown, State.vpnSites, kept.wished, kept.mode]

theorem Kept.stored :
    hostname ∈ state.vpnSites ↔ hostname ∈ wishes.hosts wishes.mode := by
  rw [kept.mode, ← kept.wished, ← AList.lookup_isSome]
  simp [storedView, View.hosts, State.vpnSites, Option.isSome_iff_ne_none]

theorem Kept.write {shown : Shown} {sites : Sites}
    (once : (shown.map Prod.fst).Nodup) (same : shown.view = storedView sites)
    (wished : (storedView sites).hosts = change (storedView state.vpnSites).hosts) :
    Kept (wishes.change change) (state.write shown sites) := by
  refine ⟨once, ?shown, kept.mode, fun mode => ?wished⟩
  case shown =>
    dsimp only [State.vpnSites, State.write]
    rw [same, Function.update_self]
  case wished =>
    rw [State.vpnSites, kept.wished, ← kept.mode] at wished
    dsimp only [State.write, Wishes.change]
    rw [← kept.mode]
    by_cases current : mode = wishes.mode
    · rw [current, Function.update_self, Function.update_self, wished]
    · rw [Function.update_of_ne current, Function.update_of_ne current, kept.wished]

theorem Kept.addSiteInternal (hostname : Text) :
    Kept (wishes.change (insert hostname)) (addSiteInternal state hostname []).1 := by
  rw [Settings.addSiteInternal]
  dsimp only
  split_ifs with known same
  · rw [change_eq_self (Set.insert_eq_self.mpr (kept.stored.mp known.1))]
    exact kept
  · have absent : hostname ∉ state.sites.map Prod.fst := fun inside =>
      known ⟨kept.stored.mpr (kept.names ▸ inside), rfl⟩
    rw [showSite, if_neg absent] at same
    simp at same
  · refine kept.write (nodup_showSite kept.once _ _) ?_ ?_
    · rw [view_showSite List.not_mem_nil, kept.shown, storedView_addVpnSite]
    · rw [storedView_addVpnSite, View.absorb, hosts_update_some]

theorem Kept.removeSite (hostname : Text) :
    Kept (wishes.change (· \ {hostname})) (removeSite state hostname) := by
  rw [Settings.removeSite]
  split_ifs with shown
  · refine kept.write (kept.once.sublist (List.eraseP_sublist.map Prod.fst)) ?_ ?_
    · rw [view_eraseP kept.once, storedView_erase, kept.shown]
    · rw [storedView_erase, hosts_update_none]
  · have absent : hostname ∉ wishes.hosts wishes.mode := kept.names ▸ shown
    rw [change_eq_self (Set.sdiff_singleton_eq_self absent)]
    exact kept

theorem Kept.addSites (items : List Json) (replaceExisting : Bool) :
    Kept (wishes.change fun hosts => (if replaceExisting then ∅ else hosts) ∪ {hostname | hostname ∈ readSites items})
      (addSites state (readSites items) replaceExisting) := by
  have spec (shown : Shown) (once : (shown.map Prod.fst).Nodup) := showSites_spec (readSites_filled items) once
  cases replaceExisting with
  | true =>
    refine kept.write (spec [] List.nodup_nil).1 ?_ ?_
    · rw [storedView_addVpnSites]
      exact (spec [] List.nodup_nil).2
    · rw [storedView_addVpnSites, hosts_foldl_absorb]
      exact congrArg (· ∪ _) hosts_empty
  | false =>
    refine kept.write (spec _ kept.once).1 ?_ ?_
    · rw [storedView_addVpnSites]
      exact kept.shown ▸ (spec _ kept.once).2
    · rw [storedView_addVpnSites, hosts_foldl_absorb]
      rfl

theorem Kept.answer {hostName : Text} (listed : hostName ∈ state.sites.map Prod.fst)
    (ips : List Text) : Kept wishes (processSiteAfterResolve state hostName ips) := by
  have same : insert hostName (wishes.hosts wishes.mode) = wishes.hosts wishes.mode :=
    Set.insert_eq_self.mpr (kept.names ▸ listed)
  rw [← change_eq_self same]
  refine kept.write ?_ ?_ ?_
  · rw [names_mergeSite]
    exact kept.once
  · rw [view_mergeSite listed, kept.shown, storedView_addVpnSite]
  · rw [storedView_addVpnSite, View.absorb, hosts_update_some]

theorem Kept.lookups (lookups : List Text) : Kept wishes { state with lookups } :=
  ⟨kept.once, kept.shown, kept.mode, kept.wished⟩

theorem Kept.fillSites (routeMode : RouteMode) :
    Kept { wishes with mode := routeMode } (setRouteMode state routeMode) :=
  ⟨nodup_fillSites _, view_fillSites _, rfl, kept.wished⟩

theorem Kept.step {label : Label} (expected : Expected state label) :
    Kept (wish wishes label) (step state label) := by
  cases label with
  | addSite hostname =>
    have added := kept.addSiteInternal (normalizeHostname hostname)
    simp only [Settings.step, wish, addSite]
    cases validateHostname (normalizeHostname hostname) with
    | false => exact kept
    | true =>
      rw [if_pos rfl, Bool.not_true, if_neg Bool.false_ne_true]
      split_ifs
      · exact added
      · exact added.lookups _
      · exact added
  | removeSite hostname => exact kept.removeSite hostname
  | removeSites =>
    change Kept (wishes.change fun _ => ∅) (state.write [] ∅)
    exact kept.write List.nodup_nil rfl hosts_empty
  | setRouteMode routeMode => exact kept.fillSites routeMode
  | importSites document replaceExisting =>
    cases document with
    | none => exact kept
    | some document =>
      cases document with
      | array items => exact kept.addSites items replaceExisting
      | _ => exact kept
  | answer lookup hostName addresses =>
    rw [Settings.step, wish]
    split_ifs with asked
    · rw [onHostResolved]
      split_ifs with found
      · exact (kept.lookups (state.lookups.erase lookup)).answer (expected asked found) _
      · exact kept.lookups _
    · exact kept

end

end

/-- In every run whose answers find their names, the shown list is the stored one, and the stored sites are those the
user asked for. -/
theorem shown_sites_are_stored (routeMode : RouteMode) (stored : RouteMode → Sites) (labels : List Label)
    (expected : Along step Expected (construct routeMode stored) labels) :
    ((labels.foldl step (construct routeMode stored)).sites.map Prod.fst).Nodup ∧
    (labels.foldl step (construct routeMode stored)).sites.view =
      storedView (labels.foldl step (construct routeMode stored)).vpnSites ∧
    ∀ mode, (storedView ((labels.foldl step (construct routeMode stored)).stored mode)).hosts =
      (labels.foldl wish (Wishes.of (construct routeMode stored))).hosts mode := by
  have initial : Kept (Wishes.of (construct routeMode stored)) (construct routeMode stored) := by
    refine ⟨nodup_fillSites _, view_fillSites _, rfl, fun mode => Set.ext fun hostname => ?_⟩
    rw [Wishes.of, Set.mem_ofPred_eq, ← AList.lookup_isSome]
    simp [View.hosts, storedView, Option.isSome_iff_ne_none]
  have kept := (run_along expected).invariant
    (I := fun past state => Kept (past.foldl wish (Wishes.of (construct routeMode stored))) state)
    (fun past before label after kept taken => by
      rw [List.foldl_append, taken.1]
      exact kept.step taken.2) [] initial
  exact ⟨kept.once, kept.shown, kept.wished⟩

namespace Sample

def site : Text := "a.b".toList

def answered : List Label := [.addSite site, .answer site site [.ipv4 0x01020304]]

def late : List Label := [.addSite site, .removeSite site, .answer site site [.ipv4 0x01020304]]

end Sample

theorem answered_site_is_stored :
    (Sample.answered.foldl step (construct .vpnOnlyForwardSites fun _ => ∅)).sites =
      [(Sample.site, ["1.2.3.4".toList])] ∧
    (Sample.answered.foldl step (construct .vpnOnlyForwardSites fun _ => ∅)).sites.view =
      storedView (Sample.answered.foldl step (construct .vpnOnlyForwardSites fun _ => ∅)).vpnSites :=
  ⟨by decide +kernel, (shown_sites_are_stored .vpnOnlyForwardSites (fun _ => ∅) Sample.answered
    ⟨trivial, fun _ _ => by decide +kernel, trivial⟩).2.1⟩

theorem removed_site_returns :
    (Sample.late.foldl step (construct .vpnOnlyForwardSites fun _ => ∅)).sites = [] ∧
    (Sample.late.foldl step (construct .vpnOnlyForwardSites fun _ => ∅)).vpnSites.lookup Sample.site =
      some ["1.2.3.4".toList] := by
  decide +kernel

end Amnezia.Settings
