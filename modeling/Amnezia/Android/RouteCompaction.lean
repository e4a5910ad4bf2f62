import Amnezia.Lib.PrefixTree
import Amnezia.Lib.LinkedSet
import Amnezia.Net.InetNetwork
import Mathlib.Data.Finset.Card

/-! # Compaction of the interface routes -/

namespace Amnezia.Android
open Net Lib.Bytes Lib.Bits Lib.LinkedSet Lib.LongestPrefix Lib.LongestPrefix.Table Lib.PrefixTree

/-! ## The function -/

abbrev Node := BitTree Bool

structure Roots where
  ipv4 : Node := .node none .nil .nil
  ipv6 : Node := .node none .nil .nil

def hostBit (bytes : List UInt8) (bit : Nat) : Nat :=
  (bytes.getD (bit / 8) 0).toNat &&& (128 >>> (bit % 8))

def branch (bytes : List UInt8) (bit : Nat) : Nat :=
  ((bytes.getD (bit / 8) 0).toNat >>> (7 - bit % 8)) &&& 1

def isRejected (route : Route) : Bool :=
  let bytes := route.inetNetwork.address.address
  let mask := route.inetNetwork.mask
  !(bytes.length == 4 || bytes.length == 16) || !(0 ≤ mask && mask ≤ bytes.length * 8) ||
    (List.range' mask.toNat (bytes.length * 8 - mask.toNat)).any fun bit => hostBit bytes bit != 0

def path (route : Route) : Word :=
  (List.range route.inetNetwork.mask.toNat).map fun bit =>
    branch route.inetNetwork.address.address bit == 1

def Roots.put (roots : Roots) (route : Route) : Roots :=
  if route.inetNetwork.address.address.length = 4 then
    { roots with ipv4 := roots.ipv4.put (path route) route.included }
  else { roots with ipv6 := roots.ipv6.put (path route) route.included }

-- The loop over the routes; `none` is the early `return routes.toSet()`.
def fillRoots : List Route → Roots → Option Roots
  | [], roots => some roots
  | route :: rest, roots => if isRejected route then none else fillRoots rest (roots.put route)

structure ReducedRoutes where
  mixed : Bool
  uniform : Option Bool
  routes : List Route

def entriesFor (action inherited : Option Bool) (bytes : List UInt8) (depth : Nat) :
    Except (NetException IpAddress) (List Route) :=
  match action with
  | some included =>
    if action ≠ inherited then do
      let address ← InetAddress.getByAddress bytes
      return [⟨⟨address, depth⟩, included⟩]
    else return []
  | none => return []

def withBit (bytes : List UInt8) (depth : Nat) : Except (NetException IpAddress) (List UInt8) :=
  match bytes[depth / 8]? with
  | some byte => return bytes.set (depth / 8) (UInt8.ofNat (byte.toNat ||| (128 >>> (depth % 8))))
  | none => throw (.indexOutOfBounds (depth / 8) bytes.length)

def reduce : Node → Option Bool → List UInt8 → Nat → Except (NetException IpAddress) ReducedRoutes
  | .nil, inherited, bytes, depth => do
      let entries ← entriesFor inherited inherited bytes depth
      return ⟨false, inherited, entries⟩
  | .node nodeAction left right, inherited, bytes, depth => do
      let action := nodeAction.or inherited
      if left = .nil ∧ right = .nil then
        let entries ← entriesFor action inherited bytes depth
        return ⟨false, action, entries⟩
      let leftReduced ← reduce left action bytes (depth + 1)
      let rightBytes ← withBit bytes depth
      let rightReduced ← reduce right action rightBytes (depth + 1)
      if !leftReduced.mixed && !rightReduced.mixed && leftReduced.uniform == rightReduced.uniform then
        let common := leftReduced.uniform
        let entries ← entriesFor common inherited bytes depth
        return ⟨false, common, entries⟩
      let own ← entriesFor action inherited bytes depth
      return ⟨true, none, own ++ leftReduced.routes ++ rightReduced.routes⟩

def compactRoutes (routes : List Route) : Except (NetException IpAddress) (List Route) :=
  match fillRoots routes {} with
  | none => return toSet routes
  | some roots => do
      let ipv4 ← reduce roots.ipv4 none (List.replicate 4 0) 0
      let ipv6 ← reduce roots.ipv6 none (List.replicate 16 0) 0
      return toSet (ipv4.routes ++ ipv6.routes)

/-! ## Longest-prefix match over routes -/

def lookupStep (ip : IpAddress) (best : Int × Option Bool) (route : Route) : Int × Option Bool :=
  if route.inetNetwork.covers ip ∧ route.inetNetwork.mask ≥ best.1 then
    (route.inetNetwork.mask, some route.included)
  else best

/-- The decision of longest-prefix match, the later route on equal prefixes. -/
def lookup (routes : List Route) (ip : IpAddress) : Option Bool :=
  (routes.foldl (lookupStep ip) (-1, none)).2

/-! ## Routes as trie entries -/

theorem hostBit_eq_zero_iff (bytes : List UInt8) (bit : Nat) :
    hostBit bytes bit = 0 ↔ bitOf bytes bit = false := by
  have := and_shifted_ne_zero_iff (bytes.getD (bit / 8) 0) bit
  rw [← Bool.not_eq_true, bitOf, ← this, not_not, hostBit]

theorem path_eq (route : Route) (canonical : route.inetNetwork.Canonical) :
    path route = route.inetNetwork.word := by
  have fits := canonical.fits
  unfold InetNetwork.width at fits
  apply List.ext_getElem
  · simp [path, InetNetwork.length_word canonical]
  · intro i leftBound rightBound
    have bit := shifted_and_one_eq_one_iff (route.inetNetwork.address.address.getD (i / 8) 0) i
    rw [Bool.eq_iff_iff]
    simpa [path, branch, InetNetwork.word, bits, bitOf] using bit

theorem isRejected_eq_false_iff (route : Route) :
    isRejected route = false ↔ route.inetNetwork.Canonical := by
  have size := route.inetNetwork.address.size_eq
  have host := mod_two_pow_eq_zero_iff route.inetNetwork.address.address route.inetNetwork.mask.toNat
  have scan : (List.range' route.inetNetwork.mask.toNat
        (route.inetNetwork.address.address.length * 8 - route.inetNetwork.mask.toNat)).any
        (fun bit => hostBit route.inetNetwork.address.address bit != 0) = false ↔
      route.inetNetwork.value % 2 ^ (route.inetNetwork.width - route.inetNetwork.mask.toNat) = 0 := by
    simp only [List.any_eq_false, List.mem_range', bne_iff_ne, ne_eq, not_not, hostBit_eq_zero_iff]
    refine Iff.trans ⟨fun clear i above below => ?_, fun clear bit inside => ?_⟩ host.symm
    · exact clear i ⟨i - route.inetNetwork.mask.toNat, by omega, by omega⟩
    · obtain ⟨k, below, rfl⟩ := inside
      exact clear _ (by omega) (by omega)
  have sized : (route.inetNetwork.address.address.length == 4 ||
      route.inetNetwork.address.address.length == 16) = true := by
    simpa using size
  unfold isRejected
  simp only [sized, Bool.not_true, Bool.false_or, Bool.or_eq_false_iff, scan, Bool.not_eq_false',
    Bool.and_eq_true, decide_eq_true_eq]
  constructor
  · rintro ⟨⟨nonneg, fits⟩, clear⟩
    exact ⟨nonneg, by unfold InetNetwork.width; omega, clear⟩
  · rintro ⟨nonneg, fits, clear⟩
    exact ⟨⟨nonneg, by unfold InetNetwork.width at fits; omega⟩, clear⟩

def entriesOf (size : Nat) (routes : List Route) : List (Word × Bool) :=
  (routes.filter fun route => route.inetNetwork.address.address.length == size).map
    fun route => (route.inetNetwork.word, route.included)

theorem fillRoots_of_canonical (routes : List Route) (roots : Roots)
    (canonical : ∀ route ∈ routes, route.inetNetwork.Canonical) :
    fillRoots routes roots = some ⟨roots.ipv4.putAll (entriesOf 4 routes),
      roots.ipv6.putAll (entriesOf 16 routes)⟩ := by
  induction routes generalizing roots with
  | nil => rfl
  | cons route routes ih =>
    have here := canonical route List.mem_cons_self
    rw [fillRoots, if_neg (by simp [(isRejected_eq_false_iff route).mpr here]),
      ih _ fun other member => canonical other (List.mem_cons_of_mem _ member)]
    rcases route.inetNetwork.address.size_eq with four | sixteen
    · simp [Roots.put, entriesOf, four, path_eq route here, BitTree.putAll]
    · simp [Roots.put, entriesOf, sixteen, path_eq route here, BitTree.putAll]

theorem fillRoots_of_rejected (routes : List Route) (roots : Roots) (route : Route)
    (member : route ∈ routes) (rejected : ¬ route.inetNetwork.Canonical) :
    fillRoots routes roots = none := by
  induction routes generalizing roots with
  | nil => cases member
  | cons head routes ih =>
    rw [fillRoots]
    split_ifs with bad
    · rfl
    · rcases List.mem_cons.mp member with rfl | member
      · exact absurd ((isRejected_eq_false_iff route).mp (by simpa using bad)) rejected
      · exact ih _ member

/-! ## The trie walk emits the entries of the compaction -/

structure Emits (size : Nat) (position : Word) (entry : Word × Bool) (route : Route) : Prop where
  family : route.inetNetwork.address.address.length = size
  canonical : route.inetNetwork.Canonical
  word : route.inetNetwork.word = position ++ entry.1
  action : route.included = entry.2

structure At (size : Nat) (position : Word) (bytes : List UInt8) : Prop where
  family : size = 4 ∨ size = 16
  length : bytes.length = size
  fits : position.length ≤ 8 * size
  bits_eq : bits bytes = position ++ List.replicate (8 * size - position.length) false

variable {size : Nat} {position : Word} {bytes : List UInt8} {routes reduced : List Route}

section

variable (here : At size position bytes)
include here

theorem At.notMapped (unmapped : ¬ mappedWord <+: position) : isIPv4Mapped bytes = false := by
  rw [← Bool.not_eq_true, isIPv4Mapped_iff (here.length ▸ here.family), here.bits_eq]
  intro mapped
  by_cases long : mappedWord.length ≤ position.length
  · exact unmapped (List.prefix_of_prefix_length_le mapped (List.prefix_append _ _) long)
  · -- The last bit of the mapped prefix is set, and the padding is clear.
    rw [length_mappedWord] at long
    have last := mapped.getElem (i := 95) (by decide)
    rw [List.getElem_append_right (by omega), List.getElem_replicate] at last
    exact absurd last (by decide)

theorem At.bitOf_eq_false
    {i : Nat} (above : position.length ≤ i) (below : i < 8 * size) : bitOf bytes i = false := by
  have bound : i < (bits bytes).length := by rw [length_bits, here.length]; exact below
  have item : (bits bytes)[i] = false := by
    simp only [here.bits_eq]
    rw [List.getElem_append_right above, List.getElem_replicate]
  rwa [getElem_bits] at item

theorem At.emits (sized : bytes.length = 4 ∨ bytes.length = 16) (notMapped : isIPv4Mapped bytes = false)
    (included : Bool) :
    Emits size position ([], included) ⟨⟨⟨bytes, sized, notMapped⟩, position.length⟩, included⟩ where
  family := here.length
  canonical := by
    refine ⟨Int.natCast_nonneg _, ?_, ?_⟩
    · have := here.fits
      simp only [InetNetwork.width, here.length]
      omega
    · apply (mod_two_pow_eq_zero_iff bytes position.length).mpr
      intro i above below
      exact here.bitOf_eq_false above (here.length ▸ below)
  word := by simp [InetNetwork.word, here.bits_eq]
  action := rfl

theorem entriesFor_spec (unmapped : ¬ mappedWord <+: position) (action inherited : Option Bool) :
    ∃ routes, entriesFor action inherited bytes position.length = .ok routes ∧
      List.Forall₂ (Emits size position) (own action inherited) routes := by
  have sized : bytes.length = 4 ∨ bytes.length = 16 := here.length ▸ here.family
  cases action with
  | none => exact ⟨[], rfl, .nil⟩
  | some included =>
    by_cases same : some included = inherited
    · exact ⟨[], by simp [entriesFor, same]; rfl, by simp [own, same]⟩
    · have found := InetAddress.getByAddress_of_notMapped sized (here.notMapped unmapped)
      refine ⟨_, by simp only [entriesFor, if_pos same, ne_eq, found]; rfl, ?_⟩
      simp only [own, ne_eq, same, not_false_eq_true, if_true]
      exact .cons (here.emits sized (here.notMapped unmapped) included) .nil

theorem At.left (room : position.length < 8 * size) : At size (position ++ [false]) bytes := by
  refine ⟨here.family, here.length, by simp; omega, ?_⟩
  have more : 8 * size - position.length = 8 * size - (position.length + 1) + 1 := by omega
  rw [here.bits_eq, more, List.replicate_succ]
  simp

theorem withBit_spec (room : position.length < 8 * size) :
    ∃ rightBytes, withBit bytes position.length = .ok rightBytes ∧
      At size (position ++ [true]) rightBytes := by
  have bound : position.length / 8 < bytes.length := by rw [here.length]; omega
  have found : bytes[position.length / 8]? = some bytes[position.length / 8] :=
    List.getElem?_eq_getElem bound
  refine ⟨_, by simp only [withBit, found]; rfl, here.family, by simpa using here.length,
    by simp; omega, ?_⟩
  apply List.ext_getElem
  · simp [here.length]
    omega
  · intro i leftBound rightBound
    have inside : i < (bits bytes).length := by simpa using leftBound
    have before := getElem_bits bytes i inside
    simp only [here.bits_eq] at before
    rw [getElem_bits, bitOf_set _ _ _ _ found, ← before]
    rcases lt_trichotomy i position.length with lower | rfl | higher
    · simp [List.getElem_append_left, lower, Nat.ne_of_lt lower]
    · simp
    · rw [List.getElem_append_right (by omega), List.getElem_append_right (by simp; omega)]
      simp [Nat.ne_of_gt higher]

end

theorem Emits.under {bit : Bool} {entry : Word × Bool} {route : Route}
    (emits : Emits size (position ++ [bit]) entry route) :
    Emits size position (bit :: entry.1, entry.2) route :=
  ⟨emits.family, emits.canonical, by simpa using emits.word, emits.action⟩

theorem reduce_spec (node : Node) (inherited : Option Bool) (position : Word)
    (bytes : List UInt8) (here : At size position bytes)
    (inside : ∀ word, node.descend word ≠ .nil →
      (position ++ word).length ≤ 8 * size ∧ ¬ mappedWord <+: position ++ word) :
    ∃ reduced, reduce node inherited bytes position.length = .ok reduced ∧
      reduced.mixed = (compact node inherited).mixed ∧
      reduced.uniform = (compact node inherited).uniform ∧
      List.Forall₂ (Emits size position) (compact node inherited).entries reduced.routes := by
  induction node generalizing inherited position bytes with
  | nil =>
    have nothing : entriesFor inherited inherited bytes position.length = .ok [] := by
      cases inherited <;> simp [entriesFor] <;> rfl
    exact ⟨⟨false, inherited, []⟩, by rw [reduce, nothing]; rfl, rfl, rfl, .nil⟩
  | node nodeAction left right leftIh rightIh =>
    have unmapped : ¬ mappedWord <+: position := by simpa using (inside [] nofun).2
    obtain ⟨ownRoutes, ownEq, ownEmits⟩ :=
      entriesFor_spec here unmapped (nodeAction.or inherited) inherited
    rw [reduce, compact]
    by_cases leaf : left = .nil ∧ right = .nil
    · simp only [leaf, and_self, if_true, ownEq]
      exact ⟨_, rfl, rfl, rfl, ownEmits⟩
    · have room : position.length < 8 * size := by
        have below (bit : Bool) (present : (BitTree.node nodeAction left right).child bit ≠ .nil) :
            position.length < 8 * size := by
          have := (inside [bit] present).1
          rwa [List.length_append, List.length_singleton] at this
        rcases not_and_or.mp leaf with present | present
        · exact below false present
        · exact below true present
      obtain ⟨rightBytes, rightEq, rightAt⟩ := withBit_spec here room
      obtain ⟨leftReduced, leftRun, leftMixed, leftUniform, leftEmits⟩ :=
        leftIh (nodeAction.or inherited) (position ++ [false]) bytes (here.left room) fun word present => by
          simpa using inside (false :: word) present
      obtain ⟨rightReduced, rightRun, rightMixed, rightUniform, rightEmits⟩ :=
        rightIh (nodeAction.or inherited) (position ++ [true]) rightBytes rightAt fun word present => by
          simpa using inside (true :: word) present
      rw [List.length_append, List.length_singleton] at leftRun rightRun
      simp only [leaf, if_false, leftRun, rightEq, rightRun, Except.bind, bind, pure, Except.pure]
      rw [leftMixed, rightMixed, leftUniform, rightUniform]
      split_ifs with merged
      · obtain ⟨commonRoutes, commonEq, commonEmits⟩ := entriesFor_spec here unmapped
          (compact left (nodeAction.or inherited)).uniform inherited
        rw [commonEq]
        exact ⟨_, rfl, rfl, rfl, commonEmits⟩
      · rw [ownEq]
        refine ⟨_, rfl, rfl, rfl, List.rel_append (List.rel_append ownEmits ?_) ?_⟩
        · exact List.forall₂_map_left_iff.mpr (leftEmits.imp fun _ _ => Emits.under)
        · exact List.forall₂_map_left_iff.mpr (rightEmits.imp fun _ _ => Emits.under)

/-! ## The decision of the scan -/

def scanned : Option (Nat × Bool) → Int × Option Bool
  | none => (-1, none)
  | some (length, included) => (length, some included)

theorem foldl_lookupStep (routes : List Route) (ip : IpAddress)
    (canonical : ∀ route ∈ routes, route.inetNetwork.Canonical) :
    routes.foldl (lookupStep ip) (-1, none) =
      scanned ((ofEntries (entriesOf ip.size routes)).matched (bits ip.address)) := by
  induction routes using List.reverseRecOn with
  | nil =>
    have nothing : (ofEntries (entriesOf ip.size [])).matched (bits ip.address) = none := matched_empty _
    rw [nothing]
    rfl
  | append_singleton front route ih =>
    rw [List.foldl_append, List.foldl_cons, List.foldl_nil,
      ih fun other member => canonical other (by simp [member])]
    have here := canonical route (by simp)
    rw [lookupStep]
    by_cases family : route.inetNetwork.address.address.length = ip.size
    · have more : entriesOf ip.size (front ++ [route]) =
          entriesOf ip.size front ++ [(route.inetNetwork.word, route.included)] := by
        simp [entriesOf, family]
      rw [more, ofEntries_append_singleton, matched_put]
      simp only [InetNetwork.covers_iff here, family, true_and, InetNetwork.length_word here]
      have mask : (route.inetNetwork.mask.toNat : Int) = route.inetNetwork.mask :=
        Int.toNat_of_nonneg here.nonneg
      cases (ofEntries (entriesOf ip.size front)).matched (bits ip.address) with
      | none =>
        have above : route.inetNetwork.mask ≥ -1 := by omega
        simp only [scanned, above, and_true, Option.mem_def, reduceCtorEq, false_implies, implies_true]
        split_ifs
        · simp only [mask]
        · rfl
      | some found =>
        have above : route.inetNetwork.mask ≥ found.1 ↔ found.1 ≤ route.inetNetwork.mask.toNat := by omega
        simp only [scanned, above, Option.mem_def, Option.some.injEq, forall_eq']
        split_ifs
        · simp only [mask]
        · rfl
    · have more : entriesOf ip.size (front ++ [route]) = entriesOf ip.size front := by
        simp [entriesOf, family]
      rw [more, if_neg fun covered => family covered.1.1]

theorem lookup_eq_lpm (routes : List Route) (ip : IpAddress)
    (canonical : ∀ route ∈ routes, route.inetNetwork.Canonical) :
    lookup routes ip = (ofEntries (entriesOf ip.size routes)).lpm (bits ip.address) := by
  rw [lookup, foldl_lookupStep routes ip canonical, lpm]
  cases (ofEntries (entriesOf ip.size routes)).matched (bits ip.address) <;> rfl

/-! ## The compacted routes give the same decisions -/

variable {entries : List (Word × Bool)}

theorem entriesOf_emitted
    (emitted : List.Forall₂ (Emits size []) entries routes) : entriesOf size routes = entries := by
  induction emitted with
  | nil => rfl
  | cons emits _ ih =>
    rw [entriesOf] at ih ⊢
    simp [emits.family, emits.word, emits.action, ih]

theorem entriesOf_other {other : Nat} (different : size ≠ other)
    (family : ∀ route ∈ routes, route.inetNetwork.address.address.length = size) :
    entriesOf other routes = [] := by
  rw [entriesOf, List.map_eq_nil_iff, List.filter_eq_nil_iff]
  intro route member
  simpa [family route member] using different

theorem emits_of_mem (emitted : List.Forall₂ (Emits size []) entries routes) :
    ∀ route ∈ routes, ∃ entry, Emits size [] entry route := by
  induction emitted with
  | nil => exact nofun
  | cons emits _ ih => exact List.forall_mem_cons.mpr ⟨⟨_, emits⟩, ih⟩

structure SameDecisions (size : Nat) (routes reduced : List Route) : Prop where
  family : ∀ route ∈ reduced, route.inetNetwork.address.address.length = size
  canonical : ∀ route ∈ reduced, route.inetNetwork.Canonical
  distinct : ((entriesOf size reduced).map Prod.fst).Nodup
  same : ∀ word : Word, word.length = 8 * size →
    (ofEntries (entriesOf size reduced)).lpm word = (ofEntries (entriesOf size routes)).lpm word

theorem SameDecisions.nodup (same : SameDecisions size routes reduced) : reduced.Nodup := by
  have all : (reduced.filter fun route => route.inetNetwork.address.address.length == size) = reduced := by
    apply List.filter_eq_self.mpr
    intro route member
    simpa using same.family route member
  have distinct := same.distinct
  rw [entriesOf, all, List.map_map] at distinct
  exact distinct.of_map

theorem mem_entriesOf {entry : Word × Bool}
    (member : entry ∈ entriesOf size routes) :
    ∃ route ∈ routes, route.inetNetwork.address.address.length = size ∧
      entry = (route.inetNetwork.word, route.included) := by
  obtain ⟨route, filtered, rfl⟩ := List.mem_map.mp member
  obtain ⟨inside, family⟩ := List.mem_filter.mp filtered
  exact ⟨route, inside, by simpa using family, rfl⟩

theorem descend_routes {word : Word}
    (present : ((BitTree.node none .nil .nil).putAll (entriesOf size routes)).descend word ≠ .nil) :
    word.length ≤ 8 * size ∧ ¬ mappedWord <+: word := by
  rcases (BitTree.descend_putAll _ _ _).mp present with ⟨entry, member, below⟩ | root
  · obtain ⟨route, -, sized, rfl⟩ := mem_entriesOf member
    have within : word <+: bits route.inetNetwork.address.address :=
      below.trans (List.take_prefix _ _)
    refine ⟨by simpa [sized] using within.length_le, fun mapped => ?_⟩
    have := (isIPv4Mapped_iff route.inetNetwork.address.size_eq).mpr (mapped.trans within)
    rw [route.inetNetwork.address.notMapped] at this
    cases this
  · cases word with
    | nil => exact ⟨Nat.zero_le _, by decide⟩
    | cons bit rest =>
      have child : (BitTree.node none .nil .nil : Node).child bit = .nil := by cases bit <;> rfl
      rw [BitTree.descend, child, BitTree.descend_nil] at root
      exact absurd rfl root

def remaining (size : Nat) (routes : List Route) : List (Word × Bool) :=
  (compact ((BitTree.node none .nil .nil).putAll (entriesOf size routes)) none).entries

theorem reduce_emits (family : size = 4 ∨ size = 16) (routes : List Route) :
    ∃ reduced, reduce ((BitTree.node none .nil .nil).putAll (entriesOf size routes)) none
        (List.replicate size 0) 0 = .ok reduced ∧
      List.Forall₂ (Emits size []) (remaining size routes) reduced.routes := by
  have start : At size [] (List.replicate size 0) := by
    refine ⟨family, List.length_replicate, Nat.zero_le _, ?_⟩
    rcases family with rfl | rfl <;> decide
  obtain ⟨reduced, run, -, -, emitted⟩ := reduce_spec _ none [] _ start fun word => descend_routes
  exact ⟨reduced, run, emitted⟩

theorem sameDecisions_of_emits
    (emitted : List.Forall₂ (Emits size []) (remaining size routes) reduced) : SameDecisions size routes reduced := by
  have entries := entriesOf_emitted emitted
  refine ⟨fun route member => ?_, fun route member => ?_, ?_, fun word length => ?_⟩
  · obtain ⟨entry, emits⟩ := emits_of_mem emitted route member
    exact emits.family
  · obtain ⟨entry, emits⟩ := emits_of_mem emitted route member
    exact emits.canonical
  · rw [entries]
    exact compact_distinct _ _
  · have same := (compact_spec ((BitTree.node none .nil .nil).putAll (entriesOf size routes)) none).same word
      fun other present => length ▸ (descend_routes present).1
    rw [Option.or_none, Option.or_none, BitTree.table_putAll] at same
    rw [entries, remaining, same, BitTree.table_root]
    rfl

theorem compactRoutes_emits (routes : List Route) (canonical : ∀ route ∈ routes, route.inetNetwork.Canonical) :
    ∃ four sixteen, compactRoutes routes = .ok (four ++ sixteen) ∧
      List.Forall₂ (Emits 4 []) (remaining 4 routes) four ∧
      List.Forall₂ (Emits 16 []) (remaining 16 routes) sixteen := by
  obtain ⟨four, fourRun, fourEmits⟩ := reduce_emits (.inl rfl) routes
  obtain ⟨sixteen, sixteenRun, sixteenEmits⟩ := reduce_emits (.inr rfl) routes
  have fourSame := sameDecisions_of_emits fourEmits
  have sixteenSame := sameDecisions_of_emits sixteenEmits
  have distinct : (four.routes ++ sixteen.routes).Nodup := by
    refine fourSame.nodup.append sixteenSame.nodup fun route inFour inSixteen => ?_
    have := fourSame.family route inFour
    have := sixteenSame.family route inSixteen
    omega
  refine ⟨four.routes, sixteen.routes, ?_, fourEmits, sixteenEmits⟩
  rw [compactRoutes, fillRoots_of_canonical routes {} canonical]
  simp only [fourRun, sixteenRun, bind, Except.bind, pure, Except.pure, toSet_of_nodup distinct]

theorem compactRoutes_spec (routes : List Route)
    (canonical : ∀ route ∈ routes, route.inetNetwork.Canonical) :
    ∃ compacted, compactRoutes routes = .ok compacted ∧
      ∀ listing : List Route, listing.Perm compacted → ∀ ip, lookup listing ip = lookup routes ip := by
  obtain ⟨four, sixteen, compacted, fourEmits, sixteenEmits⟩ := compactRoutes_emits routes canonical
  have fourSame := sameDecisions_of_emits fourEmits
  have sixteenSame := sameDecisions_of_emits sixteenEmits
  refine ⟨four ++ sixteen, compacted, fun listing perm ip => ?_⟩
  have listed : ∀ route ∈ listing, route.inetNetwork.Canonical := by
    intro route member
    rcases List.mem_append.mp (perm.mem_iff.mp member) with member | member
    · exact fourSame.canonical route member
    · exact sixteenSame.canonical route member
  rw [lookup_eq_lpm listing ip listed, lookup_eq_lpm routes ip canonical]
  have split (size : Nat) : (entriesOf size listing).Perm
      (entriesOf size four ++ entriesOf size sixteen) := by
    have := (perm.filter fun route => route.inetNetwork.address.address.length == size).map
      fun route => (route.inetNetwork.word, route.included)
    simpa [entriesOf] using this
  have length : (bits ip.address).length = 8 * ip.size := length_bits ip.address
  rcases ip.size_eq with size | size
  · have none := entriesOf_other (by decide : 16 ≠ 4) sixteenSame.family
    have perm := split 4
    rw [none, List.append_nil] at perm
    rw [IpAddress.size, size, ofEntries_perm fourSame.distinct perm]
    exact fourSame.same _ (by rw [length, IpAddress.size, size])
  · have none := entriesOf_other (by decide : 4 ≠ 16) fourSame.family
    have perm := split 16
    rw [none, List.nil_append] at perm
    rw [IpAddress.size, size, ofEntries_perm sixteenSame.distinct perm]
    exact sixteenSame.same _ (by rw [length, IpAddress.size, size])

theorem compactRoutes_refines_longest_prefix_match (routes : List Route) :
    ((∀ route ∈ routes, route.inetNetwork.Canonical) →
      ∃ compacted, compactRoutes routes = .ok compacted ∧
        ∀ listing : List Route, listing.Perm compacted → ∀ ip, lookup listing ip = lookup routes ip) ∧
    ((∃ route ∈ routes, ¬ route.inetNetwork.Canonical) →
      compactRoutes routes = .ok (toSet routes)) := by
  refine ⟨compactRoutes_spec routes, ?_⟩
  rintro ⟨route, member, rejected⟩
  rw [compactRoutes, fillRoots_of_rejected routes {} route member rejected]
  rfl

def siblingRoutes : List Route :=
  [⟨⟨inet4 0 0 0 0, 0⟩, true⟩, ⟨⟨inet4 10 0 0 0, 9⟩, false⟩, ⟨⟨inet4 10 128 0 0, 9⟩, false⟩]

theorem compactRoutes_siblings :
    (∀ route ∈ siblingRoutes, route.inetNetwork.Canonical) ∧
    ∃ compacted, compactRoutes siblingRoutes = .ok compacted ∧
      ∀ listing : List Route, listing.Perm compacted → ∀ ip,
        lookup listing ip = lookup siblingRoutes ip :=
  ⟨by decide, (compactRoutes_refines_longest_prefix_match siblingRoutes).1 (by decide)⟩

example : compactRoutes siblingRoutes =
    .ok [⟨⟨inet4 0 0 0 0, 0⟩, true⟩, ⟨⟨inet4 10 0 0 0, 8⟩, false⟩] := by decide

/-! ## Compaction of a compacted set, and the number of routes -/

theorem emits_unique : Relator.RightUnique (Emits size position) := by
  intro entry first second one two
  have network : first.inetNetwork = second.inetNetwork :=
    InetNetwork.eq_of_word one.canonical two.canonical (one.family.trans two.family.symm)
      (one.word.trans two.word.symm)
  exact Route.ext network (one.action.trans two.action.symm)

variable {four sixteen : List Route}

theorem entriesOf_emitted_append {fourEntries sixteenEntries : List (Word × Bool)}
    (fourEmits : List.Forall₂ (Emits 4 []) fourEntries four)
    (sixteenEmits : List.Forall₂ (Emits 16 []) sixteenEntries sixteen) :
    entriesOf 4 (four ++ sixteen) = fourEntries ∧ entriesOf 16 (four ++ sixteen) = sixteenEntries := by
  have parts (size : Nat) : entriesOf size (four ++ sixteen) = entriesOf size four ++ entriesOf size sixteen := by
    simp [entriesOf]
  have fourFamily : ∀ route ∈ four, route.inetNetwork.address.address.length = 4 := by
    intro route member
    obtain ⟨entry, emits⟩ := emits_of_mem fourEmits route member
    exact emits.family
  have sixteenFamily : ∀ route ∈ sixteen, route.inetNetwork.address.address.length = 16 := by
    intro route member
    obtain ⟨entry, emits⟩ := emits_of_mem sixteenEmits route member
    exact emits.family
  rw [parts, parts, entriesOf_emitted fourEmits, entriesOf_emitted sixteenEmits,
    entriesOf_other (by decide) sixteenFamily, entriesOf_other (by decide) fourFamily]
  simp

theorem remaining_of_entries {others : List Route}
    (same : entriesOf size others = remaining size routes) : remaining size others = remaining size routes := by
  rw [remaining, same, compact_root, remaining, compact_rebuild]

theorem compactRoutes_compacted (fourEmits : List.Forall₂ (Emits 4 []) (remaining 4 routes) four)
    (sixteenEmits : List.Forall₂ (Emits 16 []) (remaining 16 routes) sixteen) :
    compactRoutes (four ++ sixteen) = .ok (four ++ sixteen) := by
  obtain ⟨fourEntries, sixteenEntries⟩ := entriesOf_emitted_append fourEmits sixteenEmits
  have canonical : ∀ route ∈ four ++ sixteen, route.inetNetwork.Canonical := by
    intro route member
    rcases List.mem_append.mp member with member | member
    · obtain ⟨entry, emits⟩ := emits_of_mem fourEmits route member
      exact emits.canonical
    · obtain ⟨entry, emits⟩ := emits_of_mem sixteenEmits route member
      exact emits.canonical
  obtain ⟨fourAgain, sixteenAgain, compacted, fourSame, sixteenSame⟩ := compactRoutes_emits _ canonical
  rw [remaining_of_entries fourEntries] at fourSame
  rw [remaining_of_entries sixteenEntries] at sixteenSame
  rw [compacted, List.right_unique_forall₂' emits_unique fourSame fourEmits,
    List.right_unique_forall₂' emits_unique sixteenSame sixteenEmits]

def networksOf (size : Nat) (routes : List Route) : Finset InetNetwork :=
  (routes.map Route.inetNetwork).toFinset.filter fun network => network.address.address.length = size

theorem length_remaining_le (size : Nat) (routes : List Route) :
    (remaining size routes).length ≤ (networksOf size routes).card := by
  have listed : ((BitTree.node none .nil .nil).putAll (entriesOf size routes)).words.toFinset ⊆
      (networksOf size routes).image InetNetwork.word := by
    intro word member
    rw [List.mem_toFinset, BitTree.mem_words, BitTree.table_putAll, BitTree.table_root] at member
    obtain ⟨value, found⟩ := Option.ne_none_iff_exists'.mp member
    obtain ⟨route, inside, family, same⟩ := mem_entriesOf (mem_of_ofEntries found)
    refine Finset.mem_image.mpr ⟨route.inetNetwork, ?_, (congrArg Prod.fst same).symm⟩
    exact Finset.mem_filter.mpr ⟨List.mem_toFinset.mpr (List.mem_map_of_mem inside), family⟩
  calc (remaining size routes).length
      ≤ ((BitTree.node none .nil .nil).putAll (entriesOf size routes)).words.length := length_compact_le _ _
    _ = ((BitTree.node none .nil .nil).putAll (entriesOf size routes)).words.toFinset.card :=
        (List.toFinset_card_of_nodup (BitTree.words_nodup _)).symm
    _ ≤ ((networksOf size routes).image InetNetwork.word).card := Finset.card_le_card listed
    _ ≤ (networksOf size routes).card := Finset.card_image_le

theorem card_networksOf_le (routes : List Route) :
    (networksOf 4 routes).card + (networksOf 16 routes).card ≤ (routes.map Route.inetNetwork).toFinset.card := by
  have apart : Disjoint (networksOf 4 routes) (networksOf 16 routes) := by
    refine Finset.disjoint_filter.mpr fun network _ four sixteen => ?_
    omega
  rw [← Finset.card_union_of_disjoint apart]
  exact Finset.card_le_card (Finset.union_subset (Finset.filter_subset _ _) (Finset.filter_subset _ _))

theorem SameDecisions.networks_nodup
    (same : SameDecisions size routes reduced) : (reduced.map Route.inetNetwork).Nodup := by
  have all : (reduced.filter fun route => route.inetNetwork.address.address.length == size) = reduced := by
    apply List.filter_eq_self.mpr
    intro route member
    simpa using same.family route member
  have distinct := same.distinct
  have composed : (reduced.map fun route => (route.inetNetwork.word, route.included)).map Prod.fst =
      (reduced.map Route.inetNetwork).map InetNetwork.word := by simp
  rw [entriesOf, all, composed] at distinct
  exact distinct.of_map

theorem compactRoutes_idempotent_and_never_enlarges (routes : List Route) :
    ∃ compacted, compactRoutes routes = .ok compacted ∧ compactRoutes compacted = .ok compacted ∧
      ((∀ route ∈ routes, route.inetNetwork.Canonical) →
        compacted.length ≤ (routes.map Route.inetNetwork).toFinset.card ∧
          (compacted.map Route.inetNetwork).Nodup) := by
  by_cases canonical : ∀ route ∈ routes, route.inetNetwork.Canonical
  · obtain ⟨four, sixteen, compacted, fourEmits, sixteenEmits⟩ := compactRoutes_emits routes canonical
    have fourSame := sameDecisions_of_emits fourEmits
    have sixteenSame := sameDecisions_of_emits sixteenEmits
    refine ⟨four ++ sixteen, compacted, compactRoutes_compacted fourEmits sixteenEmits, fun _ => ⟨?_, ?_⟩⟩
    · have fourBound := length_remaining_le 4 routes
      have sixteenBound := length_remaining_le 16 routes
      have total := card_networksOf_le routes
      rw [List.length_append, ← fourEmits.length_eq, ← sixteenEmits.length_eq]
      omega
    · rw [List.map_append]
      refine fourSame.networks_nodup.append sixteenSame.networks_nodup fun network inFour inSixteen => ?_
      obtain ⟨first, firstMember, rfl⟩ := List.mem_map.mp inFour
      obtain ⟨second, secondMember, same⟩ := List.mem_map.mp inSixteen
      have := fourSame.family first firstMember
      have := sixteenSame.family second secondMember
      rw [same] at this
      omega
  · push Not at canonical
    obtain ⟨route, member, rejected⟩ := canonical
    have distinct : (toSet routes).Nodup := nodup_addAll List.nodup_nil routes
    refine ⟨toSet routes, ?_, ?_, fun all => absurd (all route member) rejected⟩
    · rw [compactRoutes, fillRoots_of_rejected routes {} route member rejected]
      rfl
    · rw [compactRoutes, fillRoots_of_rejected (toSet routes) {} route ((mem_toSet _ _).mpr member) rejected]
      simp only [pure, Except.pure, toSet_of_nodup distinct]

theorem compactRoutes_idempotent_sample : ∃ compacted, compactRoutes siblingRoutes = .ok compacted ∧
    compactRoutes compacted = .ok compacted ∧ compacted.length ≤ 3 ∧
    (compacted.map Route.inetNetwork).Nodup := by
  obtain ⟨compacted, first, again, bounds⟩ := compactRoutes_idempotent_and_never_enlarges siblingRoutes
  obtain ⟨count, distinct⟩ := bounds (by decide)
  exact ⟨compacted, first, again, Nat.le_trans count (by decide), distinct⟩

end Amnezia.Android
