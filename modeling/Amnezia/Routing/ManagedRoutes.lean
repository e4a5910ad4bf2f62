import Amnezia.Ipc.ProcessArguments
import Mathlib.Algebra.Ring.Nat
import Mathlib.Data.List.Nodup

/-! # Managed IPv4 routes -/

namespace Amnezia.Routing
open Ipc (Text trimmed isSpace isBlank utf16Size toInt number)

abbrev Ipv4 := BitVec 32

-- `QHostAddress::protocol`, with the address where it is read.
inductive Host where
  | unknown
  | ipv4 (address : Ipv4)
  | ipv6
  deriving DecidableEq

def octet (address : Ipv4) (index : Nat) : Nat := (address >>> (8 * index)).toNat % 256

def dotted (address : Ipv4) : Text :=
  ['.'].intercalate [Nat.toDigits 10 (octet address 3), Nat.toDigits 10 (octet address 2),
    Nat.toDigits 10 (octet address 1), Nat.toDigits 10 (octet address 0)]

/-- The parts of Qt that the policy calls: `QHostAddress` of a text, `QUrl::toAce`, `QChar::isDigit`,
and `QString::toLower`, which maps each character on its own. -/
structure Qt where
  host : Text → Host
  toAce : Text → Text
  isDigit : Char → Bool
  lower : Char → Text
  host_dotted : ∀ address, host (dotted address) = .ipv4 address
  lower_ne_nil : ∀ char, lower char ≠ []
  lower_lower : ∀ char, ∀ small ∈ lower char, lower small = [small]
  isSpace_lower : ∀ char, ∀ small ∈ lower char, isSpace small = isSpace char
  lower_ascii : ∀ char, char.toNat < 128 → lower char = [char.toLower]

variable (qt : Qt)

def Qt.toLower (text : Text) : Text := text.flatMap qt.lower

def maximumSiteCount : Nat := 4096

def maximumRoutesPerSite : Nat := 64

def maximumTotalRouteCount : Nat := 4096

def maximumStoredRouteValueLength : Nat := 4096

def maximumSiteKeyLength : Nat := 253

def maximumRouteTokenLength : Nat := 18

/-! ## Routes -/

def ipv4Mask (prefixLength : Nat) : Ipv4 :=
  if prefixLength = 0 then 0 else 0xffffffff <<< (32 - prefixLength)

def parsePrefix (text : Text) : Option Nat :=
  match toInt text with
  | none => none
  | some length => if 0 ≤ length ∧ length ≤ 32 ∧ number length = text then some length.toNat else none

def parseCanonicalIpv4Route (value : Text) : Option (Ipv4 × Nat) :=
  let route := trimmed value
  if utf16Size route > maximumRouteTokenLength then none
  else
    let parts := route.splitOn '/'
    let first := parts.headD []
    if parts.length > 2 ∨ first = [] then none
    else
      match qt.host first with
      | .ipv4 address =>
        if dotted address ≠ first then none
        else
          match (if parts.length = 2 then parsePrefix (parts.getD 1 []) else some 32) with
          | none => none
          | some length => if address &&& ipv4Mask length = address then some (address, length) else none
      | _ => none

def ipv4RouteOverlapsRange (address : Ipv4) (prefixLength : Nat) (rangeBase : Ipv4) (rangePrefixLength : Nat) :
    Bool :=
  let routeStart := address &&& ipv4Mask prefixLength
  let routeEnd := routeStart ||| ~~~ipv4Mask prefixLength
  let rangeStart := rangeBase &&& ipv4Mask rangePrefixLength
  let rangeEnd := rangeStart ||| ~~~ipv4Mask rangePrefixLength
  routeStart ≤ rangeEnd && rangeStart ≤ routeEnd

def ipv4RouteIsWithinRange (address : Ipv4) (prefixLength : Nat) (rangeBase : Ipv4) (rangePrefixLength : Nat) :
    Bool :=
  if prefixLength < rangePrefixLength then false
  else address &&& ipv4Mask rangePrefixLength = rangeBase &&& ipv4Mask rangePrefixLength

def isLoopback (address : Ipv4) : Bool := ipv4RouteIsWithinRange address 32 0x7f000000 8

def isBroadcast (address : Ipv4) : Bool := address = 0xffffffff

def isLinkLocal (address : Ipv4) : Bool := ipv4RouteIsWithinRange address 32 0xa9fe0000 16

def isMulticast (address : Ipv4) : Bool := ipv4RouteIsWithinRange address 32 0xe0000000 4

def forbiddenRanges : List (Ipv4 × Nat) :=
  [(0x00000000, 8), (0x7f000000, 8), (0x64400000, 10), (0xa9fe0000, 16), (0xc0000000, 24),
    (0xc0000200, 24), (0xc01f0000, 24), (0xc01fc400, 24), (0xc034c100, 24), (0xc0586300, 24),
    (0xc0af3000, 24), (0xc6120000, 15), (0xc6336400, 24), (0xcb007100, 24), (0xe0000000, 4),
    (0xf0000000, 4)]

def privateRanges : List (Ipv4 × Nat) := [(0x0a000000, 8), (0xac100000, 12), (0xc0a80000, 16)]

def isAllowedRoute (address : Ipv4) (prefixLength : Nat) : Bool :=
  prefixLength ≠ 0 &&
    !(isLoopback address || isBroadcast address || isLinkLocal address || isMulticast address) &&
    !(forbiddenRanges.any fun range => ipv4RouteOverlapsRange address prefixLength range.1 range.2) &&
    ((privateRanges.any fun range => ipv4RouteIsWithinRange address prefixLength range.1 range.2) ||
      16 ≤ prefixLength)

def isAllowedManagedIpv4Route (value : Text) : Bool :=
  match parseCanonicalIpv4Route qt value with
  | none => false
  | some (address, prefixLength) => isAllowedRoute address prefixLength

def routeText (address : Ipv4) (prefixLength : Nat) : Text :=
  if prefixLength = 32 then dotted address else dotted address ++ '/' :: number prefixLength

-- The empty string of the source is `none`.
def canonicalManagedIpv4Route (value : Text) : Option Text :=
  if isAllowedManagedIpv4Route qt value then
    match parseCanonicalIpv4Route qt value with
    | none => none
    | some (address, prefixLength) => some (routeText address prefixLength)
  else none

def collectRoutes (routes : List Text) : List Text → Option (List Text)
  | [] => some routes
  | value :: rest =>
    match canonicalManagedIpv4Route qt value with
    | none => none
    | some route => collectRoutes (if route ∈ routes then routes else routes ++ [route]) rest

-- `[,;\s]`
def isSeparator (char : Char) : Bool := char = ',' || char = ';' || isBlank char

def splitTokens (value : Text) : List Text := (value.splitOnP isSeparator).filter (· ≠ [])

def validatedManagedRouteTokens (value : Text) : Option (List Text) :=
  if utf16Size value > maximumStoredRouteValueLength then none
  else if (splitTokens value).length > maximumRoutesPerSite then none
  else collectRoutes qt [] (splitTokens value)

def validatedManagedRoutes (values : List Text) : Option (List Text) :=
  if values.length > maximumTotalRouteCount then none else collectRoutes qt [] values

/-! ## Site keys -/

-- `^[a-z0-9](?:[a-z0-9-]{0,61}[a-z0-9])?$`; `$` also matches before a line feed at the end.
def isLabel (label : Text) : Bool :=
  let body := if label.getLast? = some '\n' then label.dropLast else label
  let inner := fun char : Char => char.isLower || char.isDigit
  body ≠ [] && body.length ≤ 63 && body.all (fun char => inner char || char = '-') &&
    body.head?.all inner && body.getLast?.all inner

def isAllowedManagedSiteKey (rawSite : Text) : Bool :=
  let site := qt.toLower (trimmed rawSite)
  if site = [] ∨ utf16Size site > maximumSiteKeyLength then false
  else if '/' ∈ site ∨ qt.host site ≠ .unknown then isAllowedManagedIpv4Route qt site
  else
    let hostname := qt.toLower (qt.toAce site)
    hostname ≠ [] && utf16Size hostname ≤ maximumSiteKeyLength &&
      (hostname.splitOn '.').all fun label => utf16Size label ≤ 63 && isLabel label

/-! ## Text of a route -/

variable {text value route : Text} {char : Char} {address : Ipv4} {length : Nat}
variable {routes : List Text}

theorem utf16Size_eq_length (narrow : ∀ char ∈ text, char.toNat < 0x10000) :
    utf16Size text = text.length := by
  have counted (rest : Text) (start : Nat) (narrow : ∀ char ∈ rest, char.toNat < 0x10000) :
      rest.foldl (fun size char => size + if char.toNat < 0x10000 then 1 else 2) start = start + rest.length := by
    induction rest generalizing start with
    | nil => rfl
    | cons char rest ih =>
      rw [List.foldl_cons, if_pos (narrow char List.mem_cons_self),
        ih _ fun other listed => narrow other (List.mem_cons_of_mem _ listed), List.length_cons]
      omega
  rw [utf16Size, counted text 0 narrow, Nat.zero_add]

theorem trimmed_of_ends (front : ∀ char ∈ text.head?, isSpace char = false)
    (back : ∀ char ∈ text.getLast?, isSpace char = false) : trimmed text = text := by
  have kept : text.dropWhile isSpace = text := by
    cases text with
    | nil => rfl
    | cons first rest => rw [List.dropWhile_cons, front first rfl, if_neg Bool.false_ne_true]
  rw [trimmed, kept, List.rdropWhile_eq_self_iff]
  intro filled
  rw [back _ (List.getLast?_eq_getLast_of_ne_nil filled)]
  exact Bool.false_ne_true

theorem trimmed_eq_self (full : ∀ char ∈ text, isSpace char = false) : trimmed text = text :=
  trimmed_of_ends (fun char first => full char (List.mem_of_head? first))
    fun char last => full char (List.mem_of_getLast? last)

theorem head_trimmed (first : (trimmed text).head? = some char) :
    isSpace char = false := by
  obtain ⟨rest, whole⟩ := List.head?_eq_some_iff.mp first
  obtain ⟨back, parts⟩ : trimmed text <+: text.dropWhile isSpace := List.rdropWhile_prefix isSpace _
  have kept := List.head?_dropWhile_not isSpace text
  rw [← parts, whole] at kept
  exact kept

theorem getLast_trimmed (last : (trimmed text).getLast? = some char) :
    isSpace char = false := by
  have filled : trimmed text ≠ [] := by
    intro empty
    rw [empty] at last
    cases last
  have kept := List.rdropWhile_last_not isSpace (text.dropWhile isSpace) filled
  rw [List.getLast?_eq_getLast_of_ne_nil filled] at last
  rw [← Option.some.inj last]
  exact Bool.eq_false_iff.mpr kept

theorem trimmed_trimmed (text : Text) : trimmed (trimmed text) = trimmed text :=
  trimmed_of_ends (fun _ first => head_trimmed first) fun _ last => getLast_trimmed last

theorem octet_lt (address : Ipv4) (index : Nat) : octet address index < 256 := Nat.mod_lt _ (by decide)

theorem digits_of_octet : ∀ value < 256, Nat.toDigits 10 value ≠ [] ∧ (Nat.toDigits 10 value).length ≤ 3 ∧
    (Nat.toDigits 10 value).all Char.isDigit = true := by
  decide +kernel

def isRouteChar (char : Char) : Bool := char.isDigit || char = '.' || char = '/'

section

variable (inside : isRouteChar char = true)
include inside

theorem isRouteChar_range :
    46 ≤ char.toNat ∧ char.toNat ≤ 57 := by
  simp only [isRouteChar, Bool.or_eq_true, decide_eq_true_eq] at inside
  rcases inside with (digit | rfl) | rfl
  · have range : 48 ≤ char.toNat ∧ char.toNat ≤ 57 := Char.isDigit_iff_toNat.mp digit
    omega
  · decide
  · decide

theorem isBlank_of_isRouteChar : isBlank char = false := by
  have range := isRouteChar_range inside
  have notSpace : char ≠ ' ' := by
    rintro rfl
    exact absurd range (by decide)
  simp only [isBlank, notSpace, decide_false, Bool.false_or, Bool.and_eq_false_iff, decide_eq_false_iff_not]
  omega

theorem isSpace_of_isRouteChar : isSpace char = false := by
  have range := isRouteChar_range inside
  simp only [isSpace, isBlank_of_isRouteChar inside, Bool.false_or, Bool.or_eq_false_iff, List.mem_cons,
    List.not_mem_nil, decide_eq_false_iff_not, Bool.and_eq_false_iff, or_false]
  omega

theorem isSeparator_of_isRouteChar :
    isSeparator char = false := by
  have range := isRouteChar_range inside
  have notComma : char ≠ ',' := by
    rintro rfl
    exact absurd range (by decide)
  have notSemicolon : char ≠ ';' := by
    rintro rfl
    exact absurd range (by decide)
  simp [isSeparator, isBlank_of_isRouteChar inside, notComma, notSemicolon]

end

theorem dotted_eq (address : Ipv4) : dotted address =
    Nat.toDigits 10 (octet address 3) ++ '.' :: (Nat.toDigits 10 (octet address 2) ++ '.' ::
      (Nat.toDigits 10 (octet address 1) ++ '.' :: Nat.toDigits 10 (octet address 0))) := by
  simp [dotted, List.intercalate]

theorem mem_dotted (inside : char ∈ dotted address) :
    char.isDigit = true ∨ char = '.' := by
  have digits (index : Nat) (listed : char ∈ Nat.toDigits 10 (octet address index)) : char.isDigit = true :=
    List.all_eq_true.mp (digits_of_octet _ (octet_lt address index)).2.2 char listed
  simp only [dotted_eq, List.mem_append, List.mem_cons] at inside
  rcases inside with third | rfl | second | rfl | first | rfl | last
  · exact .inl (digits 3 third)
  · exact .inr rfl
  · exact .inl (digits 2 second)
  · exact .inr rfl
  · exact .inl (digits 1 first)
  · exact .inr rfl
  · exact .inl (digits 0 last)

theorem length_dotted_le (address : Ipv4) : (dotted address).length ≤ 15 := by
  have third := (digits_of_octet _ (octet_lt address 3)).2.1
  have second := (digits_of_octet _ (octet_lt address 2)).2.1
  have first := (digits_of_octet _ (octet_lt address 1)).2.1
  have last := (digits_of_octet _ (octet_lt address 0)).2.1
  simp only [dotted_eq, List.length_append, List.length_cons]
  omega

theorem dotted_ne_nil (address : Ipv4) : dotted address ≠ [] := by
  simp [dotted_eq]

theorem slash_notMem_dotted (address : Ipv4) : '/' ∉ dotted address := by
  intro inside
  rcases mem_dotted inside with digit | dot
  · exact absurd digit (by decide)
  · exact absurd dot (by decide)

theorem prefix_text : ∀ length ≤ 32, parsePrefix (number (length : Nat)) = some length ∧
    (number (length : Nat)).length ≤ 2 ∧ (number (length : Nat)).all Char.isDigit = true := by
  decide +kernel

theorem mem_routeText (fits : length ≤ 32)
    (inside : char ∈ routeText address length) : isRouteChar char = true := by
  have inDotted (listed : char ∈ dotted address) : isRouteChar char = true := by
    rcases mem_dotted listed with digit | rfl
    · simp [isRouteChar, digit]
    · rfl
  unfold routeText at inside
  split at inside
  · exact inDotted inside
  · rcases List.mem_append.mp inside with host | rest
    · exact inDotted host
    · rcases List.mem_cons.mp rest with rfl | digit
      · rfl
      · simp [isRouteChar, List.all_eq_true.mp (prefix_text length fits).2.2 char digit]

theorem length_routeText_le (fits : length ≤ 32) :
    (routeText address length).length ≤ 18 := by
  have host := length_dotted_le address
  have digits := (prefix_text length fits).2.1
  unfold routeText
  split
  · omega
  · rw [List.length_append, List.length_cons]
    omega

theorem routeText_ne_nil (address : Ipv4) (length : Nat) : routeText address length ≠ [] := by
  unfold routeText
  split
  · exact dotted_ne_nil address
  · exact List.append_ne_nil_of_left_ne_nil (dotted_ne_nil address) _

theorem utf16Size_of_routeChars (chars : ∀ char ∈ text, isRouteChar char = true) :
    utf16Size text = text.length := by
  refine utf16Size_eq_length fun char listed => ?_
  have range := isRouteChar_range (chars char listed)
  omega

theorem splitOn_dotted (address : Ipv4) : (dotted address).splitOn '/' = [dotted address] := by
  rw [List.splitOn_eq_splitOnP, List.splitOnP_eq_singleton]
  intro char listed
  exact beq_false_of_ne fun same => slash_notMem_dotted address (same ▸ listed)

theorem splitOn_subnet (address : Ipv4) (fits : length ≤ 32) :
    (dotted address ++ '/' :: number length).splitOn '/' = [dotted address, number length] := by
  have noSlash : '/' ∉ number (length : Int) := by
    intro listed
    exact absurd (List.all_eq_true.mp (prefix_text length fits).2.2 _ listed) (by decide)
  rw [List.splitOn_eq_splitOnP, List.splitOnP_append_cons_of_forall_mem]
  · rw [List.splitOnP_eq_singleton]
    intro char listed
    exact beq_false_of_ne fun same => noSlash (same ▸ listed)
  · intro char listed
    exact beq_false_of_ne fun same => slash_notMem_dotted address (same ▸ listed)
  · rfl

/-! ## A canonical route is read back -/

variable {qt}

theorem parse_routeText (fits : length ≤ 32)
    (aligned : address &&& ipv4Mask length = address) :
    parseCanonicalIpv4Route qt (routeText address length) = some (address, length) := by
  have chars : ∀ char ∈ routeText address length, isRouteChar char = true := fun _ => mem_routeText fits
  have whole : trimmed (routeText address length) = routeText address length :=
    trimmed_eq_self fun char listed => isSpace_of_isRouteChar (chars char listed)
  have short : ¬utf16Size (routeText address length) > maximumRouteTokenLength := by
    rw [utf16Size_of_routeChars chars]
    exact Nat.not_lt.mpr (length_routeText_le fits)
  unfold parseCanonicalIpv4Route
  dsimp only
  rw [whole, if_neg short]
  by_cases full : length = 32
  · subst full
    simp [routeText, splitOn_dotted, dotted_ne_nil, qt.host_dotted, aligned]
  · simp [routeText, full, splitOn_subnet address fits, dotted_ne_nil, qt.host_dotted, aligned,
      (prefix_text length fits).1]

theorem parsePrefix_le (parsed : parsePrefix text = some length) : length ≤ 32 := by
  unfold parsePrefix at parsed
  split at parsed
  · cases parsed
  · split at parsed
    · next range =>
      cases parsed
      omega
    · cases parsed

theorem parse_some (parsed : parseCanonicalIpv4Route qt value = some (address, length)) :
    length ≤ 32 ∧ address &&& ipv4Mask length = address := by
  unfold parseCanonicalIpv4Route at parsed
  dsimp only at parsed
  split at parsed
  · cases parsed
  split at parsed
  · cases parsed
  split at parsed
  · split at parsed
    · cases parsed
    split at parsed
    · cases parsed
    next found =>
    split at parsed
    · next aligned =>
      cases parsed
      refine ⟨?_, aligned⟩
      split at found
      · exact parsePrefix_le found
      · cases found
        exact Nat.le_refl 32
    · cases parsed
  · cases parsed

theorem canonical_eq_some : canonicalManagedIpv4Route qt value = some route ↔
    ∃ address length, parseCanonicalIpv4Route qt value = some (address, length) ∧
      isAllowedRoute address length = true ∧ route = routeText address length := by
  unfold canonicalManagedIpv4Route isAllowedManagedIpv4Route
  cases parsed : parseCanonicalIpv4Route qt value with
  | none => simp
  | some found =>
    obtain ⟨address, length⟩ := found
    dsimp only
    constructor
    · intro canonical
      split at canonical
      · next allowed => exact ⟨address, length, rfl, allowed, (Option.some.inj canonical).symm⟩
      · cases canonical
    · rintro ⟨_, _, same, allowed, rfl⟩
      cases same
      rw [if_pos allowed]

theorem canonical_canonical (canonical : canonicalManagedIpv4Route qt value = some route) :
    canonicalManagedIpv4Route qt route = some route := by
  obtain ⟨address, length, parsed, allowed, rfl⟩ := canonical_eq_some.mp canonical
  obtain ⟨fits, aligned⟩ := parse_some parsed
  exact canonical_eq_some.mpr ⟨address, length, parse_routeText fits aligned, allowed, rfl⟩

theorem allowed_of_canonical (canonical : canonicalManagedIpv4Route qt value = some route) :
    isAllowedManagedIpv4Route qt value = true := by
  unfold canonicalManagedIpv4Route at canonical
  split at canonical
  · next allowed => exact allowed
  · cases canonical

structure Spelling (route : Text) : Prop where
  filled : route ≠ []
  short : route.length ≤ 18
  chars : ∀ char ∈ route, isRouteChar char = true

theorem spelling_of_canonical (canonical : canonicalManagedIpv4Route qt value = some route) :
    Spelling route := by
  obtain ⟨address, length, parsed, _, rfl⟩ := canonical_eq_some.mp canonical
  have fits := (parse_some parsed).1
  exact ⟨routeText_ne_nil address length, length_routeText_le fits, fun _ => mem_routeText fits⟩

/-! ## Lists of routes -/

def joined (routes : List Text) : Text := [',', ' '].intercalate routes

structure RouteList (qt : Qt) (routes : List Text) : Prop where
  distinct : routes.Nodup
  canonical : ∀ route ∈ routes, canonicalManagedIpv4Route qt route = some route

theorem collectRoutes_cons (routes : List Text) (value : Text) (rest : List Text) :
    collectRoutes qt routes (value :: rest) =
      match canonicalManagedIpv4Route qt value with
      | none => none
      | some route => collectRoutes qt (if route ∈ routes then routes else routes ++ [route]) rest := rfl

variable {known values : List Text}

theorem collectRoutes_some (start : RouteList qt known)
    (collected : collectRoutes qt known values = some routes) :
    RouteList qt routes ∧ routes.length ≤ known.length + values.length ∧
      ∀ route, route ∈ routes ↔
        route ∈ known ∨ ∃ value ∈ values, canonicalManagedIpv4Route qt value = some route := by
  induction values generalizing known with
  | nil =>
    cases collected
    exact ⟨start, Nat.le_refl _, fun route => by simp⟩
  | cons value rest ih =>
    rw [collectRoutes_cons] at collected
    split at collected
    · cases collected
    next route canonical =>
    split at collected
    · next old =>
      obtain ⟨list, bound, members⟩ := ih start collected
      refine ⟨list, by rw [List.length_cons]; omega, fun other => ?_⟩
      rw [members other]
      constructor
      · rintro (known | ⟨value, listed, same⟩)
        · exact .inl known
        · exact .inr ⟨value, List.mem_cons_of_mem _ listed, same⟩
      · rintro (known | ⟨value, listed, same⟩)
        · exact .inl known
        · rcases List.mem_cons.mp listed with rfl | later
          · rw [canonical] at same
            exact .inl (Option.some.inj same ▸ old)
          · exact .inr ⟨value, later, same⟩
    · next new =>
      have grown : RouteList qt (known ++ [route]) := by
        refine ⟨List.nodup_append.mpr ⟨start.distinct, List.nodup_singleton _, ?_⟩, ?_⟩
        · intro first old second last same
          exact new (List.mem_singleton.mp last ▸ same ▸ old)
        · intro other listed
          rcases List.mem_append.mp listed with old | last
          · exact start.canonical other old
          · rw [List.mem_singleton.mp last]
            exact canonical_canonical canonical
      obtain ⟨list, bound, members⟩ := ih grown collected
      rw [List.length_append, List.length_singleton] at bound
      refine ⟨list, by rw [List.length_cons]; omega, fun other => ?_⟩
      rw [members other, List.mem_append, List.mem_singleton]
      constructor
      · rintro ((known | rfl) | ⟨value, listed, same⟩)
        · exact .inl known
        · exact .inr ⟨value, List.mem_cons_self, canonical⟩
        · exact .inr ⟨value, List.mem_cons_of_mem _ listed, same⟩
      · rintro (known | ⟨value, listed, same⟩)
        · exact .inl (.inl known)
        · rcases List.mem_cons.mp listed with rfl | later
          · rw [canonical] at same
            exact .inl (.inr (Option.some.inj same).symm)
          · exact .inr ⟨value, later, same⟩

theorem collectRoutes_self (list : RouteList qt (known ++ values)) :
    collectRoutes qt known values = some (known ++ values) := by
  induction values generalizing known with
  | nil => rw [List.append_nil]; rfl
  | cons route rest ih =>
    have fresh : route ∉ known := by
      intro old
      exact (List.nodup_append.mp list.distinct).2.2 route old route List.mem_cons_self rfl
    rw [collectRoutes_cons, list.canonical route (List.mem_append_right _ List.mem_cons_self)]
    dsimp only
    have same : known ++ route :: rest = known ++ [route] ++ rest := List.append_cons known route rest
    rw [if_neg fresh, same]
    exact ih (same ▸ list)

theorem routeList_nil : RouteList qt [] := ⟨List.nodup_nil, fun _ listed => absurd listed List.not_mem_nil⟩

/-! ### A joined list is read back -/

theorem joined_singleton (route : Text) : joined [route] = route := by
  simp [joined, List.intercalate]

theorem joined_cons_cons (first second : Text) (rest : List Text) :
    joined (first :: second :: rest) = first ++ ',' :: ' ' :: joined (second :: rest) := by
  simp [joined, List.intercalate]

section

variable (spelled : ∀ route ∈ routes, Spelling route)
include spelled

theorem splitTokens_joined :
    splitTokens (joined routes) = routes := by
  induction routes with
  | nil => rfl
  | cons route rest ih =>
    have first := spelled route List.mem_cons_self
    have plain : ∀ char ∈ route, isSeparator char = false :=
      fun char listed => isSeparator_of_isRouteChar (first.chars char listed)
    have later := ih fun other listed => spelled other (List.mem_cons_of_mem _ listed)
    cases rest with
    | nil =>
      rw [joined_singleton, splitTokens, List.splitOnP_eq_singleton plain]
      simp [first.filled]
    | cons second others =>
      have blank : isSeparator ' ' = true := rfl
      rw [joined_cons_cons, splitTokens, List.splitOnP_append_cons_of_forall_mem plain ',' rfl,
        List.splitOnP_cons_eq_if_modifyHead, if_pos blank]
      rw [splitTokens] at later
      rw [List.filter_cons_of_pos (by simpa using first.filled), List.filter_cons_of_neg (by simp), later]

theorem joined_narrow :
    ∀ char ∈ joined routes, char.toNat < 0x10000 := by
  induction routes with
  | nil => exact fun char listed => absurd listed List.not_mem_nil
  | cons route rest ih =>
    have narrow : ∀ char ∈ route, char.toNat < 0x10000 := by
      intro char listed
      have range := isRouteChar_range ((spelled route List.mem_cons_self).chars char listed)
      omega
    have later := ih fun other listed => spelled other (List.mem_cons_of_mem _ listed)
    cases rest with
    | nil => rwa [joined_singleton]
    | cons second others =>
      rw [joined_cons_cons]
      intro char listed
      simp only [List.mem_append, List.mem_cons] at listed
      rcases listed with here | rfl | rfl | there
      · exact narrow char here
      · decide
      · decide
      · exact later char there

theorem length_joined_le : (joined routes).length ≤ 20 * routes.length := by
  induction routes with
  | nil => exact Nat.le_refl 0
  | cons route rest ih =>
    have short := (spelled route List.mem_cons_self).short
    have later := ih fun other listed => spelled other (List.mem_cons_of_mem _ listed)
    cases rest with
    | nil =>
      rw [joined_singleton, List.length_singleton]
      omega
    | cons second others =>
      rw [joined_cons_cons]
      simp only [List.length_append, List.length_cons] at later ⊢
      omega

end

theorem validatedTokens_some (validated : validatedManagedRouteTokens qt value = some routes) :
    RouteList qt routes ∧ routes.length ≤ maximumRoutesPerSite ∧
      ∀ route, route ∈ routes ↔ ∃ token ∈ splitTokens value, canonicalManagedIpv4Route qt token = some route := by
  unfold validatedManagedRouteTokens at validated
  split at validated
  · cases validated
  split at validated
  · cases validated
  next count =>
  obtain ⟨list, bound, members⟩ := collectRoutes_some routeList_nil validated
  rw [List.length_nil, Nat.zero_add] at bound
  refine ⟨list, Nat.le_trans bound (Nat.le_of_not_lt count), fun route => ?_⟩
  rw [members route]
  simp

theorem validatedTokens_joined (list : RouteList qt routes)
    (bound : routes.length ≤ maximumRoutesPerSite) :
    validatedManagedRouteTokens qt (joined routes) = some routes := by
  have spelled : ∀ route ∈ routes, Spelling route :=
    fun route listed => spelling_of_canonical (list.canonical route listed)
  have size : utf16Size (joined routes) ≤ maximumStoredRouteValueLength := by
    rw [utf16Size_eq_length (joined_narrow spelled)]
    have long := length_joined_le spelled
    unfold maximumRoutesPerSite at bound
    unfold maximumStoredRouteValueLength
    omega
  unfold validatedManagedRouteTokens
  rw [if_neg (Nat.not_lt.mpr size), splitTokens_joined spelled, if_neg (Nat.not_lt.mpr bound)]
  exact collectRoutes_self list

/-! ## An instance that reads ASCII -/

def readOctet (text : Text) : Option Nat := (List.range 256).find? fun value => Nat.toDigits 10 value = text

def readDotted (text : Text) : Host :=
  match (text.splitOn '.').map readOctet with
  | [some third, some second, some first, some last] =>
    .ipv4 (BitVec.ofNat 32 (third * 2 ^ 24 + second * 2 ^ 16 + first * 2 ^ 8 + last))
  | _ => .unknown

theorem readOctet_digits {value : Nat} (small : value < 256) : readOctet (Nat.toDigits 10 value) = some value := by
  refine List.find?_range_eq_some.mpr ⟨decide_eq_true rfl, List.mem_range.mpr small, fun other below => ?_⟩
  have differs : Nat.toDigits 10 other ≠ Nat.toDigits 10 value := by
    intro same
    have equal := congrArg (Nat.ofDigitChars 10 · 0) same
    simp only [Nat.ofDigitChars_ten_toDigits] at equal
    omega
  simp [differs]

theorem readDotted_dotted (address : Ipv4) : readDotted (dotted address) = .ipv4 address := by
  have noDot (index : Nat) : '.' ∉ Nat.toDigits 10 (octet address index) := by
    intro listed
    have digit := List.all_eq_true.mp (digits_of_octet _ (octet_lt address index)).2.2 _ listed
    exact absurd digit (by decide)
  have parts : (dotted address).splitOn '.' = [Nat.toDigits 10 (octet address 3), Nat.toDigits 10 (octet address 2),
      Nat.toDigits 10 (octet address 1), Nat.toDigits 10 (octet address 0)] := by
    refine List.splitOn_intercalate '.' ?_ nofun
    intro part listed
    simp only [List.mem_cons, List.not_mem_nil, or_false] at listed
    rcases listed with rfl | rfl | rfl | rfl
    · exact noDot 3
    · exact noDot 2
    · exact noDot 1
    · exact noDot 0
  have read (index : Nat) : readOctet (Nat.toDigits 10 (octet address index)) = some (octet address index) :=
    readOctet_digits (octet_lt address index)
  unfold readDotted
  rw [parts]
  simp only [List.map_cons, List.map_nil, read, Host.ipv4.injEq]
  apply BitVec.eq_of_toNat_eq
  have bound := address.isLt
  simp only [octet, BitVec.toNat_ofNat, BitVec.toNat_ushiftRight, Nat.shiftRight_eq_div_pow]
  omega

def asciiLower (char : Char) : Char := if char.toNat < 128 then char.toLower else char

theorem asciiLower_ofNat : ∀ code < 128, (asciiLower (Char.ofNat code)).toNat < 128 ∧
    asciiLower (asciiLower (Char.ofNat code)) = asciiLower (Char.ofNat code) ∧
    isSpace (asciiLower (Char.ofNat code)) = isSpace (Char.ofNat code) := by
  decide +kernel

theorem asciiLower_spec (char : Char) : asciiLower (asciiLower char) = asciiLower char ∧
    isSpace (asciiLower char) = isSpace char := by
  by_cases ascii : char.toNat < 128
  · have known := asciiLower_ofNat char.toNat ascii
    rw [Char.ofNat_toNat] at known
    exact known.2
  · have fixed : asciiLower char = char := if_neg ascii
    rw [fixed, fixed]
    exact ⟨rfl, rfl⟩

def asciiQt : Qt where
  host := readDotted
  toAce := id
  isDigit := Char.isDigit
  lower char := [asciiLower char]
  host_dotted := readDotted_dotted
  lower_ne_nil _ := List.cons_ne_nil _ _
  lower_lower char small inside := by
    rw [List.mem_singleton.mp inside, (asciiLower_spec char).1]
  isSpace_lower char small inside := by
    rw [List.mem_singleton.mp inside, (asciiLower_spec char).2]
  lower_ascii char ascii := by
    rw [asciiLower, if_pos ascii]

end Amnezia.Routing
