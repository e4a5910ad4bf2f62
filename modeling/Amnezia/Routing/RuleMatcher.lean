import Amnezia.Routing.ManagedRoutes
import Mathlib.Data.Finset.Card

/-! # Which rule covers an address -/

namespace Amnezia.Routing
open Ipc (Text trimmed isSpace utf16Size toInt number literal)

/-! ## What is asked of Qt -/

-- `QHostAddress`, an IPv6 address with its scope id.
inductive HostAddress where
  | null
  | ipv4 (address : Ipv4)
  | ipv6 (address : BitVec 128) (scopeId : Text)
  deriving DecidableEq

def HostAddress.protocol : HostAddress → Host
  | .null => .unknown
  | .ipv4 address => .ipv4 address
  | .ipv6 _ _ => .ipv6

inductive Category where
  | control | format | privateUse | notAssigned | other
  deriving DecidableEq

/-- What the matcher calls of Qt besides: `QHostAddress` of a text, its texts, `parseSubnet` (`none` for
the prefix -1), the host of a valid `QUrl` in strict mode and `QChar::category`. -/
structure RuleQt extends Qt where
  setAddress : Text → HostAddress
  ipv6Text : BitVec 128 → Text → Text
  parseSubnet : Text → Option (HostAddress × Nat)
  urlHost : Text → Option Text
  category : Char → Category
  host_eq : ∀ text, host text = (setAddress text).protocol
  setAddress_nil : setAddress [] = .null

variable (qt : RuleQt)

def addressText : HostAddress → Text
  | .null => []
  | .ipv4 address => dotted address
  | .ipv6 address scopeId => qt.ipv6Text address scopeId

def isInSubnet : HostAddress → HostAddress → Nat → Bool
  | .ipv4 address, .ipv4 subnet, netmask => address >>> (32 - netmask) = subnet >>> (32 - netmask)
  | .ipv6 address _, .ipv6 subnet _, netmask => address >>> (128 - netmask) = subnet >>> (128 - netmask)
  | _, _, _ => false

-- `QString::left` counts UTF-16 units. A character that the limit cuts in two belongs to a token that is
-- cut as well.
def left (limit : Nat) : Text → Text
  | [] => []
  | char :: rest =>
    let units := if char.toNat < 0x10000 then 1 else 2
    if limit < units then [] else char :: left (limit - units) rest

/-! ## Limits and results -/

def maximumInputLength : Nat := 2048

def maximumHostLength : Nat := 253

def maximumRuleOutputLength : Nat := 255

def maximumStoredRouteLength : Nat := 128

def maximumStoredRoutesPerRule : Nat := 64

def maximumMatchedValueLength : Nat := 2048

def maximumRawStoredValueLength : Nat := 4096

def maximumRulesPerSource : Nat := 512

def maximumManagedRulesPerSource : Nat := 4096

example : maximumManagedRulesPerSource = maximumTotalRouteCount := rfl

def resolvedAddressScoreBase : Nat := 7000

def addressScoreBase : Nat := 8000

def domainScoreBase : Nat := 10032

inductive InputPolicy where
  | hostOrUrl | bareHostOrAddress
  deriving DecidableEq

inductive DomainMatchPolicy where
  | requireResolvedIpv4 | policyOnly
  deriving DecidableEq

inductive TargetError where
  | hostRequired | invalidHost | scopedIpv6NotSupported
  deriving DecidableEq

structure NormalizedTarget where
  host : Text
  literalAddress : HostAddress

inductive RuleSource where
  | localRules | managed
  deriving DecidableEq

inductive MatchType where
  | address | domain | resolvedAddress
  deriving DecidableEq

inductive SafetyTransform where
  | unsupportedManagedCidrRejected | clientCidrRejected
  deriving DecidableEq

structure RuleMatch where
  isMatched : Bool := false
  source : Option RuleSource := none
  rule : Text := []
  configuredRule : Text := []
  matchedValue : Text := []
  matchType : Option MatchType := none
  safetyTransform : Option SafetyTransform := none
  matchedValueTruncated : Bool := false
  score : Int := -1
  deriving DecidableEq

structure MatchResult where
  accepted : RuleMatch := {}
  rejected : RuleMatch := {}
  coverageComplete : Bool := true
  localRulesTruncated : Bool := false
  managedRulesTruncated : Bool := false
  storedValuesTruncated : Bool := false
  localRulesInspected : Nat := 0
  managedRulesInspected : Nat := 0
  deriving DecidableEq

/-! ## Hosts -/

def hasControlCharacters (text : Text) : Bool := text.any fun char => qt.category char = .control

def hasForbiddenBareHostCharacter (input : Text) : Bool :=
  input.any fun char => char.toNat = 0 || isSpace char || 0x10000 ≤ char.toNat ||
    qt.category char ∈ [.control, .format, .privateUse, .notAssigned]

def isValidAceHostname (host : Text) : Bool :=
  host ≠ [] && utf16Size host ≤ maximumHostLength &&
    (host.splitOn '.').all fun label => utf16Size label ≤ 63 && isLabel label

def literalTarget (text : Text) : Option (Except TargetError NormalizedTarget) :=
  match qt.setAddress text with
  | .null => none
  | address =>
    let scopeId := match address with
      | .ipv6 _ scopeId => scopeId
      | _ => []
    some (if scopeId ≠ [] then throw .scopedIpv6NotSupported
      else return ⟨qt.toLower (addressText qt address), address⟩)

def bareHostname (text : Text) : Except TargetError Text :=
  if [':', '/', '\\', '@', '?', '#', '%'].any (· ∈ text) then throw .invalidHost else return text

def urlHostname (text : Text) : Except TargetError Text :=
  let hasScheme := decide (literal "://" <:+: text)
  if hasScheme || ['/', '?', '#', '@', ':'].any (· ∈ text) then
    let urlText := if (literal "//").isPrefixOf text then literal "route:" ++ text
      else if hasScheme then text else literal "route://" ++ text
    match qt.urlHost urlText with
    | some host => if host = [] then throw .invalidHost else return host
    | none => throw .invalidHost
  else return text

def normalizeTarget (input : Text) (inputPolicy : InputPolicy) : Except TargetError NormalizedTarget := do
  let bareHostOnly := inputPolicy = .bareHostOrAddress
  let text := if bareHostOnly then input else trimmed input
  if text = [] then throw .hostRequired
  if utf16Size text > maximumInputLength ∨
      (if bareHostOnly then hasForbiddenBareHostCharacter qt text else hasControlCharacters qt text) then
    throw .invalidHost
  let candidate := if text.head? = some '[' ∧ text.getLast? = some ']' then (text.drop 1).dropLast else text
  match literalTarget qt candidate with
  | some target => target
  | none =>
    let hostname ← if bareHostOnly then bareHostname text else urlHostname qt text
    let hostname := hostname.rdropWhile (· = '.')
    match literalTarget qt hostname with
    | some target => target
    | none =>
      let normalized := qt.toLower (qt.toAce hostname)
      if isValidAceHostname normalized then return ⟨normalized, .null⟩ else throw .invalidHost

-- The empty string of the source stands for no domain.
def domainOf : Except TargetError NormalizedTarget → Text
  | .ok target => if target.literalAddress = .null then target.host else []
  | .error _ => []

def normalizedDomainRule (rawRule : Text) : Text :=
  domainOf (normalizeTarget qt (qt.toLower (trimmed rawRule)) .bareHostOrAddress)

/-! ## Routes -/

def addressMatchesRoute (address : HostAddress) (route : Text) : Option Nat :=
  let trimmedRoute := trimmed route
  if address = .null then none
  else if '/' ∉ trimmedRoute ∧ qt.setAddress trimmedRoute ≠ .null then
    let routeAddress := qt.setAddress trimmedRoute
    if address = routeAddress then
      some (match routeAddress with | .ipv4 _ => 32 | _ => 128)
    else none
  else
    match qt.parseSubnet trimmedRoute with
    | none => none
    | some (subnet, netmask) => if isInSubnet address subnet netmask then some netmask else none

def parseIpv4Route (route : Text) : Option (Ipv4 × Nat) :=
  let routeParts := (trimmed route).splitOn '/'
  if routeParts.length > 2 then none
  else
    match qt.host (routeParts.headD []) with
    | .ipv4 address =>
      if routeParts.length = 1 then some (address, 32)
      else
        match toInt (routeParts.getD 1 []) with
        | some length => if 0 ≤ length ∧ length ≤ 32 then some (address, length.toNat) else none
        | none => none
    | _ => none

def isIpv4HostOrCidr (route : Text) : Bool :=
  let text := trimmed route
  let isIpv4 := fun part => match qt.host part with | .ipv4 _ => true | _ => false
  if '/' ∉ text then isIpv4 text
  else
    let parts := text.splitOn '/'
    parts.length = 2 && isIpv4 (parts.getD 0 []) &&
      (toInt (parts.getD 1 [])).any fun length => 0 ≤ length ∧ length ≤ 32

def isCanonicalRuntimeIpv4Route (route : Text) : Bool :=
  match parseIpv4Route qt route with
  | some (address, prefixLength) => address &&& ipv4Mask prefixLength = address
  | none => false

def clientForbiddenRanges : List (Ipv4 × Nat) :=
  [(0x00000000, 8), (0x7f000000, 8), (0xc0000000, 24), (0xc0000200, 24), (0xc01f0000, 24),
    (0xc01fc400, 24), (0xc034c100, 24), (0xc0586300, 24), (0xc0af3000, 24), (0xc6120000, 15),
    (0xc6336400, 24), (0xcb007100, 24), (0xe0000000, 4), (0xf0000000, 4)]

def localOrServiceRanges : List (Ipv4 × Nat) :=
  [(0x0a000000, 8), (0x64400000, 10), (0xac100000, 12), (0xc0a80000, 16)]

def isRoutableClientRoute (route : Text) : Bool :=
  match parseIpv4Route qt route with
  | none => false
  | some (address, prefixLength) =>
    prefixLength ≠ 0 && !(prefixLength < 32 && address &&& ipv4Mask prefixLength ≠ address) &&
      !(isLoopback address || isBroadcast address || isLinkLocal address || isMulticast address) &&
      !(clientForbiddenRanges.any fun range =>
        ipv4RouteOverlapsRange address prefixLength range.1 range.2) &&
      (if localOrServiceRanges.any fun range => ipv4RouteIsWithinRange address 32 range.1 range.2
        then 24 else 16) ≤ prefixLength

def privacySafeRule (rawRule : Text) : Text :=
  let trimmedRule := trimmed rawRule
  let domainOrName :=
    let domainRule := normalizedDomainRule qt trimmedRule
    if domainRule ≠ [] then domainRule else literal "configured-rule"
  match qt.parseSubnet trimmedRule with
  | none => domainOrName
  | some (subnet, length) =>
    let maximumPrefix := match subnet with | .ipv4 _ => 32 | _ => 128
    let text := qt.toLower (addressText qt subnet)
    if length ≤ maximumPrefix then
      if length = maximumPrefix ∧ '/' ∉ trimmedRule then text else text ++ '/' :: number length
    else domainOrName

/-! ## Stored values -/

def isStoredRouteSeparator (char : Char) : Bool := char = ',' || char = ';' || isSpace char

def storedPieces (rawValue : Text) : List Text :=
  let pieces := (left maximumRawStoredValueLength rawValue).splitOnP isStoredRouteSeparator
  (if utf16Size rawValue ≤ maximumRawStoredValueLength then pieces else pieces.dropLast).filter (· ≠ [])

def collectTokens (tokens : List Text) : List Text → List Text × Bool
  | [] => (tokens, false)
  | route :: rest =>
    if utf16Size route ≤ maximumStoredRouteLength ∧ isIpv4HostOrCidr qt route ∧ route ∉ tokens then
      if tokens.length ≥ maximumStoredRoutesPerRule then (tokens, true)
      else collectTokens (tokens ++ [route]) rest
    else collectTokens tokens rest

def storedRouteTokens (rawValue : Text) : List Text × Bool :=
  let (tokens, tokenLimitReached) := collectTokens qt [] (storedPieces rawValue)
  (tokens, utf16Size rawValue ≤ maximumRawStoredValueLength && !tokenLimitReached)

/-! ## Matching -/

abbrev RuleMap := List (Text × Text)

def considerMatch (best : RuleMatch) (source : RuleSource) (rule : Text) (configured : Text × Text)
    (matchType : MatchType) (score : Nat) (safetyTransform : Option SafetyTransform) : RuleMatch :=
  let localTieBreaker := (score : Int) = best.score ∧ source = .localRules ∧ best.source ≠ some .localRules
  if !best.isMatched ∨ best.score < score ∨ localTieBreaker then
    { isMatched := true
      source := some source
      rule := left maximumRuleOutputLength rule
      configuredRule := configured.1
      matchedValue := left maximumMatchedValueLength configured.2
      matchType := some matchType
      safetyTransform
      matchedValueTruncated := utf16Size configured.2 > maximumMatchedValueLength
      score := score }
  else best

def rejectionReason : RuleSource → SafetyTransform
  | .managed => .unsupportedManagedCidrRejected
  | .localRules => .clientCidrRejected

def isSafeRoute (source : RuleSource) (route : Text) : Bool :=
  match source with
  | .managed => isCanonicalRuntimeIpv4Route qt route
  | .localRules => isRoutableClientRoute qt route

def recordMatch (result : MatchResult) (source : RuleSource) (route rule : Text) (configured : Text × Text)
    (matchType : MatchType) (score : Nat) : MatchResult :=
  if isSafeRoute qt source route then
    { result with accepted := considerMatch result.accepted source rule configured matchType score none }
  else
    { result with
      rejected := considerMatch result.rejected source rule configured matchType score
        (some (rejectionReason source)) }

def matchDomain (host : Text) (address : HostAddress) (policy : DomainMatchPolicy) (source : RuleSource)
    (configured : Text × Text) (result : MatchResult) : MatchResult :=
  let domainRule := normalizedDomainRule qt (trimmed configured.1)
  let score := domainScoreBase + utf16Size domainRule
  if domainRule ≠ [] ∧ host = domainRule ∧ policy = .policyOnly then
    { result with accepted := considerMatch result.accepted source domainRule configured .domain score none }
  else
    match address with
    | .ipv4 _ =>
      if domainRule ≠ [] ∧ host = domainRule then
        recordMatch qt result source (addressText qt address) domainRule configured .domain score
      else result
    | _ => result

def keyMatch (address : HostAddress) (rawRule : Text) : Option Nat :=
  if isIpv4HostOrCidr qt rawRule then addressMatchesRoute qt address rawRule else none

def matchStored (address : HostAddress) (source : RuleSource) (configured : Text × Text)
    (result : MatchResult) (storedRoute : Text) : MatchResult :=
  match addressMatchesRoute qt address storedRoute with
  | none => result
  | some prefixLength =>
    recordMatch qt result source storedRoute (privacySafeRule qt (trimmed configured.1)) configured
      .resolvedAddress (resolvedAddressScoreBase + prefixLength)

def countInspected (source : RuleSource) (result : MatchResult) : MatchResult :=
  match source with
  | .managed => { result with managedRulesInspected := result.managedRulesInspected + 1 }
  | .localRules => { result with localRulesInspected := result.localRulesInspected + 1 }

def markIncomplete (result : MatchResult) : MatchResult :=
  { result with coverageComplete := false, storedValuesTruncated := true }

def inspectRule (source : RuleSource) (host : Text) (address : HostAddress) (policy : DomainMatchPolicy)
    (result : MatchResult) (configured : Text × Text) : MatchResult :=
  let result := countInspected source result
  if utf16Size configured.1 > maximumInputLength then markIncomplete result
  else
    let rawRule := trimmed configured.1
    if rawRule = [] then result
    else
      let result := match keyMatch qt address rawRule with
        | some prefixLength =>
          recordMatch qt result source rawRule (privacySafeRule qt rawRule) configured .address
            (addressScoreBase + prefixLength)
        | none => matchDomain qt host address policy source configured result
      let (storedRoutes, storedValueComplete) := storedRouteTokens qt configured.2
      let result := if storedValueComplete then result else markIncomplete result
      storedRoutes.foldl (matchStored qt address source configured) result

def maximumRules : RuleSource → Nat
  | .managed => maximumManagedRulesPerSource
  | .localRules => maximumRulesPerSource

def noteTruncation (source : RuleSource) (rules : RuleMap) (result : MatchResult) : MatchResult :=
  let mapTruncated := decide (rules.length > maximumRules source)
  let result := { result with coverageComplete := result.coverageComplete && !mapTruncated }
  match source with
  | .managed => { result with managedRulesTruncated := mapTruncated }
  | .localRules => { result with localRulesTruncated := mapTruncated }

def inspectRules (rules : RuleMap) (source : RuleSource) (host : Text) (address : HostAddress)
    (policy : DomainMatchPolicy) (result : MatchResult) : MatchResult :=
  (rules.take (maximumRules source)).foldl (inspectRule qt source host address policy)
    (noteTruncation source rules result)

def canonicalHost (host : Text) : Text := domainOf (normalizeTarget qt host .bareHostOrAddress)

def matchRules (localRules managedRules : RuleMap) (host : Text) (resolvedAddress : HostAddress)
    (policy : DomainMatchPolicy) : MatchResult :=
  inspectRules qt managedRules .managed (canonicalHost qt host) resolvedAddress policy
    (inspectRules qt localRules .localRules (canonicalHost qt host) resolvedAddress policy {})

/-! ## The tokens of a value -/

def tokensOf (value : Text) : List Text := (value.splitOnP isStoredRouteSeparator).filter (· ≠ [])

def isShortRoute (token : Text) : Bool :=
  utf16Size token ≤ maximumStoredRouteLength && isIpv4HostOrCidr qt token

section Tokens

variable {qt}

theorem utf16Size_cons (char : Char) (rest : Text) :
    utf16Size (char :: rest) = (if char.toNat < 0x10000 then 1 else 2) + utf16Size rest := by
  have shift (rest : Text) (start : Nat) :
      rest.foldl (fun size char => size + if char.toNat < 0x10000 then 1 else 2) start =
        start + utf16Size rest := by
    induction rest generalizing start with
    | nil => rfl
    | cons other rest ih =>
      rw [utf16Size, List.foldl_cons, List.foldl_cons, ih, ih]
      omega
  rw [utf16Size, List.foldl_cons, shift, Nat.zero_add]

theorem left_eq_self {limit : Nat} {text : Text} (short : utf16Size text ≤ limit) : left limit text = text := by
  induction text generalizing limit with
  | nil => rfl
  | cons char rest ih =>
    rw [utf16Size_cons] at short
    rw [left, if_neg (by omega), ih (by omega)]

theorem storedPieces_of_short {value : Text} (short : utf16Size value ≤ maximumRawStoredValueLength) :
    storedPieces value = tokensOf value := by
  rw [storedPieces, left_eq_self short]
  exact congrArg _ (if_pos short)

theorem collectTokens_cons (tokens : List Text) (route : Text) (rest : List Text) :
    collectTokens qt tokens (route :: rest) =
      if utf16Size route ≤ maximumStoredRouteLength ∧ isIpv4HostOrCidr qt route ∧ route ∉ tokens then
        if tokens.length ≥ maximumStoredRoutesPerRule then (tokens, true)
        else collectTokens qt (tokens ++ [route]) rest
      else collectTokens qt tokens rest := rfl

theorem collectTokens_spec {tokens pieces : List Text} (distinct : tokens.Nodup)
    (few : tokens.length ≤ maximumStoredRoutesPerRule) :
    let routes := (tokens ++ pieces.filter (isShortRoute qt)).toFinset
    ((collectTokens qt tokens pieces).2 = true ↔ maximumStoredRoutesPerRule < routes.card) ∧
      ((collectTokens qt tokens pieces).2 = false →
        ∀ token, token ∈ (collectTokens qt tokens pieces).1 ↔ token ∈ routes) := by
  induction pieces generalizing tokens with
  | nil =>
    dsimp only
    rw [List.filter_nil, List.append_nil, List.toFinset_card_of_nodup distinct]
    refine ⟨⟨fun reached => (nomatch reached), fun more => by omega⟩, fun _ token => ?_⟩
    exact List.mem_toFinset.symm
  | cons route pieces ih =>
    by_cases good : isShortRoute qt route = true
    · rw [List.filter_cons_of_pos good]
      have short : utf16Size route ≤ maximumStoredRouteLength ∧ isIpv4HostOrCidr qt route = true := by
        simpa [isShortRoute] using good
      by_cases known : route ∈ tokens
      · have same : (tokens ++ route :: pieces.filter (isShortRoute qt)).toFinset =
            (tokens ++ pieces.filter (isShortRoute qt)).toFinset := by
          ext token
          simp only [List.mem_toFinset, List.mem_append, List.mem_cons]
          constructor
          · rintro (inside | rfl | later)
            · exact .inl inside
            · exact .inl known
            · exact .inr later
          · rintro (inside | later)
            · exact .inl inside
            · exact .inr (.inr later)
        rw [collectTokens_cons, if_neg fun all => all.2.2 known, same]
        exact ih distinct few
      · have grown : (tokens ++ [route]).Nodup := by
          rw [List.nodup_append]
          refine ⟨distinct, List.nodup_singleton _, fun token inside other single => ?_⟩
          rintro rfl
          exact known (List.mem_singleton.mp single ▸ inside)
        rw [collectTokens_cons, if_pos ⟨short.1, short.2, known⟩]
        by_cases full : tokens.length ≥ maximumStoredRoutesPerRule
        · rw [if_pos full]
          refine ⟨⟨fun _ => ?_, fun _ => rfl⟩, fun stopped => nomatch stopped⟩
          have inside : (tokens ++ [route]).toFinset ⊆
              (tokens ++ route :: pieces.filter (isShortRoute qt)).toFinset := by
            intro token
            simp only [List.mem_toFinset, List.mem_append, List.mem_cons, List.not_mem_nil, or_false]
            exact Or.imp_right Or.inl
          have count := Finset.card_le_card inside
          rw [List.toFinset_card_of_nodup grown, List.length_append, List.length_singleton] at count
          omega
        · rw [if_neg full]
          have step := ih grown (by rw [List.length_append, List.length_singleton]; omega)
          rwa [List.append_assoc, List.singleton_append] at step
    · rw [List.filter_cons_of_neg good, collectTokens_cons, if_neg]
      · exact ih distinct few
      · intro all
        exact good (by simp [isShortRoute, all.1, all.2.1])

/-- More text or more different routes than the matcher examines in one value. -/
def OverValueLimits (qt : RuleQt) (value : Text) : Prop :=
  maximumRawStoredValueLength < utf16Size value ∨
    maximumStoredRoutesPerRule < ((tokensOf value).filter (isShortRoute qt)).toFinset.card

theorem storedRouteTokens_spec (value : Text) :
    ((storedRouteTokens qt value).2 = true ↔ ¬ OverValueLimits qt value) ∧
      ((storedRouteTokens qt value).2 = true → ∀ token,
        token ∈ (storedRouteTokens qt value).1 ↔ token ∈ tokensOf value ∧ isShortRoute qt token = true) := by
  have spec := @collectTokens_spec qt [] (storedPieces value) List.nodup_nil (Nat.zero_le _)
  simp only [List.nil_append, List.mem_toFinset, List.mem_filter] at spec
  have whole : (storedRouteTokens qt value).2 = true ↔
      utf16Size value ≤ maximumRawStoredValueLength ∧
        (collectTokens qt [] (storedPieces value)).2 = false := by
    simp [storedRouteTokens]
  constructor
  · rw [whole, OverValueLimits, not_or, not_lt]
    refine and_congr_right fun short => ?_
    rw [← storedPieces_of_short short, ← spec.1, Bool.not_eq_true]
  · intro complete token
    obtain ⟨short, all⟩ := whole.mp complete
    rw [← storedPieces_of_short short]
    exact spec.2 all token

end Tokens

/-! ## When nothing is reported -/

/-- All rules were examined and neither kind of match was found. -/
def MatchResult.Quiet (result : MatchResult) : Prop :=
  result.coverageComplete = true ∧ result.accepted.isMatched = false ∧ result.rejected.isMatched = false

section Quiet

variable {qt} {result : MatchResult} {source : RuleSource} {configured : Text × Text}

theorem isMatched_considerMatch (best : RuleMatch) (source : RuleSource) (rule : Text)
    (configured : Text × Text) (matchType : MatchType) (score : Nat)
    (safetyTransform : Option SafetyTransform) :
    (considerMatch best source rule configured matchType score safetyTransform).isMatched = true := by
  unfold considerMatch
  dsimp only
  split_ifs with better
  · rfl
  · have kept := not_or.mp better
    simpa using kept.1

theorem not_quiet_recordMatch (route rule : Text) (matchType : MatchType) (score : Nat) :
    ¬ (recordMatch qt result source route rule configured matchType score).Quiet := by
  rintro ⟨-, accepted, rejected⟩
  unfold recordMatch at accepted rejected
  split_ifs at accepted rejected
  · rw [isMatched_considerMatch] at accepted
    cases accepted
  · rw [isMatched_considerMatch] at rejected
    cases rejected

theorem not_quiet_markIncomplete : ¬ (markIncomplete result).Quiet := fun quiet => nomatch quiet.1

theorem quiet_countInspected : (countInspected source result).Quiet ↔ result.Quiet := by
  cases source <;> exact Iff.rfl

theorem quiet_noteTruncation {rules : RuleMap} :
    (noteTruncation source rules result).Quiet ↔ result.Quiet ∧ rules.length ≤ maximumRules source := by
  cases source <;>
    simp only [noteTruncation, MatchResult.Quiet, Bool.and_eq_true, Bool.not_eq_true',
      decide_eq_false_iff_not, not_lt] <;>
    tauto

theorem quiet_matchStored {address : HostAddress} {route : Text} :
    (matchStored qt address source configured result route).Quiet ↔
      result.Quiet ∧ addressMatchesRoute qt address route = none := by
  unfold matchStored
  cases found : addressMatchesRoute qt address route with
  | none => simp
  | some prefixLength => exact iff_of_false (not_quiet_recordMatch _ _ _ _) (by simp)

theorem quiet_foldl_matchStored {address : HostAddress} (routes : List Text) :
    (routes.foldl (matchStored qt address source configured) result).Quiet ↔
      result.Quiet ∧ ∀ route ∈ routes, addressMatchesRoute qt address route = none := by
  induction routes generalizing result with
  | nil => simp
  | cons route routes ih =>
    rw [List.foldl_cons, ih, quiet_matchStored, List.forall_mem_cons, and_assoc]

theorem quiet_matchDomain {host : Text} {address : Ipv4} {policy : DomainMatchPolicy} :
    (matchDomain qt host (.ipv4 address) policy source configured result).Quiet ↔
      result.Quiet ∧ ¬ (normalizedDomainRule qt (trimmed configured.1) ≠ [] ∧
        host = normalizedDomainRule qt (trimmed configured.1)) := by
  unfold matchDomain
  dsimp only
  by_cases domain : normalizedDomainRule qt (trimmed configured.1) ≠ [] ∧
      host = normalizedDomainRule qt (trimmed configured.1)
  · refine iff_of_false ?_ fun both => both.2 domain
    split_ifs with offline
    · intro quiet
      have accepted := quiet.2.1
      rw [isMatched_considerMatch] at accepted
      cases accepted
    · exact not_quiet_recordMatch _ _ _ _
  · have online : ¬ (normalizedDomainRule qt (trimmed configured.1) ≠ [] ∧
        host = normalizedDomainRule qt (trimmed configured.1) ∧ policy = .policyOnly) :=
      fun all => domain ⟨all.1, all.2.1⟩
    rw [if_neg online, if_neg domain]
    exact ⟨fun quiet => ⟨quiet, domain⟩, And.left⟩

end Quiet

/-! ## Rules that cover the address -/

section Coverage

variable (host : Text) (address : HostAddress)

/-- The text denotes an IPv4 host or network that holds the address. -/
def Covers (token : Text) : Prop :=
  isIpv4HostOrCidr qt token = true ∧ (addressMatchesRoute qt address token).isSome = true

def NamesHost (key : Text) : Prop :=
  normalizedDomainRule qt key ≠ [] ∧ canonicalHost qt host = normalizedDomainRule qt key

/-- The key or some token of the value holds the address, or the key is the host. -/
def Applies (rule : Text × Text) : Prop :=
  Covers qt address rule.1 ∨ NamesHost qt host rule.1 ∨ ∃ token ∈ tokensOf rule.2, Covers qt address token

/-- A token that holds the address where the matcher does not look and does not say so: in a rule with a
blank key, or of more than 128 units. -/
def Hidden (rule : Text × Text) : Prop :=
  ∃ token ∈ tokensOf rule.2, Covers qt address token ∧
    (trimmed rule.1 = [] ∨ maximumStoredRouteLength < utf16Size token)

/-- A match in a part of the rule that the matcher reads. -/
def Visible (rule : Text × Text) : Prop :=
  trimmed rule.1 ≠ [] ∧ (Covers qt address rule.1 ∨ NamesHost qt host rule.1 ∨
    ∃ token ∈ tokensOf rule.2, Covers qt address token ∧ utf16Size token ≤ maximumStoredRouteLength)

def OverLimits (rule : Text × Text) : Prop :=
  maximumInputLength < utf16Size rule.1 ∨ (trimmed rule.1 ≠ [] ∧ OverValueLimits qt rule.2)

variable {qt host address} {key : Text}

theorem covers_trimmed : Covers qt address (trimmed key) ↔ Covers qt address key := by
  simp only [Covers, isIpv4HostOrCidr, addressMatchesRoute, trimmed_trimmed]

theorem namesHost_trimmed : NamesHost qt host (trimmed key) ↔ NamesHost qt host key := by
  simp only [NamesHost, normalizedDomainRule, trimmed_trimmed]

theorem keyMatch_eq_none : keyMatch qt address key = none ↔ ¬ Covers qt address key := by
  unfold keyMatch Covers
  split_ifs with route
  · simp [route]
  · simp [route]

theorem not_covers_nil : ¬ Covers qt address [] := by
  intro covers
  have route := covers.1
  have unknown : qt.host [] = .unknown := by rw [qt.host_eq, qt.setAddress_nil]; rfl
  simp [isIpv4HostOrCidr, trimmed, unknown] at route

theorem not_namesHost_nil : ¬ NamesHost qt host [] := by
  intro names
  exact names.1 rfl

variable {policy : DomainMatchPolicy} {result : MatchResult} {source : RuleSource}

theorem quiet_key {address : Ipv4} (rule : Text × Text) :
    (match keyMatch qt (.ipv4 address) (trimmed rule.1) with
      | some prefixLength =>
        recordMatch qt result source (trimmed rule.1) (privacySafeRule qt (trimmed rule.1)) rule .address
          (addressScoreBase + prefixLength)
      | none => matchDomain qt (canonicalHost qt host) (.ipv4 address) policy source rule result).Quiet ↔
      result.Quiet ∧ ¬ (Covers qt (.ipv4 address) rule.1 ∨ NamesHost qt host rule.1) := by
  rw [← covers_trimmed, ← namesHost_trimmed, not_or, ← keyMatch_eq_none]
  cases found : keyMatch qt (.ipv4 address) (trimmed rule.1) with
  | some prefixLength => exact iff_of_false (not_quiet_recordMatch _ _ _ _) (by simp)
  | none =>
    dsimp only
    rw [quiet_matchDomain]
    simp only [NamesHost, true_and]

theorem quiet_stored {address : Ipv4} (rule : Text × Text) :
    ((storedRouteTokens qt rule.2).1.foldl (matchStored qt (.ipv4 address) source rule)
        (if (storedRouteTokens qt rule.2).2 then result else markIncomplete result)).Quiet ↔
      result.Quiet ∧ ¬ OverValueLimits qt rule.2 ∧ ¬ ∃ token ∈ tokensOf rule.2,
        Covers qt (.ipv4 address) token ∧ utf16Size token ≤ maximumStoredRouteLength := by
  obtain ⟨whole, tokens⟩ := @storedRouteTokens_spec qt rule.2
  rw [quiet_foldl_matchStored]
  cases complete : (storedRouteTokens qt rule.2).2 with
  | false =>
    refine iff_of_false (fun both => not_quiet_markIncomplete both.1) fun both => ?_
    rw [whole.mpr both.2.1] at complete
    cases complete
  | true =>
    rw [if_pos rfl]
    refine and_congr_right fun _ => ?_
    have examined (token : Text) : token ∈ (storedRouteTokens qt rule.2).1 ↔ token ∈ tokensOf rule.2 ∧
        utf16Size token ≤ maximumStoredRouteLength ∧ isIpv4HostOrCidr qt token = true := by
      rw [tokens complete token, isShortRoute, Bool.and_eq_true, decide_eq_true_eq]
    constructor
    · rintro none
      refine ⟨whole.mp complete, fun ⟨token, listed, covers, short⟩ => ?_⟩
      have missed := none token ((examined token).mpr ⟨listed, short, covers.1⟩)
      rw [Covers, missed] at covers
      cases covers.2
    · rintro ⟨-, none⟩ token listed
      obtain ⟨inValue, short, route⟩ := (examined token).mp listed
      rw [← Option.not_isSome_iff_eq_none]
      exact fun some => none ⟨token, inValue, ⟨route, some⟩, short⟩

theorem quiet_inspectRule {address : Ipv4} (rule : Text × Text) :
    (inspectRule qt source (canonicalHost qt host) (.ipv4 address) policy result rule).Quiet ↔
      result.Quiet ∧ ¬ (OverLimits qt rule ∨ Visible qt host (.ipv4 address) rule) := by
  unfold inspectRule
  dsimp only
  by_cases long : utf16Size rule.1 > maximumInputLength
  · rw [if_pos long]
    exact iff_of_false not_quiet_markIncomplete fun both => both.2 (.inl (.inl long))
  · rw [if_neg long]
    by_cases blank : trimmed rule.1 = []
    · rw [if_pos blank, quiet_countInspected]
      refine ⟨fun quiet => ⟨quiet, ?_⟩, And.left⟩
      rintro ((more | more) | visible)
      · exact long more
      · exact more.1 blank
      · exact visible.1 blank
    · rw [if_neg blank, quiet_stored, quiet_key, quiet_countInspected, and_assoc]
      refine and_congr_right fun _ => ?_
      have limits : OverLimits qt rule ↔ OverValueLimits qt rule.2 :=
        ⟨fun more => more.elim (absurd · long) And.right, fun more => .inr ⟨blank, more⟩⟩
      have visible : Visible qt host (.ipv4 address) rule ↔
          (Covers qt (.ipv4 address) rule.1 ∨ NamesHost qt host rule.1) ∨
            ∃ token ∈ tokensOf rule.2,
              Covers qt (.ipv4 address) token ∧ utf16Size token ≤ maximumStoredRouteLength := by
        rw [Visible, or_assoc]
        exact ⟨And.right, fun some => ⟨blank, some⟩⟩
      rw [limits, visible]
      simp only [not_or]
      exact and_left_comm

theorem quiet_inspectRules {address : Ipv4} (rules : RuleMap) :
    (inspectRules qt rules source (canonicalHost qt host) (.ipv4 address) policy result).Quiet ↔
      result.Quiet ∧ rules.length ≤ maximumRules source ∧
        ∀ rule ∈ rules, ¬ (OverLimits qt rule ∨ Visible qt host (.ipv4 address) rule) := by
  have folded (rules : RuleMap) (result : MatchResult) :
      (rules.foldl (inspectRule qt source (canonicalHost qt host) (.ipv4 address) policy) result).Quiet ↔
        result.Quiet ∧ ∀ rule ∈ rules, ¬ (OverLimits qt rule ∨ Visible qt host (.ipv4 address) rule) := by
    induction rules generalizing result with
    | nil => simp
    | cons rule rules ih =>
      rw [List.foldl_cons, ih, quiet_inspectRule, List.forall_mem_cons, and_assoc]
  rw [inspectRules, folded, quiet_noteTruncation, and_assoc]
  refine and_congr_right fun _ => and_congr_right fun fits => ?_
  rw [List.take_of_length_le fits]

theorem quiet_matchRules (localRules managedRules : RuleMap) (host : Text) (address : Ipv4)
    (policy : DomainMatchPolicy) :
    (matchRules qt localRules managedRules host (.ipv4 address) policy).Quiet ↔
      ¬ (maximumRulesPerSource < localRules.length ∨ maximumManagedRulesPerSource < managedRules.length ∨
        ∃ rule ∈ localRules ++ managedRules,
          OverLimits qt rule ∨ Visible qt host (.ipv4 address) rule) := by
  have start : MatchResult.Quiet {} := ⟨rfl, rfl, rfl⟩
  rw [matchRules, quiet_inspectRules, quiet_inspectRules]
  simp only [start, true_and, maximumRules, not_or, not_lt, not_exists, not_and, List.mem_append]
  constructor
  · rintro ⟨⟨fewLocal, ofLocal⟩, fewManaged, ofManaged⟩
    exact ⟨fewLocal, fewManaged, fun rule listed => listed.elim (ofLocal rule) (ofManaged rule)⟩
  · rintro ⟨fewLocal, fewManaged, all⟩
    exact ⟨⟨fewLocal, fun rule listed => all rule (.inl listed)⟩, fewManaged,
      fun rule listed => all rule (.inr listed)⟩

theorem applies_iff {rule : Text × Text} :
    Applies qt host address rule ↔ Hidden qt address rule ∨ Visible qt host address rule := by
  constructor
  · intro applies
    by_cases blank : trimmed rule.1 = []
    · rcases applies with covers | names | ⟨token, listed, covers⟩
      · rw [← covers_trimmed, blank] at covers
        exact absurd covers not_covers_nil
      · rw [← namesHost_trimmed, blank] at names
        exact absurd names not_namesHost_nil
      · exact .inl ⟨token, listed, covers, .inl blank⟩
    · rcases applies with covers | names | ⟨token, listed, covers⟩
      · exact .inr ⟨blank, .inl covers⟩
      · exact .inr ⟨blank, .inr (.inl names)⟩
      · rcases Nat.lt_or_ge maximumStoredRouteLength (utf16Size token) with long | short
        · exact .inl ⟨token, listed, covers, .inr long⟩
        · exact .inr ⟨blank, .inr (.inr ⟨token, listed, covers, short⟩)⟩
  · rintro (⟨token, listed, covers, -⟩ | ⟨-, covers | names | ⟨token, listed, covers, -⟩⟩)
    · exact .inr (.inr ⟨token, listed, covers⟩)
    · exact .inl covers
    · exact .inr (.inl names)
    · exact .inr (.inr ⟨token, listed, covers⟩)

end Coverage

/-- A complete search without a match means that no rule applies. -/
def AuthoritativeNoMatch (localRules managedRules : RuleMap) (host : Text) (address : Ipv4)
    (policy : DomainMatchPolicy) : Prop :=
  let result := matchRules qt localRules managedRules host (.ipv4 address) policy
  result.coverageComplete = true → result.accepted.isMatched = false → result.rejected.isMatched = false →
    ∀ rule ∈ localRules ++ managedRules, ¬ Applies qt host (.ipv4 address) rule

def readNetwork (text : Text) : Option (HostAddress × Nat) :=
  match text.splitOn '/' with
  | [network, length] =>
    match readDotted network, toInt length with
    | .ipv4 address, some length =>
      if 0 ≤ length ∧ length ≤ 32 then some (.ipv4 (address &&& ipv4Mask length.toNat), length.toNat)
      else none
    | _, _ => none
  | _ => none

theorem readDotted_ne_ipv6 (text : Text) : readDotted text ≠ .ipv6 := by
  unfold readDotted
  split <;> exact Host.noConfusion

def asciiRuleQt : RuleQt where
  toQt := asciiQt
  setAddress text := match readDotted text with | .ipv4 address => .ipv4 address | _ => .null
  ipv6Text _ _ := []
  parseSubnet := readNetwork
  urlHost := some
  category _ := .other
  host_eq text := by
    change readDotted text = _
    cases read : readDotted text with
    | unknown => rfl
    | ipv4 address => rfl
    | ipv6 => exact absurd read (readDotted_ne_ipv6 text)
  setAddress_nil := by decide +kernel

end Amnezia.Routing
