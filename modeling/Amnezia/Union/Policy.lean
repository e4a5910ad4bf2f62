import Amnezia.Union.Packet
import Amnezia.Lib.FiniteMap

/-! # The included-union policy -/

namespace Amnezia.Union
open Lib

-- 1 for an included UID, 0 for a known other UID, -1 if unknown
abbrev Owner := UInt8 → AddrPort → AddrPort → Int

structure Config where
  sites : List String
  dns : List String

-- The library calls of `newPolicy`; `ParsePrefix` yields a valid prefix without a zone.
structure Parsers where
  unmarshal : List UInt8 → Option Config
  parsePrefix : String → Option Prefix
  parseAddr : String → Option Addr

-- Times are nanoseconds; `time.Time.Sub` saturates at the limits of `time.Duration`.
def timeSub (now seen : Int) : Int := max (-2 ^ 63) (min (2 ^ 63 - 1) (now - seen))

def twoMinutes : Int := 120 * 10 ^ 9

structure Decision where
  vpn : Bool
  seen : Int
  sequence : Nat
deriving Repr, DecidableEq

structure Policy where
  sites : List Prefix
  v4Lengths : List Nat
  v6Lengths : List Nat
  dns : List Addr
  flows : FiniteMap Flow Decision

def parseAll {α : Type} (parse : String → Option α) (failure : String) :
    List String → Except String (List α)
  | [] => return []
  | value :: rest =>
    match parse value with
    | some parsed => do return parsed :: (← parseAll parse failure rest)
    | none => throw failure

def parseSites (parsers : Parsers) : List String → Except String (List Prefix) :=
  parseAll parsers.parsePrefix "invalid included union prefix"

def parseDns (parsers : Parsers) : List String → Except String (List Addr) :=
  parseAll parsers.parseAddr "invalid included union DNS"

def lengthsOf (is4 : Bool) (networks : List Prefix) : List Nat :=
  (List.range 129).filter fun bits =>
    networks.any fun network => network.addr.is4 == is4 && network.bits == bits

def newPolicy (parsers : Parsers) (text : List UInt8) (owner : Option Owner) : Except String Policy := do
  match if text.length > 1 <<< 20 then none else parsers.unmarshal text, owner with
  | some config, some _ =>
    if config.sites.length = 0 || config.sites.length > 16384 then
      throw "invalid included union site count"
    else
      let networks ← parseSites parsers config.sites
      let addresses ← parseDns parsers config.dns
      return ⟨networks.map Prefix.masked, lengthsOf true networks, lengthsOf false networks,
        addresses.map Addr.unmap, ∅⟩
  | _, _ => throw "invalid included union policy"

structure Outcome where
  vpn : Bool
  policy : Policy
  lookup : Option (Flow × Int) := none

def isSite (p : Policy) (addr : Addr) : Bool :=
  (if addr.is4 then p.v4Lengths else p.v6Lengths).any fun bits =>
    if fits : bits ≤ addr.bitLen then p.sites.contains (Prefix.prefixFrom addr bits fits).masked else false

def isLive (now : Int) (saved : Decision) : Bool := timeSub now saved.seen < twoMinutes

def forgetRestarted (flows : FiniteMap Flow Decision) (f : Flow) (starting : Bool) (sequence : Nat) :
    FiniteMap Flow Decision :=
  match flows.lookup f with
  | some saved => if starting && saved.sequence != sequence then flows.erase f else flows
  | none => flows

-- The loop over the table runs only when the table is full.
def sweep (flows : FiniteMap Flow Decision) (now : Int) : FiniteMap Flow Decision :=
  if flows.size ≥ 8192 then flows.filter fun _ saved => isLive now saved else flows

def routeConnection (p : Policy) (f : Flow) (starting : Bool) (sequence : Nat) (now : Int)
    (owner : Owner) : Outcome :=
  let flows := forgetRestarted p.flows f starting sequence
  match (flows.lookup f).filter (isLive now) with
  | some saved => ⟨saved.vpn, { p with flows := flows.insert f { saved with seen := now } }, none⟩
  | none =>
    let flows := sweep flows now
    if flows.size ≥ 8192 then ⟨true, { p with flows }, none⟩
    else
      let answer := owner f.protocol f.source f.destination
      let vpn := answer != 0
      ⟨vpn, { p with flows := flows.insert f ⟨vpn, now, sequence⟩ }, some (f, answer)⟩

def throughVPN (p : Policy) (owner : Owner) (packet : List UInt8) (now : Int) : Go Outcome := do
  match ← parsePacket packet with
  | none => return ⟨true, p, none⟩
  | some (f, offset) =>
    if p.dns.contains f.destination.addr.unmap then return ⟨true, p, none⟩
    if isSite p f.destination.addr then return ⟨true, p, none⟩
    if f.protocol = 17 then
      let answer := owner f.protocol f.source f.destination
      return ⟨answer != 0, p, some (f, answer)⟩
    let sequence ← uintAt packet (offset + 4) 4
    let starting := (← byteAt packet (offset + 13)) &&& 0x12 == 0x02
    return routeConnection p f starting sequence now owner

theorem parseAll_eq {α : Type} {parse : String → Option α} {failure : String} {values : List String}
    {results : List α} (parsed : parseAll parse failure values = .ok results) :
    values.mapM parse = some results := by
  induction values generalizing results with
  | nil => cases parsed; rfl
  | cons value values ih =>
    rw [parseAll] at parsed
    cases first : parse value with
    | none => rw [first] at parsed; cases parsed
    | some result =>
      rw [first] at parsed
      cases rest : parseAll parse failure values with
      | error failure => rw [rest] at parsed; cases parsed
      | ok others =>
        rw [rest] at parsed
        cases parsed
        simp [first, ih rest]

def Configured (parsers : Parsers) (text : List UInt8) (networks : List Prefix)
    (addresses : List Addr) : Prop :=
  ∃ config, parsers.unmarshal text = some config ∧
    config.sites.mapM parsers.parsePrefix = some networks ∧
    config.dns.mapM parsers.parseAddr = some addresses

def initialPolicy (networks : List Prefix) (addresses : List Addr) : Policy :=
  ⟨networks.map Prefix.masked, lengthsOf true networks, lengthsOf false networks,
    addresses.map Addr.unmap, ∅⟩

theorem newPolicy_ok {parsers : Parsers} {text : List UInt8} {owner : Option Owner} {policy : Policy}
    (accepted : newPolicy parsers text owner = .ok policy) :
    ∃ networks addresses, Configured parsers text networks addresses ∧
      policy = initialPolicy networks addresses := by
  unfold newPolicy at accepted
  split at accepted
  · rename_i config _ decoded
    split_ifs at accepted
    have unmarshal : parsers.unmarshal text = some config := by
      split_ifs at decoded
      exact decoded
    cases sites : parseSites parsers config.sites with
    | error failure => rw [sites] at accepted; cases accepted
    | ok networks =>
      cases dns : parseDns parsers config.dns with
      | error failure => rw [sites, dns] at accepted; cases accepted
      | ok addresses =>
        rw [sites, dns] at accepted
        exact ⟨networks, addresses, ⟨config, unmarshal, parseAll_eq sites, parseAll_eq dns⟩,
          (Except.ok.inj accepted).symm⟩
  · cases accepted

theorem not_contains_of_isSite {networks : List Prefix} {addresses : List Addr} {p : Policy}
    (rules : { p with flows := ∅ } = initialPolicy networks addresses) {addr : Addr}
    (outside : isSite p addr = false) : ∀ network ∈ networks, ¬ network.contains addr := by
  intro network member inside
  have same : isSite p addr = isSite (initialPolicy networks addresses) addr := by
    rw [← rules]; rfl
  rw [same] at outside
  have is4 : network.addr.is4 = addr.is4 := by rw [Addr.is4, Addr.is4, inside.1]
  have fits : network.bits ≤ addr.bitLen := by
    have := network.fits
    rwa [Addr.bitLen, ← inside.1] at this
  have small : network.bits < 129 := by
    have : addr.bitLen ≤ 128 := by cases h : addr.family <;> simp [Addr.bitLen, h, Family.bitLen]
    omega
  have listed : network.bits ∈ lengthsOf addr.is4 networks := by
    simp only [lengthsOf, List.mem_filter, List.mem_range, List.any_eq_true, Bool.and_eq_true,
      beq_iff_eq]
    exact ⟨small, network, member, is4, rfl⟩
  have lengths : (if addr.is4 then (initialPolicy networks addresses).v4Lengths
      else (initialPolicy networks addresses).v6Lengths) = lengthsOf addr.is4 networks := by
    cases addr.is4 <;> rfl
  rw [isSite, lengths, List.any_eq_false] at outside
  apply outside network.bits listed
  simp only [fits, dite_true, List.contains_iff_mem, Prefix.masked_prefixFrom inside fits]
  exact List.mem_map_of_mem member

theorem isLive_iff (now : Int) (saved : Decision) :
    isLive now saved = true ↔ now - saved.seen < twoMinutes := by
  rw [isLive, decide_eq_true_iff, timeSub, twoMinutes, max_lt_iff, min_lt_iff]
  omega

def isStart (packet : List UInt8) (offset : Nat) : Bool := packet.getD (offset + 13) 0 &&& 0x12 == 0x02

def sequenceOf (packet : List UInt8) (offset : Nat) : Nat := field packet (offset + 4) 4

theorem throughVPN_spec (p : Policy) (owner : Owner) (packet : List UInt8) (now : Int) :
    ∃ outcome, throughVPN p owner packet now = .ok outcome ∧
      ((outcome = ⟨true, p, none⟩ ∧ ∀ f offset, parsePacket packet = .ok (some (f, offset)) →
          f.destination.addr.unmap ∈ p.dns ∨ isSite p f.destination.addr = true) ∨
        ∃ f offset, parsePacket packet = .ok (some (f, offset)) ∧ Parsed packet f offset ∧
          f.destination.addr.unmap ∉ p.dns ∧ isSite p f.destination.addr = false ∧
          ((f.protocol = 17 ∧ outcome = ⟨owner 17 f.source f.destination != 0, p,
              some (f, owner 17 f.source f.destination)⟩) ∨
            (f.protocol = 6 ∧ outcome = routeConnection p f (isStart packet offset)
              (sequenceOf packet offset) now owner))) := by
  obtain ⟨result, parse, exact⟩ := parsePacket_exact packet
  rw [throughVPN, parse]
  simp only [bind, Except.bind, pure, Except.pure]
  cases result with
  | none => exact ⟨_, rfl, .inl ⟨rfl, nofun⟩⟩
  | some found =>
    obtain ⟨f, offset⟩ := found
    have parsed := (exact.reads f offset rfl).choose_spec.parsed
    have unique (g : Flow) (position : Nat)
        (equal : (Except.ok (some (f, offset)) : Go _) = .ok (some (g, position))) : g = f := by
      cases equal; rfl
    dsimp only
    split_ifs with dns site udp
    · refine ⟨_, rfl, .inl ⟨rfl, fun g position equal => ?_⟩⟩
      rw [unique g position equal]
      exact .inl (by simpa using dns)
    · refine ⟨_, rfl, .inl ⟨rfl, fun g position equal => ?_⟩⟩
      rw [unique g position equal]
      exact .inr site
    · refine ⟨_, rfl, .inr ⟨f, offset, rfl, parsed, by simpa using dns, by simpa using site,
        .inl ⟨udp, by rw [udp]⟩⟩⟩
    · have tcp : f.protocol = 6 := parsed.transport.resolve_right udp
      have fits := parsed.fits tcp
      have sequence := uintAt_of_le packet (offset + 4) 4 (by omega)
      have flags := byteAt_of_lt packet (offset + 13) (by omega)
      simp only [sequence, flags]
      exact ⟨_, rfl, .inr ⟨f, offset, rfl, parsed, by simpa using dns, by simpa using site,
        .inr ⟨tcp, rfl⟩⟩⟩

theorem parsePacket_exact_and_fails_closed (packet : List UInt8) :
    (∃ result, parsePacket packet = .ok result ∧ Exact packet result) ∧
      ∀ policy owner now, ∃ outcome, throughVPN policy owner packet now = .ok outcome ∧
        (parsePacket packet = .ok none → outcome = ⟨true, policy, none⟩) := by
  refine ⟨parsePacket_exact packet, fun policy owner now => ?_⟩
  obtain ⟨outcome, equation, kept | ⟨flow, offset, found, -⟩⟩ := throughVPN_spec policy owner packet now
  · exact ⟨outcome, equation, fun _ => kept.1⟩
  · exact ⟨outcome, equation, fun nothing => nomatch found.symm.trans nothing⟩

theorem lookup_forgetRestarted (flows : FiniteMap Flow Decision) (f g : Flow) (starting : Bool)
    (sequence : Nat) (saved : Decision) :
    (forgetRestarted flows f starting sequence).lookup g = some saved ↔
      flows.lookup g = some saved ∧ (g = f → ¬ (starting = true ∧ saved.sequence ≠ sequence)) := by
  unfold forgetRestarted
  cases found : flows.lookup f with
  | none =>
    refine ⟨fun present => ⟨present, fun same => ?_⟩, And.left⟩
    rw [same, found] at present
    cases present
  | some entry =>
    by_cases restarted : starting = true ∧ entry.sequence ≠ sequence
    · have erased : (starting && entry.sequence != sequence) = true := by simpa using restarted
      simp only [erased, if_true]
      by_cases same : g = f
      · subst same
        rw [AList.lookup_erase, found]
        constructor
        · exact nofun
        · rintro ⟨equal, kept⟩
          cases equal
          exact absurd restarted (kept rfl)
      · rw [AList.lookup_erase_ne same]
        simp [same]
    · have kept : (starting && entry.sequence != sequence) = false := by
        rw [← Bool.not_eq_true]
        simpa using restarted
      simp only [kept, Bool.false_eq_true, if_false]
      refine ⟨fun present => ⟨present, fun same => ?_⟩, And.left⟩
      rw [same, found] at present
      cases present
      exact restarted

theorem size_forgetRestarted_le (flows : FiniteMap Flow Decision) (f : Flow) (starting : Bool)
    (sequence : Nat) : (forgetRestarted flows f starting sequence).size ≤ flows.size := by
  unfold forgetRestarted
  cases flows.lookup f with
  | none => exact le_rfl
  | some saved =>
    dsimp only
    split_ifs
    · exact FiniteMap.size_erase_le flows f
    · exact le_rfl

variable {flows : FiniteMap Flow Decision} {saved : Decision}

theorem lookup_of_sweep {now : Int} {g : Flow}
    (found : (sweep flows now).lookup g = some saved) : flows.lookup g = some saved := by
  unfold sweep at found
  split_ifs at found
  · exact ((FiniteMap.lookup_filter _ _ _ _).mp found).1
  · exact found

theorem lookup_sweep_of_isLive {now : Int} {g : Flow} (found : flows.lookup g = some saved)
    (live : isLive now saved = true) :
    (sweep flows now).lookup g = some saved := by
  unfold sweep
  split_ifs
  · exact (FiniteMap.lookup_filter _ _ _ _).mpr ⟨found, live⟩
  · exact found

theorem isLive_of_full {now : Int}
    (full : 8192 ≤ (sweep flows now).size) {g : Flow}
    (found : (sweep flows now).lookup g = some saved) : isLive now saved = true := by
  unfold sweep at full found
  split_ifs at full found
  · exact ((FiniteMap.lookup_filter _ _ _ _).mp found).2
  · omega

theorem size_sweep_le (flows : FiniteMap Flow Decision) (now : Int) : (sweep flows now).size ≤ flows.size := by
  unfold sweep
  split_ifs
  · exact FiniteMap.size_filter_le _ _
  · exact le_rfl

def cleared (flows : FiniteMap Flow Decision) (f : Flow) (starting : Bool) (sequence : Nat)
    (now : Int) : FiniteMap Flow Decision :=
  sweep (forgetRestarted flows f starting sequence) now

def Pinned (flows : FiniteMap Flow Decision) (f : Flow) (starting : Bool) (sequence : Nat) (now : Int)
    (saved : Decision) : Prop :=
  flows.lookup f = some saved ∧ ¬ (starting = true ∧ saved.sequence ≠ sequence) ∧ isLive now saved = true

inductive RouteCase (p : Policy) (f : Flow) (starting : Bool) (sequence : Nat) (now : Int)
    (owner : Owner) : Outcome → Prop where
  | hit (saved : Decision) (pinned : Pinned p.flows f starting sequence now saved) :
      RouteCase p f starting sequence now owner
        ⟨saved.vpn, { p with flows := p.flows.insert f { saved with seen := now } }, none⟩
  | saturated (missed : ∀ saved, ¬ Pinned p.flows f starting sequence now saved)
      (full : 8192 ≤ (cleared p.flows f starting sequence now).size) :
      RouteCase p f starting sequence now owner
        ⟨true, { p with flows := cleared p.flows f starting sequence now }, none⟩
  | created (missed : ∀ saved, ¬ Pinned p.flows f starting sequence now saved)
      (room : (cleared p.flows f starting sequence now).size < 8192) (answer : Int)
      (answered : answer = owner f.protocol f.source f.destination) :
      RouteCase p f starting sequence now owner
        ⟨answer != 0,
          { p with flows := (cleared p.flows f starting sequence now).insert f ⟨answer != 0, now, sequence⟩ },
          some (f, answer)⟩

theorem routeConnection_case (p : Policy) (f : Flow) (starting : Bool) (sequence : Nat) (now : Int)
    (owner : Owner) : RouteCase p f starting sequence now owner
      (routeConnection p f starting sequence now owner) := by
  unfold routeConnection
  dsimp only
  cases found : ((forgetRestarted p.flows f starting sequence).lookup f).filter (isLive now) with
  | some saved =>
    obtain ⟨present, live⟩ := Option.filter_eq_some_iff.mp found
    obtain ⟨stored, kept⟩ := (lookup_forgetRestarted _ _ _ _ _ _).mp present
    have unchanged : forgetRestarted p.flows f starting sequence = p.flows := by
      have keep : (starting && saved.sequence != sequence) = false := by
        rw [← Bool.not_eq_true]
        simpa using kept rfl
      simp only [forgetRestarted, stored, keep, Bool.false_eq_true, if_false]
    rw [unchanged]
    exact .hit saved ⟨stored, kept rfl, live⟩
  | none =>
    have missed (saved : Decision) : ¬ Pinned p.flows f starting sequence now saved := by
      rintro ⟨stored, kept, live⟩
      have present := (lookup_forgetRestarted p.flows f f starting sequence saved).mpr
        ⟨stored, fun _ => kept⟩
      rw [present, Option.filter_some, live] at found
      cases found
    dsimp only
    split_ifs with full
    · exact .saturated missed full
    · exact .created missed (not_le.mp full) _ rfl

section RouteCase
variable {p : Policy} {f : Flow} {starting : Bool} {sequence : Nat} {now : Int} {owner : Owner}
  {outcome : Outcome}

variable {g : Flow}

theorem lookup_of_cleared (found : (cleared flows f starting sequence now).lookup g = some saved) :
    flows.lookup g = some saved ∧ (g = f → ¬ (starting = true ∧ saved.sequence ≠ sequence)) :=
  (lookup_forgetRestarted _ _ _ _ _ _).mp (lookup_of_sweep found)

theorem lookup_cleared_of_isLive
    (different : g ≠ f) (found : flows.lookup g = some saved) (live : isLive now saved = true) :
    (cleared flows f starting sequence now).lookup g = some saved :=
  lookup_sweep_of_isLive
    ((lookup_forgetRestarted _ _ _ _ _ _).mpr ⟨found, fun same => absurd same different⟩) live

theorem size_cleared_le (flows : FiniteMap Flow Decision) (f : Flow) (starting : Bool) (sequence : Nat)
    (now : Int) : (cleared flows f starting sequence now).size ≤ flows.size :=
  (size_sweep_le _ _).trans (size_forgetRestarted_le _ _ _ _)

section

variable (route : RouteCase p f starting sequence now owner outcome)
include route

theorem RouteCase.lookup_other (different : g ≠ f) (found : outcome.policy.flows.lookup g = some saved) :
    p.flows.lookup g = some saved := by
  cases route with
  | hit entry pinned => exact (AList.lookup_insert_ne different).symm.trans found
  | saturated missed full => exact (lookup_of_cleared found).1
  | created missed room answer answered =>
    exact (lookup_of_cleared ((AList.lookup_insert_ne different).symm.trans found)).1

theorem RouteCase.lookup_kept (different : g ≠ f) (found : p.flows.lookup g = some saved)
    (live : isLive now saved = true) : outcome.policy.flows.lookup g = some saved := by
  cases route with
  | hit entry pinned => exact (AList.lookup_insert_ne different).trans found
  | saturated missed full => exact lookup_cleared_of_isLive different found live
  | created missed room answer answered =>
    exact (AList.lookup_insert_ne different).trans (lookup_cleared_of_isLive different found live)

theorem RouteCase.lookup_own (found : outcome.policy.flows.lookup f = some saved) :
    outcome.vpn = saved.vpn ∧ saved.seen = now ∧
      ((∃ entry, Pinned p.flows f starting sequence now entry ∧ saved = { entry with seen := now } ∧
          outcome.lookup = none) ∨
        ∃ answer, answer = owner f.protocol f.source f.destination ∧
          saved = ⟨answer != 0, now, sequence⟩ ∧ outcome.lookup = some (f, answer)) := by
  cases route with
  | hit entry pinned =>
    have same := (AList.lookup_insert p.flows).symm.trans found
    cases same
    exact ⟨rfl, rfl, .inl ⟨entry, pinned, rfl, rfl⟩⟩
  | saturated missed full =>
    obtain ⟨stored, kept⟩ := lookup_of_cleared found
    exact absurd ⟨stored, kept rfl, isLive_of_full full found⟩ (missed saved)
  | created missed room answer answered =>
    have same := (AList.lookup_insert (cleared p.flows f starting sequence now)).symm.trans found
    cases same
    exact ⟨rfl, rfl, .inr ⟨answer, answered, rfl, rfl⟩⟩

theorem RouteCase.size_le (bounded : p.flows.size ≤ 8192) : outcome.policy.flows.size ≤ 8192 := by
  cases route with
  | hit entry pinned =>
    have present : f ∈ p.flows := AList.lookup_isSome.mp (by rw [pinned.1]; rfl)
    exact (FiniteMap.size_insert_of_mem present _).trans_le bounded
  | saturated missed full => exact (size_cleared_le _ _ _ _ _).trans bounded
  | created missed room answer answered =>
    dsimp only
    by_cases present : f ∈ cleared p.flows f starting sequence now
    · rw [FiniteMap.size_insert_of_mem present]
      exact room.le
    · rw [FiniteMap.size_insert_of_notMem present]
      exact room

theorem RouteCase.flow_of_lookup {answer : Int} (asked : outcome.lookup = some (g, answer)) : g = f := by
  cases route with
  | hit => cases asked
  | saturated => cases asked
  | created => cases asked; rfl

theorem RouteCase.recorded_or_saturated : (∃ saved, outcome.policy.flows.lookup f = some saved) ∨
      (outcome.vpn = true ∧ (∀ saved, ¬ Pinned p.flows f starting sequence now saved) ∧
        8192 ≤ (cleared p.flows f starting sequence now).size) := by
  cases route with
  | hit entry pinned => exact .inl ⟨_, AList.lookup_insert _⟩
  | saturated missed full => exact .inr ⟨rfl, missed, full⟩
  | created missed room answer answered => exact .inl ⟨_, AList.lookup_insert _⟩

end

end RouteCase

end Amnezia.Union
