import Amnezia.Union.Policy
import Amnezia.Lib.Runs

/-! # Sequences of packets -/

namespace Amnezia.Union
open Lib Lib.Bytes

structure Event where
  packet : List UInt8
  now : Int
  owner : Owner

abbrev Call := Event × Outcome

def Step (before : Policy) (call : Call) (after : Policy) : Prop :=
  throughVPN before call.1.owner call.1.packet call.1.now = .ok call.2 ∧ after = call.2.policy

def Carries (event : Event) (f : Flow) (offset : Nat) : Prop :=
  parsePacket event.packet = .ok (some (f, offset))

def Restarts (event : Event) (f : Flow) (sequence : Nat) : Prop :=
  ∃ offset, Carries event f offset ∧ isStart event.packet offset = true ∧
    sequenceOf event.packet offset ≠ sequence

structure Attributable (p : Policy) (f : Flow) : Prop where
  tcp : f.protocol = 6
  notDns : f.destination.addr.unmap ∉ p.dns
  notSite : isSite p f.destination.addr = false

variable {f : Flow}

theorem Carries.unique {event : Event} {g : Flow} {offset position : Nat}
    (one : Carries event f offset) (other : Carries event g position) : f = g ∧ offset = position := by
  rw [Carries, one] at other
  cases other
  exact ⟨rfl, rfl⟩

def rules (p : Policy) : Policy := { p with flows := ∅ }

theorem Attributable.of_rules {p q : Policy} (same : rules p = rules q)
    (attributable : Attributable p f) : Attributable q f := by
  have dns : (rules p).dns = (rules q).dns := by rw [same]
  have site : isSite (rules p) = isSite (rules q) := by rw [same]
  change p.dns = q.dns at dns
  change isSite p = isSite q at site
  exact ⟨attributable.tcp, dns ▸ attributable.notDns, site ▸ attributable.notSite⟩

/-- The cases of one call, seen from the flow table. -/
inductive StepCase (p : Policy) (event : Event) : Outcome → Prop where
  | unrouted (other : ∀ f offset, Carries event f offset → ¬ Attributable p f)
      (vpn : Bool) (lookup : Option (Flow × Int))
      (asked : ∀ f answer, lookup = some (f, answer) → f.protocol = 17) :
      StepCase p event ⟨vpn, p, lookup⟩
  | connection {outcome : Outcome} (f : Flow) (offset : Nat) (carries : Carries event f offset)
      (attributable : Attributable p f)
      (route : RouteCase p f (isStart event.packet offset) (sequenceOf event.packet offset) event.now
        event.owner outcome) : StepCase p event outcome

theorem step_case {before after : Policy} {call : Call} (step : Step before call after) :
    StepCase before call.1 call.2 := by
  obtain ⟨event, outcome⟩ := call
  obtain ⟨found, equation, cases⟩ := throughVPN_spec before event.owner event.packet event.now
  have same : found = outcome := Except.ok.inj (equation.symm.trans step.1)
  subst same
  rcases cases with ⟨rfl, guarded⟩ | ⟨f, offset, parse, parsed, notDns, notSite, ⟨udp, rfl⟩ | ⟨tcp, rfl⟩⟩
  · refine .unrouted (fun f offset carries attributable => ?_) true none nofun
    rcases guarded f offset carries with dns | site
    · exact attributable.notDns dns
    · rw [attributable.notSite] at site
      cases site
  · refine .unrouted (fun g position carries attributable => ?_) _ _ ?_
    · rw [← (Carries.unique parse carries).1] at attributable
      have := attributable.tcp
      rw [udp] at this
      exact absurd this (by decide)
    · rintro g answer ⟨⟩
      exact udp
  · exact .connection f offset parse ⟨tcp, notDns, notSite⟩ (routeConnection_case _ _ _ _ _ _)

theorem RouteCase.rules_eq {p : Policy} {starting : Bool} {sequence : Nat} {now : Int}
    {owner : Owner} {outcome : Outcome} (route : RouteCase p f starting sequence now owner outcome) :
    rules outcome.policy = rules p := by
  cases route <;> rfl

theorem step_rules {before after : Policy} {call : Call} (step : Step before call after) :
    rules after = rules before := by
  obtain ⟨event, outcome⟩ := call
  have cases := step_case step
  obtain ⟨-, rfl⟩ := step
  cases cases with
  | unrouted => rfl
  | connection f offset carries attributable route => exact route.rules_eq

/-- The decision was recorded by an owner lookup that answered `answer`; since then there was no
other lookup for the tuple and no starting packet with another sequence number. -/
structure DecidedBy (past : List Call) (f : Flow) (saved : Decision) (answer : Int) : Prop where
  origin : ∃ (front : List Call) (event : Event) (outcome : Outcome) (back : List Call) (offset : Nat),
    past = front ++ (event, outcome) :: back ∧ Carries event f offset ∧
    outcome.lookup = some (f, answer) ∧ answer = event.owner f.protocol f.source f.destination ∧
    saved.sequence = sequenceOf event.packet offset ∧
    ∀ later ∈ back, (∀ other, later.2.lookup ≠ some (f, other)) ∧ ¬ Restarts later.1 f saved.sequence
  vpn : saved.vpn = (answer != 0)

theorem DecidedBy.extend {past : List Call} {saved : Decision} {answer : Int}
    (decided : DecidedBy past f saved answer) (renewed : Decision) (vpn : renewed.vpn = saved.vpn)
    (sequence : renewed.sequence = saved.sequence) (call : Call)
    (unasked : ∀ other, call.2.lookup ≠ some (f, other)) (kept : ¬ Restarts call.1 f saved.sequence) :
    DecidedBy (past ++ [call]) f renewed answer := by
  obtain ⟨⟨front, event, outcome, back, offset, rfl, carries, asked, answered, same, since⟩, value⟩ := decided
  refine ⟨⟨front, event, outcome, back ++ [call], offset, by simp, carries, asked, answered,
    sequence.trans same, fun later member => ?_⟩, vpn.trans value⟩
  rw [sequence]
  rcases List.mem_append.mp member with member | member
  · exact since later member
  · rw [List.mem_singleton.mp member]
    exact ⟨unasked, kept⟩

structure Consistent (start : Policy) (past : List Call) (p : Policy) : Prop where
  rules_eq : rules p = rules start
  entries : ∀ f saved, p.flows.lookup f = some saved →
    Attributable p f ∧ (∃ call ∈ past, saved.seen = call.1.now) ∧ ∃ answer, DecidedBy past f saved answer
  bounded : p.flows.size ≤ 8192

theorem not_restarts_of_carries {event : Event} {g : Flow} {offset : Nat} {sequence : Nat}
    (carries : Carries event g offset) (different : f ≠ g) : ¬ Restarts event f sequence := by
  rintro ⟨position, other, -⟩
  exact different (Carries.unique other carries).1

theorem step_consistent (start : Policy) (past : List Call) (before : Policy) (call : Call)
    (after : Policy) (consistent : Consistent start past before) (step : Step before call after) :
    Consistent start (past ++ [call]) after := by
  have rulesEq := step_rules step
  have attributableAfter {f : Flow} (attributable : Attributable before f) : Attributable after f :=
    attributable.of_rules rulesEq.symm
  obtain ⟨event, outcome⟩ := call
  have cases := step_case step
  obtain ⟨-, rfl⟩ := step
  have untouched {f : Flow} {saved : Decision} (found : before.flows.lookup f = some saved)
      (unasked : ∀ other, outcome.lookup ≠ some (f, other))
      (kept : ¬ Restarts event f saved.sequence) :
      Attributable outcome.policy f ∧
        (∃ call ∈ past ++ [(event, outcome)], saved.seen = call.1.now) ∧
        ∃ answer, DecidedBy (past ++ [(event, outcome)]) f saved answer := by
    obtain ⟨attributable, ⟨call, member, seen⟩, answer, decided⟩ := consistent.entries f saved found
    exact ⟨attributableAfter attributable, ⟨call, List.mem_append_left _ member, seen⟩, answer,
      decided.extend saved rfl rfl (event, outcome) unasked kept⟩
  refine ⟨rulesEq.trans consistent.rules_eq, fun f saved found => ?_, ?_⟩
  · cases cases with
    | unrouted other vpn lookup asked =>
      have attributable := (consistent.entries f saved found).1
      apply untouched found
      · intro answer equal
        have udp := asked f answer equal
        rw [attributable.tcp] at udp
        cases udp
      · rintro ⟨offset, carries, -⟩
        exact other f offset carries attributable
    | connection g offset carries attributable route =>
      by_cases same : f = g
      · subst same
        obtain ⟨-, seen, ⟨entry, pinned, rfl, silent⟩ | ⟨answer, answered, rfl, asked⟩⟩ :=
          route.lookup_own found
        · obtain ⟨-, -, answer, decided⟩ := consistent.entries f entry pinned.1
          refine ⟨attributableAfter attributable, ⟨(event, outcome), by simp, seen⟩, answer,
            decided.extend { entry with seen := event.now } rfl rfl (event, outcome)
              (fun other asked => ?_) ?_⟩
          · rw [silent] at asked
            cases asked
          · rintro ⟨position, other, starting, different⟩
            rw [(Carries.unique other carries).2] at starting different
            exact pinned.2.1 ⟨starting, Ne.symm different⟩
        · exact ⟨attributableAfter attributable, ⟨(event, outcome), by simp, seen⟩, answer,
            ⟨past, event, outcome, [], offset, rfl, carries, asked, answered, rfl, nofun⟩, rfl⟩
      · exact untouched (route.lookup_other same found)
          (fun answer equal => same (route.flow_of_lookup equal)) (not_restarts_of_carries carries same)
  · cases cases with
    | unrouted => exact consistent.bounded
    | connection g offset carries attributable route => exact route.size_le consistent.bounded

theorem run_consistent {start p : Policy} (fresh : start.flows = ∅) {past : List Call}
    (run : Run Step start past p) : Consistent start past p := by
  have initial : Consistent start [] start := by
    refine ⟨rfl, fun f saved found => ?_, ?_⟩
    · rw [fresh] at found
      cases found
    · rw [fresh]
      exact Nat.zero_le _
  exact run.invariant (step_consistent start) [] initial

/-- Why a packet may bypass the VPN. -/
structure BypassAllowed (networks : List Prefix) (addresses : List Addr) (past : List Call)
    (event : Event) (outcome : Outcome) (f : Flow) (offset : Nat) : Prop where
  carries : Carries event f offset
  source : f.source.addr = sourceAddr event.packet
  destination : f.destination.addr = destinationAddr event.packet
  unfragmented : Unfragmented event.packet f.protocol offset
  notDns : ∀ address ∈ addresses, address.unmap ≠ f.destination.addr.unmap
  notSite : ∀ network ∈ networks, ¬ network.contains f.destination.addr
  owner : (f.protocol = 17 ∧ event.owner 17 f.source f.destination = 0) ∨
    (f.protocol = 6 ∧ ∃ saved, outcome.policy.flows.lookup f = some saved ∧
      DecidedBy (past ++ [(event, outcome)]) f saved 0)

theorem bypass_only_when_owner_answered_zero {parsers : Parsers} {text : List UInt8}
    {owner : Option Owner} {start : Policy} (accepted : newPolicy parsers text owner = .ok start)
    {past : List Call} {p : Policy} (run : Run Step start past p) (event : Event) :
    ∃ networks addresses outcome, Configured parsers text networks addresses ∧
      throughVPN p event.owner event.packet event.now = .ok outcome ∧
      (outcome.vpn = false → ∃ f offset, BypassAllowed networks addresses past event outcome f offset) := by
  obtain ⟨networks, addresses, configured, rfl⟩ := newPolicy_ok accepted
  obtain ⟨outcome, equation, cases⟩ := throughVPN_spec p event.owner event.packet event.now
  have step : Step p (event, outcome) outcome.policy := ⟨equation, rfl⟩
  have before := run_consistent rfl run
  have after := run_consistent rfl (run.snoc step)
  have sameRules : { p with flows := ∅ } = initialPolicy networks addresses := before.rules_eq
  refine ⟨networks, addresses, outcome, configured, equation, fun bypass => ?_⟩
  rcases cases with ⟨rfl, -⟩ | ⟨f, offset, carries, parsed, notDns, notSite, owned⟩
  · cases bypass
  · have dns : p.dns = addresses.map Addr.unmap := congrArg Policy.dns sameRules
    refine ⟨f, offset, carries, parsed.source, parsed.destination, parsed.unfragmented,
      fun address member equal => ?_,
      not_contains_of_isSite sameRules notSite, ?_⟩
    · rw [dns, ← equal] at notDns
      exact notDns (List.mem_map_of_mem member)
    · rcases owned with ⟨udp, rfl⟩ | ⟨tcp, rfl⟩
      · exact .inl ⟨udp, by simpa using bypass⟩
      · refine .inr ⟨tcp, ?_⟩
        have route := routeConnection_case p f (isStart event.packet offset)
          (sequenceOf event.packet offset) event.now event.owner
        rcases route.recorded_or_saturated with ⟨saved, found⟩ | ⟨vpn, -⟩
        · obtain ⟨-, -, answer, decided⟩ := after.entries f saved found
          have value := decided.vpn
          rw [← (route.lookup_own found).1, bypass] at value
          have zero : answer = 0 := by simpa using value.symm
          exact ⟨saved, found, zero ▸ decided⟩
        · rw [vpn] at bypass
          cases bypass

def siteText : List UInt8 :=
  [123, 34, 115, 105, 116, 101, 115, 34, 58, 91, 34, 49, 57, 56, 46, 53, 49, 46, 49, 48, 48, 46, 48,
    47, 50, 52, 34, 93, 125]

def siteNetwork : Prefix :=
  ⟨⟨.v4, 198 * 2 ^ 24 + 51 * 2 ^ 16 + 100 * 2 ^ 8, by decide⟩, 24, by decide, .inl rfl⟩

def siteParsers : Parsers where
  unmarshal text := if text = siteText then some ⟨["198.51.100.0/24"], []⟩ else none
  parsePrefix value := if value = "198.51.100.0/24" then some siteNetwork else none
  parseAddr _ := none

def sitePolicy : Policy := initialPolicy [siteNetwork] []

theorem newPolicy_siteText (owner : Owner) :
    newPolicy siteParsers siteText (some owner) = .ok sitePolicy := rfl

def addr4 (a b c d : UInt8) : Addr := .ofBytes .v4 [a, b, c, d] rfl

def portFlow (port : Nat) : Flow := ⟨⟨addr4 10 0 0 2, port⟩, ⟨addr4 203 0 113 1, 443⟩, 6⟩

def synPacket (port : Nat) : List UInt8 :=
  [0x45, 0, 0, 40, 0, 0, 0, 0, 64, 6, 0, 0, 10, 0, 0, 2, 203, 0, 113, 1,
    UInt8.ofNat (port / 256), UInt8.ofNat (port % 256), 1, 187, 0, 0, 0, 1, 0, 0, 0, 0, 0x50, 0x02,
    0xff, 0xff, 0, 0, 0, 0]

def synEvent (port : Nat) (seconds answer : Int) : Event :=
  ⟨synPacket port, seconds * 10 ^ 9, fun _ _ _ => answer⟩

theorem carries_synEvent {port : Nat} (small : port < 65536) (seconds answer : Int) :
    Carries (synEvent port seconds answer) (portFlow port) 20 := by
  have number : beNat [UInt8.ofNat (port / 256), UInt8.ofNat (port % 256)] = port := by
    simp [beNat_cons]
    omega
  have version : (69 : UInt8) >>> 4 = 4 := by decide
  have total : beNat [0, 40] = 40 := by decide
  have fragment : beNat [0, 0] = 0 := by decide
  have service : beNat [1, 187] = 443 := by decide
  simp [Carries, synEvent, synPacket, parsePacket, parseIpv4, parseTransport, byteAt, uintAt, slice,
    addrAt, Family.bitLen, bind, Except.bind, pure, Except.pure, version, total, fragment, service,
    number, portFlow, addr4]

theorem attributable_portFlow (port : Nat) : Attributable sitePolicy (portFlow port) :=
  ⟨rfl, List.not_mem_nil, show isSite sitePolicy (addr4 203 0 113 1) = false by decide⟩

-- The owner answers 0 for the first packet and 1 for the retransmission a second later.
theorem syn_bypasses_when_owner_answers_zero :
    ∃ first, throughVPN sitePolicy (synEvent 5 0 0).owner (synPacket 5) 0 = .ok first ∧
      ∃ networks addresses outcome, Configured siteParsers siteText networks addresses ∧
        throughVPN first.policy (synEvent 5 1 1).owner (synPacket 5) (10 ^ 9) = .ok outcome ∧
        (outcome.vpn = false → ∃ f offset,
          BypassAllowed networks addresses [(synEvent 5 0 0, first)] (synEvent 5 1 1) outcome f offset) := by
  obtain ⟨first, equation, -⟩ := throughVPN_spec sitePolicy (synEvent 5 0 0).owner (synPacket 5) 0
  have step : Step sitePolicy (synEvent 5 0 0, first) first.policy := ⟨equation, rfl⟩
  exact ⟨first, equation,
    bypass_only_when_owner_answered_zero (newPolicy_siteText fun _ _ _ => 0) (.cons step (.nil _)) (synEvent 5 1 1)⟩

example : ((throughVPN sitePolicy (fun _ _ _ => 0) (synPacket 5) 0).toOption.bind fun first =>
    (throughVPN first.policy (fun _ _ _ => 1) (synPacket 5) (10 ^ 9)).toOption).map Outcome.vpn = some false := by
  decide

end Amnezia.Union
