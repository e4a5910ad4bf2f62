import Amnezia.Union.Sessions

/-! # One TCP connection in a run -/

namespace Amnezia.Union
open Lib

def carriesFlow (f : Flow) (call : Call) : Bool :=
  match parsePacket call.1.packet with
  | .ok (some (g, _)) => g == f
  | _ => false

theorem carriesFlow_iff (f : Flow) (call : Call) :
    carriesFlow f call = true ↔ ∃ offset, Carries call.1 f offset := by
  unfold carriesFlow Carries
  cases parsePacket call.1.packet with
  | error panic => simp
  | ok result =>
    cases result with
    | none => simp
    | some found => simp [Prod.ext_iff]

def times (calls : List Call) : List Int := calls.map fun call => call.1.now

def flowTimes (f : Flow) (calls : List Call) : List Int := times (calls.filter (carriesFlow f))

def Close (earlier later : Int) : Prop := later - earlier < twoMinutes

variable {before after p : Policy} {f : Flow} {saved : Decision} {event : Event} {outcome : Outcome}
variable {offset : Nat}

theorem step_keeps_other {call : Call} (step : Step before call after)
    (other : carriesFlow f call = false)
    (found : before.flows.lookup f = some saved) (live : isLive call.1.now saved = true) :
    after.flows.lookup f = some saved := by
  obtain ⟨event, outcome⟩ := call
  have cases : StepCase before event outcome := step_case step
  obtain ⟨-, rfl⟩ := step
  cases cases with
  | unrouted => exact found
  | connection g offset carries attributable route =>
    have different : f ≠ g := by
      rintro rfl
      have := (carriesFlow_iff f (event, outcome)).mpr ⟨offset, carries⟩
      rw [other] at this
      cases this
    exact route.lookup_kept different found live

theorem step_route (step : Step before (event, outcome) after) (attributable : Attributable before f)
    (carries : Carries event f offset) :
    RouteCase before f (isStart event.packet offset) (sequenceOf event.packet offset) event.now
      event.owner outcome := by
  have cases : StepCase before event outcome := step_case step
  cases cases with
  | unrouted other vpn lookup asked => exact absurd attributable (other f offset carries)
  | connection g position carriesG _ route =>
    obtain ⟨rfl, rfl⟩ := Carries.unique carries carriesG
    exact route

theorem RouteCase.eq_hit {starting : Bool} {sequence : Nat} {now : Int} {owner : Owner}
    (route : RouteCase p f starting sequence now owner outcome)
    (pinned : Pinned p.flows f starting sequence now saved) :
    outcome.vpn = saved.vpn ∧ outcome.policy.flows.lookup f = some { saved with seen := now } := by
  cases route with
  | hit entry other =>
    have same : entry = saved := Option.some.inj (other.1.symm.trans pinned.1)
    subst same
    exact ⟨rfl, AList.lookup_insert _⟩
  | saturated missed full => exact absurd pinned (missed saved)
  | created missed room answer answered => exact absurd pinned (missed saved)

/-- While an entry of the tuple is live, all its packets get the recorded answer. -/
theorem pinned_run {calls : List Call}
    (run : Run Step before calls after) (attributable : Attributable before f)
    (found : before.flows.lookup f = some saved) (ordered : (times calls).Pairwise (· ≤ ·))
    (close : (saved.seen :: flowTimes f calls).IsChain Close)
    (kept : ∀ call ∈ calls, ¬ Restarts call.1 f saved.sequence) :
    ∀ call ∈ calls, carriesFlow f call = true → call.2.vpn = saved.vpn := by
  induction run generalizing saved with
  | nil => exact nofun
  | @cons before middle after call calls first rest ih =>
    obtain ⟨later, ordered⟩ := List.pairwise_cons.mp ordered
    have attributable' := attributable.of_rules (step_rules first).symm
    have keptRest : ∀ call ∈ calls, ¬ Restarts call.1 f saved.sequence :=
      fun other member => kept other (List.mem_cons_of_mem _ member)
    cases here : carriesFlow f call with
    | true =>
      have split : flowTimes f (call :: calls) = call.1.now :: flowTimes f calls := by
        simp [flowTimes, times, here]
      rw [split] at close
      obtain ⟨gap, close⟩ := List.isChain_cons_cons.mp close
      obtain ⟨offset, carries⟩ := (carriesFlow_iff f call).mp here
      have pinned : Pinned before.flows f (isStart call.1.packet offset)
          (sequenceOf call.1.packet offset) call.1.now saved := by
        refine ⟨found, fun restart => ?_, (isLive_iff _ _).mpr gap⟩
        exact kept call List.mem_cons_self ⟨offset, carries, restart.1, Ne.symm restart.2⟩
      obtain ⟨vpn, found'⟩ := (step_route first attributable carries).eq_hit pinned
      rw [← first.2] at found'
      have rest := ih attributable' found' ordered close keptRest
      intro other member carried
      rcases List.mem_cons.mp member with rfl | member
      · exact vpn
      · exact rest other member carried
    | false =>
      have split : flowTimes f (call :: calls) = flowTimes f calls := by
        simp [flowTimes, here]
      rw [split] at close
      intro other member carried
      rcases List.mem_cons.mp member with rfl | member
      · rw [here] at carried
        cases carried
      · -- The next packet of the tuple is close to the last one, and this call lies between them.
        have live : isLive call.1.now saved = true := by
          cases next : flowTimes f calls with
          | nil =>
            have inside : other.1.now ∈ flowTimes f calls :=
              List.mem_map_of_mem (List.mem_filter.mpr ⟨member, carried⟩)
            rw [next] at inside
            cases inside
          | cons time more =>
            rw [next] at close
            have gap : time - saved.seen < twoMinutes := (List.isChain_cons_cons.mp close).1
            have inside : time ∈ times calls := by
              have : time ∈ flowTimes f calls := by rw [next]; exact List.mem_cons_self
              obtain ⟨source, filtered, rfl⟩ := List.mem_map.mp this
              exact List.mem_map_of_mem (List.mem_filter.mp filtered).1
            have order : call.1.now ≤ time := later time inside
            exact (isLive_iff _ _).mpr (by omega)
        exact ih attributable' (step_keeps_other first here found live) ordered close keptRest
          other member carried

/-- The first packet of a tuple finds a live decision, or room to record one. -/
def Recordable (p : Policy) (f : Flow) (event : Event) (offset : Nat) : Prop :=
  (∃ saved, Pinned p.flows f (isStart event.packet offset) (sequenceOf event.packet offset) event.now saved) ∨
    (cleared p.flows f (isStart event.packet offset) (sequenceOf event.packet offset) event.now).size < 8192

/-- A run that begins with a packet of the tuple: the times do not decrease, consecutive packets of
the tuple are less than two minutes apart, and none restarts the recorded connection. -/
structure Connection (f : Flow) (first : Call) (rest : List Call) : Prop where
  ordered : (times (first :: rest)).Pairwise (· ≤ ·)
  close : (first.1.now :: flowTimes f rest).IsChain Close
  kept : ∀ saved, first.2.policy.flows.lookup f = some saved →
    ∀ call ∈ rest, ¬ Restarts call.1 f saved.sequence

def NeverSplit (f : Flow) (first : Call) (rest : List Call) : Prop :=
  ∀ call ∈ rest, carriesFlow f call = true → call.2.vpn = first.2.vpn

theorem never_split_of_recordable
    {rest : List Call} (attributable : Attributable p f) (carries : Carries event f offset)
    (recordable : Recordable p f event offset) (run : Run Step p ((event, outcome) :: rest) after)
    (connection : Connection f (event, outcome) rest) : NeverSplit f (event, outcome) rest := by
  cases run with
  | cons first rest =>
    have route := step_route first attributable carries
    obtain ⟨-, rfl⟩ := first
    rcases route.recorded_or_saturated with ⟨saved, found⟩ | ⟨-, missed, full⟩
    · obtain ⟨vpn, seen, -⟩ := route.lookup_own found
      have attributable' : Attributable outcome.policy f := attributable.of_rules route.rules_eq.symm
      intro call member carried
      dsimp only
      rw [vpn]
      refine pinned_run rest attributable' found (List.pairwise_cons.mp connection.ordered).2 ?_
        (connection.kept saved found) call member carried
      rw [seen]
      exact connection.close
    · rcases recordable with ⟨saved, pinned⟩ | room
      · exact absurd pinned (missed saved)
      · exact absurd full (not_le.mpr room)

theorem RouteCase.unrecorded {starting : Bool} {sequence : Nat} {now : Int}
    {owner : Owner} (route : RouteCase p f starting sequence now owner outcome)
    (missed : ∀ saved, ¬ Pinned p.flows f starting sequence now saved)
    (full : 8192 ≤ (cleared p.flows f starting sequence now).size ∨
      (owner f.protocol f.source f.destination = 0 ∧ outcome.vpn = true)) :
    outcome.vpn = true ∧ outcome.policy.flows = cleared p.flows f starting sequence now ∧
      8192 ≤ outcome.policy.flows.size ∧ outcome.policy.flows.lookup f = none := by
  cases route with
  | hit saved pinned => exact absurd pinned (missed saved)
  | saturated _ size =>
    refine ⟨rfl, rfl, size, Option.eq_none_iff_forall_ne_some.mpr fun saved found => ?_⟩
    obtain ⟨stored, kept⟩ := lookup_of_cleared found
    exact missed saved ⟨stored, kept rfl, isLive_of_full size found⟩
  | created _ room answer answered =>
    rcases full with full | ⟨zero, vpn⟩
    · exact absurd full (not_le.mpr room)
    · rw [← answered] at zero
      simp [zero] at vpn

variable {flows : FiniteMap Flow Decision}

theorem not_pinned_of_lookup (absent : flows.lookup f = none)
    (starting : Bool) (sequence : Nat) (now : Int) (saved : Decision) :
    ¬ Pinned flows f starting sequence now saved := by
  rintro ⟨stored, -⟩
  rw [absent] at stored
  cases stored

theorem exists_step (p : Policy) (event : Event) :
    ∃ outcome, Step p (event, outcome) outcome.policy := by
  obtain ⟨outcome, equation, -⟩ := throughVPN_spec p event.owner event.packet event.now
  exact ⟨outcome, equation, rfl⟩

def again (event : Event) (delay : Int) : Event :=
  ⟨event.packet, event.now + delay, fun _ _ _ => 0⟩

theorem recordable_of_never_split (attributable : Attributable p f) (carries : Carries event f offset)
    (past : ∀ g saved, p.flows.lookup g = some saved → saved.seen ≤ event.now)
    (always : ∀ outcome rest after, Run Step p ((event, outcome) :: rest) after →
      Connection f (event, outcome) rest → NeverSplit f (event, outcome) rest) :
    Recordable p f event offset := by
  by_contra not
  obtain ⟨missed, full⟩ := not_or.mp not
  rw [not_exists] at missed
  rw [not_lt] at full
  obtain ⟨first, firstStep⟩ := exists_step p event
  obtain ⟨second, secondStep⟩ := exists_step first.policy (again event (119 * 10 ^ 9))
  obtain ⟨third, thirdStep⟩ := exists_step second.policy (again event (238 * 10 ^ 9))
  have carried (delay : Int) (outcome : Outcome) : carriesFlow f (again event delay, outcome) = true :=
    (carriesFlow_iff _ _).mpr ⟨offset, carries⟩
  have firstRoute := step_route firstStep attributable carries
  obtain ⟨firstVpn, firstFlows, firstSize, firstAbsent⟩ := firstRoute.unrecorded missed (.inl full)
  have attributable' := attributable.of_rules firstRoute.rules_eq.symm
  have connection : Connection f (event, first)
      [(again event (119 * 10 ^ 9), second), (again event (238 * 10 ^ 9), third)] := by
    refine ⟨?_, ?_, fun saved found => ?_⟩
    · simp [times, again]
    · have packets : flowTimes f
          [(again event (119 * 10 ^ 9), second), (again event (238 * 10 ^ 9), third)] =
            [event.now + 119 * 10 ^ 9, event.now + 238 * 10 ^ 9] := by
        simp only [flowTimes, List.filter_cons, carried, if_true, List.filter_nil]
        rfl
      rw [packets]
      refine .cons_cons ?_ (.cons_cons ?_ (.singleton _)) <;> simp only [Close, twoMinutes] <;> omega
    · rw [firstAbsent] at found
      cases found
  have same := always first _ third.policy (.cons firstStep (.cons secondStep (.cons thirdStep (.nil _))))
    connection
  have secondVpn : second.vpn = true := (same (_, second) List.mem_cons_self (carried _ _)).trans firstVpn
  have thirdVpn : third.vpn = true :=
    (same (_, third) (List.mem_cons_of_mem _ List.mem_cons_self) (carried _ _)).trans firstVpn
  have secondRoute := step_route secondStep attributable' carries
  obtain ⟨-, secondFlows, -, secondAbsent⟩ := secondRoute.unrecorded
    (not_pinned_of_lookup firstAbsent _ _ _) (.inr ⟨rfl, secondVpn⟩)
  have thirdRoute := step_route thirdStep (attributable'.of_rules secondRoute.rules_eq.symm) carries
  obtain ⟨-, thirdFlows, thirdSize, -⟩ := thirdRoute.unrecorded
    (not_pinned_of_lookup secondAbsent _ _ _) (.inr ⟨rfl, thirdVpn⟩)
  -- A full table after four minutes would hold a decision that has expired.
  obtain ⟨g, saved, found⟩ := FiniteMap.exists_lookup_of_size_pos
    (lt_of_lt_of_le (by decide) thirdSize)
  rw [thirdFlows] at found thirdSize
  have live := (isLive_iff _ _).mp (isLive_of_full thirdSize found)
  have inSecond := (lookup_of_cleared found).1
  rw [secondFlows] at inSecond
  have inFirst := (lookup_of_cleared inSecond).1
  rw [firstFlows] at inFirst
  have seen := past g saved (lookup_of_cleared inFirst).1
  simp only [again, twoMinutes] at live
  omega

theorem connection_never_split_iff {parsers : Parsers} {text : List UInt8} {owner : Option Owner}
    {start : Policy} (accepted : newPolicy parsers text owner = .ok start) {past : List Call} {p : Policy}
    (run : Run Step start past p) {event : Event} (ordered : ∀ call ∈ past, call.1.now ≤ event.now)
    {f : Flow} {offset : Nat} (carries : Carries event f offset) (attributable : Attributable p f) :
    p.flows.size ≤ 8192 ∧
      ((∀ outcome rest after, Run Step p ((event, outcome) :: rest) after →
          Connection f (event, outcome) rest → NeverSplit f (event, outcome) rest) ↔
        Recordable p f event offset) := by
  obtain ⟨networks, addresses, -, rfl⟩ := newPolicy_ok accepted
  have consistent := run_consistent rfl run
  refine ⟨consistent.bounded, recordable_of_never_split attributable carries fun g saved found => ?_,
    fun recordable outcome rest after => never_split_of_recordable attributable carries recordable⟩
  obtain ⟨-, ⟨call, member, seen⟩, -⟩ := consistent.entries g saved found
  rw [seen]
  exact ordered call member

theorem first_connection_never_split :
    Recordable sitePolicy (portFlow 5) (synEvent 5 0 0) 20 ∧
    ∀ outcome rest after, Run Step sitePolicy ((synEvent 5 0 0, outcome) :: rest) after →
      Connection (portFlow 5) (synEvent 5 0 0, outcome) rest →
      NeverSplit (portFlow 5) (synEvent 5 0 0, outcome) rest := by
  have room : Recordable sitePolicy (portFlow 5) (synEvent 5 0 0) 20 := .inr (by decide)
  exact ⟨room, (connection_never_split_iff (newPolicy_siteText fun _ _ _ => 0) (.nil _) nofun
    (carries_synEvent (by decide) 0 0) (attributable_portFlow 5)).2.mpr room⟩

theorem cleared_of_room (absent : flows.lookup f = none)
    (room : flows.size < 8192) (starting : Bool) (sequence : Nat) (now : Int) :
    cleared flows f starting sequence now = flows := by
  rw [cleared, forgetRestarted, absent, sweep, if_neg (not_le.mpr room)]

theorem portFlow_injective {port other : Nat} (equal : portFlow port = portFlow other) : port = other := by
  exact congrArg (fun f => f.source.port) equal

theorem attributable_of_run {past : List Call} (run : Run Step sitePolicy past p)
    (port : Nat) : Attributable p (portFlow port) :=
  (attributable_portFlow port).of_rules (run_consistent rfl run).rules_eq.symm

theorem fill_table (n : Nat) (bound : n ≤ 8192) :
    ∃ past p, Run Step sitePolicy past p ∧
      past.map Prod.fst = (List.range n).map (fun port => synEvent port 0 1) ∧ p.flows.size = n ∧
      ∀ g saved, p.flows.lookup g = some saved → (∃ port < n, g = portFlow port) ∧ saved.seen = 0 := by
  induction n with
  | zero => exact ⟨[], sitePolicy, .nil _, rfl, rfl, nofun⟩
  | succ n ih =>
    obtain ⟨past, p, run, events, size, entries⟩ := ih (by omega)
    have absent : p.flows.lookup (portFlow n) = none := by
      apply Option.eq_none_iff_forall_ne_some.mpr
      intro saved found
      obtain ⟨⟨port, below, same⟩, -⟩ := entries _ saved found
      exact below.ne (portFlow_injective same).symm
    have same := cleared_of_room absent (by omega : p.flows.size < 8192)
    obtain ⟨outcome, step⟩ := exists_step p (synEvent n 0 1)
    have route := step_route step (attributable_of_run run n)
      (carries_synEvent (by omega : n < 65536) 0 1)
    refine ⟨past ++ [(synEvent n 0 1, outcome)], outcome.policy, run.snoc step, ?_, ?_, ?_⟩
    · rw [List.map_append, events, List.range_succ, List.map_append]
      rfl
    · cases route with
      | hit saved pinned => exact absurd pinned (not_pinned_of_lookup absent _ _ _ saved)
      | saturated missed full => rw [same] at full; omega
      | created missed room answer answered =>
        dsimp only
        rw [same, FiniteMap.size_insert_of_notMem (AList.lookup_eq_none.mp absent), size]
    · intro g saved found
      by_cases own : g = portFlow n
      · subst own
        exact ⟨⟨n, by omega, rfl⟩, (route.lookup_own found).2.1⟩
      · obtain ⟨⟨port, below, same⟩, seen⟩ := entries g saved (route.lookup_other own found)
        exact ⟨⟨port, by omega, same⟩, seen⟩

theorem full_table_splits_connection :
    newPolicy siteParsers siteText (some fun _ _ _ => 1) = .ok sitePolicy ∧
    ∃ past p first second after, Run Step sitePolicy past p ∧
      past.map Prod.fst = (List.range 8192).map (fun port => synEvent port 0 1) ∧
      Attributable p (portFlow 8192) ∧
      Run Step p [(synEvent 8192 60 0, first), (synEvent 8192 121 0, second)] after ∧
      Connection (portFlow 8192) (synEvent 8192 60 0, first) [(synEvent 8192 121 0, second)] ∧
      first.vpn = true ∧ second.vpn = false := by
  refine ⟨newPolicy_siteText _, ?_⟩
  obtain ⟨past, p, run, events, size, entries⟩ := fill_table 8192 le_rfl
  obtain ⟨first, firstStep⟩ := exists_step p (synEvent 8192 60 0)
  obtain ⟨second, secondStep⟩ := exists_step first.policy (synEvent 8192 121 0)
  have carries (seconds : Int) := carries_synEvent (by decide : 8192 < 65536) seconds 0
  have attributable := attributable_of_run run 8192
  have absent : p.flows.lookup (portFlow 8192) = none := by
    apply Option.eq_none_iff_forall_ne_some.mpr
    intro saved found
    obtain ⟨⟨port, below, same⟩, -⟩ := entries _ saved found
    exact below.ne (portFlow_injective same).symm
  have firstRoute := step_route firstStep attributable (carries 60)
  have kept (starting : Bool) (sequence : Nat) :
      cleared p.flows (portFlow 8192) starting sequence (60 * 10 ^ 9) = p.flows := by
    rw [cleared, forgetRestarted, absent, sweep, if_pos size.ge]
    apply FiniteMap.filter_eq_self
    intro g saved found
    rw [isLive_iff, (entries g saved found).2]
    decide
  have full : 8192 ≤ (cleared p.flows (portFlow 8192) (isStart (synPacket 8192) 20)
      (sequenceOf (synPacket 8192) 20) (60 * 10 ^ 9)).size := by rw [kept, size]
  obtain ⟨firstVpn, firstFlows, -, firstAbsent⟩ :=
    firstRoute.unrecorded (not_pinned_of_lookup absent _ _ _) (.inl full)
  have unchanged : first.policy.flows = p.flows := firstFlows.trans (kept _ _)
  have dropped (starting : Bool) (sequence : Nat) :
      (cleared first.policy.flows (portFlow 8192) starting sequence (121 * 10 ^ 9)).size < 8192 := by
    rw [unchanged, cleared, forgetRestarted, absent, sweep, if_pos size.ge, FiniteMap.filter_eq_empty]
    · decide
    · intro g saved found
      rw [← Bool.not_eq_true, isLive_iff, (entries g saved found).2]
      decide
  have secondRoute := step_route secondStep (attributable.of_rules firstRoute.rules_eq.symm) (carries 121)
  refine ⟨past, p, first, second, second.policy, run, events, attributable,
    .cons firstStep (.cons secondStep (.nil _)), ⟨?_, ?_, fun saved found => ?_⟩, firstVpn, ?_⟩
  · exact .cons (by simp [synEvent]) (List.pairwise_singleton _ _)
  · have packets : flowTimes (portFlow 8192) [(synEvent 8192 121 0, second)] = [121 * 10 ^ 9] := by
      have carried := (carriesFlow_iff (portFlow 8192) (synEvent 8192 121 0, second)).mpr ⟨20, carries 121⟩
      simp only [flowTimes, List.filter_cons, carried, if_true, List.filter_nil]
      rfl
    rw [packets]
    exact .cons_cons (by simp [Close, synEvent, twoMinutes]) (.singleton _)
  · rw [firstAbsent] at found
    cases found
  · cases secondRoute with
    | hit saved pinned => exact absurd pinned (not_pinned_of_lookup firstAbsent _ _ _ saved)
    | saturated missed full => exact absurd full (not_le.mpr (dropped _ _))
    | created missed room answer answered =>
      have zero : answer = 0 := answered
      rw [zero]
      rfl

theorem flow_table_bounded_and_truthful {parsers : Parsers} {text : List UInt8} {owner : Option Owner}
    {start p : Policy} (accepted : newPolicy parsers text owner = .ok start) {past : List Call}
    (run : Run Step start past p) :
    p.flows.size ≤ 8192 ∧ ∀ f saved, p.flows.lookup f = some saved → Attributable start f ∧
      (∃ call ∈ past, saved.seen = call.1.now) ∧ ∃ answer, DecidedBy past f saved answer := by
  obtain ⟨networks, addresses, -, rfl⟩ := newPolicy_ok accepted
  have consistent := run_consistent rfl run
  refine ⟨consistent.bounded, fun f saved found => ?_⟩
  obtain ⟨attributable, seen, decided⟩ := consistent.entries f saved found
  exact ⟨attributable.of_rules consistent.rules_eq, seen, decided⟩

theorem full_table_is_truthful :
    ∃ past p, Run Step sitePolicy past p ∧ p.flows.size = 8192 ∧
      ∀ f saved, p.flows.lookup f = some saved → ∃ answer, DecidedBy past f saved answer := by
  obtain ⟨past, p, run, -, size, -⟩ := fill_table 8192 le_rfl
  obtain ⟨-, entries⟩ := flow_table_bounded_and_truthful (newPolicy_siteText fun _ _ _ => 1) run
  exact ⟨past, p, run, size, fun f saved found => (entries f saved found).2.2⟩

end Amnezia.Union
