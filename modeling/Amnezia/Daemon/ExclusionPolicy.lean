import Amnezia.Lib.Procedures
import Mathlib.Data.Finset.Sort

/-!
# Replacement of an exclusion policy

Each call reports success only in its final state; a failed call may or may not have taken effect. The
calls are kept, so that "before" and "until" can be said of them.
-/

namespace Amnezia.Daemon
open Lib Procedure

inductive Result where
  | unsupported
  | updated
  | rolledBack
  | uncertain
  | rejected
  deriving DecidableEq, Repr

inductive Answer where
  | done
  | failed (effect : Bool)
  deriving DecidableEq, Repr

instance : Inhabited Answer := ⟨.done⟩

def Answer.takesEffect : Answer → Bool
  | .done => true
  | .failed effect => effect

inductive Call (ρ : Type) where
  | firewall (permits : List ρ) (answer : Answer)
  | add (route : ρ) (answer : Answer)
  | remove (route : ρ) (answer : Answer)

def Call.isFailedFirewall {ρ : Type} : Call ρ → Bool
  | .firewall _ (.failed _) => true
  | _ => false

structure Bypasses (ρ : Type) where
  permits : Finset ρ
  installed : Finset ρ
  calls : List (Call ρ)

abbrev BypassAction (ρ α : Type) := Procedure (Bypasses ρ) Answer α

variable {ρ : Type}

/-! ## Loops -/

def attempt (call : ρ → BypassAction ρ Bool) : List ρ → BypassAction ρ (List ρ × Bool)
  | [] => return ([], true)
  | route :: rest => do
    let succeeded ← call route
    if succeeded then do
      let later ← attempt call rest
      return (route :: later.1, later.2)
    else return ([route], false)

def restore (call : ρ → BypassAction ρ Bool) : List ρ → BypassAction ρ Bool
  | [] => return true
  | route :: rest => do
    let succeeded ← call route
    let restored ← restore call rest
    return succeeded && restored

/-! ## Rules for the loops -/

variable {conditions : Conditions (Bypasses ρ) Answer} {call : ρ → BypassAction ρ Bool} {world : Bypasses ρ}
variable {routes : List ρ}

theorem attempt_ensures (Held Left : List ρ → Bypasses ρ → Prop)
    (each : ∀ past route world, past ++ [route] ⊆ routes → Held past world →
      Ensures conditions (call route)
        (fun succeeded later => if succeeded then Held (past ++ [route]) later
          else Left (past ++ [route]) later) world)
    (held : Held [] world) :
    Ensures conditions (attempt call routes)
      (fun tried later => if tried.2 then tried.1 = routes ∧ Held routes later
        else tried.1 ⊆ routes ∧ Left tried.1 later) world := by
  induction routes generalizing Held Left world with
  | nil => exact .pure ⟨rfl, held⟩
  | cons route rest ih =>
    refine .call (each [] route world (by simp) held) ?_
    intro succeeded later after
    cases succeeded with
    | false => exact .pure ⟨by simp, after⟩
    | true =>
      have step := ih (fun past => Held (route :: past)) (fun past => Left (route :: past))
        (fun past other world inside => each (route :: past) other world (List.cons_subset_cons _ inside)) after
      refine .call step ?_
      rintro ⟨tried, all⟩ last ended
      cases all with
      | true => exact .pure ⟨congrArg _ ended.1, ended.2⟩
      | false => exact .pure ⟨List.cons_subset_cons _ ended.1, ended.2⟩

theorem restore_ensures (Held : Bool → List ρ → Bypasses ρ → Prop)
    (each : ∀ succeeded past route world, route ∈ routes → Held succeeded past world →
      Ensures conditions (call route)
        (fun answer later => Held (succeeded && answer) (past ++ [route]) later) world)
    (succeeded : Bool) (past : List ρ) (held : Held succeeded past world) :
    Ensures conditions (restore call routes)
      (fun restored later => Held (succeeded && restored) (past ++ routes) later) world := by
  induction routes generalizing succeeded past world with
  | nil => exact .pure (by rwa [Bool.and_true, List.append_nil])
  | cons route rest ih =>
    refine .call (each succeeded past route world List.mem_cons_self held) ?_
    intro answer later after
    refine .call (ih (fun succeeded past other world listed =>
      each succeeded past other world (List.mem_cons_of_mem _ listed)) _ _ after) ?_
    intro restored last ended
    refine .pure ?_
    rw [← Bool.and_assoc, List.append_cons]
    exact ended

variable [LinearOrder ρ]

/-! ## Calls -/

def firewall (permits : List ρ) : BypassAction ρ Bool :=
  perform fun world answer =>
    ({ world with
        permits := if answer.takesEffect then permits.toFinset else world.permits
        calls := world.calls ++ [.firewall permits answer] }, answer = .done)

def add (route : ρ) : BypassAction ρ Bool :=
  perform fun world answer =>
    ({ world with
        installed := if answer.takesEffect then insert route world.installed else world.installed
        calls := world.calls ++ [.add route answer] }, answer = .done)

def remove (route : ρ) : BypassAction ρ Bool :=
  perform fun world answer =>
    ({ world with
        installed := if answer.takesEffect then world.installed.erase route else world.installed
        calls := world.calls ++ [.remove route answer] }, answer = .done)

/-! ## `replace` -/

def common (before after : List ρ) : List ρ := (before.toFinset ∩ after.toFinset).sort (· ≤ ·)

def added (before after : List ρ) : List ρ := (after.toFinset \ before.toFinset).sort (· ≤ ·)

def removed (before after : List ρ) : List ρ := (before.toFinset \ after.toFinset).sort (· ≤ ·)

def rollback (before after attemptedAdds attemptedRemovals : List ρ) : BypassAction ρ Result := do
  let fenced ← firewall (common before after)
  if fenced then do
    let withdrawn ← restore remove attemptedAdds
    let reinstalled ← restore add attemptedRemovals
    if withdrawn && reinstalled then do
      let reopened ← firewall before
      if reopened then return .rolledBack else return .uncertain
    else return .uncertain
  else return .uncertain

def replace (before after : List ρ) : BypassAction ρ Result := do
  if (added before after).isEmpty && (removed before after).isEmpty then return .updated
  else do
    let fenced ← firewall (common before after)
    if fenced then do
      let withdrawn ← attempt remove (removed before after)
      if withdrawn.2 then do
        let installed ← attempt add (added before after)
        if installed.2 then do
          let switched ← firewall after
          if switched then return .updated else rollback before after installed.1 withdrawn.1
        else rollback before after installed.1 withdrawn.1
      else rollback before after [] withdrawn.1
    else return .uncertain

/-! ## `replaceRoutes` -/

def rollbackRoutes (attemptedAdds attemptedRemovals : List ρ) : BypassAction ρ Result := do
  let reinstalled ← restore add attemptedRemovals
  let withdrawn ← restore remove attemptedAdds
  if reinstalled && withdrawn then return .rolledBack else return .uncertain

def replaceRoutes (before after : List ρ) : BypassAction ρ Result := do
  if (added before after).isEmpty && (removed before after).isEmpty then return .updated
  else do
    let installed ← attempt add (added before after)
    if installed.2 then do
      let withdrawn ← attempt remove (removed before after)
      if withdrawn.2 then return .updated else rollbackRoutes installed.1 withdrawn.1
    else rollbackRoutes installed.1 []

/-! ## What one call does -/

def turn : Bool → ρ → BypassAction ρ Bool
  | true => add
  | false => remove

structure Turned (present : Bool) (route : ρ) (world later : Bypasses ρ) (succeeded : Bool) : Prop where
  permits : later.permits = world.permits
  others : ∀ other, other ≠ route → (other ∈ later.installed ↔ other ∈ world.installed)
  turned : succeeded = true → (route ∈ later.installed ↔ present = true)
  calls : ∃ answer, later.calls = world.calls ++ [if present then .add route answer else .remove route answer] ∧
    (succeeded = true → answer = .done)

theorem turn_ensures {route : ρ} {after : Bool → Bypasses ρ → Prop} (present : Bool)
    (holds : ∀ succeeded later, Turned present route world later succeeded →
      conditions.invariant later ∧ after succeeded later) :
    Ensures conditions (turn present route) after world := by
  cases present with
  | true =>
    refine .perform fun answer _ => holds _ _
      ⟨rfl, fun other distinct => ?_, fun succeeded => ?_, answer, rfl, of_decide_eq_true⟩
    · dsimp only
      split
      · exact ⟨fun listed => Finset.mem_of_mem_insert_of_ne listed distinct, Finset.mem_insert_of_mem⟩
      · exact Iff.rfl
    · cases of_decide_eq_true succeeded
      exact iff_of_true (Finset.mem_insert_self _ _) rfl
  | false =>
    refine .perform fun answer _ => holds _ _
      ⟨rfl, fun other distinct => ?_, fun succeeded => ?_, answer, rfl, of_decide_eq_true⟩
    · dsimp only
      split
      · exact ⟨fun listed => (Finset.mem_erase.mp listed).2, fun listed => Finset.mem_erase.mpr ⟨distinct, listed⟩⟩
      · exact Iff.rfl
    · cases of_decide_eq_true succeeded
      exact iff_of_false (Finset.notMem_erase _ _) Bool.false_ne_true

def Clean (world : Bypasses ρ) : Prop := ∀ call ∈ world.calls, call.isFailedFirewall = false

omit [LinearOrder ρ] in
theorem clean_of_snoc {later : Bypasses ρ} {call : Call ρ} (calls : later.calls = world.calls ++ [call])
    (clean : Clean later) : Clean world := by
  intro earlier listed
  apply clean earlier
  rw [calls]
  exact List.mem_append_left _ listed

theorem firewall_ensures {permits : List ρ} {after : Bool → Bypasses ρ → Prop}
    (succeeds : ∀ later, later.permits = permits.toFinset → later.installed = world.installed →
      (Clean later → Clean world) → conditions.invariant later ∧ after true later)
    (fails : ∀ later, later.installed = world.installed → ¬Clean later →
      conditions.invariant later ∧ after false later) :
    Ensures conditions (firewall permits) after world := by
  refine .perform fun answer _ => ?_
  cases answer with
  | done => exact succeeds _ rfl rfl (clean_of_snoc rfl)
  | failed effect =>
    refine fails _ rfl fun clean => ?_
    have last := clean _ (List.mem_append_right _ List.mem_cons_self)
    exact absurd last nofun

/-! ## The transaction with a firewall -/

def Fenced (before after : Finset ρ) (world : Bypasses ρ) : Prop :=
  world.permits ⊆ before ∩ after ∨ (world.permits = before ∧ before ⊆ world.installed) ∨
    (world.permits = after ∧ after ⊆ world.installed)

def guarding (before after : List ρ) : Conditions (Bypasses ρ) Answer where
  allowed _ := True
  usual := trivial
  invariant world := Clean world → Fenced before.toFinset after.toFinset world

section Replacement

variable {before after : List ρ}

theorem common_toFinset : (common before after).toFinset = before.toFinset ∩ after.toFinset :=
  Finset.sort_toFinset _ _

variable {route : ρ} {later : Bypasses ρ} {adds removals : List ρ}

theorem mem_added : route ∈ added before after ↔ route ∈ after ∧ route ∉ before := by
  simp [added]

theorem mem_removed : route ∈ removed before after ↔ route ∈ before ∧ route ∉ after := by
  simp [removed]

def Agrees (before touched : List ρ) (world : Bypasses ρ) : Prop :=
  ∀ route, route ∉ touched → (route ∈ world.installed ↔ route ∈ before)

def Narrow (before after : List ρ) (world : Bypasses ρ) : Prop :=
  world.permits = before.toFinset ∩ after.toFinset

theorem Narrow.guarded (narrow : Narrow before after world) : (guarding before after).invariant world :=
  fun _ => .inl (narrow ▸ Finset.Subset.refl _)

variable {touched wider : List ρ}

omit [LinearOrder ρ] in
theorem Agrees.step (agrees : Agrees before touched world)
    (others : ∀ other, other ≠ route → (other ∈ later.installed ↔ other ∈ world.installed))
    (listed : route ∈ wider) (grows : touched ⊆ wider) : Agrees before wider later := by
  intro other untouched
  have distinct : other ≠ route := fun same => untouched (same ▸ listed)
  exact (others other distinct).trans (agrees other fun known => untouched (grows known))

def Stand (present : Bool) (routes : List ρ) (world : Bypasses ρ) : Prop :=
  ∀ route ∈ routes, (route ∈ world.installed ↔ present = true)

omit [LinearOrder ρ] in
theorem stand_nil (present : Bool) (world : Bypasses ρ) : Stand present [] world :=
  fun _ listed => absurd listed List.not_mem_nil

omit [LinearOrder ρ] in
theorem Turned.stand {present kept succeeded : Bool}
    (turned : Turned present route world later succeeded) (stand : Stand kept routes world)
    (outside : route ∉ routes) : Stand kept routes later := by
  intro other listed
  have distinct : other ≠ route := fun same => outside (same ▸ listed)
  exact (turned.others other distinct).trans (stand other listed)

theorem Turned.snoc {present : Bool}
    (turned : Turned present route world later true) (stand : Stand present routes world) :
    Stand present (routes ++ [route]) later := by
  intro other listed
  by_cases same : other = route
  · exact same ▸ turned.turned rfl
  · rcases List.mem_append.mp listed with earlier | last
    · exact (turned.others other same).trans (stand other earlier)
    · exact absurd (List.mem_singleton.mp last) same

theorem installed_of_undone
    (agrees : Agrees before (adds ++ removals) world) (fresh : ∀ route ∈ adds, route ∉ before)
    (old : ∀ route ∈ removals, route ∈ before) (withdrawn : Stand false adds world)
    (reinstalled : Stand true removals world) : world.installed = before.toFinset := by
  ext route
  rw [List.mem_toFinset]
  by_cases isAdd : route ∈ adds
  · exact (withdrawn route isAdd).trans (iff_of_false Bool.false_ne_true (fresh route isAdd))
  · by_cases isRemoval : route ∈ removals
    · exact (reinstalled route isRemoval).trans (iff_of_true rfl (old route isRemoval))
    · exact agrees route fun touched => (List.mem_append.mp touched).elim isAdd isRemoval

theorem restore_turns (present : Bool) {earlier : Bool} {settled : List ρ} (narrow : Narrow before after world)
    (agrees : Agrees before touched world) (inside : routes ⊆ touched)
    (stand : earlier = true → Stand (!present) settled world) (apart : ∀ route ∈ routes, route ∉ settled) :
    Ensures (guarding before after) (restore (turn present) routes)
      (fun restored later => Narrow before after later ∧ Agrees before touched later ∧
        (earlier = true → Stand (!present) settled later) ∧
        (restored = true → Stand present routes later)) world := by
  refine restore_ensures (fun succeeded past later => Narrow before after later ∧ Agrees before touched later ∧
      (earlier = true → Stand (!present) settled later) ∧ (succeeded = true → Stand present past later))
    ?_ true [] ⟨narrow, agrees, stand, fun _ => stand_nil present world⟩
  rintro succeeded past route middle listed ⟨narrow, agrees, stand, turned⟩
  refine turn_ensures present fun answer later turn => ?_
  have narrow : Narrow before after later := turn.permits.trans narrow
  have agrees := agrees.step turn.others (inside listed) (List.Subset.refl _)
  refine ⟨narrow.guarded, narrow, agrees, fun ok => turn.stand (stand ok) (apart route listed), fun both => ?_⟩
  obtain ⟨first, rfl⟩ := Bool.and_eq_true_iff.mp both
  exact turn.snoc (turned first)

def RolledBack (before : List ρ) (result : Result) (world : Bypasses ρ) : Prop :=
  result ≠ .updated ∧ (result = .rolledBack →
    world.permits = before.toFinset ∧ world.installed = before.toFinset)

theorem rollback_ensures
    (agrees : Agrees before (adds ++ removals) world) (fresh : ∀ route ∈ adds, route ∉ before)
    (old : ∀ route ∈ removals, route ∈ before) :
    Ensures (guarding before after) (rollback before after adds removals) (RolledBack before) world := by
  have uncertain (later : Bypasses ρ) : RolledBack before .uncertain later := ⟨nofun, nofun⟩
  apply Ensures.bind
  refine firewall_ensures ?_ fun later _ dirty => ⟨fun clean => absurd clean dirty, .pure (uncertain later)⟩
  intro fenced permits installed _
  have narrow : Narrow before after fenced := permits.trans common_toFinset
  have agrees : Agrees before (adds ++ removals) fenced := fun route => installed ▸ agrees route
  refine ⟨narrow.guarded, ?_⟩
  refine .call (restore_turns false narrow agrees (List.subset_append_left _ _) (fun _ : true = true => stand_nil _ _)
    fun _ _ => List.not_mem_nil) ?_
  rintro withdrawn middle ⟨narrow, agrees, -, lacks⟩
  have apart : ∀ route ∈ removals, route ∉ adds := fun route listed isAdd => fresh route isAdd (old route listed)
  refine .call (restore_turns true narrow agrees (List.subset_append_right _ _) lacks apart) ?_
  rintro reinstalled last ⟨-, agrees, lacks, has⟩
  split
  · next both =>
    obtain ⟨gone, back⟩ := Bool.and_eq_true_iff.mp both
    have whole := installed_of_undone agrees fresh old (lacks gone) (has back)
    apply Ensures.bind
    refine firewall_ensures ?_ fun later _ dirty => ⟨fun clean => absurd clean dirty, .pure (uncertain later)⟩
    intro later permits installed _
    have same := installed.trans whole
    exact ⟨fun _ => .inr (.inl ⟨permits, same ▸ Finset.Subset.refl _⟩), .pure ⟨nofun, fun _ => ⟨permits, same⟩⟩⟩
  · exact .pure (uncertain last)

omit [LinearOrder ρ] in
theorem Agrees.mono (agrees : Agrees before touched world)
    (grows : touched ⊆ wider) : Agrees before wider world :=
  fun route untouched => agrees route fun listed => untouched (grows listed)

theorem installed_of_moved (agrees : Agrees before (removed before after ++ added before after) world)
    (gone : Stand false (removed before after) world) (present : Stand true (added before after) world) :
    world.installed = after.toFinset := by
  ext route
  rw [List.mem_toFinset]
  by_cases isRemoved : route ∈ removed before after
  · exact (gone route isRemoved).trans (iff_of_false Bool.false_ne_true (mem_removed.mp isRemoved).2)
  · by_cases isAdded : route ∈ added before after
    · exact (present route isAdded).trans (iff_of_true rfl (mem_added.mp isAdded).1)
    · have same := agrees route fun touched => (List.mem_append.mp touched).elim isRemoved isAdded
      rw [same]
      refine ⟨fun old => ?_, fun new => ?_⟩
      · by_contra absent
        exact isRemoved (mem_removed.mpr ⟨old, absent⟩)
      · by_contra absent
        exact isAdded (mem_added.mpr ⟨new, absent⟩)

theorem attempt_turns (present : Bool) {settled : List ρ} (narrow : Narrow before after world)
    (agrees : Agrees before touched world) (stand : Stand (!present) settled world)
    (apart : ∀ route ∈ routes, route ∉ settled) :
    Ensures (guarding before after) (attempt (turn present) routes)
      (fun tried later => if tried.2
        then tried.1 = routes ∧ Narrow before after later ∧ Agrees before (touched ++ routes) later ∧
          Stand (!present) settled later ∧ Stand present routes later
        else tried.1 ⊆ routes ∧ Agrees before (touched ++ tried.1) later) world := by
  refine attempt_ensures (fun past later => Narrow before after later ∧ Agrees before (touched ++ past) later ∧
      Stand (!present) settled later ∧ Stand present past later)
    (fun past later => Agrees before (touched ++ past) later) ?_
    ⟨narrow, by rwa [List.append_nil], stand, stand_nil present world⟩
  rintro past route middle inside ⟨narrow, agrees, stand, turned⟩
  refine turn_ensures present fun succeeded later turn => ?_
  have narrow : Narrow before after later := turn.permits.trans narrow
  have agrees : Agrees before (touched ++ (past ++ [route])) later := agrees.step turn.others (by simp) (by simp)
  refine ⟨narrow.guarded, ?_⟩
  cases succeeded with
  | false => exact agrees
  | true => exact ⟨narrow, agrees, turn.stand stand (apart route (inside (by simp))), turn.snoc turned⟩

theorem toFinset_eq_of_unchanged (nothing : ((added before after).isEmpty && (removed before after).isEmpty) = true) :
    before.toFinset = after.toFinset := by
  obtain ⟨noneAdded, noneRemoved⟩ := Bool.and_eq_true_iff.mp nothing
  ext route
  rw [List.mem_toFinset, List.mem_toFinset]
  refine ⟨fun old => ?_, fun new => ?_⟩
  · by_contra absent
    have listed : route ∈ removed before after := mem_removed.mpr ⟨old, absent⟩
    rw [List.isEmpty_iff.mp noneRemoved] at listed
    exact absurd listed List.not_mem_nil
  · by_contra absent
    have listed : route ∈ added before after := mem_added.mpr ⟨new, absent⟩
    rw [List.isEmpty_iff.mp noneAdded] at listed
    exact absurd listed List.not_mem_nil

def Settled (before after : List ρ) (result : Result) (world : Bypasses ρ) : Prop :=
  (result = .updated → world.permits = after.toFinset ∧ world.installed = after.toFinset) ∧
    (result = .rolledBack → world.permits = before.toFinset ∧ world.installed = before.toFinset)

theorem RolledBack.settled {result : Result} (rolled : RolledBack before result world) :
    Settled before after result world :=
  ⟨fun updated => absurd updated rolled.1, rolled.2⟩

theorem replace_ensures (permits : world.permits = before.toFinset)
    (installed : world.installed = before.toFinset) :
    Ensures (guarding before after) (replace before after) (Settled before after) world := by
  have uncertain (later : Bypasses ρ) : Settled before after .uncertain later := ⟨nofun, nofun⟩
  have agrees : Agrees before [] world := fun route _ => by rw [installed, List.mem_toFinset]
  unfold replace
  split
  · next nothing =>
    have same := toFinset_eq_of_unchanged nothing
    exact .pure ⟨fun _ => ⟨permits.trans same, installed.trans same⟩, nofun⟩
  · apply Ensures.bind
    refine firewall_ensures ?_ fun later _ dirty => ⟨fun clean => absurd clean dirty, .pure (uncertain later)⟩
    intro fenced permits installed _
    have narrow : Narrow before after fenced := permits.trans common_toFinset
    have agrees : Agrees before [] fenced := fun route => installed ▸ agrees route
    refine ⟨narrow.guarded, ?_⟩
    refine .call (attempt_turns false narrow agrees (stand_nil _ _) fun _ _ => List.not_mem_nil) ?_
    rintro ⟨tried, all⟩ middle ended
    cases all with
    | false =>
      obtain ⟨listed, agrees⟩ := ended
      have old : ∀ route ∈ tried, route ∈ before := fun route known => (mem_removed.mp (listed known)).1
      exact (rollback_ensures agrees (fun _ known => absurd known List.not_mem_nil) old).mono
        fun _ _ => RolledBack.settled
    | true =>
      obtain ⟨rfl, narrow, agrees, _, lacks⟩ := ended
      have apart : ∀ route ∈ added before after, route ∉ removed before after :=
        fun route new old => (mem_added.mp new).2 (mem_removed.mp old).1
      have old : ∀ route ∈ removed before after, route ∈ before := fun route known => (mem_removed.mp known).1
      refine .call (attempt_turns true narrow agrees lacks apart) ?_
      rintro ⟨tried, all⟩ last ended
      cases all with
      | false =>
        obtain ⟨listed, agrees⟩ := ended
        have fresh : ∀ route ∈ tried, route ∉ before := fun route known => (mem_added.mp (listed known)).2
        have agrees : Agrees before (tried ++ removed before after) last := agrees.mono (by simp)
        exact (rollback_ensures agrees fresh old).mono fun _ _ => RolledBack.settled
      | true =>
        obtain ⟨rfl, _, agrees, lacks, has⟩ := ended
        have moved := installed_of_moved agrees lacks has
        apply Ensures.bind
        refine firewall_ensures ?_ ?_
        · intro later permits installed _
          have whole := installed.trans moved
          exact ⟨fun _ => .inr (.inr ⟨permits, whole ▸ Finset.Subset.refl _⟩),
            .pure ⟨fun _ => ⟨permits, whole⟩, nofun⟩⟩
        · intro later installed dirty
          have fresh : ∀ route ∈ added before after, route ∉ before := fun route known => (mem_added.mp known).2
          have agrees : Agrees before (added before after ++ removed before after) last := agrees.mono (by simp)
          have agrees : Agrees before (added before after ++ removed before after) later :=
            fun route => installed ▸ agrees route
          exact ⟨fun clean => absurd clean dirty,
            (rollback_ensures agrees fresh old).mono fun _ _ => RolledBack.settled⟩

/-! ## The transaction without a firewall -/

def KeepsCommon (before after : List ρ) (world : Bypasses ρ) : Prop :=
  before.toFinset ∩ after.toFinset ⊆ world.installed

theorem Turned.keepsCommon {present succeeded : Bool} (turned : Turned present route world later succeeded)
    (kept : KeepsCommon before after world) (outside : route ∉ before ∨ route ∉ after) :
    KeepsCommon before after later := by
  intro other both
  obtain ⟨old, new⟩ := Finset.mem_inter.mp both
  have distinct : other ≠ route := by
    rintro rfl
    exact outside.elim (· (List.mem_toFinset.mp old)) (· (List.mem_toFinset.mp new))
  exact (turned.others other distinct).mpr (kept both)

def Confirmed (before after : List ρ) (calls : List (Call ρ)) : Prop :=
  ∀ route ∈ after, route ∉ before → .add route .done ∈ calls

def AddsFirst (before after : List ρ) (calls : List (Call ρ)) : Prop :=
  ∀ earlier route answer later, calls = earlier ++ .remove route answer :: later → route ∈ before →
    Confirmed before after earlier

structure Orderly (before after : List ρ) (world : Bypasses ρ) : Prop where
  common : KeepsCommon before after world
  ordered : AddsFirst before after world.calls

def orderly (before after : List ρ) : Conditions (Bypasses ρ) Answer where
  allowed _ := True
  usual := trivial
  invariant := Orderly before after

omit [LinearOrder ρ] in
theorem AddsFirst.snoc {calls : List (Call ρ)} {call : Call ρ} (ordered : AddsFirst before after calls)
    (last : ∀ route answer, call = .remove route answer → route ∈ before → Confirmed before after calls) :
    AddsFirst before after (calls ++ [call]) := by
  intro earlier route answer later split old
  rcases List.eq_nil_or_concat later with rfl | ⟨front, final, rfl⟩
  · obtain ⟨rfl, same⟩ := List.append_inj' split rfl
    exact last route answer (List.cons.inj same).1 old
  · rw [List.concat_eq_append, ← List.cons_append, ← List.append_assoc] at split
    exact ordered earlier route answer front (List.append_inj_left' split rfl) old

section

variable (held : Orderly before after world)
include held

theorem add_orderly (outside : route ∉ before ∨ route ∉ after) :
    Ensures (orderly before after) (add route)
      (fun succeeded later => Orderly before after later ∧ world.calls ⊆ later.calls ∧
        (succeeded = true → .add route .done ∈ later.calls)) world := by
  refine turn_ensures true fun succeeded later placed => ?_
  obtain ⟨answer, calls, done⟩ := placed.calls
  have held : Orderly before after later :=
    ⟨placed.keepsCommon held.common outside, calls ▸ held.ordered.snoc nofun⟩
  refine ⟨held, held, calls ▸ List.subset_append_left _ _, fun ok => ?_⟩
  rw [calls, done ok]
  exact List.mem_append_right _ List.mem_cons_self

theorem remove_orderly (outside : route ∉ before ∨ route ∉ after)
    (ready : route ∈ before → Confirmed before after world.calls) :
    Ensures (orderly before after) (remove route)
      (fun _ later => Orderly before after later ∧ world.calls ⊆ later.calls) world := by
  refine turn_ensures false fun succeeded later dropped => ?_
  obtain ⟨answer, calls, -⟩ := dropped.calls
  have ordered : AddsFirst before after later.calls := by
    rw [calls]
    refine held.ordered.snoc fun other answer same old => ?_
    cases same
    exact ready old
  have held : Orderly before after later := ⟨dropped.keepsCommon held.common outside, ordered⟩
  exact ⟨held, held, calls ▸ List.subset_append_left _ _⟩

theorem rollbackRoutes_orderly (fresh : ∀ route ∈ adds, route ∉ before)
    (old : ∀ route ∈ removals, route ∉ after) :
    Ensures (orderly before after) (rollbackRoutes adds removals) (fun _ _ => True) world := by
  refine .call (restore_ensures (fun _ _ => Orderly before after) (fun _ _ route middle listed held => ?_)
    true [] held) ?_
  · exact (add_orderly held (.inr (old route listed))).mono fun _ _ after => after.1
  intro reinstalled middle held
  refine .call (restore_ensures (fun _ _ => Orderly before after) (fun _ _ route middle listed held => ?_)
    true [] held) ?_
  · have absent := fresh route listed
    exact (remove_orderly held (.inl absent) fun old => absurd old absent).mono fun _ _ after => after.1
  intro withdrawn last _
  split
  · exact .pure trivial
  · exact .pure trivial

theorem replaceRoutes_orderly :
    Ensures (orderly before after) (replaceRoutes before after) (fun _ _ => True) world := by
  let ready (later : Bypasses ρ) : Prop := Orderly before after later ∧ Confirmed before after later.calls
  let placing (past : List ρ) (later : Bypasses ρ) : Prop :=
    Orderly before after later ∧ ∀ route ∈ past, .add route .done ∈ later.calls
  have start : placing [] world := ⟨held, fun _ listed => absurd listed List.not_mem_nil⟩
  unfold replaceRoutes
  split
  · exact .pure trivial
  refine .call (attempt_ensures placing (fun _ => Orderly before after) ?_ start) ?_
  · rintro past route middle listed ⟨held, confirmed⟩
    have fresh := (mem_added.mp (listed List.mem_concat_self)).2
    refine (add_orderly held (.inl fresh)).mono ?_
    rintro succeeded later ⟨held, grows, done⟩
    cases succeeded with
    | false => exact held
    | true =>
      refine ⟨held, fun other known => ?_⟩
      rcases List.mem_append.mp known with early | same
      · exact grows (confirmed other early)
      · exact List.mem_singleton.mp same ▸ done rfl
  rintro ⟨tried, all⟩ middle ended
  cases all with
  | false =>
    obtain ⟨listed, held⟩ := ended
    exact rollbackRoutes_orderly held (fun route known => (mem_added.mp (listed known)).2)
      fun _ known => absurd known List.not_mem_nil
  | true =>
    obtain ⟨rfl, held, confirmed⟩ := ended
    have confirmed : Confirmed before after middle.calls :=
      fun route new absent => confirmed route (mem_added.mpr ⟨new, absent⟩)
    refine .call (attempt_ensures (fun _ => ready) (fun _ => ready) ?_ ⟨held, confirmed⟩) ?_
    · rintro past route earlier listed ⟨held, confirmed⟩
      have absent := (mem_removed.mp (listed List.mem_concat_self)).2
      refine (remove_orderly held (.inr absent) fun _ => confirmed).mono ?_
      rintro succeeded later ⟨held, grows⟩
      have still : ready later := ⟨held, fun new isNew absent => grows (confirmed new isNew absent)⟩
      rw [ite_self]
      exact still
    rintro ⟨tried, all⟩ last ended
    cases all with
    | false =>
      obtain ⟨listed, held, _⟩ := ended
      exact rollbackRoutes_orderly held (fun route known => (mem_added.mp known).2)
        fun route known => (mem_removed.mp (listed known)).2
    | true => exact .pure trivial

end

end Replacement

/-! ## Both transactions -/

def settledOn (policy : List ρ) : Bypasses ρ := ⟨policy.toFinset, policy.toFinset, []⟩

theorem exclusion_replacement_is_transactional (before after : List ρ) (answers : List Answer) :
    let replaced := replace before after (settledOn before) answers
    let rerouted := replaceRoutes before after (settledOn before) answers
    (replaced.value = .updated →
      replaced.world.permits = after.toFinset ∧ replaced.world.installed = after.toFinset) ∧
    (replaced.value = .rolledBack →
      replaced.world.permits = before.toFinset ∧ replaced.world.installed = before.toFinset) ∧
    (∀ world ∈ settledOn before :: replaced.history, Clean world →
      Fenced before.toFinset after.toFinset world) ∧
    ∀ world ∈ settledOn before :: rerouted.history,
      before.toFinset ∩ after.toFinset ⊆ world.installed ∧ AddsFirst before after world.calls := by
  have all : ∀ answer ∈ answers, True := fun _ _ => trivial
  have replacing : Ensures (guarding before after) (replace before after) (Settled before after) (settledOn before) :=
    replace_ensures rfl rfl
  obtain ⟨guarded, settled, _⟩ := replacing answers all
  have initial : Orderly before after (settledOn before) :=
    ⟨Finset.inter_subset_left, fun earlier _ _ _ empty _ => absurd empty (by simp [settledOn])⟩
  obtain ⟨kept, _, _⟩ := replaceRoutes_orderly initial answers all
  refine ⟨settled.1, settled.2, ?_, ?_⟩
  · intro world stopped
    rcases List.mem_cons.mp stopped with rfl | later
    · exact fun _ => .inr (.inl ⟨rfl, Finset.Subset.refl _⟩)
    · exact guarded world later
  · intro world stopped
    rcases List.mem_cons.mp stopped with rfl | later
    · exact ⟨initial.common, initial.ordered⟩
    · exact ⟨(kept world later).common, (kept world later).ordered⟩

/-! ## Replacement without failures -/

def reliable : Conditions (Bypasses ρ) Answer := ⟨(· = .done), rfl, fun _ => True⟩

def Succeeds (action : BypassAction ρ Bool) : Prop :=
  ∀ world, Ensures reliable action (fun succeeded _ => succeeded = true) world

omit [LinearOrder ρ] in
theorem attempt_succeeds (each : ∀ route, Succeeds (call route)) :
    Ensures reliable (attempt call routes) (fun tried _ => tried.2 = true) world := by
  refine (attempt_ensures (fun _ _ => True) (fun _ _ => False) ?_ trivial).mono ?_
  · intro past route middle _ _
    exact (each route middle).mono fun _ _ succeeded => if_pos succeeded ▸ trivial
  · rintro ⟨tried, all⟩ later ended
    cases all with
    | true => rfl
    | false => exact ended.2.elim

theorem replacement_succeeds (before after : List ρ) (answers : List Answer)
    (done : ∀ answer ∈ answers, answer = .done) :
    let replaced := replace before after (settledOn before) answers
    replaced.value = .updated ∧ replaced.world.permits = after.toFinset ∧
      replaced.world.installed = after.toFinset := by
  have opens (permits : List ρ) : Succeeds (firewall permits) :=
    fun _ => .perform fun _ done => ⟨trivial, decide_eq_true done⟩
  have adds (route : ρ) : Succeeds (add route) := fun _ => .perform fun _ done => ⟨trivial, decide_eq_true done⟩
  have removes (route : ρ) : Succeeds (remove route) :=
    fun _ => .perform fun _ done => ⟨trivial, decide_eq_true done⟩
  have updated : Ensures reliable (replace before after) (fun result _ => result = .updated) (settledOn before) := by
    unfold replace
    split
    · exact .pure rfl
    · refine .call (opens _ _) ?_
      rintro _ _ rfl
      refine .call (attempt_succeeds removes) ?_
      rintro ⟨_, _⟩ _ rfl
      refine .call (attempt_succeeds adds) ?_
      rintro ⟨_, _⟩ _ rfl
      refine .call (opens _ _) ?_
      rintro _ _ rfl
      exact .pure rfl
  have settles : Ensures (guarding before after) (replace before after) (Settled before after) (settledOn before) :=
    replace_ensures rfl rfl
  obtain ⟨-, value, -⟩ := updated answers done
  obtain ⟨-, settled, -⟩ := settles answers fun _ _ => trivial
  exact ⟨value, settled.1 value⟩

theorem replacement_succeeds_sample :
    (replace [1, 2] [2, 3] (settledOn [1, 2]) [.done, .done, .done, .done]).world.installed = {2, 3} :=
  (replacement_succeeds [1, 2] [2, 3] [.done, .done, .done, .done] (by decide)).2.2

end Amnezia.Daemon
