import Amnezia.Migration.Credentials
import Amnezia.Migration.Resumption

/-! # The commit survives a stop -/

namespace Amnezia.Migration
open Lib Procedure

variable {Hash : Type} {world : World Hash}

/-! ## What a profile write replaces -/

structure Commit.Consistent (setting : Setting Hash) (commit : Commit Hash) : Prop where
  source : commit.journal.sourceHash = some (setting.digest commit.before)
  replaced : commit.after = committedProfile setting commit.before commit.journal.offer
  committing : commit.journal.state = some .committing
  candidate : commit.journal.candidateHash = some (setting.digest commit.after)
  receipt : validChallengeReceipt setting commit.journal commit.journal.challengeReceipt true commit.seconds = true

/-! ## After the profile has been stored -/

structure Evidence (setting : Setting Hash) (commit : Commit Hash) (granted : List String)
    (history : History Hash) (journal : Journal Hash) : Prop where
  offer : journal.offer = commit.journal.offer
  receipt : journal.challengeReceipt = commit.journal.challengeReceipt
  grant : ∃ renewed, history.grants = granted ++ renewed ∧
    (journal.grant = commit.journal.grant ∨ journal.grant ∈ renewed ∧ journal.grant ≠ "")
  candidate : journal.candidateHash = some (setting.digest commit.after)
  state : journal.state ∈ [some .committing, some .ackPending, some .recoveryRequired, some .committed]

structure Committed (setting : Setting Hash) (commit : Commit Hash) (granted : List String)
    (world : World Hash) : Prop where
  profile : world.profile = some commit.after
  stored : Evidence setting commit granted world.history world.journal
  memory : world.memory.loaded = true →
    Evidence setting commit granted world.history world.memory.journal ∧
      world.memory.sourceProfile = commit.after
  noTrial : world.memory.trial = false
  requests : ∀ pending ∈ world.memory.requests, world.IsCurrent pending →
    world.memory.journal.state = some .ackPending

def unedited : Permits Hash where
  edits := False
  commits := True
  cleanup _ := True

namespace Evidence

variable {setting : Setting Hash} {commit : Commit Hash} {granted : List String} {history later : History Hash}
  {journal next : Journal Hash}

section

variable (evidence : Evidence setting commit granted history journal)
include evidence

theorem same (offer : next.offer = journal.offer)
    (receipt : next.challengeReceipt = journal.challengeReceipt) (grant : next.grant = journal.grant)
    (candidate : next.candidateHash = journal.candidateHash)
    (state : next.state ∈ [some .committing, some .ackPending, some .recoveryRequired, some .committed]) :
    Evidence setting commit granted history next where
  offer := offer.trans evidence.offer
  receipt := receipt.trans evidence.receipt
  grant := by
    rw [grant]
    exact evidence.grant
  candidate := candidate.trans evidence.candidate
  state := state

theorem bare (same : next.bare = journal.bare) :
    Evidence setting commit granted history next := by
  have state : next.state = journal.state := Journal.of_bare same (·.state) fun _ => rfl
  apply evidence.same
  · exact Journal.of_bare same (·.offer) fun _ => rfl
  · exact Journal.of_bare same (·.challengeReceipt) fun _ => rfl
  · exact Journal.of_bare same (·.grant) fun _ => rfl
  · exact Journal.of_bare same (·.candidateHash) fun _ => rfl
  · exact state ▸ evidence.state

theorem grow {renewed : List String}
    (grants : later.grants = history.grants ++ renewed) : Evidence setting commit granted later journal :=
  { evidence with
    grant := by
      obtain ⟨former, split, held⟩ := evidence.grant
      refine ⟨former ++ renewed, by rw [grants, split, List.append_assoc], ?_⟩
      exact held.imp_right (And.imp_left (List.mem_append_left _ ·)) }

end

theorem earlier {more : List String} (evidence : Evidence setting commit (granted ++ more) history journal) :
    Evidence setting commit granted history journal :=
  { evidence with
    grant := by
      obtain ⟨renewed, split, held⟩ := evidence.grant
      refine ⟨more ++ renewed, by rw [split, List.append_assoc], ?_⟩
      exact held.imp_right (And.imp_left (List.mem_append_right _ ·)) }

end Evidence

namespace Committed

variable {setting : Setting Hash} {commit : Commit Hash} {granted : List String} {journal : Journal Hash}

section

variable (committed : Committed setting commit granted world)
include committed

section

variable (kept : world.memory.loaded = true → Evidence setting commit granted world.history journal)
include kept

section

variable (current : ∀ pending ∈ world.memory.requests, world.IsCurrent pending → journal.state = some .ackPending)
include current

theorem revised : Committed setting commit granted (world.revised journal) :=
  { committed with
    memory loaded := ⟨kept loaded, (committed.memory loaded).2⟩
    requests := current }

theorem saved : Committed setting commit granted (world.saved journal) := by
  cases loaded : world.memory.loaded with
  | true =>
    rw [world.saved_of_loaded loaded]
    exact ⟨committed.profile, kept loaded, fun _ => ⟨kept loaded, (committed.memory loaded).2⟩,
      committed.noTrial, current⟩
  | false =>
    rw [world.saved_of_unloaded loaded]
    exact committed.revised kept current

end

end

theorem remembered {later : History Hash}
    {renewed : List String} (grants : later.grants = world.history.grants ++ renewed) :
    Committed setting commit granted { world with history := later } :=
  { committed with
    stored := committed.stored.grow grants
    memory loaded := ⟨(committed.memory loaded).1.grow grants, (committed.memory loaded).2⟩ }

theorem not_staged (loaded : world.memory.loaded = true) :
    world.memory.journal.state ≠ some .staged := by
  intro staged
  have here := (committed.memory loaded).1.state
  rw [staged] at here
  simp at here

theorem renewed {grant : String} {expiresAt : Rat} (known : grant ≠ "") :
    Committed setting commit granted { world.saved { world.memory.journal with
        grant := grant, grantExpiresAt := expiresAt, state := some .ackPending } with
      history := { world.history with grants := world.history.grants ++ [grant] } } := by
  have grown : Committed setting commit granted
      { world with history := { world.history with grants := world.history.grants ++ [grant] } } :=
    committed.remembered rfl
  have fresh (loaded : world.memory.loaded = true) : Evidence setting commit granted
      { world.history with grants := world.history.grants ++ [grant] }
      { world.memory.journal with
        grant := grant, grantExpiresAt := expiresAt, state := some .ackPending } := by
    obtain ⟨evidence, -⟩ := committed.memory loaded
    obtain ⟨former, split, -⟩ := evidence.grant
    refine ⟨evidence.offer, evidence.receipt, ⟨former ++ [grant], ?_, .inr ⟨?_, known⟩⟩, evidence.candidate, by simp⟩
    · simp only [split, List.append_assoc]
    · exact List.mem_append_right _ (List.mem_singleton_self grant)
  cases loaded : world.memory.loaded with
  | true =>
    rw [world.saved_of_loaded loaded]
    exact ⟨grown.profile, fresh loaded, fun _ => ⟨fresh loaded, (committed.memory loaded).2⟩,
      grown.noTrial, fun _ _ _ => rfl⟩
  | false =>
    rw [world.saved_of_unloaded loaded]
    exact grown.revised fresh fun _ _ _ => rfl

end

theorem earlier {more : List String} (committed : Committed setting commit (granted ++ more) world) :
    Committed setting commit granted world :=
  { committed with
    stored := committed.stored.earlier
    memory loaded := ⟨(committed.memory loaded).1.earlier, (committed.memory loaded).2⟩ }

end Committed

section

variable [DecidableEq Hash] {setting : Setting Hash} {permits : Permits Hash} {seconds : Int}

-- The shipped repository hashes the profile together with its storage id, the controller without it.
theorem Commits.stub {before profile after : JsonObject}
    (commits : Commits setting world before profile after seconds) (sound : Sound setting world) :
    setting.repository = .stub ∧ after = profile ∧ before = world.memory.sourceProfile := by
  obtain ⟨-, source, -⟩ := sound.trial commits.trial
  rcases swappedProfile_cases commits.swapped with ⟨-, -, hash⟩ | ⟨stub, same, hash⟩
  · rw [hash, Option.some.injEq] at source
    have embedded := setting.digest_injective source
    have stripped := sound.source
    rw [← embedded] at stripped
    exact absurd stripped (embedStorageServerId_not_stripped _ _)
  · rw [hash, Option.some.injEq] at source
    exact ⟨stub, same, setting.digest_injective source⟩

variable {profile : JsonObject} {before after : World Hash}

theorem Commits.consistent {before after : JsonObject}
    (commits : Commits setting world before profile after seconds) (sound : Sound setting world) :
    (⟨before, after, world.journal, seconds⟩ : Commit Hash).Consistent setting := by
  obtain ⟨loaded, -, source⟩ := sound.trial commits.trial
  obtain ⟨-, rfl, rfl⟩ := commits.stub sound
  have stored := commits.stored loaded
  exact {
    source := source
    replaced := by
      rw [stored]
      exact commits.made
    committing := by
      rw [stored]
      exact commits.committing
    candidate := by
      rw [stored]
      exact commits.candidate
    receipt := by
      rw [stored]
      exact commits.receipt }

theorem Commits.committed {before after : JsonObject}
    (commits : Commits setting world before profile after seconds) (sound : Sound setting world) :
    Committed setting ⟨before, after, world.journal, seconds⟩ world.history.grants { world with
      profile := some after
      memory := { world.memory with sourceProfile := profile, trial := false }
      history := { world.history with
        commits := world.history.commits ++ [⟨before, after, world.journal, seconds⟩] } } := by
  obtain ⟨-, same, -⟩ := commits.stub sound
  have consistent := commits.consistent sound
  have evidence : Evidence setting ⟨before, after, world.journal, seconds⟩ world.history.grants
      { world.history with
        commits := world.history.commits ++ [⟨before, after, world.journal, seconds⟩] } world.journal :=
    ⟨rfl, rfl, ⟨[], (List.append_nil _).symm, .inl rfl⟩, consistent.candidate, consistent.committing ▸ by simp⟩
  exact {
    profile := rfl
    stored := evidence
    memory := fun loaded => ⟨commits.stored loaded ▸ evidence, same.symm⟩
    noTrial := rfl
    requests := fun pending listed current =>
      absurd current (sound.none_current commits.free pending listed) }

theorem Change.commits_cases (change : Change setting permits before after)
    (sound : Sound setting before) :
    after.history.commits = before.history.commits ∨
      permits.commits ∧ setting.repository = .stub ∧ before.memory.trial = true ∧
        ∃ commit : Commit Hash, commit.Consistent setting ∧
          after.history.commits = before.history.commits ++ [commit] ∧
          Committed setting commit before.history.grants after := by
  cases change with
  | commit previous profile stored seconds commits permitted =>
    exact .inr ⟨permitted, (commits.stub sound).1, commits.trial, _, commits.consistent sound, rfl,
      commits.committed sound⟩
  | save | settle | stage | expire => exact .inl (by simp only [World.history_withJournal, World.history_saved])
  | _ => exact .inl rfl

theorem consistent_of_reaches (sound : Sound setting before)
    (reached : Reaches setting permits before after)
    (held : ∀ commit ∈ before.history.commits, commit.Consistent setting) :
    ∀ commit ∈ after.history.commits, commit.Consistent setting := by
  induction reached with
  | refl => exact held
  | tail chain last ih =>
    rcases last.commits_cases (sound.reached chain) with same | ⟨-, -, -, commit, consistent, logged, -⟩
    · rw [same]
      exact ih
    · rw [logged]
      intro other listed
      rcases List.mem_append.mp listed with old | new
      · exact ih other old
      · rw [List.mem_singleton.mp new]
        exact consistent

/-! ## Changes after the profile has been stored -/

namespace Committed

variable {commit : Commit Hash} {granted : List String}

section

variable (committed : Committed setting commit granted world)
include committed

section

variable (loaded : world.memory.loaded = true)
include loaded

theorem matched (committing : world.memory.journal.state = some .committing) : Matched setting world := by
  obtain ⟨evidence, source⟩ := committed.memory loaded
  refine ⟨committing, ?_⟩
  rw [committedProfileMatches, evidence.candidate, committed.profile, source]
  simp

theorem not_idle :
    ¬Idle setting unedited world := by
  intro idle
  have settled := idle.settled
  have state := (committed.memory loaded).1.state
  have committing : world.memory.journal.state = some .committing := by
    simp only [List.mem_cons, List.not_mem_nil, or_false] at state settled
    tauto
  exact idle.unmatched.elim id fun unmatched => unmatched (committed.matched loaded committing)

theorem settles {state : JournalState} (settles : Settles setting unedited world state) :
    some state ∈ [some JournalState.committing, some .ackPending, some .recoveryRequired, some .committed] := by
  have here := (committed.memory loaded).1.state
  have noTrial := committed.noTrial
  cases state with
  | enrolling | enrolled => exact absurd settles (committed.not_idle loaded)
  | staged =>
    rw [settles.2] at here
    simp at here
  | trial | committing => exact absurd (noTrial.symm.trans settles) Bool.false_ne_true
  | rolledBack =>
    rcases settles with active | trial | ⟨committing, unmatched⟩
    · exact absurd (noTrial.symm.trans active) Bool.false_ne_true
    · rw [trial] at here
      simp at here
    · exact absurd (committed.matched loaded committing) unmatched
  | expired | secretStoreUnavailable => exact settles.elim
  | ackPending | committed | recoveryRequired => simp

end

theorem not_cleans {token : String} {epoch : Nat} : ¬Cleans setting world profile token epoch := by
  intro cleans
  have allowed := cleans.rollback
  have same := committed.profile.symm.trans cleans.found
  rw [Option.some.injEq] at same
  rw [rollbackRecoveryAllowed, committed.stored.candidate, same] at allowed
  simp at allowed

end

end Committed

variable {granted : List String} {commit : Commit Hash}

theorem Committed.keeps
    (committed : Committed setting commit granted before) (change : Change setting unedited before after)
    (sound : Sound setting before) : Committed setting commit granted after := by
  have absent (free : before.memory.busy = false) {journal : Journal Hash} :
      ∀ pending ∈ before.memory.requests, before.IsCurrent pending → journal.state = some .ackPending :=
    fun pending listed current => absurd current (sound.none_current free pending listed)
  have enrolls (free : before.memory.busy = false) (idle : Idle setting unedited before) (journal : Journal Hash) :
      Committed setting commit granted (before.revised journal) :=
    committed.revised (fun loaded => absurd idle (committed.not_idle loaded)) (absent free)
  cases change with
  | restart =>
    exact ⟨committed.profile, committed.stored, fun loaded => Bool.noConfusion loaded, rfl, nofun⟩
  | quiet memory same =>
    have loaded : memory.loaded = before.memory.loaded := Memory.of_bare same (·.loaded) fun _ => rfl
    have journal : memory.journal.bare = before.memory.journal.bare :=
      Memory.of_bare same (·.journal.bare) fun _ => rfl
    have source : memory.sourceProfile = before.memory.sourceProfile :=
      Memory.of_bare same (·.sourceProfile) fun _ => rfl
    have trial : memory.trial = before.memory.trial := Memory.of_bare same (·.trial) fun _ => rfl
    have requests : memory.requests = before.memory.requests := Memory.of_bare same (·.requests) fun _ => rfl
    have generation : memory.callbackGeneration = before.memory.callbackGeneration :=
      Memory.of_bare same (·.callbackGeneration) fun _ => rfl
    have state : memory.journal.state = before.memory.journal.state :=
      Journal.of_bare journal (·.state) fun _ => rfl
    refine ⟨committed.profile, committed.stored, fun known => ?_, trial.trans committed.noTrial, ?_⟩
    · obtain ⟨evidence, kept⟩ := committed.memory (loaded ▸ known)
      exact ⟨evidence.bare journal, source.trans kept⟩
    · intro pending listed current
      simp only [requests] at listed
      simp only [World.IsCurrent, generation] at current
      exact state.trans (committed.requests pending listed current)
  | save =>
    rw [before.withJournal_memory]
    exact committed.saved (fun loaded => (committed.memory loaded).1) committed.requests
  | advance busy =>
    refine ⟨committed.profile, committed.stored, committed.memory, committed.noTrial, ?_⟩
    intro pending listed current
    have past := sound.past pending listed
    simp only [World.IsCurrent] at current
    omega
  | leave free => exact ⟨committed.profile, committed.stored, committed.memory, rfl, committed.requests⟩
  | settle state free settles =>
    apply committed.saved
    · intro loaded
      exact (committed.memory loaded).1.same rfl rfl rfl rfl (committed.settles loaded settles)
    · exact absent free
  | dropGrant free idle => exact enrolls free idle _
  | draw nonce fingerprint free idle => exact (enrolls free idle _).remembered (List.append_nil _).symm
  | drawRenewal nonce => exact committed.remembered (List.append_nil _).symm
  | enroll grant signer containerId serverPublicKey peerPublicKey expiresAt free idle known pinned =>
    exact (enrolls free idle _).remembered rfl
  | stage offer seconds stages =>
    exact committed.saved (fun loaded => absurd stages.idle (committed.not_idle loaded)) (absent stages.free)
  | expire free noTrial staged =>
    exact committed.saved (fun loaded => absurd staged (committed.not_staged loaded)) (absent free)
  | rebase free noTrial staged =>
    exact committed.revised (fun loaded => absurd staged (committed.not_staged loaded)) (absent free)
  | prove envelope free trial | choose candidate free trial =>
    exact absurd (committed.noTrial.symm.trans trial) Bool.false_ne_true
  | commit previous profile stored seconds commits =>
    exact absurd (committed.noTrial.symm.trans commits.trial) Bool.false_ne_true
  | grant grant => exact committed.remembered rfl
  | renew grant expiresAt free acknowledging known => exact committed.renewed known
  | spend begins | begin begins => exact absurd begins.staged (committed.not_staged begins.loaded)
  | cleanup profile token epoch returned cleans => exact absurd cleans committed.not_cleans
  | load free noTrial =>
    have source : before.serverJson = commit.after := by rw [World.serverJson, committed.profile, Option.getD_some]
    exact ⟨committed.profile, committed.stored, fun _ => ⟨committed.stored, source⟩, noTrial, absent free⟩
  | send request free loaded sends =>
    refine ⟨committed.profile, committed.stored, committed.memory, committed.noTrial, ?_⟩
    intro pending listed current
    rcases List.mem_append.mp listed with old | new
    · exact absurd current (sound.none_current free pending old)
    · cases request with
      | bootstrap | offer => exact absurd sends (committed.not_idle loaded)
      | challenge => exact absurd (committed.noTrial.symm.trans sends) Bool.false_ne_true
      | renew | acknowledge => exact sends.pending
  | take index pending found =>
    refine ⟨committed.profile, committed.stored, committed.memory, committed.noTrial, ?_⟩
    intro other listed current
    exact committed.requests other (List.mem_of_mem_eraseIdx listed) current
  | edit profile permitted | remove permitted => exact permitted.elim

/-! ## Runs -/

def uncommitted : Permits Hash where
  edits := True
  commits := False
  cleanup _ := True

theorem commits_of_reaches (sound : Sound setting before)
    (reached : Reaches setting uncommitted before after) :
    after.history.commits = before.history.commits := by
  induction reached with
  | refl => rfl
  | tail chain last ih =>
    rcases last.commits_cases (sound.reached chain) with same | ⟨permitted, -⟩
    · rw [same, ih]
    · exact permitted.elim

theorem committed_of_reaches (sound : Sound setting before)
    (reached : Reaches setting unedited before after) :
    before.history.grants <+: after.history.grants ∧
      (after.history.commits = before.history.commits ∨
        ∃ commit, after.history.commits = before.history.commits ++ [commit] ∧
          Committed setting commit before.history.grants after) := by
  induction reached with
  | refl => exact ⟨List.prefix_refl _, .inl rfl⟩
  | tail chain last ih =>
    have middle := sound.reached chain
    obtain ⟨⟨more, grown⟩, before'⟩ := ih
    refine ⟨List.IsPrefix.trans ⟨more, grown⟩ last.grants, ?_⟩
    rcases before' with none | ⟨commit, logged, committed⟩
    · rcases last.commits_cases middle with same | ⟨-, -, -, commit, -, logged, committed⟩
      · exact .inl (same.trans none)
      · rw [none] at logged
        rw [← grown] at committed
        exact .inr ⟨commit, logged, committed.earlier⟩
    · rcases last.commits_cases middle with same | ⟨-, -, trial, -⟩
      · exact .inr ⟨commit, same.trans logged, committed.keeps last middle⟩
      · exact absurd (committed.noTrial.symm.trans trial) Bool.false_ne_true

def Entry.LeavesProfile : Entry → Prop
  | .edit _ _ | .remove => False
  | _ => True

theorem Committed.answerable (committed : Committed setting commit granted world) (sound : Sound setting world) :
    Answerable setting unedited world := by
  intro pending listed current
  obtain ⟨-, purpose⟩ := sound.purpose pending listed current
  have acknowledging := committed.requests pending listed current
  cases kind : pending.request with
  | bootstrap | offer =>
    rw [kind] at purpose
    exact absurd purpose.settled (by simp [acknowledging])
  | challenge =>
    rw [kind] at purpose
    exact absurd (committed.noTrial.symm.trans purpose) Bool.false_ne_true
  | renew | acknowledge => exact ⟨committed.noTrial, acknowledging⟩

theorem Committed.step {entry : Entry} (committed : Committed setting commit granted before)
    (step : (controller setting).Step before entry after) (sound : Sound setting before)
    (leaves : entry.LeavesProfile) : Sound setting after ∧ Committed setting commit granted after := by
  have permitted : entry.Permitted setting unedited before := by
    cases entry with
    | reply => exact committed.answerable sound
    | edit | remove => exact leaves
    | beginActivation | prepare | observe | requestFailed | deadline | cancel | cleanupFailed
    | cleanupCompleted | restart => trivial
  have reached := reaches_of_entry step sound permitted
  have both : Sound setting after ∧ Committed setting commit granted after :=
    Changes.Reaches.keeps (I := fun world => Sound setting world ∧ Committed setting commit granted world)
      (fun _ _ held change => ⟨held.1.keeps change, held.2.keeps change held.1⟩) reached ⟨sound, committed⟩
  exact both

theorem Committed.run {entries : List Entry} (committed : Committed setting commit granted before)
    (run : Run (controller setting).Step before entries after) (sound : Sound setting before)
    (leaves : ∀ entry ∈ entries, entry.LeavesProfile) : Committed setting commit granted after := by
  induction run with
  | nil => exact committed
  | cons first rest ih =>
    obtain ⟨here, others⟩ := List.forall_mem_cons.mp leaves
    obtain ⟨kept, stays⟩ := committed.step first sound here
    exact ih stays kept others

theorem committed_of_step {entry : Entry}
    (step : (controller setting).Step before entry after) (sound : Sound setting before) :
    after.history.commits = before.history.commits ∨
      ∃ commit, after.history.commits = before.history.commits ++ [commit] ∧
        Committed setting commit before.history.grants after := by
  have other (permitted : entry.Permitted setting uncommitted before) :=
    commits_of_reaches sound (reaches_of_entry step sound permitted)
  cases entry with
  | observe epoch observation moment =>
    have permitted : (Entry.observe epoch observation moment).Permitted setting unedited before := trivial
    exact (committed_of_reaches sound (reaches_of_entry step sound permitted)).2
  | reply => exact .inl (other (sound.answerable trivial))
  | beginActivation | prepare | requestFailed | deadline | cancel | cleanupFailed | cleanupCompleted
  | edit | remove | restart => exact .inl (other trivial)

def Resumes (setting : Setting Hash) (world : World Hash) (connection : JsonObject) (allowTrial : Bool)
    (moment : Moment) (outcomes : List Outcome) : Prop :=
  let prepared := prepare setting connection allowTrial moment world outcomes
  (∀ stopped ∈ prepared.world :: prepared.history,
    stopped.journal.state = some .committing ∨ stopped.journal.state = some (world.resumed setting)) ∧
  (allowTrial = true → client connection ≠ [] → (∀ outcome ∈ outcomes, outcome = .done) →
    prepared.world.journal.state = some (world.resumed setting))

theorem resumes_of_committing (noTrial : world.memory.trial = false)
    (committing : world.journal.state = some .committing) (connection : JsonObject) (allowTrial : Bool)
    (moment : Moment) (outcomes : List Outcome) :
    Resumes setting world connection allowTrial moment outcomes := by
  have any (allowed : Outcome → Prop) (usual : allowed .done) :
      Ensures (resuming setting allowed usual world) (prepare setting connection allowTrial moment) _ world :=
    ensures_prepare noTrial committing connection allowTrial moment
  constructor
  · obtain ⟨held, last, -⟩ := any (fun _ => True) trivial outcomes fun _ _ => trivial
    intro stopped passed
    rcases List.mem_cons.mp passed with rfl | earlier
    · exact last.symm.imp_left And.left
    · exact held stopped earlier
  · intro allows present done
    obtain ⟨-, last, -⟩ := any (· = .done) rfl outcomes done
    rcases last with resumed | ⟨-, refused | empty | failed⟩
    · exact resumed
    · exact absurd (refused.symm.trans allows) Bool.false_ne_true
    · exact absurd empty present
    · cases failed

structure CrashConsistent (setting : Setting Hash) (world : World Hash) : Prop where
  writes : ∀ commit ∈ world.history.commits, commit.Consistent setting
  resumes : world.journal.state = some .committing → ∀ connection allowTrial moment outcomes,
    Resumes setting world.restarted connection allowTrial moment outcomes
  keeps : ∀ entry stored, (controller setting).Step world entry stored →
    stored.history.commits = world.history.commits ∨
    ∃ commit, stored.history.commits = world.history.commits ++ [commit] ∧
      ∀ entries after, Run (controller setting).Step stored entries after →
        (∀ entry ∈ entries, entry.LeavesProfile) →
        after.journal.offer = commit.journal.offer ∧
          after.journal.challengeReceipt = commit.journal.challengeReceipt ∧
          ∃ renewed, after.history.grants = world.history.grants ++ renewed ∧
            (after.journal.grant = commit.journal.grant ∨
              after.journal.grant ∈ renewed ∧ after.journal.grant ≠ "")

theorem commit_crash_consistent {profile : JsonObject} {world : World Hash} {entries : List Entry}
    (run : Run (controller setting).Step (World.fresh profile) entries world) :
    CrashConsistent setting world := by
  obtain ⟨sound, reached⟩ := reaches_of_run run (Sound.fresh profile)
  have none : ∀ commit ∈ (World.fresh profile : World Hash).history.commits, commit.Consistent setting :=
    fun _ listed => absurd listed List.not_mem_nil
  refine ⟨consistent_of_reaches (Sound.fresh profile) reached none, ?_, ?_⟩
  · intro committing
    exact resumes_of_committing rfl committing
  · intro entry stored step
    rcases committed_of_step step sound with same | ⟨commit, logged, committed⟩
    · exact .inl same
    · refine .inr ⟨commit, logged, fun later after rest leaves => ?_⟩
      have kept := sound.reached (reaches_of_entry step sound (entry.permitted_everything sound))
      have evidence := (committed.run rest kept leaves).stored
      exact ⟨evidence.offer, evidence.receipt, evidence.grant⟩

theorem shipped_never_commits {entries : List Entry} (shipped : setting.repository = .shipped)
    (run : Run (controller setting).Step (World.fresh profile) entries world) : world.history.commits = [] := by
  obtain ⟨-, reached⟩ := reaches_of_run run (Sound.fresh profile)
  clear run
  induction reached with
  | refl => rfl
  | tail chain last ih =>
    rcases last.commits_cases ((Sound.fresh profile).reached chain) with same | ⟨-, stub, -⟩
    · rw [same, ih]
    · rw [shipped] at stub
      cases stub

theorem current_request_is_single {entries : List Entry}
    (run : Run (controller setting).Step (World.fresh profile) entries world) :
    world.memory.requests.countP (·.generation = world.memory.callbackGeneration) ≤
        (if world.memory.busy then 1 else 0) ∧
      (∀ pending ∈ world.memory.requests, world.IsCurrent pending → Purpose world pending.request) ∧
      (world.memory.loaded = true → Coherent world.memory.journal world.journal) := by
  obtain ⟨sound, -⟩ := reaches_of_run run (Sound.fresh profile)
  exact ⟨sound.single, fun pending listed current => (sound.purpose pending listed current).2, sound.coherent⟩

end

namespace Sample

def digests : JsonObject :=
  ["HeaderProtectionKey", "S1", "S2", "S3", "S4"].map fun name => (name, .string "digest")

def trialObservation (bytes : Rat) : JsonObject :=
  observation "token2" ++
    [("headerProtectionKeyHash", .string "digest"), ("parameterDigests", .object digests),
      ("rxBytes", .number bytes), ("txBytes", .number bytes)]

def proof : List Entry :=
  [.observe 1 (trialObservation 1) (moment ""), .reply 0 (envelope "Aw==") (moment ""),
    .observe 1 (trialObservation 2) (moment "")]

def committed : World Json :=
  (controller (Sample.setting .stub)).execute (World.fresh profile) (firstAttempt ++ proof)

theorem committed_once : committed.history.commits.length = 1 ∧ committed.memory.loaded = true := by
  decide +kernel

end Sample

theorem commit_crash_consistent_sample :
    Sample.committed.history.commits.length = 1 ∧ CrashConsistent (Sample.setting .stub) Sample.committed := by
  refine ⟨Sample.committed_once.1, ?_⟩
  exact commit_crash_consistent ((controller (Sample.setting .stub)).run_execute (World.fresh Sample.profile)
    (Sample.firstAttempt ++ Sample.proof))

namespace Sample

def expiring : List Entry :=
  shortGrant ++ [.observe 1 (trialObservation 1) (moment ""), .reply 0 (envelope "Aw==") (moment ""),
    .observe 1 (trialObservation 2) (later "nonce4")]

def expired : World Json := (controller (Sample.setting .stub)).execute (World.fresh profile) expiring

def answer : List Entry := [.reply 0 (envelope "BQ==") (later "")]

def renewed : World Json := (controller (Sample.setting .stub)).execute expired answer

end Sample

theorem renewal_replaces_grant :
    Run (controller (Sample.setting .stub)).Step (World.fresh Sample.profile) Sample.expiring Sample.expired ∧
      Run (controller (Sample.setting .stub)).Step Sample.expired Sample.answer Sample.renewed ∧
      Sample.expired.history.commits.map (·.journal.grant) = ["grant1"] ∧
      Sample.renewed.journal.state = some .ackPending ∧ Sample.renewed.journal.grant = "grant3" :=
  ⟨(controller (Sample.setting .stub)).run_execute _ _, (controller (Sample.setting .stub)).run_execute _ _,
    by decide +kernel⟩

theorem shipped_never_commits_sample : ((controller (Sample.setting .shipped)).execute (World.fresh Sample.profile)
    (Sample.firstAttempt ++ Sample.proof)).history.commits = [] :=
  shipped_never_commits rfl ((controller (Sample.setting .shipped)).run_execute _ _)

theorem current_request_is_single_sample :
    Sample.committed.memory.loaded = true ∧ Coherent Sample.committed.memory.journal Sample.committed.journal := by
  have loaded := Sample.committed_once.2
  have run : Run (controller (Sample.setting .stub)).Step (World.fresh Sample.profile)
      (Sample.firstAttempt ++ Sample.proof) Sample.committed :=
    (controller (Sample.setting .stub)).run_execute _ _
  exact ⟨loaded, (current_request_is_single run).2.2 loaded⟩

end Amnezia.Migration
