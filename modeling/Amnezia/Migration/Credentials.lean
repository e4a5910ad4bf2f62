import Amnezia.Migration.Retries

/-! # Nonces and grants of repeated trials -/

namespace Amnezia.Migration
open Lib Procedure

variable {Hash : Type} {world : World Hash}

structure Credited (setting : Setting Hash) (history : History Hash) (journal : Journal Hash) : Prop where
  nonce : journal.nonce = "" ∨ journal.nonce ∈ history.drawn
  newNonce : ∀ authorization, journal.recoveryAuthorization = some authorization →
    journal.nonce = "" ∨ ∀ attempt ∈ history.attempts, attempt.nonce ≠ journal.nonce
  grant : ∀ attempt ∈ history.attempts, history.grants.length ≤ attempt.accepted →
    journal.grant = "" ∨ journal.grant = attempt.grant
  replaced : ∀ authorization, journal.recoveryAuthorization = some authorization →
    ∀ attempt ∈ history.attempts, history.cleanedAt ≤ attempt.accepted →
      authorization.previousGrantHash = setting.hash attempt.grant

structure Fresh (setting : Setting Hash) (world : World Hash) : Prop where
  stored : Credited setting world.history world.journal
  memory : world.memory.loaded = true → Credited setting world.history world.memory.journal
  nonces : ∀ attempt ∈ world.history.attempts, attempt.nonce = "" ∨ attempt.nonce ∈ world.history.drawn
  accepted : ∀ attempt ∈ world.history.attempts, attempt.accepted ≤ world.history.grants.length

section

variable {setting : Setting Hash}

namespace Credited

variable {history later : History Hash} {journal next : Journal Hash}

section

variable (credited : Credited setting history journal)
  (authorization : ∀ authorization, next.recoveryAuthorization = some authorization →
    journal.recoveryAuthorization = some authorization)
include credited authorization

theorem same (nonce : next.nonce = journal.nonce) (grant : next.grant = journal.grant) :
    Credited setting history next where
  nonce := nonce ▸ credited.nonce
  newNonce _ held := nonce ▸ credited.newNonce _ (authorization _ held)
  grant := grant ▸ credited.grant
  replaced _ held := credited.replaced _ (authorization _ held)

theorem cleared (noNonce : next.nonce = "") (noGrant : next.grant = "") : Credited setting history next where
  nonce := .inl noNonce
  newNonce _ _ := .inl noNonce
  grant _ _ _ := .inl noGrant
  replaced _ held := credited.replaced _ (authorization _ held)

end

theorem grow (credited : Credited setting history journal) (drawn : history.drawn ⊆ later.drawn)
    (grants : history.grants.length ≤ later.grants.length) (attempts : later.attempts = history.attempts)
    (cleanedAt : later.cleanedAt = history.cleanedAt) : Credited setting later journal where
  nonce := credited.nonce.imp_right (drawn ·)
  newNonce := attempts ▸ credited.newNonce
  grant attempt listed few := credited.grant attempt (attempts ▸ listed) (grants.trans few)
  replaced _ held attempt listed early :=
    credited.replaced _ held attempt (attempts ▸ listed) (cleanedAt ▸ early)

end Credited

theorem unused_of_new {values : List String} {value : String} {used : Attempt Hash → String}
    {attempts : List (Attempt Hash)} (new : (values ++ [value]).Nodup)
    (known : ∀ attempt ∈ attempts, used attempt = "" ∨ used attempt ∈ values) :
    value = "" ∨ ∀ attempt ∈ attempts, used attempt ≠ value := by
  have absent : value ∉ values := by
    have apart := (List.nodup_append.mp new).2.2
    exact fun listed => apart value listed value (List.mem_singleton_self value) rfl
  by_cases empty : value = ""
  · exact .inl empty
  · refine .inr fun attempt listed same => ?_
    rcases known attempt listed with none | obtained
    · exact empty (same ▸ none)
    · exact absent (same ▸ obtained)

namespace Fresh

variable {journal : Journal Hash}

section

variable (fresh : Fresh setting world)
include fresh

section

variable (credited : world.memory.loaded = true → Credited setting world.history journal)
include credited

theorem revised : Fresh setting (world.revised journal) :=
  ⟨fresh.stored, credited, fresh.nonces, fresh.accepted⟩

theorem saved : Fresh setting (world.saved journal) := by
  cases loaded : world.memory.loaded with
  | true =>
    rw [world.saved_of_loaded loaded]
    exact ⟨credited loaded, fun _ => credited loaded, fresh.nonces, fresh.accepted⟩
  | false =>
    rw [world.saved_of_unloaded loaded]
    exact fresh.revised credited

end

theorem remembered {later : History Hash} (drawn : world.history.drawn ⊆ later.drawn)
    (grants : world.history.grants.length ≤ later.grants.length)
    (attempts : later.attempts = world.history.attempts)
    (cleanedAt : later.cleanedAt = world.history.cleanedAt) :
    Fresh setting { world with history := later } where
  stored := fresh.stored.grow drawn grants attempts cleanedAt
  memory loaded := (fresh.memory loaded).grow drawn grants attempts cleanedAt
  nonces attempt listed := (fresh.nonces attempt (attempts ▸ listed)).imp_right (drawn ·)
  accepted attempt listed := (fresh.accepted attempt (attempts ▸ listed)).trans grants

theorem granted (grant : String) : Fresh setting
    { world with history := { world.history with grants := world.history.grants ++ [grant] } } :=
  fresh.remembered (List.Subset.refl _) (by simp) rfl rfl

theorem newNonce {nonce : String}
    (new : (world.history.drawn ++ [nonce]).Nodup) (sameNonce : journal.nonce = nonce)
    (grant : journal.grant = world.memory.journal.grant)
    (authorization : journal.recoveryAuthorization = world.memory.journal.recoveryAuthorization) :
    Fresh setting { world.revised journal with
      history := { world.history with drawn := world.history.drawn ++ [nonce] } } where
  stored := fresh.stored.grow (List.subset_append_left _ _) le_rfl rfl rfl
  memory loaded := by
    have credited := fresh.memory loaded
    have unused := unused_of_new new fresh.nonces
    exact {
      nonce := .inr (sameNonce ▸ List.mem_append_right _ (List.mem_singleton_self _))
      newNonce := fun _ _ => sameNonce ▸ unused
      grant := grant ▸ credited.grant
      replaced := authorization ▸ credited.replaced }
  nonces attempt listed := (fresh.nonces attempt listed).imp_right (List.mem_append_left _ ·)
  accepted := fresh.accepted

-- No attempt is older than a grant that has just been accepted.
theorem newGrant {grant : String} (loaded : world.memory.loaded = true)
    (nonce : journal.nonce = world.memory.journal.nonce)
    (authorization : journal.recoveryAuthorization = world.memory.journal.recoveryAuthorization) :
    Credited setting { world.history with grants := world.history.grants ++ [grant] } journal := by
  have credited := fresh.memory loaded
  exact {
    nonce := nonce ▸ credited.nonce
    newNonce := fun _ held => nonce ▸ credited.newNonce _ (authorization ▸ held)
    grant := by
      intro attempt listed few
      have early := fresh.accepted attempt listed
      simp only [List.length_append, List.length_singleton] at few
      omega
    replaced := authorization ▸ credited.replaced }

theorem renewed {grant : String} (nonce : journal.nonce = world.memory.journal.nonce)
    (authorization : journal.recoveryAuthorization = world.memory.journal.recoveryAuthorization) :
    Fresh setting { world.saved journal with
      history := { world.history with grants := world.history.grants ++ [grant] } } := by
  have grown := fresh.granted grant
  have credited (loaded : world.memory.loaded = true) :
      Credited setting { world.history with grants := world.history.grants ++ [grant] } journal :=
    fresh.newGrant loaded nonce authorization
  cases loaded : world.memory.loaded with
  | true =>
    rw [world.saved_of_loaded loaded]
    exact ⟨credited loaded, fun _ => credited loaded, grown.nonces, grown.accepted⟩
  | false =>
    rw [world.saved_of_unloaded loaded]
    exact grown.revised credited

end

end Fresh

section

variable [DecidableEq Hash] {permits : Permits Hash}

theorem replaced_of_created {journal : Journal Hash} {authorization : Authorization Hash}
    (created : createRecoveryAuthorization setting.toServices journal = some authorization) :
    journal.grant ≠ "" ∧ authorization.previousGrantHash = setting.hash journal.grant := by
  unfold createRecoveryAuthorization at created
  split at created
  · cases created
  · simp only [Option.ite_none_left_eq_some, not_or, Option.some.injEq] at created
    obtain ⟨⟨-, -, grant, -⟩, rfl⟩ := created
    exact ⟨grant, rfl⟩

namespace Fresh

variable {before : World Hash} (fresh : Fresh setting before)
include fresh

theorem begun (begins : Begins setting before) :
    Fresh setting { before.saved (trialJournal before) with
      memory := { before.memory with
        journal := trialJournal before, trial := true, initialRx := -1, initialTx := -1 }
      history := { before.history with
        trials := before.history.trials + 1
        attempts := before.history.attempts ++ [before.memory.journal.attempt setting before.history] } } := by
  have credited := fresh.memory begins.loaded
  have known {test : Attempt Hash → Prop} (old : ∀ attempt ∈ before.history.attempts, test attempt)
      (new : test (before.memory.journal.attempt setting before.history)) :
      ∀ attempt ∈ before.history.attempts ++ [before.memory.journal.attempt setting before.history],
        test attempt := by
    intro attempt listed
    rcases List.mem_append.mp listed with earlier | last
    · exact old attempt earlier
    · rw [List.mem_singleton.mp last]
      exact new
  have spent : Credited setting { before.history with
      trials := before.history.trials + 1
      attempts := before.history.attempts ++ [before.memory.journal.attempt setting before.history] }
      (trialJournal before) :=
    ⟨credited.nonce, nofun, known credited.grant fun _ => .inr rfl, nofun⟩
  rw [before.saved_of_loaded begins.loaded]
  exact ⟨spent, fun _ => spent, known fresh.nonces credited.nonce, known fresh.accepted le_rfl⟩

theorem cleaned {profile : JsonObject} {token : String} {epoch : Nat} {returned : Bool}
    (cleans : Cleans setting before profile token epoch) :
    Fresh setting { before.saved (recoveryJournalAfterCleanup setting.toServices before.journal token epoch) with
      history := before.history.cleaned returned } := by
  have cleared : Credited setting (before.history.cleaned returned)
      (recoveryJournalAfterCleanup setting.toServices before.journal token epoch) := {
    nonce := .inl rfl
    newNonce := fun _ _ => .inl rfl
    grant := fun _ _ _ => .inl rfl
    replaced := by
      intro authorization created attempt listed early
      obtain ⟨known, hash⟩ := replaced_of_created created
      rw [hash, (fresh.stored.grant attempt listed early).resolve_left known] }
  rw [before.saved_of_loaded cleans.loaded]
  exact ⟨cleared, fun _ => cleared, fresh.nonces, fresh.accepted⟩

theorem keeps {after : World Hash} (change : Change setting permits before after)
    (nonces : after.history.drawn.Nodup) : Fresh setting after := by
  cases change with
  | restart => exact ⟨fresh.stored, fun loaded => Bool.noConfusion loaded, fresh.nonces, fresh.accepted⟩
  | quiet memory same =>
    have loaded : memory.loaded = before.memory.loaded := Memory.of_bare same (·.loaded) fun _ => rfl
    have journal : memory.journal.bare = before.memory.journal.bare :=
      Memory.of_bare same (·.journal.bare) fun _ => rfl
    have credited (known : memory.loaded = true) : Credited setting before.history memory.journal :=
      (fresh.memory (loaded ▸ known)).same
        (fun authorization => (Journal.of_bare journal (·.recoveryAuthorization = some authorization)
          fun _ => rfl).mp)
        (Journal.of_bare journal (·.nonce) fun _ => rfl) (Journal.of_bare journal (·.grant) fun _ => rfl)
    exact ⟨fresh.stored, credited, fresh.nonces, fresh.accepted⟩
  | save =>
    rw [before.withJournal_memory]
    exact fresh.saved fresh.memory
  | commit previous profile stored seconds commits permitted =>
    have same : Fresh setting { before with history := { before.history with
        commits := before.history.commits ++ [⟨previous, stored, before.journal, seconds⟩] } } :=
      fresh.remembered (List.Subset.refl _) le_rfl rfl rfl
    exact ⟨same.stored, same.memory, same.nonces, same.accepted⟩
  | advance | leave | send | take | edit | remove =>
    exact ⟨fresh.stored, fresh.memory, fresh.nonces, fresh.accepted⟩
  | load => exact ⟨fresh.stored, fun _ => fresh.stored, fresh.nonces, fresh.accepted⟩
  | settle | stage => exact fresh.saved fun loaded => (fresh.memory loaded).same (fun _ => id) rfl rfl
  | rebase | prove | choose => exact fresh.revised fun loaded => (fresh.memory loaded).same (fun _ => id) rfl rfl
  | dropGrant => exact fresh.revised fun loaded => (fresh.memory loaded).cleared (fun _ => id) rfl rfl
  | expire => exact fresh.saved fun loaded => (fresh.memory loaded).cleared (fun _ => id) rfl rfl
  | draw nonce fingerprint => exact fresh.newNonce nonces rfl rfl rfl
  | drawRenewal nonce => exact fresh.remembered (List.subset_append_left _ _) le_rfl rfl rfl
  | grant grant => exact fresh.granted grant
  | enroll grant => exact (fresh.granted grant).revised fun loaded => fresh.newGrant loaded rfl rfl
  | renew grant => exact fresh.renewed rfl rfl
  | spend begins =>
    have spent (loaded : before.memory.loaded = true) : Credited setting before.history (trialJournal before) :=
      (fresh.memory loaded).same nofun rfl rfl
    exact (fresh.saved spent).remembered (by simp) (by simp) (by simp) (by simp)
  | begin begins => exact fresh.begun begins
  | cleanup profile token epoch returned cleans permitted => exact fresh.cleaned cleans

end Fresh

end

structure Attempt.Repeats (earlier later : Attempt Hash) : Prop where
  target : later.targetHash = earlier.targetHash
  signer : later.signingPublicKey = earlier.signingPublicKey
  nonce : later.nonce ≠ earlier.nonce
  grant : later.cleanedAt ≤ earlier.accepted → later.grant ≠ earlier.grant

def Repeated (attempts : List (Attempt Hash)) : Prop :=
  attempts.Pairwise fun earlier later => later.generation = earlier.generation → earlier.Repeats later

structure Restrained (setting : Setting Hash) (world : World Hash) : Prop where
  sound : Sound setting world
  watched : Watched world
  bounded : Bounded world
  repeated : world.history.drawn.Nodup → Fresh setting world ∧ Repeated world.history.attempts

theorem Restrained.fresh (setting : Setting Hash) (profile : JsonObject) :
    Restrained setting (World.fresh profile : World Hash) where
  sound := .fresh profile
  watched _ listed := absurd listed List.not_mem_nil
  bounded _ := Nat.zero_le _
  repeated _ :=
    have credited : Credited setting ({} : History Hash) {} := ⟨.inl rfl, nofun, nofun, nofun⟩
    ⟨⟨credited, fun _ => credited, nofun, nofun⟩, .nil⟩

section

variable [DecidableEq Hash] {permits : Permits Hash}

variable {before : World Hash}

theorem Begins.repeats (begins : Begins setting before) (sound : Sound setting before)
    (watched : Watched before) (fresh : Fresh setting before) {earlier : Attempt Hash}
    (listed : earlier ∈ before.history.attempts)
    (again : (before.memory.journal.attempt setting before.history).generation = earlier.generation) :
    earlier.Repeats (before.memory.journal.attempt setting before.history) := by
  obtain ⟨generation, number, above⟩ := begins.generation sound
  have same : earlier.generation = some generation := again.symm.trans number
  rcases above with newer | ⟨authorization, authorized, equal, -, -⟩
  · obtain ⟨past, attempted, below⟩ := (watched earlier listed).below
    rw [same] at attempted
    cases attempted
    exact absurd below newer.not_ge
  · have here := (watched earlier listed).pins (sound.coherent begins.loaded).pins
    have credited := fresh.memory begins.loaded
    have target := here.target (by rw [same, authorized.staged, equal])
    rw [authorized.target] at target
    exact {
      target := (Option.some.inj target).symm
      signer := here.signer.symm
      nonce := ((credited.newNonce _ authorized.held).resolve_left authorized.nonce earlier listed).symm
      grant := by
        intro early repeated
        apply authorized.newGrant
        rw [credited.replaced _ authorized.held earlier listed early]
        exact congrArg setting.hash repeated }

theorem Repeated.keeps {after : World Hash} (repeated : Repeated before.history.attempts)
    (move : Move setting permits before after) (sound : Sound setting before) (watched : Watched before)
    (fresh : Fresh setting before) : Repeated after.history.attempts := by
  cases move with
  | still pins trials | stage offer seconds loaded stages stored trials =>
    rw [trials.attempts]
    exact repeated
  | spend begins stored trials | cleanup profile token epoch returned cleans permitted stored trials =>
    rw [trials]
    exact repeated
  | begin begins stored trials =>
    rw [trials]
    apply List.pairwise_append.mpr
    refine ⟨repeated, List.pairwise_singleton _ _, fun earlier listed later last => ?_⟩
    rw [List.mem_singleton.mp last]
    exact begins.repeats sound watched fresh listed

theorem Change.drawn {after : World Hash} (change : Change setting permits before after) :
    before.history.drawn <+: after.history.drawn := by
  cases change with
  | draw | drawRenewal => exact List.prefix_append _ _
  | save | settle | stage | expire =>
    simp only [World.history_withJournal, World.history_saved]
    exact List.prefix_refl _
  | _ => exact List.prefix_refl _

theorem Change.grants {after : World Hash} (change : Change setting permits before after) :
    before.history.grants <+: after.history.grants := by
  cases change with
  | enroll | grant | renew => exact List.prefix_append _ _
  | save | settle | stage | expire =>
    simp only [World.history_withJournal, World.history_saved]
    exact List.prefix_refl _
  | _ => exact List.prefix_refl _

namespace Restrained

theorem keeps {after : World Hash} (held : Restrained setting before)
    (change : Change setting permits before after) : Restrained setting after := by
  have move := change.move held.sound
  refine ⟨held.sound.keeps change, held.watched.keeps move held.sound,
    held.bounded.keeps held.watched move held.sound, fun nonces => ?_⟩
  obtain ⟨fresh, repeated⟩ := held.repeated (nonces.sublist change.drawn.sublist)
  exact ⟨fresh.keeps change nonces, repeated.keeps move held.sound held.watched fresh⟩

theorem reached {after : World Hash} (held : Restrained setting before)
    (reached : Reaches setting permits before after) : Restrained setting after :=
  Changes.Reaches.keeps (fun _ _ held change => held.keeps change) reached held

end Restrained

theorem highest_le_of_reaches {after : World Hash} (sound : Sound setting before)
    (reached : Reaches setting permits before after) :
    before.journal.highestGeneration.getD 0 ≤ after.journal.highestGeneration.getD 0 := by
  induction reached with
  | refl => exact le_refl _
  | tail chain last ih =>
    have middle := sound.reached chain
    exact ih.trans ((last.move middle).highest_le middle)

/-! ## Calls that a stop cuts off -/

def Entry.isCleanup : Entry → Bool
  | .cleanupCompleted _ _ => true
  | _ => false

def cutCleanups (calls : List (Entry × Bool)) : Nat :=
  calls.countP fun call => call.1.isCleanup && !call.2

def uncleaned : Permits Hash where
  edits := True
  commits := True
  cleanup _ := False

structure SameCleanups (next before : History Hash) : Prop where
  cleanups : next.cleanups = before.cleanups
  confirmed : next.confirmed = before.confirmed

theorem sameCleanups_of_reaches {after : World Hash} (reached : Reaches setting uncleaned before after) :
    SameCleanups after.history before.history := by
  induction reached with
  | refl => exact ⟨rfl, rfl⟩
  | tail chain last ih =>
    refine ⟨Eq.trans ?_ ih.cleanups, Eq.trans ?_ ih.confirmed⟩
    all_goals
      cases last with
      | cleanup profile token epoch returned cleans permitted => exact permitted.elim
      | save | settle | stage | expire => simp only [World.history_withJournal, World.history_saved]
      | _ => rfl

theorem Entry.permitted_uncleaned {entry : Entry} (other : entry.isCleanup = false)
    (sound : Sound setting before) : entry.Permitted setting uncleaned before := by
  cases entry with
  | cleanupCompleted => exact Bool.noConfusion other
  | reply => exact sound.answerable trivial
  | beginActivation | prepare | observe | requestFailed | deadline | cancel | cleanupFailed | edit | remove
  | restart => trivial

/-- A cleanup that returns is counted as confirmed, and one that is cut off may be stored without that. -/
structure CountsCleanup (world : World Hash) (executed : Executed (World Hash) Outcome Bool) : Prop where
  returned : executed.world.history.cleanups + world.history.confirmed =
    world.history.cleanups + executed.world.history.confirmed
  stopped : ∀ stopped ∈ executed.history, stopped.history.cleanups ≤ world.history.cleanups + 1 ∧
    stopped.history.confirmed = world.history.confirmed

theorem cleanupCompleted_counts (setting : Setting Hash) (token : String) (epoch : Nat) (world : World Hash)
    (outcomes : List Outcome) : CountsCleanup world (cleanupCompleted setting token epoch world outcomes) := by
  have unchanged (answer : Bool) : CountsCleanup world ((pure answer : Action Hash Bool) world outcomes) :=
    ⟨rfl, fun _ passed => absurd passed List.not_mem_nil⟩
  simp only [cleanupCompleted, read_bind, id]
  cases found : world.profile with
  | none => exact unchanged false
  | some profile =>
    dsimp only
    split
    · exact unchanged false
    · simp only [storeRecoveryJournal]
      cases chosen : outcomes.headD default with
      | done =>
        rw [perform_bind _ _ _ _ ({ world.withJournal
            (recoveryJournalAfterCleanup setting.toServices world.journal token epoch) with
          memory := { world.memory with
            journal := recoveryJournalAfterCleanup setting.toServices world.journal token epoch }
          history := world.history.cleaned false }, true)]
        · refine ⟨?_, fun stopped passed => ?_⟩
          · show world.history.cleanups + 1 + world.history.confirmed =
              world.history.cleanups + (world.history.confirmed + 0 + 1)
            omega
          · rw [List.mem_singleton.mp passed]
            exact ⟨le_rfl, rfl⟩
        · rw [chosen]
      | failed =>
        rw [perform_bind _ _ _ _ (world, false)]
        · refine ⟨rfl, fun stopped passed => ?_⟩
          rw [List.mem_singleton.mp passed]
          exact ⟨Nat.le_succ _, rfl⟩
        · rw [chosen]

theorem cleanups_le_of_call {after : World Hash} {call : Entry × Bool}
    (called : (controller setting).Call before call after) (sound : Sound setting before) {cut : Nat}
    (counted : before.history.cleanups ≤ before.history.confirmed + cut) :
    after.history.cleanups ≤ after.history.confirmed + (cut + cutCleanups [call]) := by
  cases cleaning : call.1.isCleanup with
  | false =>
    have same := sameCleanups_of_reaches
      (reaches_of_entry called.step sound (Entry.permitted_uncleaned cleaning sound))
    rw [same.cleanups, same.confirmed]
    omega
  | true =>
    cases called with
    | finish entry outcomes =>
      cases entry with
      | cleanupCompleted token epoch =>
        have counts := (cleanupCompleted_counts setting token epoch before outcomes).returned
        have result : ((controller setting).enter (.cleanupCompleted token epoch) before outcomes).world =
            (cleanupCompleted setting token epoch before outcomes).world := rfl
        rw [result]
        omega
      | _ => cases cleaning
    | stop entry outcomes passed =>
      cases entry with
      | cleanupCompleted token epoch =>
        have here : _ ∈ (cleanupCompleted setting token epoch before outcomes).history ++ [] := passed
        rw [List.append_nil] at here
        obtain ⟨stored, unconfirmed⟩ := (cleanupCompleted_counts setting token epoch before outcomes).stopped _ here
        have one : cutCleanups [(Entry.cleanupCompleted token epoch, false)] = 1 := rfl
        simp only [one, controller, World.restarted]
        omega
      | _ => cases cleaning

theorem cleanups_le_of_calls {profile : JsonObject} {after : World Hash} {calls : List (Entry × Bool)}
    (run : Run (controller setting).Call (World.fresh profile) calls after) :
    after.history.cleanups ≤ after.history.confirmed + cutCleanups calls := by
  have counted := run.invariant
    (I := fun past world => Sound setting world ∧
      world.history.cleanups ≤ world.history.confirmed + cutCleanups past)
    (fun past before call after held called => ?_) [] ⟨.fresh profile, le_rfl⟩
  · exact counted.2
  · obtain ⟨sound, counted⟩ := held
    refine ⟨sound.reached (reaches_of_entry called.step sound (Entry.permitted_everything _ sound)), ?_⟩
    rw [cutCleanups, List.countP_append]
    exact cleanups_le_of_call called sound counted

end

end

namespace Sample

def key : String := "AAAAAAAAAAAAAAAAAAAAAAAAAAAAAAAAAAAAAAAAAAA="

def signature : String :=
  "AAAAAAAAAAAAAAAAAAAAAAAAAAAAAAAAAAAAAAAAAAAAAAAAAAAAAAAAAAAAAAAAAAAAAAAAAAAAAAAAAAAAAA=="

def target : JsonObject :=
  [("endpoint", .string "new.example:443"), ("clientAddress", .string "10.8.0.2/32"),
    ("parameters", .object [("HeaderProtectionKey", .string key), ("S1", .string "12"), ("S2", .string "12"),
      ("S3", .string "12"), ("S4", .string "12")])]

def configuration : JsonObject :=
  [("client_ip", .string "10.8.0.2"), ("client_pub_key", .string "peer"), ("config", .string "[Interface]"),
    ("server_pub_key", .string "server")]

def offer (nonce : String) : JsonObject :=
  [("schema", .number 1), ("serverPublicKey", .string "server"), ("peerPublicKey", .string "peer"),
    ("containerId", .string "amnezia-awg"), ("sourceFingerprint", .string "digest"), ("nonce", .string nonce),
    ("generation", .number 1), ("expiresAt", .number 100), ("target", .object target),
    ("challenge", .object [("address", .string "172.29.172.251"), ("port", .number 18082),
      ("nonce", .string "proof")])]

def receipt : JsonObject :=
  [("schema", .number 1), ("serverPublicKey", .string "server"), ("containerId", .string "amnezia-awg"),
    ("peerPublicKey", .string "peer"), ("generation", .number 1), ("expiresAt", .number 100),
    ("nonce", .string "proof"), ("targetAddress", .string "10.8.0.2")]

def renewal : JsonObject :=
  [("schema", .number 1), ("serverPublicKey", .string "server"), ("peerPublicKey", .string "peer"),
    ("containerId", .string "amnezia-awg"), ("generation", .number 1), ("nonce", .string "nonce4"),
    ("grant", .string "grant3"), ("sourceFingerprint", .string "digest"), ("targetHash", .string "digest"),
    ("expiresAt", .number 100)]

def setting (repository : Repository) : Setting Json where
  digest := .object
  hash := .string
  hashBytes bytes := .array (bytes.map fun byte => .number byte.toNat)
  hex _ := "digest"
  verifySignature _ _ _ := true
  fromJson bytes :=
    [([1], Json.object (offer "nonce1")), ([2], .object (offer "nonce2")), ([3], .object receipt),
      ([4], .object (offer "nonce3")), ([5], .object renewal),
      (Ipc.ascii "configuration", .object configuration)].lookup bytes
  digest_injective _ _ same := Json.object.inj same
  serverId := "server"
  repository := repository
  configTypeFromJson _ := .selfHostedAdmin
  toJson _ := "configuration"

def profile : JsonObject :=
  [("containers", .array [.object [("container", .string "amnezia-awg"),
      ("awg", .object [("last_config", .string "configuration")])]]),
    ("defaultContainer", .string "amnezia-awg")]

def connection : JsonObject := [("awg_config_data", .object configuration)]

def moment (nonce : String) : Moment := ⟨0, none, nonce⟩

def observation (token : String) : JsonObject :=
  [("migrationActivationToken", .string token), ("lastHandshakeMs", .string "1000"),
    ("peerPublicKey", .string "server"), ("awg3Capable", .bool true)]

def grantUntil (expiresAt : Rat) (nonce grant : String) : JsonObject :=
  [("schema", .number 1), ("serverPublicKey", .string "server"), ("containerId", .string "amnezia-awg"),
    ("peerPublicKey", .string "peer"), ("sourceFingerprint", .string "digest"), ("nonce", .string nonce),
    ("grant", .string grant), ("signingPublicKey", .string key), ("generation", .number 1),
    ("expiresAt", .number expiresAt)]

def bootstrap : String → String → JsonObject := grantUntil 100

def envelope (payload : String) : JsonObject :=
  [("payload", .string payload), ("signature", .string signature)]

def attempt (first second nonce grant payload : String) : List Entry :=
  [.beginActivation first, .prepare connection true (moment nonce), .observe 1 (observation first) (moment nonce),
    .reply 0 (bootstrap nonce grant) (moment nonce), .reply 0 (envelope payload) (moment nonce),
    .beginActivation second, .prepare connection true (moment nonce)]

def firstAttempt : List Entry := attempt "token1" "token2" "nonce1" "grant1" "AQ=="

def cleanup : List Entry := [.deadline, .cleanupCompleted "token2" 1]

def secondAttempt : List Entry := attempt "token3" "token4" "nonce2" "grant2" "Ag=="

def tried : World Json := (controller (setting .stub)).execute (World.fresh profile) firstAttempt

def triedAgain : World Json := (controller (setting .stub)).execute tried (cleanup ++ secondAttempt)

end Sample

namespace Sample

def later (nonce : String) : Moment := ⟨1000, none, nonce⟩

def shortGrant : List Entry :=
  [.beginActivation "token1", .prepare connection true (moment "nonce1"),
    .observe 1 (observation "token1") (moment "nonce1"),
    .reply 0 (grantUntil 1 "nonce1" "grant1") (moment "nonce1"), .reply 0 (envelope "AQ==") (moment "nonce1"),
    .beginActivation "token2", .prepare connection true (moment "nonce1")]

def enrolledAgain : List Entry :=
  shortGrant ++ [.deadline, .beginActivation "token3", .prepare connection true (later "nonce2"),
    .observe 1 (observation "token3") (later "nonce2"),
    .reply 0 (bootstrap "nonce2" "grant2") (later "nonce2"), .cleanupFailed]

def uncleaned : World Json := (controller (setting .shipped)).execute (World.fresh profile) enrolledAgain

def cleaning : List (World Json) :=
  ((controller (setting .shipped)).enter (.cleanupCompleted "token3" 1) uncleaned []).history

def cutOff : World Json := (cleaning.headD uncleaned).restarted

def lastAttempt : List Entry := attempt "token4" "token5" "nonce3" "grant1" "BA=="

def repeated : World Json := (controller (setting .shipped)).execute cutOff lastAttempt

end Sample

end Amnezia.Migration
