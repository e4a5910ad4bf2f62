import Amnezia.Headless.ProfilePause

/-! # What pausing does to a profile store -/

namespace Amnezia.Headless.ProfilePause
open Lib Lib.JsonText

/-! ## The paused tree -/

section Paused

variable (reader : Reader)

def Items.rewrite (change : Tree → Tree) : Items → Items
  | .nil => .nil
  | .cons item items => .cons (change item) (Items.rewrite change items)

def Members.rewrite (change : String → Tree → Tree) : Members → Members
  | .nil => .nil
  | .cons key value members =>
    .cons key (change (nameOf reader key) value) (Members.rewrite change members)

def pausedFlag (name : String) (tree : Tree) : Tree :=
  if name = "autoUpdate" ∧ tree.tokens = [trueText] then .scalar falseText else tree

def pausedProfile : Tree → Tree
  | .object members => .object (Members.rewrite reader pausedFlag members)
  | tree => tree

def pausedProfiles : Tree → Tree
  | .array items => .array (Items.rewrite (pausedProfile reader) items)
  | tree => tree

def pausedMember (name : String) (tree : Tree) : Tree :=
  if name = "profiles" then pausedProfiles reader tree else tree

/-- The tree in which `autoUpdate` is off in every profile that had it on. -/
def paused : Tree → Tree
  | .object members => .object (Members.rewrite reader (pausedMember reader) members)
  | tree => tree

end Paused

/-! ## What the paused tree stands for -/

variable {doc : JsonObject} {text : Bytes} {tree : Tree}

section Values

variable {reader : Reader}

def flagValue (key : String) (value : Json) : Json :=
  if key = "autoUpdate" ∧ value = .bool true then .bool false else value

def profileValue : Json → Json
  | .object members => .object (JsonObject.mapValues flagValue members)
  | value => value

def profilesValue : Json → Json
  | .array profiles => .array (profiles.map profileValue)
  | value => value

def storeValue (key : String) (value : Json) : Json :=
  if key = "profiles" then profilesValue value else value

/-- The document with `autoUpdate` set to false in every profile that has it true. -/
def pausedDocument (doc : JsonObject) : JsonObject := doc.mapValues storeValue

theorem scalar_true_iff {value : Json} (read : reader.scalar text = some value) :
    text = trueText ↔ value = .bool true := by
  constructor
  · rintro rfl
    exact (Option.some.inj read).symm
  · rintro rfl
    cases key : reader.key text with
    | some string =>
      rw [Reader.scalar_of_key key] at read
      cases read
    | none =>
      simp only [Reader.scalar, key] at read
      split_ifs at read with isNull isTrue isFalse digits
      · cases read
      · exact isTrue
      · cases read
      · obtain ⟨number, -, same⟩ := Option.map_eq_some_iff.mp read
        cases same

theorem tokens_true_iff {value : Json} (read : tree.value reader = some value) :
    tree.tokens = [trueText] ↔ value = .bool true := by
  cases tree with
  | scalar text => exact ⟨fun same => (scalar_true_iff read).mp (List.cons.inj same).1,
      fun same => by rw [Tree.tokens, (scalar_true_iff read).mpr same]⟩
  | array items =>
    obtain ⟨values, -, rfl⟩ := Option.map_eq_some_iff.mp read
    exact ⟨fun same => absurd (List.cons.inj same).1 (by decide), fun same => by cases same⟩
  | object members =>
    obtain ⟨values, -, rfl⟩ := Option.map_eq_some_iff.mp read
    exact ⟨fun same => absurd (List.cons.inj same).1 (by decide), fun same => by cases same⟩

theorem Items.values_rewrite {change : Tree → Tree} {value : Json → Json}
    (each : ∀ tree json, tree.value reader = some json → (change tree).value reader = some (value json))
    {items : Items} {values : List Json} (read : items.values reader = some values) :
    (Items.rewrite change items).values reader = some (values.map value) := by
  cases items with
  | nil => rw [← Option.some.inj read]; rfl
  | cons tree items =>
    obtain ⟨json, first, others, later, rfl⟩ := Items.values_cons read
    simp only [Items.rewrite, Items.values, each tree json first, Items.values_rewrite each later]
    rfl

variable {change : String → Tree → Tree} {value : String → Json → Json}

theorem Members.values_rewrite (each : ∀ name tree json, tree.value reader = some json →
      (change name tree).value reader = some (value name json))
    {members : Members} {values : List (String × Json)} (read : members.values reader = some values) :
    (Members.rewrite reader change members).values reader = some (JsonObject.mapValues value values) := by
  cases members with
  | nil => rw [← Option.some.inj read]; rfl
  | cons key tree members =>
    obtain ⟨name, known, json, first, others, later, rfl⟩ := Members.values_cons read
    have named : nameOf reader key = name := by rw [nameOf, known]; rfl
    simp only [Members.rewrite, Members.values, known, named, each name tree json first,
      Members.values_rewrite each later]
    rfl

theorem value_of_object (each : ∀ name tree json, tree.value reader = some json →
      (change name tree).value reader = some (value name json))
    {members : Members} {json : Json} (read : (Tree.object members).value reader = some json) :
    ∃ object, json = .object object ∧
      (Tree.object (Members.rewrite reader change members)).value reader =
        some (.object (JsonObject.mapValues value object)) := by
  obtain ⟨values, known, rfl⟩ := Option.map_eq_some_iff.mp read
  refine ⟨collect values, rfl, ?_⟩
  rw [Tree.value, Members.values_rewrite each known, Option.map_some, collect_mapValues]

theorem value_pausedFlag (name : String) (tree : Tree) (json : Json) (read : tree.value reader = some json) :
    (pausedFlag name tree).value reader = some (flagValue name json) := by
  have same := tokens_true_iff read
  rw [pausedFlag, flagValue]
  by_cases flag : name = "autoUpdate" ∧ tree.tokens = [trueText]
  · rw [if_pos flag, if_pos ⟨flag.1, same.mp flag.2⟩]
    rfl
  · rw [if_neg flag, if_neg (fun on => flag ⟨on.1, same.mpr on.2⟩), read]

theorem scalar_simple {json : Json} (read : reader.scalar text = some json) :
    json.isArray = false ∧ json.isObject = false := by
  cases key : reader.key text with
  | some string =>
    rw [Reader.scalar_of_key key] at read
    rw [← Option.some.inj read]
    exact ⟨rfl, rfl⟩
  | none =>
    simp only [Reader.scalar, key] at read
    split_ifs at read with isNull isTrue isFalse digits
    · rw [← Option.some.inj read]
      exact ⟨rfl, rfl⟩
    · rw [← Option.some.inj read]
      exact ⟨rfl, rfl⟩
    · rw [← Option.some.inj read]
      exact ⟨rfl, rfl⟩
    · obtain ⟨number, -, rfl⟩ := Option.map_eq_some_iff.mp read
      exact ⟨rfl, rfl⟩

theorem value_pausedProfile (tree : Tree) (json : Json) (read : tree.value reader = some json) :
    (pausedProfile reader tree).value reader = some (profileValue json) := by
  cases tree with
  | scalar text =>
    have plain : profileValue json = json := by
      cases json with
      | object members => exact nomatch (scalar_simple read).2
      | _ => rfl
    rw [plain]
    exact read
  | array items =>
    obtain ⟨values, -, rfl⟩ := Option.map_eq_some_iff.mp read
    exact read
  | object members =>
    obtain ⟨object, rfl, known⟩ := value_of_object value_pausedFlag read
    exact known

theorem value_pausedMember (name : String) (tree : Tree) (json : Json) (read : tree.value reader = some json) :
    (pausedMember reader name tree).value reader = some (storeValue name json) := by
  rw [pausedMember, storeValue]
  split
  · cases tree with
    | scalar text =>
      have plain : profilesValue json = json := by
        cases json with
        | array items => exact nomatch (scalar_simple read).1
        | _ => rfl
      rw [plain]
      exact read
    | array items =>
      obtain ⟨values, known, rfl⟩ := Option.map_eq_some_iff.mp read
      rw [pausedProfiles, Tree.value, Items.values_rewrite value_pausedProfile known]
      rfl
    | object members =>
      obtain ⟨values, -, rfl⟩ := Option.map_eq_some_iff.mp read
      exact read
  · exact read

theorem object_of_value (read : tree.value reader = some (.object doc)) :
    ∃ members values, tree = .object members ∧ members.values reader = some values ∧ doc = collect values := by
  cases tree with
  | scalar text => exact nomatch (scalar_simple read).2
  | array items =>
    obtain ⟨values, -, same⟩ := Option.map_eq_some_iff.mp read
    cases same
  | object members =>
    obtain ⟨values, known, same⟩ := Option.map_eq_some_iff.mp read
    exact ⟨members, values, rfl, known, (Json.object.inj same).symm⟩

theorem value_paused (read : tree.value reader = some (.object doc)) :
    (paused reader tree).value reader = some (.object (pausedDocument doc)) := by
  obtain ⟨members, values, rfl, -, -⟩ := object_of_value read
  obtain ⟨object, same, known⟩ := value_of_object value_pausedMember read
  obtain rfl := Json.object.inj same
  exact known

end Values

/-! ## The noted tokens are rewritten in place -/

theorem applyEdits_changed (gaps : Nat → Bytes) {texts news : List Bytes} (rewritten : Rewritten texts news)
    (front : Bytes) (first : Nat) :
    applyEdits (front ++ weave gaps first texts) (changed (placed gaps front.length first texts) news) =
      front ++ weave gaps first news := by
  induction rewritten generalizing front first with
  | nil => rfl
  | @cons text new texts news choice _ ih =>
    have later := ih (front ++ gaps first ++ text) (first + 1)
    have start : (front ++ gaps first ++ text).length = front.length + (gaps first).length + text.length := by
      rw [List.length_append, List.length_append]
    rw [start] at later
    have whole (texts : List Bytes) (text : Bytes) : front ++ weave gaps first (text :: texts) =
        front ++ gaps first ++ text ++ weave gaps (first + 1) texts := by
      rw [weave, List.append_assoc, List.append_assoc]
    rw [whole, whole, placed]
    by_cases same : text = new
    · subst same
      rw [changed_cons rfl, later]
    · obtain rfl : new = falseText := choice.resolve_left (Ne.symm same)
      have edits (token : Token) (tokens : List Token) (differs : token.text ≠ falseText) :
          changed (token :: tokens) (falseText :: news) = token :: changed tokens news := by
        rw [changed, List.zip_cons_cons, List.filterMap_cons, if_neg differs]
        rfl
      have before : (front ++ gaps first).length = front.length + (gaps first).length := List.length_append
      rw [edits _ _ same, applyEdits, List.foldr_cons, ← applyEdits, later, List.append_assoc _ text,
        ← before, List.take_left, ← List.drop_drop, List.drop_left, List.drop_left]

/-! ## Inside the profiles -/

variable {ids : List Json}

section Profiles

def profileId (profile : Json) : Json := profile.toObject.value "id"

def autoUpdates (profile : Json) : Bool := profile.toObject.find "autoUpdate" = some (.bool true)

variable {reader : Reader} {fromJson : Bytes → Option Json} {valid : Prop}

def flagged (name : String) (tree : Tree) : Bool := name = "autoUpdate" && tree.tokens = [trueText]

def flagCount (reader : Reader) : Members → Nat
  | .nil => 0
  | .cons key value members =>
    (if flagged (nameOf reader key) value then 1 else 0) + flagCount reader members

theorem namesOf_values {members : Members} {values : List (String × Json)}
    (read : members.values reader = some values) : values.map Prod.fst = namesOf reader members := by
  cases members with
  | nil => rw [← Option.some.inj read]; rfl
  | cons key tree members =>
    obtain ⟨name, known, json, first, others, later, rfl⟩ := Members.values_cons read
    rw [List.map_cons, namesOf, nameOf, known, namesOf_values later]
    rfl

theorem flagCount_eq {members : Members} {values : List (String × Json)}
    (read : members.values reader = some values) (distinct : (namesOf reader members).Nodup) :
    flagCount reader members = if values.lookup "autoUpdate" = some (.bool true) then 1 else 0 := by
  cases members with
  | nil => rw [← Option.some.inj read]; rfl
  | cons key tree members =>
    obtain ⟨name, known, json, first, others, later, rfl⟩ := Members.values_cons read
    have named : nameOf reader key = name := by rw [nameOf, known]; rfl
    rw [namesOf, named, List.nodup_cons] at distinct
    have rest := flagCount_eq later distinct.2
    rw [flagCount, named, List.lookup_cons, rest]
    by_cases flag : "autoUpdate" = name
    · have missing : others.lookup "autoUpdate" = none := by
        rw [List.lookup_eq_none_iff]
        intro other inside
        refine bne_iff_ne.mpr fun equal => distinct.1 ?_
        rw [← namesOf_values later]
        exact List.mem_map.mpr ⟨other, inside, equal ▸ flag⟩
      subst flag
      rw [missing, BEq.rfl]
      by_cases on : json = .bool true
      · have tokens := (tokens_true_iff first).mpr on
        simp [flagged, tokens, on]
      · have tokens : ¬ tree.tokens = [trueText] := fun same => on ((tokens_true_iff first).mp same)
        simp [flagged, tokens, on]
    · have off : flagged name tree = false := by simp [flagged, Ne.symm flag]
      rw [beq_false_of_ne flag, off, if_neg Bool.false_ne_true, Nat.zero_add]

variable {walkTree : Bool → Step}

theorem walkValue_of_other {name : String} (other : name ≠ "autoUpdate") :
    walkValue doc walkTree false true name = walkTree false := by
  funext state
  simp only [walkValue, Bool.false_eq_true, false_and, if_false, other, and_false]
  rfl

theorem walkValue_autoUpdate (walkTree : Bool → Step) (state : Walk) :
    walkValue doc walkTree false true "autoUpdate" state = (noteAutoUpdate doc state >>= walkTree false) := by
  simp only [walkValue, true_and, if_true, Bool.false_eq_true, false_and, if_false]

variable {token : Token} {rest : List Token} {marks : Marks} {value : Json}

theorem noteAutoUpdate_true (text : token.text = trueText) {after : Walk}
    (ran : noteAutoUpdate doc ⟨token :: rest, marks⟩ = .ok after) :
    after = ⟨token :: rest, marks.add 0 [token]
      [profileId ((profilesOf doc).getD marks.profileIndex.toNat .null)]⟩ := by
  simp only [noteAutoUpdate, text, if_true] at ran
  split at ran
  · rw [← Except.ok.inj ran, Marks.add, Int.add_zero]
    rfl
  · cases ran

theorem noteAutoUpdate_false (text : token.text = falseText) :
    noteAutoUpdate doc ⟨token :: rest, marks⟩ = .ok ⟨token :: rest, marks⟩ := by
  have other : ¬ falseText = trueText := by decide
  simp only [noteAutoUpdate, text, if_neg other, if_true]
  rfl

theorem noteAutoUpdate_other (notTrue : token.text ≠ trueText) (notFalse : token.text ≠ falseText) :
    noteAutoUpdate doc ⟨token :: rest, marks⟩ = .error .autoUpdateTypeInvalid := by
  simp only [noteAutoUpdate, if_neg notTrue, if_neg notFalse]
  rfl

theorem tokens_of_first {texts : List Bytes} (plain : Plain text)
    (first : tree.tokens = text :: texts) : tree.tokens = [text] := by
  cases tree with
  | scalar other => rw [Tree.tokens, (List.cons.inj first).1]
  | array items =>
    exact absurd plain (not_plain_structural ((List.cons.inj first).1 ▸ structural_single (by decide)))
  | object members =>
    exact absurd plain (not_plain_structural ((List.cons.inj first).1 ▸ structural_single (by decide)))

variable {index : Nat} {profile : Json} {start : Int}

theorem trueFlag_turns (reader : Reader) (same : tree.tokens = [trueText])
    (here : valid → (profilesOf doc)[index]? = some profile) (room : Nat) :
    Turns doc True valid (fun doc _ => walkValue doc (walk fromJson doc room false) false true "autoUpdate") index 0
      tree.tokens [falseText] [profileId profile] where
  rewritten := same ▸ .cons (.inr rfl) .nil
  turn fuel tokens rest marks after texts enough ran := by
    obtain ⟨token, rfl, text⟩ := single_text (texts.trans same)
    rw [walkValue_autoUpdate] at ran
    obtain ⟨between, noted, ran⟩ := bind_eq_ok.mp ran
    obtain rfl := noteAutoUpdate_true text noted
    cases room with
    | zero => cases ran
    | succ room =>
      have on : reader.scalar trueText = some (.bool true) := rfl
      have off : reader.scalar falseText = some (.bool false) := rfl
      have past := (agree_scalar on doc fuel [token] rest _ (congrArg List.singleton text) enough).symm.trans ran
      obtain rfl := Except.ok.inj past
      refine ⟨trivial, rfl, fun sure place => ⟨?_, ?_⟩⟩
      · have found : (profilesOf doc).getD marks.profileIndex.toNat .null = profile := by
          rw [place, Int.toNat_natCast, List.getD_eq_getElem?_getD, here sure]
          rfl
        have differs : token.text ≠ falseText := by
          rw [text]
          decide
        simp only [found, changed, List.zip_cons_cons, List.filterMap_cons, if_neg differs]
        rfl
      · intro other fuel tokens rest marks texts enough
        obtain ⟨token, rfl, text⟩ := single_text texts
        dsimp only
        rw [walkValue_autoUpdate, List.singleton_append, noteAutoUpdate_false text, ok_bind, marks.add_nothing]
        exact agree_scalar off other fuel [token] rest marks texts enough

theorem flag_turns (standard : Standard reader fromJson) (read : tree.value reader = some value)
    (here : valid → (profilesOf doc)[index]? = some profile) (room : Nat) (name : String) :
    Turns doc True valid (fun doc _ => walkValue doc (walk fromJson doc room false) false true name) index 0
      tree.tokens (pausedFlag name tree).tokens
      (List.replicate (if flagged name tree then 1 else 0) (profileId profile)) := by
  by_cases on : name = "autoUpdate" ∧ tree.tokens = [trueText]
  · have flag : flagged name tree = true := by simp [flagged, on]
    rw [pausedFlag, if_pos on, flag]
    obtain ⟨rfl, same⟩ := on
    exact trueFlag_turns reader same here room
  · have flag : flagged name tree = false := by simpa [flagged] using on
    rw [pausedFlag, if_neg on, flag]
    have turns := @walk_turns reader fromJson doc valid index standard tree value read room
    by_cases other : name = "autoUpdate"
    · subst other
      by_cases isFalse : tree.tokens = [falseText]
      · have agree : Agree (fun doc _ => walkValue doc (walk fromJson doc room false) false true "autoUpdate")
            (fun doc _ => walk fromJson doc room false false) tree.tokens := by
          intro doc fuel tokens rest marks texts enough
          obtain ⟨token, rfl, text⟩ := single_text (texts.trans isFalse)
          dsimp only
          rw [walkValue_autoUpdate, List.singleton_append, noteAutoUpdate_false text, ok_bind]
        exact turns.congr agree agree
      · refine .fails (.refl _) fun fuel tokens rest marks after texts enough => ?_
        obtain ⟨token, tokens, rfl⟩ : ∃ token others, tokens = token :: others := by
          cases tokens with
          | nil => cases tree <;> exact nomatch texts
          | cons token tokens => exact ⟨token, tokens, rfl⟩
        have notTrue : token.text ≠ trueText := fun same =>
          on ⟨rfl, tokens_of_first (same ▸ (by decide +kernel : Plain trueText)) texts.symm ▸ same ▸ rfl⟩
        have notFalse : token.text ≠ falseText := fun same =>
          isFalse (tokens_of_first (same ▸ (by decide +kernel : Plain falseText)) texts.symm ▸ same ▸ rfl)
        rw [walkValue_autoUpdate, List.cons_append, noteAutoUpdate_other notTrue notFalse]
        exact nofun
    · simp only [walkValue_of_other other]
      exact turns

theorem profileMembers_turn (standard : Standard reader fromJson) {members : Members}
    {values : List (String × Json)} (read : members.values reader = some values) {index : Nat} {profile : Json}
    (here : valid → (profilesOf doc)[index]? = some profile) (room : Nat) :
    MembersTurn reader doc valid (fun doc => walkValue doc (walk fromJson doc room false) false true) index 0 members
      (Members.rewrite reader pausedFlag members)
      (List.replicate (flagCount reader members) (profileId profile)) := by
  cases members with
  | nil => exact .nil
  | cons key tree members =>
    obtain ⟨name, known, json, first, others, later, -⟩ := Members.values_cons read
    obtain rfl : nameOf reader key = name := by rw [nameOf, known]; rfl
    rw [flagCount, List.replicate_add]
    exact .cons known (flag_turns standard first here room _) (Int.add_zero _) (Int.add_zero _)
      (profileMembers_turn standard later here room)

theorem Turns.enter {known : Prop} {step : JsonObject → Nat → Step} {steps total : Int} {old new : List Bytes}
    (turns : Turns doc known valid step (start + 1) steps old new ids) (sum : 1 + steps = total) :
    Turns doc known valid (fun doc fuel walk => step doc fuel { walk with marks := walk.marks.add 1 [] [] }) start
      total old new ids where
  rewritten := turns.rewritten
  turn fuel tokens rest marks after texts enough ran := by
    obtain ⟨fact, past, noted⟩ := turns.turn fuel tokens rest _ after texts enough ran
    refine ⟨fact, past, fun sure place => ?_⟩
    obtain ⟨final, passes⟩ := noted sure (by rw [Marks.add, place])
    refine ⟨by rw [final, Marks.add_add, sum]; rfl, ?_⟩
    intro other fuel tokens rest marks texts enough
    dsimp only
    rw [passes other fuel tokens rest _ texts enough, Marks.add_add, sum]
    rfl

theorem Turns.refused {known : Prop} {step : JsonObject → Step} {steps : Int} {text first : Bytes}
    {texts : List Bytes} (other : ∀ {token : Token} {rest : List Token} {marks : Marks} {after : Walk},
      token.text ≠ text → step doc ⟨token :: rest, marks⟩ ≠ .ok after) (differs : first ≠ text) :
    Turns doc known valid (fun doc _ => step doc) start steps (first :: texts) (first :: texts) ids := by
  refine .fails (.refl _) fun fuel tokens rest marks after whole enough => ?_
  obtain ⟨token, tokens, rfl, rfl, -⟩ := List.map_eq_cons_iff.mp whole
  exact other differs

theorem profile_turns (standard : Standard reader fromJson)
    (read : tree.value reader = some profile) (place : start + 1 = index)
    (here : valid → (profilesOf doc)[index]? = some profile) (room : Nat) :
    Turns doc True valid (fun doc _ => walkProfile (walk fromJson doc room false)) start 1 tree.tokens
      (pausedProfile reader tree).tokens (if autoUpdates profile then [profileId profile] else []) := by
  have other {token : Token} {rest : List Token} {marks : Marks} {after : Walk}
      (differs : token.text ≠ [openObject]) :
      walkProfile (walk fromJson doc room false) ⟨token :: rest, marks⟩ ≠ .ok after := by
    simp only [walkProfile, if_neg differs]
    intro same
    cases same
  cases tree with
  | scalar text =>
    exact .refused other fun same => Reader.scalar_ne_structural read (same ▸ structural_single (by decide))
  | array items => exact .refused other (by decide)
  | object members =>
    obtain ⟨values, known, rfl⟩ := Option.map_eq_some_iff.mp read
    have entered (texts : List Bytes) :
        Agree (fun doc _ => walkProfile (walk fromJson doc room false))
          (fun doc _ walk => ProfilePause.walk fromJson doc room false true
            { walk with marks := walk.marks.add 1 [] [] }) ([openObject] :: texts) := by
      intro doc fuel tokens rest marks texts enough
      obtain ⟨token, tokens, rfl, text, -⟩ := List.map_eq_cons_iff.mp texts
      simp only [walkProfile, List.cons_append, text, if_true, Marks.add, List.append_nil]
    have inner : Turns doc (namesOf reader members).Nodup valid (fun doc _ => walk fromJson doc room false true)
        (start + 1) 0 (Tree.object members).tokens
        (Tree.object (Members.rewrite reader pausedFlag members)).tokens
        (List.replicate (flagCount reader members) (profileId (.object (collect values)))) := by
      cases room with
      | zero =>
        have turn := @profileMembers_turn doc reader fromJson valid standard members values known _ _ here 0
        exact .fails (.cons (.inl rfl) (walkMembers_turns standard turn List.nodup_nil).1.rewritten)
          (by intros; intro same; cases same)
      | succ room =>
        rw [place]
        exact (walkMembers_turns standard (profileMembers_turn standard known here room)
          List.nodup_nil).1.after_token.congr (agree_object _) (agree_object _)
    refine ((inner.enter (Int.add_zero _)).congr (entered _) (entered _)).imp (fun _ => trivial)
      fun distinct sure => ⟨sure, rfl, ?_⟩
    have found := find_collect (namesOf_values known ▸ distinct) "autoUpdate"
    rw [autoUpdates, Json.toObject, found, flagCount_eq known distinct]
    by_cases on : values.lookup "autoUpdate" = some (.bool true)
    · simp [on]
    · simp [on]

theorem profiles_turn (standard : Standard reader fromJson) {items : Items} {values before more : List Json}
    (read : items.values reader = some values) {start : Int} (place : start + 1 = before.length)
    (whole : valid → profilesOf doc = before ++ (values ++ more)) (room : Nat) :
    ItemsTurn reader doc valid (fun doc => walkProfile (walk fromJson doc room false)) start values.length items
      (Items.rewrite (pausedProfile reader) items) ((values.filter autoUpdates).map profileId) := by
  cases items with
  | nil =>
    obtain rfl := Option.some.inj read
    exact .nil
  | cons tree items =>
    obtain ⟨profile, first, others, later, rfl⟩ := Items.values_cons read
    have here (sure : valid) : (profilesOf doc)[before.length]? = some profile := by
      rw [whole sure, List.getElem?_append_right (Nat.le_refl _), Nat.sub_self]
      rfl
    have after (sure : valid) : profilesOf doc = (before ++ [profile]) ++ (others ++ more) := by
      rw [whole sure, List.append_assoc]
      rfl
    have ids : ((profile :: others).filter autoUpdates).map profileId =
        (if autoUpdates profile then [profileId profile] else []) ++ (others.filter autoUpdates).map profileId := by
      rw [List.filter_cons]
      by_cases on : autoUpdates profile
      · simp only [on, if_true, List.map_cons, List.singleton_append]
      · simp only [on, Bool.false_eq_true, if_false, List.nil_append]
    rw [ids]
    exact .cons first (value_pausedProfile _ _ first) (profile_turns standard first place here room) rfl
      (by rw [List.length_cons]; omega)
      (profiles_turn standard later (by rw [List.length_append, place]; rfl) after room)

def listed (member : String × Json) : List Json := if member.1 = "profiles" then member.2.toArray else []

theorem walkValue_profiles (walkTree : Bool → Step) (state : Walk) :
    walkValue doc walkTree true false "profiles" state =
      (expect .outOfRange openArray .profileArrayInvalid state >>= fun state =>
        walkItems (walkProfile walkTree) state.tokens.length state >>=
          expect .outOfRange closeArray .arrayEndInvalid) := by
  simp only [walkValue, Bool.false_eq_true, false_and, if_false, true_and, if_true]
  rfl

theorem walkValue_root_of_other {name : String} (other : name ≠ "profiles") :
    walkValue doc walkTree true false name = walkTree false := by
  funext state
  simp only [walkValue, Bool.false_eq_true, false_and, if_false, other, and_false]
  rfl

theorem rootMember_turns (standard : Standard reader fromJson) (read : tree.value reader = some value)
    {before more : List Json} (place : start + 1 = before.length) (name : String)
    (whole : valid → profilesOf doc = before ++ (listed (name, value) ++ more)) (room : Nat) :
    Turns doc True valid (fun doc _ => walkValue doc (walk fromJson doc room false) true false name) start
      (listed (name, value)).length tree.tokens (pausedMember reader name tree).tokens
      (((listed (name, value)).filter autoUpdates).map profileId) := by
  by_cases this : name = "profiles"
  · subst this
    have other {token : Token} {rest : List Token} {marks : Marks} {after : Walk}
        (differs : token.text ≠ [openArray]) :
        walkValue doc (walk fromJson doc room false) true false "profiles" ⟨token :: rest, marks⟩ ≠
          .ok after := by
      rw [walkValue_profiles]
      simp only [expect, if_neg differs]
      intro same
      cases same
    cases tree with
    | scalar text =>
      exact .refused other fun same => Reader.scalar_ne_structural read (same ▸ structural_single (by decide))
    | object members => exact .refused other (by decide)
    | array items =>
      obtain ⟨values, known, rfl⟩ := Option.map_eq_some_iff.mp read
      have opened (texts : List Bytes) :
          Agree (fun doc _ => walkValue doc (walk fromJson doc room false) true false "profiles")
            (fun doc _ walk => skip walk >>= fun walk =>
              itemsLoop (walkProfile (ProfilePause.walk fromJson doc room false)) walk.tokens.length walk)
            ([openArray] :: texts) := by
        intro doc fuel tokens rest marks texts enough
        obtain ⟨token, tokens, rfl, text, -⟩ := List.map_eq_cons_iff.mp texts
        dsimp only
        rw [walkValue_profiles, List.cons_append, expect_ok text]
        rfl
      exact (walkItems_turns (profiles_turn standard known place whole room)).1.after_token.congr
        (opened _) (opened _)
  · simp only [walkValue_root_of_other this, pausedMember, listed, if_neg this]
    exact walk_turns standard read room

theorem rootMembers_turn (standard : Standard reader fromJson) {members : Members}
    {values : List (String × Json)} (read : members.values reader = some values) {before : List Json}
    {start : Int} (place : start + 1 = before.length)
    (whole : valid → profilesOf doc = before ++ values.flatMap listed) (room : Nat) :
    MembersTurn reader doc valid (fun doc => walkValue doc (walk fromJson doc room false) true false) start
      (values.flatMap listed).length members (Members.rewrite reader (pausedMember reader) members)
      (((values.flatMap listed).filter autoUpdates).map profileId) := by
  cases members with
  | nil =>
    obtain rfl := Option.some.inj read
    exact .nil
  | cons key tree members =>
    obtain ⟨name, known, json, first, others, later, rfl⟩ := Members.values_cons read
    obtain rfl : nameOf reader key = name := by rw [nameOf, known]; rfl
    rw [List.flatMap_cons] at whole ⊢
    rw [List.filter_append, List.map_append]
    have after (sure : valid) : profilesOf doc =
        (before ++ listed (nameOf reader key, json)) ++ others.flatMap listed := by
      rw [whole sure, List.append_assoc]
    exact .cons known (rootMember_turns standard first place _ whole room) rfl
      (by rw [List.length_append]; omega)
      (rootMembers_turn standard later (by rw [List.length_append]; omega) after room)

theorem profilesOf_collect {values : List (String × Json)} (distinct : (values.map Prod.fst).Nodup) :
    profilesOf (collect values) = values.flatMap listed := by
  have looked : profilesOf (collect values) = ((values.lookup "profiles").getD .null).toArray := by
    rw [← find_collect distinct]
    rfl
  rw [looked]
  clear looked
  induction values with
  | nil => rfl
  | cons member values ih =>
    obtain ⟨name, value⟩ := member
    obtain ⟨new, others⟩ := List.nodup_cons.mp distinct
    rw [List.flatMap_cons, List.lookup_cons, ← ih others, listed]
    by_cases same : name = "profiles"
    · have missing : values.lookup "profiles" = none := by
        rw [List.lookup_eq_none_iff]
        intro other inside
        exact bne_iff_ne.mpr fun equal => new (List.mem_map.mpr ⟨other, inside, equal ▸ same.symm⟩)
      subst same
      rw [missing, if_pos rfl, BEq.rfl]
      exact (List.append_nil _).symm
    · rw [if_neg same, beq_false_of_ne (Ne.symm same)]
      rfl

theorem root_turns (standard : Standard reader fromJson) {members : Members}
    {values : List (String × Json)} (read : members.values reader = some values) :
    Turns (collect values) True True (fun doc _ => walk fromJson doc maximumDepth true false) (-1)
      (profilesOf (collect values)).length (Tree.object members).tokens (paused reader (.object members)).tokens
      (((profilesOf (collect values)).filter autoUpdates).map profileId) := by
  have turn := @rootMembers_turn (collect values) reader fromJson
    (profilesOf (collect values) = values.flatMap listed) standard members values read [] (-1) rfl id 63
  have inside := (walkMembers_turns standard turn List.nodup_nil).1
  refine (inside.after_token.congr (agree_object _) (agree_object _)).imp (fun _ => trivial) fun distinct _ => ?_
  have same := profilesOf_collect (namesOf_values read ▸ distinct)
  exact ⟨same, by rw [same], by rw [same]⟩

end Profiles

/-! ## `pauseJson` -/

section Result

variable {reader : Reader} {fromJson : Bytes → Option Json} {gaps : Nat → Bytes}

theorem tokenize_tree {value : Json} (read : tree.value reader = some value) (blanks : Blanks gaps) :
    tokenize (weave gaps 0 tree.tokens).length 0 (weave gaps 0 tree.tokens) =
      .ok (placed gaps 0 0 tree.tokens) := by
  have separated : Separated (tree.tokens ++ []) := Tree.separated read trivial nofun
  rw [List.append_nil] at separated
  exact tokenize_weave blanks separated _ 0 0 (Nat.le_refl _)

theorem IsJson.unique {first second : Json} (one : IsJson reader text first)
    (two : IsJson reader text second) : first = second := by
  obtain ⟨tree, gaps, blanks, rfl, read⟩ := one
  obtain ⟨other, gaps', blanks', same, again⟩ := two
  have tokens := tokenize_tree read blanks
  rw [same, tokenize_tree again blanks'] at tokens
  have texts := congrArg (List.map Token.text) (Except.ok.inj tokens)
  rw [map_text_placed, map_text_placed] at texts
  have whole : other.tokens ++ [] = tree.tokens ++ [] := by rw [texts]
  rw [(Tree.tokens_inj again read whole).1, read] at again
  exact Option.some.inj again

theorem exists_standard (reader : Reader) : ∃ fromJson, Standard reader fromJson := by
  classical
  refine ⟨fun text => if known : ∃ value, IsJson reader text value then some known.choose else none, ?_⟩
  intro text value
  dsimp only
  constructor
  · intro parsed
    split at parsed
    · next known => exact Option.some.inj parsed ▸ known.choose_spec
    · cases parsed
  · intro json
    have known : ∃ value, IsJson reader text value := ⟨value, json⟩
    rw [dif_pos known, IsJson.unique known.choose_spec json]

theorem schema_paused (schema : (doc.value "version").toInt 0 = 1 ∧ (doc.value "profiles").isArray = true) :
    ((pausedDocument doc).value "version").toInt 0 = 1 ∧
      ((pausedDocument doc).value "profiles").isArray = true := by
  have looked (doc : JsonObject) (key : String) : doc.value key = (doc.find key).getD .null := rfl
  rw [looked, looked] at schema ⊢
  rw [pausedDocument, JsonObject.find_mapValues, JsonObject.find_mapValues]
  constructor
  · generalize doc.find "version" = found at schema
    cases found with
    | none => exact schema.1
    | some value => exact schema.1
  · generalize doc.find "profiles" = found at schema
    cases found with
    | none => exact schema.2
    | some value =>
      cases value with
      | array profiles => rfl
      | _ => exact schema.2

theorem pauseJson_ok (standard : Standard reader fromJson) (blanks : Blanks gaps)
    (read : tree.value reader = some (.object doc)) {result : Bytes}
    (ran : pauseJson fromJson (weave gaps 0 tree.tokens) = .ok (result, ids)) :
    result = weave gaps 0 (paused reader tree).tokens ∧
      ids = ((profilesOf doc).filter autoUpdates).map profileId ∧
      pauseJson fromJson result = .ok (result, []) := by
  have parsed : fromJson (weave gaps 0 tree.tokens) = some (.object doc) :=
    (standard _ _).mpr ⟨tree, gaps, blanks, rfl, read⟩
  have again := value_paused read
  have parsed' : fromJson (weave gaps 0 (paused reader tree).tokens) = some (.object (pausedDocument doc)) :=
    (standard _ _).mpr ⟨_, gaps, blanks, rfl, again⟩
  rw [pauseJson, parsed] at ran
  dsimp only at ran
  split at ran
  · next schema =>
    rw [tokenize_tree read blanks, ok_bind] at ran
    obtain ⟨⟨tokens, marks⟩, walked, ended⟩ := bind_eq_ok.mp ran
    obtain ⟨members, values, rfl, known, rfl⟩ := object_of_value read
    have turns := @root_turns reader fromJson standard members values known
    obtain ⟨-, past, noted⟩ := turns.turn _ (placed gaps 0 0 (Tree.object members).tokens) [] ⟨-1, [], []⟩ _
      (map_text_placed _ _ _ _) (Nat.le_refl _) (by rw [List.append_nil]; exact walked)
    obtain ⟨rfl, passes⟩ := noted trivial rfl
    obtain rfl : tokens = [] := past
    have applied := applyEdits_changed gaps turns.rewritten [] 0
    rw [List.nil_append, List.nil_append, List.length_nil] at applied
    rw [if_pos rfl, Marks.add, List.nil_append, List.nil_append, applied] at ended
    obtain ⟨rfl, rfl⟩ := Prod.mk.inj (Except.ok.inj ended)
    refine ⟨rfl, rfl, ?_⟩
    have walked' := passes (pausedDocument (collect values)) _
      (placed gaps 0 0 (paused reader (.object members)).tokens) [] ⟨-1, [], []⟩
      (map_text_placed _ _ _ _) (Nat.le_refl _)
    dsimp only at walked'
    rw [List.append_nil] at walked'
    rw [pauseJson, parsed']
    dsimp only
    rw [if_pos (schema_paused schema), tokenize_tree again blanks, ok_bind, walked', ok_bind, if_pos rfl]
    rfl
  · cases ran

theorem pauseJson_pauses (standard : Standard reader fromJson) {raw result : Bytes} {ids : List Json}
    {value : Json} (accepted : fromJson raw = some value)
    (ran : pauseJson fromJson raw = .ok (result, ids)) :
    ∃ doc, value = .object doc ∧
      fromJson result = some (.object (pausedDocument doc)) ∧
      (∃ tree gaps, Blanks gaps ∧ tree.value reader = some value ∧ raw = weave gaps 0 tree.tokens ∧
        result = weave gaps 0 (paused reader tree).tokens) ∧
      ids = ((profilesOf doc).filter autoUpdates).map profileId ∧
      pauseJson fromJson result = .ok (result, []) := by
  obtain ⟨tree, gaps, blanks, rfl, read⟩ := (standard _ _).mp accepted
  obtain ⟨doc, rfl⟩ : ∃ doc, value = .object doc := by
    rw [pauseJson, accepted] at ran
    cases value with
    | object doc => exact ⟨doc, rfl⟩
    | _ => cases ran
  obtain ⟨rfl, rfl, again⟩ := pauseJson_ok standard blanks read ran
  have parsed : fromJson (weave gaps 0 (paused reader tree).tokens) = some (.object (pausedDocument doc)) :=
    (standard _ _).mpr ⟨_, gaps, blanks, rfl, value_paused read⟩
  exact ⟨doc, rfl, parsed, ⟨tree, gaps, blanks, read, rfl, rfl⟩, rfl, again⟩

def plainReader : Reader where
  string body := some (String.ofList (body.map fun byte => Char.ofNat byte.toNat))
  number text := some (text.foldl (fun number digit => number * 10 + (digit.toNat - 48)) 0 : Nat)

def quoted (text : String) : Bytes := quote :: (text.toList.map fun char => UInt8.ofNat char.toNat) ++ [quote]

def sampleStore : Tree :=
  let profile (id : String) (flag : Bytes) : Tree :=
    .object (.cons (quoted "id") (.scalar (quoted id)) (.cons (quoted "autoUpdate") (.scalar flag) .nil))
  .object (.cons (quoted "version") (.scalar [0x31])
    (.cons (quoted "profiles")
      (.array (.cons (profile "home" trueText) (.cons (profile "work" falseText) .nil))) .nil))

def sampleAnswers : List (Bytes × Json) :=
  (weave (fun _ => [0x20]) 0 sampleStore.tokens, (sampleStore.value plainReader).getD .null) ::
    ["version", "profiles", "id", "autoUpdate"].map fun name =>
      ([openArray] ++ quoted name ++ [closeArray], .array [.string name])

theorem pauseJson_sample (other : Bytes → Option Json) :
    pauseJson (fun text => (sampleAnswers.lookup text).or (other text))
        (weave (fun _ => [0x20]) 0 sampleStore.tokens) =
      .ok (weave (fun _ => [0x20]) 0 (paused plainReader sampleStore).tokens, [.string "home"]) := by
  rfl

theorem pauseJson_pauses_sample :
    ∃ fromJson doc, Standard plainReader fromJson ∧
      pauseJson fromJson (weave (fun _ => [0x20]) 0 sampleStore.tokens) =
        .ok (weave (fun _ => [0x20]) 0 (paused plainReader sampleStore).tokens, [.string "home"]) ∧
      fromJson (weave (fun _ => [0x20]) 0 (paused plainReader sampleStore).tokens) =
        some (.object (pausedDocument doc)) := by
  obtain ⟨fromJson, standard⟩ := exists_standard plainReader
  have blanks : Blanks fun _ => [0x20] := fun _ => (by decide : [0x20].all isBlank = true)
  obtain ⟨doc, read⟩ : ∃ doc, sampleStore.value plainReader = some (.object doc) := ⟨_, rfl⟩
  have accepted : fromJson (weave (fun _ => [0x20]) 0 sampleStore.tokens) = some (.object doc) :=
    (standard _ _).mpr ⟨sampleStore, _, blanks, rfl, read⟩
  have key (name : String) (known : plainReader.key (quoted name) = some name) :=
    parse_key standard known
  have answers : ∀ pair ∈ sampleAnswers, fromJson pair.1 = some pair.2 := by
    simp only [sampleAnswers, read, List.forall_mem_cons, List.map_cons]
    exact ⟨accepted, key _ rfl, key _ rfl, key _ rfl, key _ rfl, nofun⟩
  have same : fromJson = fun text => (sampleAnswers.lookup text).or (fromJson text) := by
    funext text
    cases found : sampleAnswers.lookup text with
    | none => rfl
    | some value =>
      obtain ⟨before, after, whole, -⟩ := List.lookup_eq_some_iff.mp found
      exact answers (text, value) (whole ▸ List.mem_append_right _ List.mem_cons_self)
  have ran := pauseJson_sample fromJson
  rw [← same] at ran
  obtain ⟨same, equal, parsed, -⟩ := pauseJson_pauses standard accepted ran
  exact ⟨fromJson, same, standard, ran, parsed⟩

end Result

end Amnezia.Headless.ProfilePause
