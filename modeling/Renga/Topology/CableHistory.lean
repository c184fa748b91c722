import Renga.Topology.Cables

/-!
# Current cables are a function of the claims

What a rebuild selects is determined by the claims and their order alone (`IsSelection`).
Each of its writes leaves every end with at most one cable, so the database never refuses
one.  And the events it records can be replayed: they show the cables that are there.
-/

namespace Renga.Topology

open List KeyTable Option

/-! ### The selection -/

variable (kind : CableKind) (assertions : List Assertion)

/-- A confirmed claim about cables of the kind. -/
def IsClaim (claim : Assertion) : Prop :=
  claim ∈ assertions ∧ claim.kind.confirmed = true ∧ claim.ends.kind = kind

/-- The order of claims: by time, then by sequence. -/
def Assertion.Newer (one two : Assertion) : Prop := two.age < one.age

/-- A claim that no newer one about the same ends replaces. -/
def Effective (claim : Assertion) : Prop :=
  IsClaim kind assertions claim ∧
    ∀ other, IsClaim kind assertions other → other.ends = claim.ends → ¬other.Newer claim

/-- Of the latest claims, newest first, those that assert a cable and share no end with a newer
one that is selected. -/
def IsSelection (selected : Assertion → Prop) : Prop :=
  ∀ claim, selected claim ↔ Effective kind assertions claim ∧ claim.action = .assert ∧
    ∀ newer, selected newer → newer.Newer claim → Greedy.Apart Assertion.endpointKeys newer claim

variable {texts : CableTexts} {tables : Tables} {one two : Ends}

theorem Ends.eq_of_pairKey (stored : one.stored tables = true)
    (stored' : two.stored tables = true) (same : one.pairKey = two.pairKey) : one = two := by
  cases one with
  | data =>
    cases two with
    | data =>
      cases same
      rfl
    | power => cases same
  | power _ far =>
    cases two with
    | data => cases same
    | power _ far' =>
      obtain ⟨rfl, ids⟩ := PairKey.power.inj same
      cases far <;> cases far' <;> cases ids <;> simp_all [Ends.stored]

variable {key : EndpointKey}

theorem Ends.kind_of_shared (mem : key ∈ one.endpointKeys) (mem' : key ∈ two.endpointKeys) :
    one.kind = two.kind := by
  rcases one with ⟨_, _⟩ | ⟨_, id | _⟩ <;> rcases two with ⟨_, _⟩ | ⟨_, id' | _⟩ <;>
    first | rfl | (simp [Ends.endpointKeys] at mem mem'; aesop)

variable {one two : Assertion}

section Selection

variable (assertions : Assertions texts tables) (kind : CableKind)

theorem Assertions.eq_of_age (mem : one ∈ assertions.rows) (mem' : two ∈ assertions.rows)
    (same : one.age = two.age) : one = two := by
  have sequences : (assertions.rows.map Assertion.sequence).Nodup :=
    pairwise_map.2 (assertions.sequences.imp fun less => less.ne)
  exact inj_on_of_nodup_map sequences mem mem' (congrArg (fun age => (ofLex age).2) same)

theorem Assertions.nodup_rows : assertions.rows.Nodup :=
  assertions.sequences.imp fun less same => less.ne (congrArg Assertion.sequence same)

theorem mem_effectiveClaims {claim : Assertion} :
    claim ∈ effectiveClaims kind assertions.rows ↔ Effective kind assertions.rows claim := by
  let confirmed := assertions.rows.filter fun assertion =>
    assertion.kind.confirmed ∧ assertion.ends.kind = kind
  have isClaim : ∀ {other}, other ∈ confirmed ↔ IsClaim kind assertions.rows other := by
    intro other
    rw [List.mem_filter, decide_eq_true_eq]
    rfl
  have less : (confirmed.insertionSort fun one two => one.age ≤ two.age).Pairwise
      fun one two => one.age < two.age := by
    refine (Greedy.pairwise_insertionSort (fun one two : Assertion => one.age ≤ two.age)
      (fun one two => le_total one.age two.age) (fun _ _ _ => le_trans)
      (assertions.nodup_rows.filter _) ?_).imp fun both => not_le.1 both.2
    intro _ mem _ mem' le ge
    exact assertions.eq_of_age (mem_filter.1 mem).1 (mem_filter.1 mem').1
      (le_antisymm le ge)
  show claim ∈ (confirmed.insertionSort _).foldl place empty ↔ _
  rw [mem_foldl_place less, mem_insertionSort, isClaim]
  refine and_congr_right fun own => forall_congr' fun other => ?_
  rw [mem_insertionSort, isClaim]
  refine imp_congr_right fun its => ?_
  have ends : other.pairKey = claim.pairKey ↔ other.ends = claim.ends :=
    ⟨Ends.eq_of_pairKey (assertions.stored other its.1) (assertions.stored claim own.1),
      fun same => congrArg Ends.pairKey same⟩
  rw [ends, Assertion.Newer, not_lt]

theorem sorted_claims :
    (((effectiveClaims kind assertions.rows).rows.filter (·.action = .assert)).insertionSort
      fun one two => two.age ≤ one.age).Pairwise Assertion.Newer := by
  refine (Greedy.pairwise_insertionSort (fun one two : Assertion => two.age ≤ one.age)
    (fun one two => le_total two.age one.age) (fun _ _ _ first second => le_trans second first)
    ((effectiveClaims kind assertions.rows).nodup.of_map.filter _) ?_).imp
    fun both => not_le.1 both.2
  intro _ mem _ mem' le ge
  exact assertions.eq_of_age
    ((mem_effectiveClaims assertions kind).1 (List.mem_filter.1 mem).1).1.1
    ((mem_effectiveClaims assertions kind).1 (List.mem_filter.1 mem').1).1.1 (le_antisymm ge le)

theorem newer_asymm (one two : Assertion) (newer : one.Newer two) : ¬two.Newer one :=
  lt_asymm newer

theorem mem_assertClaims {claim : Assertion} :
    claim ∈ ((effectiveClaims kind assertions.rows).rows.filter (·.action = .assert)).insertionSort
      (fun one two => two.age ≤ one.age) ↔
      Effective kind assertions.rows claim ∧ claim.action = .assert := by
  rw [mem_insertionSort, List.mem_filter, decide_eq_true_eq, ← KeyTable.mem_def,
    mem_effectiveClaims]

/-- **What is selected is a selection.** -/
theorem isSelection_selectedClaims :
    IsSelection kind assertions.rows (· ∈ selectedClaims kind assertions.rows) := by
  intro _
  refine (Greedy.mem_select_iff newer_asymm (sorted_claims assertions kind)).trans ?_
  rw [mem_assertClaims, and_assoc]
  rfl

/-- **There is one selection**, so it is a function of the claims. -/
theorem IsSelection.iff {selected : Assertion → Prop}
    (is : IsSelection kind assertions.rows selected) {claim : Assertion} :
    selected claim ↔ claim ∈ selectedClaims kind assertions.rows := by
  refine Greedy.mem_select_of_recursion newer_asymm (sorted_claims assertions kind) ?_
  intro claim
  rw [is claim, mem_assertClaims, and_assoc]

end Selection

/-! ### Replay -/

/-- What an event or a cable shows. -/
structure Shown where
  id : Uuid
  ends : Ends
  snapshot : Snapshot
  deriving DecidableEq

def Cable.shown (cable : Cable) : Shown := ⟨cable.id, cable.ends, cable.attributes.snapshot⟩

def ChangeEvent.shown (event : ChangeEvent) : Shown := ⟨event.cableId, event.ends, event.snapshot⟩

/-- The cables shown after one more event. -/
def replayEvent (shown : KeyTable Uuid Shown Shown.id) (event : ChangeEvent) :
    KeyTable Uuid Shown Shown.id :=
  match event.action with
  | .created => shown.place event.shown
  | .updated => shown.place event.shown
  | .removed => shown.erase event.cableId

/-- The cables that a log shows. -/
def replay (events : List ChangeEvent) : KeyTable Uuid Shown Shown.id :=
  events.foldl replayEvent empty

theorem replay_concat {events : List ChangeEvent} {event : ChangeEvent} :
    replay (events ++ [event]) = replayEvent (replay events) event := by
  rw [replay, foldl_append]
  rfl

/-- No two cables share an end. -/
def Db.Exclusive (db : Db texts tables) : Prop :=
  ∀ one ∈ db.cables, ∀ two ∈ db.cables, ∀ key ∈ one.ends.endpointKeys,
    key ∈ two.ends.endpointKeys → one = two

/-- What holds of the cables at any time: no end has two, they join what is stored, and the
events show them. -/
structure Db.Orderly (db : Db texts tables) : Prop where
  exclusive : db.Exclusive
  stored : ∀ cable ∈ db.cables, cable.ends.stored tables = true
  replayed : ∀ id, (replay db.events).get? id = (db.cables.get? id).map Cable.shown

variable {db mid : Db texts tables}

/-! ### Single writes -/

variable {attributes : Attributes}

/-- A cast changes nothing exactly where all is normal and valid. -/
theorem castAttributes_eq_self_iff :
    castAttributes texts attributes = some attributes ↔
      texts.normalize attributes = attributes ∧ attributes.valid = true := by
  unfold castAttributes
  dsimp only
  constructor
  · intro is
    split at is
    · rename_i valid
      have same := some.inj is
      exact ⟨same, same ▸ valid⟩
    · cases is
  rintro ⟨same, valid⟩
  rw [same, if_pos valid]

variable {claim : Assertion} {kind : CableKind}

theorem cast_cableAttributes {assertions : Assertions texts tables}
    (mem : claim ∈ assertions.rows) :
    castAttributes texts (cableAttributes claim) = some (cableAttributes claim) := by
  obtain ⟨normal, valid⟩ := castAttributes_eq_self_iff.1 (assertions.cast claim mem)
  refine castAttributes_eq_self_iff.2 ⟨?_, ?_⟩
  · have same : texts.normalize (cableAttributes claim) = { texts.normalize claim.attributes with
        status := some (claim.attributes.status.getD "connected") } := rfl
    rw [same, normal]
    rfl
  simp only [Attributes.valid, Bool.and_eq_true] at valid ⊢
  obtain ⟨⟨⟨⟨⟨⟨cableType, label⟩, status⟩, unit⟩, color⟩, value⟩, pair⟩ := valid
  refine ⟨⟨⟨⟨⟨⟨cableType, label⟩, ?_⟩, unit⟩, color⟩, value⟩, pair⟩
  show decide (claim.attributes.status.getD "connected" ∈ statuses) = true
  cases given : claim.attributes.status with
  | none => rfl
  | some =>
    rw [given] at status
    exact status

variable {cable : Cable} {now : Time}

theorem Db.Orderly.get?_place (orderly : db.Orderly) (new : Cable) (id : Uuid) :
    ((replay db.events).place new.shown).get? id
      = (if id = new.id then some new else db.cables.get? id).map Cable.shown := by
  rw [KeyTable.get?_place, orderly.replayed, show new.shown.id = new.id from rfl]
  split <;> rfl

/-- **Removing a cable.** -/
theorem Db.Orderly.remove (orderly : db.Orderly) {cause : Option Assertion} :
    (db.removeCable cable cause now).Orderly where
  exclusive one mem two mem' := orderly.exclusive one (mem_erase.1 mem).1 two
    (mem_erase.1 mem').1
  stored one mem := orderly.stored one (mem_erase.1 mem).1
  replayed id := by
    show (replay (db.events ++ [_])).get? id = ((db.cables.erase cable.id).get? id).map _
    rw [replay_concat, get?_erase]
    show ((replay db.events).erase cable.id).get? id = _
    rw [get?_erase, orderly.replayed]
    split <;> rfl

/-- The cable is as the claim says. -/
structure Cable.Of (cable : Cable) (claim : Assertion) : Prop where
  ends : cable.ends = claim.ends
  attributes : cable.attributes = cableAttributes claim
  primary : cable.primaryAssertionId = claim.id
  asserted : cable.lastAssertedAt = claim.assertedAt

/-- **Creating a cable** where its ends are free. -/
theorem Db.Orderly.create (orderly : db.Orderly)
    (cast : castAttributes texts (cableAttributes claim) = some (cableAttributes claim))
    (stored : claim.ends.stored tables = true)
    (free : ∀ cable ∈ db.cables, ∀ key ∈ claim.endpointKeys, key ∉ cable.ends.endpointKeys)
    {newId : Uuid} (fresh : db.cables.get? newId = none) :
    ∃ db', db.createCable claim newId now = some db' ∧ db'.Orderly ∧
      db'.assertions = db.assertions ∧
      ∃ new : Cable, new.Of claim ∧ new.id = newId ∧
        ∀ cable, cable ∈ db'.cables ↔ cable ∈ db.cables ∨ cable = new := by
  let new : Cable := ⟨newId, claim.ends, cableAttributes claim, claim.id, claim.assertedAt⟩
  have unoccupied : ¬claim.endpointKeys.any db.occupied = true := by
    intro taken
    obtain ⟨key, own, occupied⟩ := any_eq_true.1 taken
    obtain ⟨cable, mem, its⟩ := any_eq_true.1 occupied
    exact free cable mem key own (of_decide_eq_true its)
  refine ⟨{ db with
      cables := db.cables.add new fresh
      events := db.events ++ [recordEvent new .created [] (some claim) now] }, ?_, ?_, rfl,
    new, ⟨rfl, rfl, rfl, rfl⟩, rfl, fun cable => mem_add fresh⟩
  · unfold Db.createCable
    rw [cast, bind_eq_bind, bind_some, if_neg unoccupied, dif_pos fresh]
  constructor
  · intro one mem two mem' key own own'
    rcases (mem_add fresh).1 mem with mem | rfl
    · rcases (mem_add fresh).1 mem' with mem' | rfl
      · exact orderly.exclusive one mem two mem' key own own'
      · exact absurd own (free one mem key own')
    rcases (mem_add fresh).1 mem' with mem' | rfl
    · exact absurd own' (free two mem' key own)
    rfl
  · intro cable mem
    rcases (mem_add fresh).1 mem with mem | rfl
    · exact orderly.stored cable mem
    · exact stored
  intro id
  show (replay (db.events ++ [_])).get? id = ((db.cables.add new fresh).get? id).map _
  rw [replay_concat, get?_add]
  exact orderly.get?_place new id

theorem attributeChanges_eq_nil {before after : Attributes}
    (none : attributeChanges before after = []) : before = after := by
  have same : ∀ field ∈ attributeFields, before.get field = after.get field := by
    intro field mem
    have unchanged := filter_eq_nil_iff.1 (map_eq_nil_iff.1 none) field mem
    exact of_not_not fun ne => unchanged (decide_eq_true ne)
  simp only [attributeFields, forall_mem_cons, Attributes.get, AttributeValue.text.injEq,
    AttributeValue.number.injEq, some.injEq] at same
  cases before
  cases after
  simp_all

theorem attributeChanges_self : attributeChanges attributes attributes = [] := by
  simp [attributeChanges]

/-- **Updating a cable** by a claim about its ends. -/
theorem Db.Orderly.update (orderly : db.Orderly)
    (cast : castAttributes texts (cableAttributes claim) = some (cableAttributes claim))
    (mem : cable ∈ db.cables) (ends : cable.ends = claim.ends) (now : Time) :
    ∃ db', db.updateCable cable claim now = some db' ∧ db'.Orderly ∧
      db'.assertions = db.assertions ∧ (cable.Of claim → db' = db) ∧
      ∃ new : Cable, new.Of claim ∧ new.id = cable.id ∧
        ∀ other, other ∈ db'.cables ↔ (other ∈ db.cables ∧ other.id ≠ cable.id) ∨ other = new := by
  let new : Cable := { cable with
    attributes := cableAttributes claim, primaryAssertionId := claim.id
    lastAssertedAt := claim.assertedAt }
  let changes := attributeChanges cable.attributes (cableAttributes claim)
  have found : db.cables.get? new.id = some cable := get?_of_mem mem
  have mem_put : ∀ other, other ∈ db.cables.put new ↔
      (other ∈ db.cables ∧ other.id ≠ cable.id) ∨ other = new := by
    intro other
    constructor
    · exact fun there => (mem_put there).symm
    rintro (⟨there, ne⟩ | rfl)
    · exact mem_put_of_ne there ne
    · exact mem_put_self found
  refine ⟨{ db with
      cables := db.cables.put new
      events := if changes = [] then db.events
        else db.events ++ [recordEvent new .updated changes (some claim) now] }, ?_, ?_, rfl, ?_,
    new, ⟨ends, rfl, rfl, rfl⟩, rfl, mem_put⟩
  · unfold Db.updateCable
    dsimp only
    rw [cast, bind_eq_bind, bind_some, if_neg]
    rw [show db.cables.get? cable.id = some cable from found]
    exact Bool.false_ne_true
  · constructor
    · intro one there two there' key own own'
      -- The new row has the ends of the row it replaces.
      have was : ∀ other ∈ db.cables.put new, ∃ old ∈ db.cables, old.ends = other.ends ∧
          old.id = other.id := by
        intro other there
        rcases (mem_put other).1 there with ⟨there, -⟩ | rfl
        · exact ⟨other, there, rfl, rfl⟩
        · exact ⟨cable, mem, rfl, rfl⟩
      obtain ⟨old, known, ends₁, id₁⟩ := was one there
      obtain ⟨old', known', ends₂, id₂⟩ := was two there'
      have same := orderly.exclusive old known old' known' key (ends₁ ▸ own) (ends₂ ▸ own')
      exact eq_of_key_eq there there' (id₁.symm.trans ((congrArg Cable.id same).trans id₂))
    · intro other there
      rcases (mem_put other).1 there with ⟨there, -⟩ | rfl
      · exact orderly.stored other there
      · exact orderly.stored cable mem
    intro id
    show (replay (if changes = [] then _ else _)).get? id = ((db.cables.put new).get? id).map _
    rw [get?_put]
    by_cases none : changes = []
    · rw [if_pos none, orderly.replayed]
      by_cases own : id = new.id
      · have shown : new.shown = cable.shown :=
          congrArg (fun attributes : Attributes => Shown.mk cable.id cable.ends attributes.snapshot)
            (attributeChanges_eq_nil none).symm
        rw [if_pos own, own, found, map_some, map_some, map_some, shown]
      · rw [if_neg own]
    rw [if_neg none, replay_concat]
    show ((replay db.events).place new.shown).get? id = _
    rw [KeyTable.get?_place, orderly.replayed, show new.shown.id = new.id from rfl]
    by_cases own : id = new.id
    · rw [if_pos own, if_pos own, own, found]
      rfl
    · rw [if_neg own, if_neg own]
  intro its
  have same : new = cable := by
    obtain ⟨-, attributes, primary, asserted⟩ := its
    show Cable.mk _ _ _ _ _ = cable
    rw [← attributes, ← primary, ← asserted]
  have none : changes = [] := by
    show attributeChanges cable.attributes (cableAttributes claim) = []
    rw [its.attributes, attributeChanges_self]
  rw [if_pos none, same, put_of_mem mem]

/-! ### A rebuild -/

/-- The claims a rebuild selects. -/
abbrev Db.selected (db : Db texts tables) (kind : CableKind) : List Assertion :=
  selectedClaims kind db.assertions.rows

theorem mem_listCables :
    cable ∈ db.listCables kind ↔ cable ∈ db.cables ∧ cable.ends.kind = kind := by
  unfold Db.listCables
  rw [mem_insertionSort, List.mem_filter, decide_eq_true_eq]
  rfl

theorem mem_rows_of_selected {assertions : Assertions texts tables}
    (mem : claim ∈ selectedClaims kind assertions.rows) :
    claim ∈ assertions.rows ∧ claim.ends.kind = kind := by
  obtain ⟨⟨own, -⟩, -⟩ := (isSelection_selectedClaims assertions kind claim).1 mem
  exact ⟨own.1, own.2.2⟩

/-- The write for a selected claim: its pair has a cable or needs one. -/
def Db.install (db : Db texts tables) (kind : CableKind) (claim : Assertion) : Write :=
  match (db.listCables kind).reverse.find? (·.ends.pairKey = claim.pairKey) with
  | none => .create claim
  | some cable => .update cable claim

/-- The cables that are removed: those whose pair is not selected. -/
def Db.superseded (db : Db texts tables) (kind : CableKind) : List Cable :=
  (db.listCables kind).filter fun cable =>
    ¬(selectedClaims kind db.assertions.rows).any fun claim => claim.pairKey = cable.ends.pairKey

/-- The claim a cable is removed for. -/
def Db.cause (db : Db texts tables) (kind : CableKind) (cable : Cable) : Option Assertion :=
  removalCause cable (effectiveClaims kind db.assertions.rows) (endpointIndex (db.selected kind))

theorem rebuildWrites_eq :
    db.rebuildWrites kind
      = (db.superseded kind).map (fun cable => .remove cable (db.cause kind cable)) ++
        (db.selected kind).map (db.install kind) :=
  rfl

/-- What the write for a selected claim is. -/
theorem install_cases (orderly : db.Orderly)
    (selected : claim ∈ db.selected kind) :
    (db.install kind claim = .create claim ∧
      ∀ cable ∈ db.cables, cable.ends ≠ claim.ends) ∨
      ∃ cable ∈ db.cables, cable.ends = claim.ends ∧
        db.install kind claim = .update cable claim := by
  obtain ⟨mem, its⟩ := mem_rows_of_selected selected
  unfold Db.install
  cases found : (db.listCables kind).reverse.find? (·.ends.pairKey = claim.pairKey) with
  | none =>
    refine .inl ⟨rfl, fun cable there same => ?_⟩
    have listed : cable ∈ (db.listCables kind).reverse :=
      mem_reverse.2 (mem_listCables.2 ⟨there, by rw [same, its]⟩)
    refine find?_eq_none.1 found cable listed (decide_eq_true ?_)
    rw [same]
    rfl
  | some cable =>
    have there := mem_listCables.1 (mem_reverse.1 (mem_of_find?_eq_some found))
    have same : cable.ends.pairKey = claim.pairKey := by simpa using find?_some found
    exact .inr ⟨cable, there.1, Ends.eq_of_pairKey (orderly.stored cable there.1)
      (db.assertions.stored claim mem) same, rfl⟩

theorem Ends.endpointKeys_ne_nil (ends : Ends) : ∃ key, key ∈ ends.endpointKeys := by
  rcases ends with ⟨_, _⟩ | ⟨_, id | _⟩ <;> exact ⟨_, mem_cons_self ..⟩

variable {rows : List Assertion}

/-- Selected claims that share an end are the same. -/
theorem eq_of_selected (mem : one ∈ selectedClaims kind rows)
    (mem' : two ∈ selectedClaims kind rows) (own : key ∈ one.endpointKeys)
    (own' : key ∈ two.endpointKeys) : one = two := by
  by_contra ne
  exact Greedy.apart_of_ne mem mem' ne key own own'

theorem eq_of_selected_ends (mem : one ∈ selectedClaims kind rows)
    (mem' : two ∈ selectedClaims kind rows) (same : one.ends = two.ends) : one = two := by
  obtain ⟨_, own⟩ := one.ends.endpointKeys_ne_nil
  exact eq_of_selected mem mem' own (by rw [Assertion.endpointKeys, ← same]; exact own)

theorem Db.Orderly.eq_of_ends (orderly : db.Orderly) {one two : Cable} (mem : one ∈ db.cables)
    (mem' : two ∈ db.cables) (same : one.ends = two.ends) : one = two := by
  obtain ⟨key, own⟩ := one.ends.endpointKeys_ne_nil
  exact orderly.exclusive one mem two mem' key own (same ▸ own)

/-- A rebuild between two writes, behind the removals: some of the selected claims are settled,
the others have the cable they had. -/
structure Installing (db : Db texts tables) (kind : CableKind) (newId : Uuid → Uuid)
    (done todo : List Assertion) (mid : Db texts tables) : Prop where
  orderly : mid.Orderly
  assertions : mid.assertions = db.assertions
  others : ∀ cable, cable.ends.kind ≠ kind → (cable ∈ mid.cables ↔ cable ∈ db.cables)
  selected : ∀ cable ∈ mid.cables, cable.ends.kind = kind →
    ∃ claim ∈ done ++ todo, cable.ends = claim.ends
  settled : ∀ claim ∈ done, ∃ cable ∈ mid.cables, cable.Of claim
  kept : ∀ claim ∈ todo, ∀ cable : Cable, cable.ends = claim.ends →
    (cable ∈ mid.cables ↔ cable ∈ db.cables)
  ids : ∀ cable ∈ mid.cables, (∃ old ∈ db.cables, old.id = cable.id) ∨
    ∃ claim ∈ done, cable.id = newId claim.id

/-- The keys a rebuild can use: they are new, and each is used once. -/
structure Fresh (db : Db texts tables) (kind : CableKind) (newId : Uuid → Uuid) : Prop where
  unused : ∀ claim ∈ selectedClaims kind db.assertions.rows,
    db.cables.get? (newId claim.id) = none
  injective : ∀ one ∈ selectedClaims kind db.assertions.rows,
    ∀ two ∈ selectedClaims kind db.assertions.rows, newId one.id = newId two.id → one.id = two.id

section Installing

variable {kind : CableKind} {newId : Uuid → Uuid} {done todo : List Assertion} {claim : Assertion}
  (all : db.selected kind = done ++ claim :: todo)
  (holds : Installing db kind newId done (claim :: todo) mid)

include all in
theorem not_mem_of_split : claim ∉ done ∧ claim ∉ todo := by
  have nodup : (done ++ claim :: todo).Nodup := by
    rw [← all]
    exact (Greedy.select_sublist _).nodup ((perm_insertionSort _ _).nodup_iff.2
      ((effectiveClaims kind db.assertions.rows).nodup.of_map.filter _))
  obtain ⟨-, later, apart⟩ := nodup_append.1 nodup
  exact ⟨fun mem => apart claim mem claim (mem_cons_self ..) rfl,
    (nodup_cons.1 later).1⟩

include all in
theorem selected_of_split : claim ∈ db.selected kind := all ▸ mem_append_right _ (mem_cons_self ..)

include all holds

theorem Installing.settle {mid' : Db texts tables} (orderly : mid'.Orderly)
    (assertions : mid'.assertions = mid.assertions) {new : Cable} (its : new.Of claim)
    (id : (∃ old ∈ db.cables, old.id = new.id) ∨ new.id = newId claim.id)
    (mem : ∀ other, other ∈ mid'.cables ↔
      (other ∈ mid.cables ∧ other.ends ≠ claim.ends) ∨ other = new) :
    Installing db kind newId (done ++ [claim]) todo mid' := by
  have selected : ∀ {other}, other ∈ done ++ claim :: todo →
      other ∈ db.selected kind := fun there => all ▸ there
  have own := selected_of_split all
  obtain ⟨notDone, notTodo⟩ := not_mem_of_split all
  have apart : ∀ other ∈ done ++ claim :: todo, other ≠ claim → other.ends ≠ claim.ends :=
    fun other there ne same => ne (eq_of_selected_ends (selected there) own same)
  have ofKind : claim.ends.kind = kind := (mem_rows_of_selected own).2
  refine ⟨orderly, assertions.trans holds.assertions, ?_, ?_, ?_, ?_, ?_⟩
  · intro cable ne
    rw [mem, ← holds.others cable ne]
    constructor
    · rintro (⟨there, -⟩ | rfl)
      · exact there
      · exact absurd (its.ends ▸ ofKind) ne
    · exact fun there => .inl ⟨there, fun same => ne (same ▸ ofKind)⟩
  · intro cable there is
    rw [append_assoc]
    rcases (mem cable).1 there with ⟨there, -⟩ | rfl
    · exact holds.selected cable there is
    · exact ⟨claim, mem_append_right _ (mem_cons_self ..), its.ends⟩
  · intro other there
    rcases mem_append.1 there with there | there
    · obtain ⟨cable, known, of⟩ := holds.settled other there
      refine ⟨cable, (mem cable).2 (.inl ⟨known, ?_⟩), of⟩
      rw [of.ends]
      exact apart other (mem_append_left _ there) fun same => notDone (same ▸ there)
    rw [mem_singleton.1 there]
    exact ⟨new, (mem new).2 (.inr rfl), its⟩
  · intro other there cable ends
    have ne : other.ends ≠ claim.ends := apart other
      (mem_append_right _ (mem_cons_of_mem _ there)) fun same => notTodo (same ▸ there)
    rw [mem, ← holds.kept other (mem_cons_of_mem _ there) cable ends]
    constructor
    · rintro (⟨known, -⟩ | rfl)
      · exact known
      · exact absurd (ends.symm.trans its.ends) ne
    · exact fun known => .inl ⟨known, ends ▸ ne⟩
  intro cable there
  rcases (mem cable).1 there with ⟨there, -⟩ | rfl
  · refine (holds.ids cable there).imp_right ?_
    rintro ⟨other, known, is⟩
    exact ⟨other, mem_append_left _ known, is⟩
  · exact id.imp_right fun is => ⟨claim, mem_append_right _ (mem_singleton_self _), is⟩

theorem Installing.unused (fresh : Fresh db kind newId) :
    mid.cables.get? (newId claim.id) = none := by
  have own := selected_of_split all
  refine get?_eq_none_iff.2 fun cable there same => ?_
  rcases holds.ids cable there with ⟨old, was, is⟩ | ⟨other, before, is⟩
  · exact get?_eq_none_iff.1 (fresh.unused claim own) old was (is.trans same)
  have there' : other ∈ db.selected kind :=
    all ▸ mem_append_left _ before
  have ids := fresh.injective other there' claim own (is.symm.trans same)
  have same := inj_on_of_nodup_map db.assertions.ids (mem_rows_of_selected there').1
    (mem_rows_of_selected own).1 ids
  exact (not_mem_of_split all).1 (same ▸ before)

/-- **One claim.**  Its write settles it; it is refused only for want of a new key. -/
theorem Installing.next (orderly : db.Orderly) (now : Time) :
    (mid.write newId now (db.install kind claim) = none ∧ ¬Fresh db kind newId) ∨
      ∃ mid', mid.write newId now (db.install kind claim) = some mid' ∧
        Installing db kind newId (done ++ [claim]) todo mid' := by
  have own := selected_of_split all
  obtain ⟨row, ofKind⟩ := mem_rows_of_selected own
  have cast := cast_cableAttributes row
  have here := holds.kept claim (mem_cons_self ..)
  rcases install_cases orderly own with ⟨is, none⟩ | ⟨cable, known, ends, is⟩
  · have free : ∀ cable ∈ mid.cables, cable.ends ≠ claim.ends := fun cable there same =>
      none cable ((here cable same).1 there) same
    have unshared : ∀ cable ∈ mid.cables, ∀ key ∈ claim.endpointKeys,
        key ∉ cable.ends.endpointKeys := by
      intro cable there _ mine its
      obtain ⟨other, selected, same⟩ := holds.selected cable there
        ((Ends.kind_of_shared its mine).trans ofKind)
      refine free cable there (same.trans (congrArg Assertion.ends ?_))
      have selected : other ∈ db.selected kind := all ▸ selected
      refine eq_of_selected selected own ?_ mine
      rw [Assertion.endpointKeys, ← same]
      exact its
    rw [is]
    by_cases unused : mid.cables.get? (newId claim.id) = Option.none
    · obtain ⟨mid', done', orderly', assertions, new, of, id, mem⟩ :=
        holds.orderly.create cast (db.assertions.stored claim row) unshared unused
      refine .inr ⟨mid', done', holds.settle all orderly' assertions of (.inr id) ?_⟩
      intro other
      rw [mem]
      exact or_congr_left (and_iff_left_of_imp fun there => free other there).symm
    refine .inl ⟨?_, fun fresh => unused (holds.unused all fresh)⟩
    show mid.createCable claim (newId claim.id) now = Option.none
    unfold Db.createCable
    rw [cast, bind_eq_bind, bind_some]
    dsimp only
    rw [dif_neg unused, ite_self]
  obtain ⟨mid', done', orderly', assertions, -, _, of, id, mem⟩ :=
    holds.orderly.update cast ((here cable ends).2 known) ends now
  rw [is]
  refine .inr ⟨mid', done', holds.settle all orderly' assertions of
    (.inl ⟨cable, known, id.symm⟩) fun other => ?_⟩
  rw [mem]
  refine or_congr_left (and_congr_right fun there => not_congr ⟨fun same => ?_, fun same => ?_⟩)
  · rw [← ends, eq_of_key_eq there ((here cable ends).2 known) same]
  exact congrArg Cable.id (orderly.eq_of_ends ((here other same).1 there) known
    (same.trans ends.symm))

end Installing

variable {db' : Db texts tables}

section Rebuild

variable {kind : CableKind} {newId : Uuid → Uuid} {now : Time}

theorem foldlM_remove (orderly : db.Orderly) (cause : Cable → Option Assertion)
    (newId : Uuid → Uuid) (now : Time) (cables : List Cable) :
    ∃ db', (cables.map fun cable => Write.remove cable (cause cable)).foldlM (Db.write newId now) db
        = some db' ∧ db'.Orderly ∧ db'.assertions = db.assertions ∧
      ∀ cable, cable ∈ db'.cables ↔ cable ∈ db.cables ∧ ∀ removed ∈ cables,
        cable.id ≠ removed.id := by
  induction cables generalizing db with
  | nil => exact ⟨db, rfl, orderly, rfl, by simp⟩
  | cons first _ ih =>
    obtain ⟨db', done, orderly', assertions, mem⟩ :=
      ih orderly.remove
    refine ⟨db', done, orderly', assertions, fun cable => ?_⟩
    rw [mem, show cable ∈ (db.removeCable first (cause first) now).cables ↔ _ from
      mem_erase, forall_mem_cons, and_assoc]

theorem mem_superseded : cable ∈ db.superseded kind ↔
    (cable ∈ db.cables ∧ cable.ends.kind = kind) ∧
      ∀ claim ∈ db.selected kind, claim.pairKey ≠ cable.ends.pairKey := by
  unfold Db.superseded
  rw [List.mem_filter, mem_listCables]
  simp

theorem installing_start (newId : Uuid → Uuid) (orderly : db.Orderly) (orderly' : db'.Orderly)
    (assertions : db'.assertions = db.assertions)
    (mem : ∀ cable, cable ∈ db'.cables ↔ cable ∈ db.cables ∧
      ∀ removed ∈ db.superseded kind, cable.id ≠ removed.id) :
    Installing db kind newId [] (db.selected kind) db' := by
  have stays : ∀ cable ∈ db.cables, cable ∉ db.superseded kind → cable ∈ db'.cables := by
    intro cable there not
    refine (mem cable).2 ⟨there, fun _ its same => not ?_⟩
    rw [eq_of_key_eq there (mem_superseded.1 its).1.1 same]
    exact its
  refine ⟨orderly', assertions, ?_, ?_, fun _ mem => absurd mem not_mem_nil, ?_, ?_⟩
  · intro cable ne
    refine ⟨fun there => ((mem cable).1 there).1, fun there => stays cable there fun its => ?_⟩
    exact ne (mem_superseded.1 its).1.2
  · intro cable there is
    obtain ⟨known, kept⟩ := (mem cable).1 there
    by_contra none
    refine kept cable (mem_superseded.2 ⟨⟨known, is⟩, fun claim selected same => none ?_⟩) rfl
    refine ⟨claim, selected, (Ends.eq_of_pairKey ?_ (orderly.stored cable known) same).symm⟩
    exact db.assertions.stored claim (mem_rows_of_selected selected).1
  · intro claim selected cable same
    refine ⟨fun there => ((mem cable).1 there).1, fun there => stays cable there fun its => ?_⟩
    exact (mem_superseded.1 its).2 claim selected (congrArg Ends.pairKey same.symm)
  · exact fun cable there => .inl ⟨cable, ((mem cable).1 there).1, rfl⟩

variable {before after : List Assertion}

theorem Installing.run (orderly : db.Orderly) {done : List Assertion}
    (all : db.selected kind = done ++ (before ++ after))
    (holds : Installing db kind newId done (before ++ after) mid) :
    ((before.map (db.install kind)).foldlM (Db.write newId now) mid = none ∧
        ¬Fresh db kind newId) ∨
      ∃ mid', (before.map (db.install kind)).foldlM (Db.write newId now) mid = some mid' ∧
        Installing db kind newId (done ++ before) after mid' := by
  induction before generalizing done mid with
  | nil => exact .inr ⟨mid, rfl, by rwa [append_nil]⟩
  | cons _ rest ih =>
    rw [map_cons, foldlM_cons]
    rcases holds.next all orderly now with ⟨first, stale⟩ | ⟨_, first, holds⟩
    · rw [first]
      exact .inl ⟨rfl, stale⟩
    have rest := ih (by rw [all, append_assoc]; rfl) holds
    rw [append_assoc] at rest
    rw [first]
    exact rest

theorem rebuild_prefix (orderly : db.Orderly) (newId : Uuid → Uuid) (now : Time)
    (all : db.selected kind = before ++ after) :
    let writes := (db.superseded kind).map (fun cable => .remove cable (db.cause kind cable)) ++
      before.map (db.install kind)
    (writes.foldlM (Db.write newId now) db = none ∧ ¬Fresh db kind newId) ∨
      ∃ mid, writes.foldlM (Db.write newId now) db = some mid ∧
        Installing db kind newId before after mid := by
  intro writes
  obtain ⟨_, removed, orderly', assertions, mem⟩ :=
    foldlM_remove orderly (db.cause kind) newId now (db.superseded kind)
  have start := installing_start newId orderly orderly' assertions mem
  rw [all] at start
  rw [show writes.foldlM (Db.write newId now) db = _ from foldlM_append, removed]
  exact start.run orderly all

/-- **Every single write.**  Whatever part of its writes a rebuild has carried out, it has not been
refused, and no end has two cables. -/
theorem rebuild_between (orderly : db.Orderly) (fresh : Fresh db kind newId) (now : Time)
    {written rest : List Write} (split : db.rebuildWrites kind = written ++ rest) :
    ∃ mid, written.foldlM (Db.write newId now) db = some mid ∧ mid.Orderly := by
  rcases append_eq_append_iff.1 split with ⟨more, rfl, some_⟩ | ⟨_, some_, rfl⟩
  · obtain ⟨before, _, all, rfl, -⟩ := map_eq_append_iff.1 some_
    rcases rebuild_prefix orderly newId now all with ⟨-, stale⟩ | ⟨mid, done, holds⟩
    · exact absurd fresh stale
    exact ⟨mid, done, holds.orderly⟩
  obtain ⟨before, -, -, rfl, -⟩ := map_eq_append_iff.1 some_
  obtain ⟨mid, done, orderly', -⟩ := foldlM_remove orderly (db.cause kind) newId now before
  exact ⟨mid, done, orderly'⟩

/-- **A rebuild.**  It is refused only for want of new keys; otherwise each selected claim has its
cable then. -/
theorem rebuild_installs (orderly : db.Orderly) (kind : CableKind) (newId : Uuid → Uuid)
    (now : Time) :
    (db.rebuildCurrentCables kind newId now = none ∧ ¬Fresh db kind newId) ∨
      ∃ db', db.rebuildCurrentCables kind newId now = some db' ∧
        Installing db kind newId (db.selected kind) [] db' :=
  rebuild_prefix orderly newId now (append_nil _).symm

/-- A claim that a cable stands for. -/
def Db.Current (db : Db texts tables) (claim : Assertion) : Prop :=
  claim ∈ db.assertions.rows ∧ ∃ cable ∈ db.cables, cable.Of claim

section Rebuilt

variable {db' : Db texts tables}
  (holds : Installing db kind newId (db.selected kind) [] db')

include holds

theorem Installing.of_mem (mem : cable ∈ db'.cables) (is : cable.ends.kind = kind) :
    ∃ claim ∈ db.selected kind, cable.Of claim := by
  obtain ⟨claim, selected, same⟩ := holds.selected cable mem is
  rw [append_nil] at selected
  obtain ⟨_, there, its⟩ := holds.settled claim selected
  rw [holds.orderly.eq_of_ends mem there (same.trans its.ends.symm)]
  exact ⟨claim, selected, its⟩

theorem Installing.current_iff :
    claim.ends.kind = kind ∧ db'.Current claim ↔
      claim ∈ db.selected kind := by
  unfold Db.Current
  rw [holds.assertions]
  constructor
  · rintro ⟨is, row, cable, mem, its⟩
    obtain ⟨_, selected, its'⟩ := holds.of_mem mem (its.ends ▸ is)
    have same := inj_on_of_nodup_map db.assertions.ids row (mem_rows_of_selected selected).1
      (its.primary.symm.trans its'.primary)
    rw [same]
    exact selected
  intro selected
  obtain ⟨row, is⟩ := mem_rows_of_selected selected
  obtain ⟨cable, mem, its⟩ := holds.settled claim selected
  exact ⟨is, row, cable, mem, its⟩

/-- **Rebuilding again** writes nothing. -/
theorem Installing.again (newId' : Uuid → Uuid) (now' : Time) :
    db'.rebuildCurrentCables kind newId' now' = some db' := by
  have idle : ∀ write ∈ db'.rebuildWrites kind, db'.write newId' now' write = some db' := by
    intro write mem
    rw [rebuildWrites_eq, Db.selected, holds.assertions] at mem
    rcases mem_append.1 mem with mem | mem
    · obtain ⟨cable, removed, -⟩ := mem_map.1 mem
      obtain ⟨⟨there, is⟩, unselected⟩ := mem_superseded.1 removed
      obtain ⟨claim, selected, its⟩ := holds.of_mem there is
      rw [Db.selected, holds.assertions] at unselected
      exact absurd (congrArg Ends.pairKey its.ends.symm) (unselected claim selected)
    obtain ⟨claim, selected, rfl⟩ := mem_map.1 mem
    obtain ⟨own, there, its⟩ := holds.settled claim selected
    have selected' : claim ∈ selectedClaims kind db'.assertions.rows := by
      rw [holds.assertions]
      exact selected
    rcases install_cases holds.orderly selected' with ⟨-, none⟩ | ⟨cable, known, ends, is⟩
    · exact absurd its.ends (none own there)
    obtain ⟨same, done, -, -, unchanged, -⟩ := holds.orderly.update
      (cast_cableAttributes (mem_rows_of_selected selected).1) known ends now'
    rw [is, show db'.write newId' now' (.update cable claim) = some same from done,
      unchanged (holds.orderly.eq_of_ends known there (ends.trans its.ends.symm) ▸ its)]
  unfold Db.rebuildCurrentCables
  generalize db'.rebuildWrites kind = writes at idle
  induction writes with
  | nil => rfl
  | cons write _ ih =>
    rw [foldlM_cons, idle write (mem_cons_self ..)]
    exact ih fun other mem => idle other (mem_cons_of_mem _ mem)

end Rebuilt

end Rebuild

/-! ### Runs -/

theorem insertAssertion_orderly {request : Request} {ends : Ends} {gap : ℕ}
    (done : db.insertAssertion request ends gap now = .ok db') (orderly : db.Orderly) :
    db'.Orderly := by
  unfold Db.insertAssertion at done
  split at done
  · cases done
  dsimp only at done
  split at done
  · split at done
    · cases done
      exact { orderly with }
    · cases done
  · cases done

theorem reconcile_orderly {newId : Uuid → Uuid} (done : db.reconcile newId now = some db')
    (orderly : db.Orderly) : db'.Orderly := by
  have rebuilt : ∀ {db db' : Db texts tables} {kind : CableKind}, db.Orderly →
      db.rebuildCurrentCables kind newId now = some db' → db'.Orderly := by
    intro _ _ kind orderly done
    rcases rebuild_installs orderly kind newId now with ⟨none, -⟩ | ⟨_, some_, holds⟩
    · cases none.symm.trans done
    cases some_.symm.trans done
    exact holds.orderly
  obtain ⟨_, first, second⟩ := bind_eq_some_iff.1 done
  exact rebuilt (rebuilt orderly first) second

theorem commit_orderly {result : Except PutError (Db texts tables)}
    (keeps : ∀ {db'}, result = .ok db' → db'.Orderly) (orderly : db.Orderly) :
    (Run.commit db result).Orderly := by
  cases result with
  | ok => exact keeps rfl
  | error => exact orderly

/-- **One operation** keeps the cables in order. -/
theorem step_orderly {op : Op} (orderly : db.Orderly) : (step db op).Orderly := by
  cases op with
  | put =>
    refine commit_orderly (fun done => ?_) orderly
    unfold Db.putCableAssertion at done
    dsimp only at done
    iterate 5
      split at done
      · cases done
    exact insertAssertion_orderly done orderly
  | power =>
    refine commit_orderly (fun done => ?_) orderly
    unfold Db.createPowerAssertion at done
    dsimp only at done
    iterate 2
      split at done
      · cases done
    exact insertAssertion_orderly done orderly
  | propose =>
    exact commit_orderly (fun done => insertAssertion_orderly done orderly) orderly
  | reconcile newId now =>
    unfold step
    dsimp only
    cases done : db.reconcile newId now with
    | none => exact orderly
    | some => exact reconcile_orderly done orderly

theorem run_orderly {ops : List Op} : (run texts tables ops).Orderly := by
  refine Run.run_invariant (fun _ _ => step_orderly) ⟨?_, ?_, fun _ => rfl⟩ ops
  · exact fun one mem => absurd mem not_mem_nil
  · exact fun _ mem => absurd mem not_mem_nil

/-- **Current cables are a function of the claims.**  After any run, a rebuild leaves as current
exactly the selection of the claims, which is the only one there is, and no other cable; between
any two of its writes no end has two cables; to rebuild again changes nothing; and the events show
the cables there are. -/
theorem rebuild_selects (texts : CableTexts) (tables : Tables) (ops : List Op) (kind : CableKind)
    (newId : Uuid → Uuid) (fresh : Fresh (run texts tables ops) kind newId) (now : Time) :
    let db := run texts tables ops
    ∃ db', db.rebuildCurrentCables kind newId now = some db' ∧
      IsSelection kind db.assertions.rows
        (fun claim => claim.ends.kind = kind ∧ db'.Current claim) ∧
      (∀ selected, IsSelection kind db.assertions.rows selected → ∀ claim,
        (selected claim ↔ claim.ends.kind = kind ∧ db'.Current claim)) ∧
      (∀ cable ∈ db'.cables, cable.ends.kind = kind →
        ∃ claim, db'.Current claim ∧ cable.Of claim) ∧
      (∀ written rest, db.rebuildWrites kind = written ++ rest →
        ∃ mid, written.foldlM (Db.write newId now) db = some mid ∧ mid.Exclusive) ∧
      (∀ newId' now', db'.rebuildCurrentCables kind newId' now' = some db') ∧
      ∀ id, (replay db'.events).get? id = (db'.cables.get? id).map Cable.shown := by
  intro db
  have orderly : db.Orderly := run_orderly
  rcases rebuild_installs orderly kind newId now with ⟨-, stale⟩ | ⟨db', done, holds⟩
  · exact absurd fresh stale
  refine ⟨db', done, ?_, ?_, ?_, ?_, holds.again, holds.orderly.replayed⟩
  · simp only [holds.current_iff]
    exact isSelection_selectedClaims db.assertions kind
  · intro selected is claim
    rw [holds.current_iff]
    exact is.iff db.assertions kind
  · intro _ mem its
    obtain ⟨claim, selected, of⟩ := holds.of_mem mem its
    exact ⟨claim, (holds.current_iff.2 selected).2, of⟩
  intro _ _ split
  obtain ⟨mid, between, orderly'⟩ := rebuild_between orderly fresh now split
  exact ⟨mid, between, orderly'.exclusive⟩

theorem id_id_text (text : String) : id (id text) = id text := rfl

def plainTexts : CableTexts where
  trim := id
  downcase := id
  trim_trim := id_id_text
  trim_downcase := fun _ => rfl
  downcase_downcase := id_id_text

/-- A cable is moved: its second end is asserted to be somewhere else. -/
def cableMoves : List Op :=
  [.put { id := 1, kind := .operator, action := .assert } 10 11 0 5 true,
    .reconcile (· + 100) 5,
    .put { id := 2, kind := .operator, action := .assert } 11 12 0 6 true]

/-- The cable that has lost its end is gone, and to rebuild again changes nothing. -/
theorem moved_cable_settles :
    ∃ db', (run plainTexts (fun _ => some .interfaces) cableMoves).rebuildCurrentCables .data
        (· + 100) 6 = some db' ∧
      ∀ newId' now', db'.rebuildCurrentCables .data newId' now' = some db' := by
  obtain ⟨db', done, -, -, -, -, again, -⟩ := rebuild_selects plainTexts
    (fun _ => some .interfaces) cableMoves .data (· + 100) ⟨by decide +kernel, by decide +kernel⟩ 6
  exact ⟨db', done, again⟩

end Renga.Topology
