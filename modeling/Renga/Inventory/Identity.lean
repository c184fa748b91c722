import Renga.Inventory.Reconciler

/-!
# One resource for a strong identifier

The database lets two resources have the same serial number: the index is per resource, so that a
conflict can be stored.  That it does not come to this rests on matching.
-/

namespace Renga.Inventory

open List KeyTable Option Db Observations

variable {env : Env} {db db' : Db} {source : Source} {observation : Observation}

/-! ### Matching -/

theorem eq_nil_of_eraseDups {l : List Uuid} (empty : l.eraseDups = []) : l = [] := by
  refine eq_nil_iff_forall_not_mem.2 fun _ mem => ?_
  have there := mem_eraseDups.2 mem
  rw [empty] at there
  cases there

theorem eq_of_mem_of_eraseDups {l : List Uuid} (one : ¬ 1 < l.eraseDups.length) {a b : Uuid}
    (mem : a ∈ l) (mem' : b ∈ l) : a = b := by
  have there := mem_eraseDups.2 mem
  have there' := mem_eraseDups.2 mem'
  match l.eraseDups, one, there, there' with
  | [c], _, there, there' => rw [mem_singleton.1 there, mem_singleton.1 there']
  | c :: d :: rest, one, _, _ => simp at one

variable {results : List (Strategy × List Uuid)}

/-- Where no strategy is ambiguous, whatever one of them finds is a single match. -/
theorem mem_singleMatches (single : ambiguousCandidates results = [])
    {result : Strategy × List Uuid} (mem : result ∈ results) {id : Uuid} (found : id ∈ result.2) :
    (result.1, id) ∈ singleMatches results := by
  have short : ¬ 1 < result.2.length := by
    intro long
    have there : id ∈ results.flatMap fun result =>
        if 1 < result.2.length then result.2 else [] :=
      mem_flatMap.2 ⟨result, mem, by rwa [if_pos long]⟩
    rw [eq_nil_of_eraseDups single] at there
    cases there
  obtain ⟨_, ids⟩ := result
  match ids, short, found with
  | [other], _, found =>
    refine mem_filterMap.2 ⟨_, mem, ?_⟩
    rw [mem_singleton.1 found]
  | a :: b :: rest, short, _ => simp at short

variable {resourceId : Uuid} {strategy : Strategy}

theorem combineStrongMatches_found
    (found : combineStrongMatches results = .found resourceId strategy) :
    (∀ result ∈ results, ∀ id ∈ result.2, id = resourceId) ∧
      ∃ result ∈ results, resourceId ∈ result.2 := by
  unfold combineStrongMatches at found
  dsimp only at found
  split at found
  · cases found
  rename_i single
  split at found
  · cases found
  rename_i one
  split at found
  · cases found
  rename_i listed
  cases found
  have there : (strategy, resourceId) ∈ singleMatches results := by
    rw [listed]
    exact mem_cons_self ..
  constructor
  · intro _ mem _ mem'
    exact eq_of_mem_of_eraseDups one (mem_map_of_mem (f := Prod.snd)
      (mem_singleMatches (not_not.1 single) mem mem')) (mem_map_of_mem there)
  obtain ⟨⟨_, _⟩, mem, is⟩ := mem_filterMap.1 there
  dsimp only at is
  split at is
  · cases is
    exact ⟨_, mem, mem_singleton_self _⟩
  · cases is

theorem combineStrongMatches_none (none : combineStrongMatches results = .none) :
    ∀ result ∈ results, result.2 = [] := by
  unfold combineStrongMatches at none
  dsimp only at none
  split at none
  · cases none
  rename_i single
  split at none
  · cases none
  split at none
  · rename_i listed
    intro _ mem
    refine eq_nil_iff_forall_not_mem.2 fun _ mem' => ?_
    have there := mem_singleMatches (not_not.1 single) mem mem'
    rw [listed] at there
    cases there
  · cases none

/-- The identifier of a resource that an identifier of an observation leads to. -/
def Identifier.Known (identifier : Identifier) (known : ResourceIdentifier) : Prop :=
  known.kind = identifier.kind ∧ known.normalizedValue = identifier.normalizedValue

/-- Every identifier belongs to a resource. -/
def Db.Rooted (db : Db) : Prop :=
  ∀ known ∈ db.identifiers, ∃ resource ∈ db.resources, resource.id = known.resourceId

variable {identifiers : List Identifier} {identifier : Identifier} {known : ResourceIdentifier}

theorem Db.Rooted.mem_strongMatches (rooted : db.Rooted) (mem : identifier ∈ identifiers)
    (strong : identifier.kind ∈ strongIdentifierKinds) (there : known ∈ db.identifiers)
    (leads : identifier.Known known) :
    ∃ result ∈ db.strongMatches identifiers, known.resourceId ∈ result.2 := by
  refine ⟨_, mem_map_of_mem strong, ?_⟩
  obtain ⟨_, stored, same⟩ := rooted known there
  refine mem_filter.2 ⟨same ▸ mem_map_of_mem stored, ?_⟩
  refine any_eq_true.2 ⟨known, there, decide_eq_true ⟨rfl, leads.1, ?_⟩⟩
  rw [leads.2]
  refine mem_map_of_mem (mem_filter.2 ⟨mem, ?_⟩)
  exact decide_eq_true rfl

variable {collector : Bool}

theorem Db.Rooted.matchResource_found (rooted : db.Rooted)
    (found : db.matchResource identifiers collector = .found resourceId strategy)
    (mem : identifier ∈ identifiers) (strong : identifier.kind ∈ strongIdentifierKinds)
    (there : known ∈ db.identifiers) (leads : identifier.Known known) :
    known.resourceId = resourceId := by
  obtain ⟨result, mem', id⟩ := rooted.mem_strongMatches mem strong there leads
  unfold matchResource at found
  split at found
  · exact (combineStrongMatches_found found).1 result mem' _ id
  split at found
  · -- Names are not looked at: there is a strong identifier.
    have identity : strongIdentity identifiers = true :=
      any_eq_true.2 ⟨identifier, mem, decide_eq_true (.inl strong)⟩
    rw [if_pos identity] at found
    cases found
  · exact (combineStrongMatches_found found).1 result (mem_append_left _ mem') _ id

theorem Db.Rooted.matchResource_none (rooted : db.Rooted)
    (none : db.matchResource identifiers collector = .none) (mem : identifier ∈ identifiers)
    (strong : identifier.kind ∈ strongIdentifierKinds) (there : known ∈ db.identifiers) :
    ¬ identifier.Known known := by
  intro leads
  obtain ⟨result, mem', id⟩ := rooted.mem_strongMatches mem strong there leads
  unfold matchResource at none
  split at none
  · rw [combineStrongMatches_none none result mem'] at id
    cases id
  split at none
  · rename_i unmatched
    rw [combineStrongMatches_none unmatched result (mem_append_left _ mem')] at id
    cases id
  rename_i matched
  exact matched none

/-! ### Identifiers as they are stored -/

variable {names : Names} {kind : IdentifierKind} {value : String}

theorem Names.normalizeValue_trim :
    names.normalizeValue kind (names.trim value) = names.normalizeValue kind value := by
  simp only [Names.normalizeValue, Names.normalizeMac, names.trim_trim]

/-- The normal form of an identifier is that of its value. -/
def Names.Normal (names : Names) (identifier : Identifier) : Prop :=
  names.normalizeValue identifier.kind (names.trim identifier.value) = identifier.normalizedValue

theorem Names.normal_identifier (names : Names) : names.Normal (names.identifier kind value) := by
  show names.normalizeValue kind (names.trim (names.trim value)) = names.normalizeValue kind value
  rw [names.trim_trim, names.normalizeValue_trim]

theorem normal_of_mem_classify {interfaces : List InterfaceReport}
    (mem : identifier ∈ (classifyInterfaceMacs names interfaces).1) : names.Normal identifier := by
  unfold classifyInterfaceMacs at mem
  generalize interfaces.filter _ = present at mem
  induction present using reverseRecOn with
  | nil => cases mem
  | append_singleton present _ ih =>
    rw [foldl_append] at mem
    generalize foldl _ _ present = before at mem ih
    simp only [foldl_cons, foldl_nil] at mem
    split at mem
    · exact ih mem
    split at mem
    · rcases mem_cons.1 mem with rfl | mem
      · exact names.normal_identifier
      · exact ih mem
    · exact ih mem

theorem normal_of_mem_observationIdentifiers {payload : ResourcePayload}
    (mem : identifier ∈ observationIdentifiers names payload) : names.Normal identifier := by
  rcases mem_append.1 (mem_of_mem_uniqBy mem) with mem | mem
  · obtain ⟨_, _, mem⟩ := mem_flatMap.1 (mem_of_mem_filter mem)
    obtain ⟨_, _, rfl⟩ := mem_map.1 mem
    exact names.normal_identifier
  · exact normal_of_mem_classify mem

/-- Reconciling adds the identifiers that the resource lacks, and no others. -/
theorem reconcileIdentifiers_eq_some
    (normal : ∀ identifier ∈ identifiers, env.names.Normal identifier)
    (done : db.reconcileIdentifiers env resourceId identifiers = some db') :
    ∃ all, db' = { db with identifiers := all } ∧ (∀ known ∈ db.identifiers, known ∈ all) ∧
      (∀ known ∈ all, known ∈ db.identifiers ∨
        known.resourceId = resourceId ∧ ∃ identifier ∈ identifiers, identifier.Known known) ∧
      ∀ identifier ∈ identifiers, ∃ known ∈ all,
        known.resourceId = resourceId ∧ identifier.Known known := by
  induction identifiers generalizing db with
  | nil =>
    cases done
    exact ⟨_, rfl, fun _ => id, fun _ => .inl, nofun⟩
  | cons identifier rest ih =>
    have normal' : ∀ other ∈ rest, env.names.Normal other := fun other mem =>
      normal other (mem_cons_of_mem _ mem)
    have later : ∀ {known}, (known.resourceId = resourceId ∧ ∃ other ∈ rest, other.Known known) →
        known.resourceId = resourceId ∧ ∃ other ∈ identifier :: rest, other.Known known :=
      fun ⟨its, other, mem, leads⟩ => ⟨its, other, mem_cons_of_mem _ mem, leads⟩
    unfold reconcileIdentifiers at done
    split at done
    · rename_i there
      obtain ⟨all, rfl, kept, new, held⟩ := ih normal' done
      refine ⟨all, rfl, kept, fun known mem => (new known mem).imp_right later, ?_⟩
      intro other mem
      rcases mem_cons.1 mem with rfl | mem
      · obtain ⟨known, mem, same⟩ := any_eq_true.1 there
        obtain ⟨its, kind, value⟩ := of_decide_eq_true same
        exact ⟨known, kept known mem, its, kind, value⟩
      · exact held other mem
    obtain ⟨_, created, done⟩ := bind_eq_some_iff.1 done
    unfold createIdentifier at created
    dsimp only at created
    split at created
    · cases created
    cases created
    obtain ⟨all, rfl, kept, new, held⟩ := ih normal' done
    have leads := normal identifier (mem_cons_self ..)
    refine ⟨all, rfl, fun known mem => kept known (mem_cons_of_mem _ mem), ?_, ?_⟩
    · intro known mem
      rcases new known mem with old | other
      · rcases mem_cons.1 old with rfl | old
        · exact .inr ⟨rfl, identifier, mem_cons_self .., rfl, leads⟩
        · exact .inl old
      · exact .inr (later other)
    intro other mem
    rcases mem_cons.1 mem with rfl | mem
    · exact ⟨_, kept _ (mem_cons_self ..), rfl, rfl, leads⟩
    · exact held other mem

/-! ### What a reconciled observation does -/

/-- What becomes of the tables when an observation is reconciled to a resource. -/
structure Attaches (env : Env) (db db' : Db) (source : Source) (observation : Observation)
    (resourceId : Uuid) : Prop where
  stored : ∃ resource ∈ db'.resources, resource.id = resourceId
  resources : ∀ resource ∈ db.resources, resource ∈ db'.resources
  kept : ∀ known ∈ db.identifiers, known ∈ db'.identifiers
  attached : ∀ known ∈ db'.identifiers, known ∈ db.identifiers ∨
    known.resourceId = resourceId ∧
      ∃ identifier ∈ observationIdentifiers env.names observation.payload, identifier.Known known
  holds : ∀ identifier ∈ observationIdentifiers env.names observation.payload,
    ∃ known ∈ db'.identifiers, known.resourceId = resourceId ∧ identifier.Known known
  led : db.Rooted → ∀ identifier ∈ observationIdentifiers env.names observation.payload,
    identifier.kind ∈ strongIdentifierKinds → ∀ known ∈ db.identifiers,
      identifier.Known known → known.resourceId = resourceId
  targets : db'.targets = db.targets
  members : db'.members = db.members
  recorded : db'.reconciliations = db.reconciliations ++
    [⟨observation.id, observation.observedAt, source.kind, true, some resourceId⟩]
  others : ∀ other, other ≠ resourceId → db'.conditions other = db.conditions other
  advanced : source.kind ≠ .hostAgent → db'.conditions resourceId = db.conditions resourceId ∨
    db.supersededBySnapshot source observation resourceId = false ∧
      db'.conditions resourceId = some ⟨true, .observationReconciled⟩
  claimed : source.kind = .hostAgent → ∀ condition, db'.conditions resourceId = some condition →
    condition.reason ≠ .withdrawn

theorem keepClaimedInventoryCurrent_eq (db : Db) (resourceId : Uuid) :
    ∃ conditions, db.keepClaimedInventoryCurrent resourceId = { db with conditions } ∧
      (∀ other, other ≠ resourceId → conditions other = db.conditions other) ∧
      (conditions resourceId = db.conditions resourceId ∧
          (∃ condition, db.conditions resourceId = some condition ∧ condition.reason ≠ .withdrawn) ∨
        conditions resourceId = some ⟨true, .stillReported⟩) := by
  have put : ∀ other, other ≠ resourceId →
      (db.putCondition resourceId ⟨true, .stillReported⟩).conditions other
        = db.conditions other := fun _ ne => Function.update_of_ne ne _ _
  unfold keepClaimedInventoryCurrent
  split
  · exact ⟨_, rfl, put, .inr (Function.update_self ..)⟩
  rename_i condition is
  split
  · exact ⟨_, rfl, put, .inr (Function.update_self ..)⟩
  rename_i reason
  exact ⟨_, rfl, fun _ _ => rfl, .inl ⟨rfl, condition, is, reason⟩⟩

theorem settleResource_spec (env : Env) (db : Db) (source : Source) (observation : Observation)
    (resourceId : Uuid) :
    let db' := db.settleResource env source observation resourceId
    db'.resources = db.resources ∧ db'.identifiers = db.identifiers ∧
      db'.targets = db.targets ∧ db'.members = db.members ∧
      db'.reconciliations = db.reconciliations ++
        [⟨observation.id, observation.observedAt, source.kind, true, some resourceId⟩] ∧
      (∀ other, other ≠ resourceId → db'.conditions other = db.conditions other) ∧
      (source.kind ≠ .hostAgent → db'.conditions resourceId = db.conditions resourceId ∨
        db.supersededBySnapshot source observation resourceId = false ∧
          db'.conditions resourceId = some ⟨true, .observationReconciled⟩) ∧
      (source.kind = .hostAgent → ∀ condition, db'.conditions resourceId = some condition →
        condition.reason ≠ .withdrawn) := by
  intro db'
  generalize advanced : (db.currentObservation resourceId observation &&
    !db.supersededBySnapshot source observation resourceId) = fresh
  have is : db' = if source.kind = .hostAgent then
      ((db.project env source observation resourceId fresh).recordSuccess source observation
        resourceId fresh).keepClaimedInventoryCurrent resourceId
    else (db.project env source observation resourceId fresh).recordSuccess source observation
      resourceId fresh := by
    rw [← advanced]
    rfl
  -- The state behind `record_success/8`.
  generalize success : (db.project env source observation resourceId fresh).recordSuccess source
    observation resourceId fresh = recorded at is
  have tables : recorded.resources = db.resources ∧ recorded.identifiers = db.identifiers ∧
      recorded.targets = db.targets ∧ recorded.members = db.members ∧
      recorded.reconciliations = db.reconciliations ++
        [⟨observation.id, observation.observedAt, source.kind, true, some resourceId⟩] := by
    rw [← success, recordSuccess]
    cases fresh <;> exact ⟨rfl, rfl, rfl, rfl, rfl⟩
  obtain ⟨resources, identifiers, targets, members, log⟩ := tables
  have others : ∀ other, other ≠ resourceId → recorded.conditions other = db.conditions other := by
    intro other ne
    rw [← success, recordSuccess]
    cases fresh with
    | false => rfl
    | true => exact Function.update_of_ne ne _ _
  have own : recorded.conditions resourceId = db.conditions resourceId ∨
      db.supersededBySnapshot source observation resourceId = false ∧
        recorded.conditions resourceId = some ⟨true, .observationReconciled⟩ := by
    rw [← success, recordSuccess]
    cases fresh with
    | false => exact .inl rfl
    | true =>
      have current := (Bool.and_eq_true_iff.1 advanced).2
      exact .inr ⟨by simpa using current, Function.update_self ..⟩
  by_cases host : source.kind = .hostAgent
  · rw [if_pos host] at is
    obtain ⟨conditions, kept, same, its⟩ := keepClaimedInventoryCurrent_eq recorded resourceId
    rw [is, kept]
    refine ⟨resources, identifiers, targets, members, log, ?_, ?_, ?_⟩
    · exact fun other ne => (same other ne).trans (others other ne)
    · exact fun no => absurd host no
    rintro - condition (now : conditions resourceId = some condition)
    rcases its with ⟨unchanged, _, before, reason⟩ | put
    · rw [unchanged, before] at now
      exact some.inj now ▸ reason
    rw [put] at now
    cases now
    decide
  rw [if_neg host] at is
  rw [is]
  exact ⟨resources, identifiers, targets, members, log, others, fun _ => own,
    fun yes => absurd yes host⟩

variable {newId : Uuid} {matched : Option Uuid}

theorem ensureResource_eq_some
    (ensured : db.ensureResource observation matched newId = some (db', resourceId))
    (exists_ : ∀ id, matched = some id → ∃ resource ∈ db.resources, resource.id = id) :
    (∀ id, matched = some id → id = resourceId) ∧ ∃ resources, db' = { db with resources } ∧
        (∀ resource ∈ db.resources, resource ∈ resources) ∧
        ∃ resource ∈ resources, resource.id = resourceId := by
  unfold ensureResource at ensured
  split at ensured
  · cases ensured
    exact ⟨fun _ same => (some.inj same).symm, _, rfl, fun _ => id, exists_ _ rfl⟩
  split at ensured
  · rename_i fresh
    cases ensured
    refine ⟨fun _ none => absurd none (some_ne_none _).symm, _, rfl, fun _ mem => ?_, ?_⟩
    · exact (mem_add fresh).2 (.inl mem)
    · exact ⟨_, (mem_add fresh).2 (.inr rfl), rfl⟩
  · cases ensured

theorem reconcileResource_attaches
    (done : db.reconcileResource env source observation matched newId = some (db', resourceId))
    (exists_ : ∀ id, matched = some id → ∃ resource ∈ db.resources, resource.id = id)
    (led : db.Rooted → ∀ identifier ∈ observationIdentifiers env.names observation.payload,
      identifier.kind ∈ strongIdentifierKinds → ∀ known ∈ db.identifiers,
        identifier.Known known → matched = some known.resourceId) :
    Attaches env db db' source observation resourceId := by
  obtain ⟨⟨_, _⟩, ensured, done⟩ := bind_eq_some_iff.1 done
  obtain ⟨attached, identified, done⟩ := bind_eq_some_iff.1 done
  cases done
  obtain ⟨same, resources, rfl, kept, stored⟩ := ensureResource_eq_some ensured exists_
  obtain ⟨all, rfl, old, new, held⟩ := reconcileIdentifiers_eq_some
    (fun identifier => normal_of_mem_observationIdentifiers) identified
  obtain ⟨r, i, targets, members, recorded, others, advanced, claimed⟩ := settleResource_spec env
    ({ db with resources, identifiers := all }.reconcileClaims observation (some resourceId)
      (observationIdentifiers env.names observation.payload)) source observation resourceId
  exact {
    stored := by rw [r]; exact stored
    resources := by rw [r]; exact kept
    kept := by rw [i]; exact old
    attached := by rw [i]; exact new
    holds := by rw [i]; exact held
    led := fun rooted identifier mem strong known there leads =>
      same _ (led rooted identifier mem strong known there leads)
    targets, members, recorded, others, advanced, claimed }

theorem mem_of_matchResource
    (found : db.matchResource identifiers collector = .found resourceId strategy) :
    ∃ resource ∈ db.resources, resource.id = resourceId := by
  have strong : ∀ result ∈ db.strongMatches identifiers, ∀ id ∈ result.2,
      ∃ resource ∈ db.resources, resource.id = id := by
    intro result mem id mem'
    obtain ⟨_, _, rfl⟩ := mem_map.1 mem
    exact mem_map.1 (mem_of_mem_filter mem')
  have filtered : ∀ (p : Resource → Bool), ∀ id ∈ (db.resources.rows.filter p).map Resource.id,
      ∃ resource ∈ db.resources, resource.id = id := by
    intro _ id mem
    obtain ⟨resource, mem', same⟩ := mem_map.1 mem
    exact ⟨resource, mem_of_mem_filter mem', same⟩
  unfold matchResource at found
  split at found
  · obtain ⟨result, mem, id⟩ := (combineStrongMatches_found found).2
    exact strong result mem _ id
  split at found
  · split at found
    · cases found
    obtain ⟨result, mem, id⟩ := (combineStrongMatches_found found).2
    obtain ⟨_, _, rfl⟩ := mem_map.1 mem
    exact filtered _ _ id
  obtain ⟨result, mem, id⟩ := (combineStrongMatches_found found).2
  rcases mem_append.1 mem with mem | mem
  · exact strong result mem _ id
  rw [mem_singleton.1 mem] at id
  dsimp only [matchMacSet] at id
  split at id
  · cases id
  exact filtered _ _ id

variable {resource : Option Uuid}

/-- **What reconciling an observation does.**  Either the identity is ambiguous: then the claims
of the observation, without a resource, and a failed attempt are all there is.  Or it is attached
to a resource. -/
theorem performResourceReconciliation_cases
    (done : db.performResourceReconciliation env source observation newId = some (db', resource)) :
    (resource = none ∧ db' = (db.reconcileClaims observation none
        (observationIdentifiers env.names observation.payload)).recordAttempt source observation
          false none) ∨
      ∃ resourceId, resource = some resourceId ∧
        Attaches env db db' source observation resourceId := by
  unfold performResourceReconciliation at done
  dsimp only at done
  split at done
  · rename_i resourceId strategy found
    obtain ⟨⟨after, id⟩, reconciled, is⟩ := map_eq_some_iff.1 done
    cases is
    refine .inr ⟨id, rfl, reconcileResource_attaches reconciled ?_ ?_⟩
    · rintro _ ⟨⟩
      exact mem_of_matchResource found
    intro rooted identifier mem strong known there leads
    rw [rooted.matchResource_found found mem strong there leads]
  · rename_i none
    obtain ⟨⟨_, id⟩, reconciled, is⟩ := map_eq_some_iff.1 done
    cases is
    refine .inr ⟨id, rfl, reconcileResource_attaches reconciled ?_ ?_⟩
    · rintro _ ⟨⟩
    intro rooted _ mem strong _ there leads
    exact absurd leads (rooted.matchResource_none none mem strong there)
  cases done
  exact .inl ⟨rfl, rfl⟩

/-! ### The invariant -/

/-- No two resources have the same strong identifier. -/
def Db.UniqueIdentity (db : Db) : Prop :=
  ∀ one ∈ db.identifiers, ∀ other ∈ db.identifiers, one.kind ∈ strongIdentifierKinds →
    one.kind = other.kind → one.normalizedValue = other.normalizedValue →
      one.resourceId = other.resourceId

/-- What holds of the identifiers in every run: they belong to resources, a strong one to one
resource, and the identifiers of a reconciled observation to the resource it was reconciled
to. -/
structure Db.Identified (env : Env) (db : Db) : Prop where
  rooted : db.Rooted
  unique : ∀ one ∈ db.identifiers, ∀ other ∈ db.identifiers, one.kind ∈ strongIdentifierKinds →
    one.kind = other.kind → one.normalizedValue = other.normalizedValue →
      one.resourceId = other.resourceId
  settled : ∀ result ∈ db.reconciliations, result.succeeded →
    ∀ observation ∈ env.observations.all, observation.id = result.observationId →
      ∃ resourceId, result.matchedResourceId = some resourceId ∧
        ∀ identifier ∈ observationIdentifiers env.names observation.payload,
          ∃ known ∈ db.identifiers, known.resourceId = resourceId ∧ identifier.Known known

theorem Db.Identified.empty : ({} : Db).Identified env := ⟨nofun, nofun, nofun⟩

theorem Db.Identified.of_eq (known : db.Identified env) (resources : db'.resources = db.resources)
    (identifiers : db'.identifiers = db.identifiers)
    (reconciliations : db'.reconciliations = db.reconciliations) : db'.Identified env where
  rooted := by rw [Db.Rooted, identifiers, resources]; exact known.rooted
  unique := by rw [identifiers]; exact known.unique
  settled := by rw [identifiers, reconciliations]; exact known.settled

theorem Db.Identified.log (known : db.Identified env) (result : Reconciliation)
    (other : result.succeeded → ∀ observation ∈ env.observations.all,
      observation.id ≠ result.observationId) :
    { db with reconciliations := db.reconciliations ++ [result] }.Identified env where
  rooted := known.rooted
  unique := known.unique
  settled := by
    intro past mem succeeded observation mem' same
    rcases mem_append.1 mem with mem | mem
    · exact known.settled past mem succeeded observation mem' same
    rw [mem_singleton.1 mem] at succeeded same
    exact absurd same (other succeeded observation mem')

theorem Db.Identified.recordFailed (known : db.Identified env) :
    (db.recordAttempt source observation false none).Identified env :=
  known.log ⟨observation.id, observation.observedAt, source.kind, false, none⟩ nofun

theorem Attaches.identified (attaches : Attaches env db db' source observation resourceId)
    (stored : observation ∈ env.observations.all) (known : db.Identified env) :
    db'.Identified env where
  rooted := by
    intro identifier mem
    rcases attaches.attached identifier mem with old | ⟨its, _⟩
    · obtain ⟨resource, mem, same⟩ := known.rooted identifier old
      exact ⟨resource, attaches.resources resource mem, same⟩
    rw [its]
    exact attaches.stored
  unique := by
    -- A known identifier that compares with a new one belongs to the resource already.
    have old : ∀ one ∈ db.identifiers, ∀ identifier ∈
        observationIdentifiers env.names observation.payload,
        one.kind ∈ strongIdentifierKinds → identifier.Known one → one.resourceId = resourceId :=
      fun one mem identifier mem' strong leads =>
        attaches.led known.rooted identifier mem' (leads.1 ▸ strong) one mem leads
    intro one mem other mem' strong kind value
    rcases attaches.attached one mem with was | ⟨its, identifier, listed, leads⟩ <;>
      rcases attaches.attached other mem' with was' | ⟨its', identifier', listed', leads'⟩
    · exact known.unique one was other was' strong kind value
    · rw [its']
      exact old one was identifier' listed' strong ⟨kind.trans leads'.1, value.trans leads'.2⟩
    · rw [its]
      exact (old other was' identifier listed (kind ▸ strong)
        ⟨kind.symm.trans leads.1, value.symm.trans leads.2⟩).symm
    · rw [its, its']
  settled := by
    intro result mem succeeded other mem' same
    rw [attaches.recorded] at mem
    rcases mem_append.1 mem with mem | mem
    · obtain ⟨id, matched, held⟩ := known.settled result mem succeeded other mem' same
      refine ⟨id, matched, fun identifier listed => ?_⟩
      obtain ⟨row, there, its⟩ := held identifier listed
      exact ⟨row, attaches.kept row there, its⟩
    rw [mem_singleton.1 mem] at same ⊢
    obtain rfl := env.observations.apart other mem' observation stored same
    exact ⟨resourceId, rfl, attaches.holds⟩

/-! ### Turns -/

theorem performResourceReconciliation_identified
    (done : db.performResourceReconciliation env source observation newId = some (db', resource))
    (stored : observation ∈ env.observations.all) (known : db.Identified env) :
    db'.Identified env := by
  rcases performResourceReconciliation_cases done with ⟨_, rfl⟩ | ⟨_, _, attaches⟩
  · refine Db.Identified.recordFailed ?_
    exact known.of_eq rfl rfl rfl
  · exact attaches.identified stored known

variable {failed : List Uuid} {chance : Chance}

/-- A derived observation: an earlier success stands, an earlier failure stands if it is one of
this run, and otherwise the observation is reconciled. -/
theorem derivedResult_cases
    (done : db.derivedResult env source observation failed chance = some (db', resource)) :
    (∃ result, db.latestResult observation.id = some result ∧ db' = db ∧
        (result.succeeded ∧ resource = result.matchedResourceId ∨ resource = none)) ∨
      db.performResourceReconciliation env source observation (chance.newId observation.id)
        = some (db', resource) := by
  have perform : (if chance.raises observation.id then none
      else db.performResourceReconciliation env source observation
        (chance.newId observation.id)) = some (db', resource) →
      db.performResourceReconciliation env source observation (chance.newId observation.id)
        = some (db', resource) := by
    intro done
    split at done
    · cases done
    exact done
  unfold derivedResult at done
  dsimp only at done
  split at done
  · exact .inr (perform done)
  rename_i result latest
  split at done
  · rename_i succeeded
    cases done
    exact .inl ⟨result, latest, rfl, .inl ⟨succeeded, rfl⟩⟩
  split at done
  · cases done
    exact .inl ⟨result, latest, rfl, .inr rfl⟩
  · exact .inr (perform done)

theorem derivedResult_identified
    (done : db.derivedResult env source observation failed chance = some (db', resource))
    (stored : observation ∈ env.observations.all) (known : db.Identified env) :
    db'.Identified env := by
  rcases derivedResult_cases done with ⟨_, _, rfl, _⟩ | performed
  · exact known
  · exact performResourceReconciliation_identified performed stored known

variable {derived : List Observation} {outcomes : List Outcome}

theorem derivedResults_identified
    (done : db.derivedResults env source failed chance derived = some (db', outcomes))
    (stored : ∀ observation ∈ derived, observation ∈ env.observations.all)
    (known : db.Identified env) : db'.Identified env := by
  induction derived generalizing db outcomes with
  | nil =>
    cases done
    exact known
  | cons observation _ ih =>
    obtain ⟨⟨_, _⟩, first, others⟩ := bind_eq_some_iff.1 done
    obtain ⟨⟨_, _⟩, later, is⟩ := bind_eq_some_iff.1 others
    cases is
    exact ih later (fun other mem => stored other (mem_cons_of_mem _ mem))
      (derivedResult_identified first (stored observation (mem_cons_self ..)) known)

variable {stored : StoredReport}

theorem Env.mem_of_report? {id : Uuid} (found : env.report? id = some stored) :
    stored ∈ env.observations.reports ∧ stored.report.id = id :=
  ⟨mem_of_find?_eq_some found, by simpa using find?_some found⟩

theorem Env.mem_of_observation? {id : Uuid} {stored : StoredObservation}
    (found : env.observation? id = some stored) :
    stored ∈ env.observations.single ∧ stored.observation.id = id :=
  ⟨mem_of_find?_eq_some found, by simpa using find?_some found⟩

variable {observations : Observations}

theorem Observations.mem_all_of_single {stored : StoredObservation}
    (mem : stored ∈ observations.single) : stored.observation ∈ observations.all :=
  mem_append_left _ (mem_map_of_mem mem)

theorem Observations.mem_all_of_derived (mem : stored ∈ observations.reports)
    (derived : observation ∈ stored.report.derived) : observation ∈ observations.all :=
  mem_append_right _ (mem_flatMap.2 ⟨stored, mem, derived⟩)

theorem Db.Identified.recordReport (known : db.Identified env)
    (mem : stored ∈ env.observations.reports) {succeeded : Bool} :
    (db.recordReport stored succeeded).Identified env :=
  known.log _ fun _ observation there => env.observations.reportsElse observation there stored mem

theorem performReportReconciliation_identified
    (done : db.performReportReconciliation env stored failed chance = some db')
    (mem : stored ∈ env.observations.reports) (known : db.Identified env) :
    db'.Identified env := by
  obtain ⟨⟨between, outcomes⟩, derived, done⟩ := bind_eq_some_iff.1 done
  cases done
  have beside := Db.Beside.applyReport between stored.source stored.report outcomes
  exact ((derivedResults_identified derived
    (fun _ => mem_all_of_derived mem) known).of_eq beside.resources
      beside.identifiers beside.reconciliations).recordReport mem

/-- What a turn may do to the tables. -/
inductive Turn (env : Env) (db : Db) : Op → Db → Prop
  | idle {op : Op} : Turn env db op db
  | failed {op : Op} (last : Reconciliation) (fails : last.succeeded = false)
      (unmatched : last.matchedResourceId = none) :
      Turn env db op { db with reconciliations := db.reconciliations ++ [last] }
  | observed {id newId : Uuid} {once : Bool} {chance : Chance} {stored : StoredObservation}
      {db' : Db} {resource : Option Uuid} (found : env.observation? id = some stored)
      (done : db.performResourceReconciliation env stored.source stored.observation newId =
        some (db', resource)) : Turn env db (.observation id once chance) db'
  | reported {op : Op} {stored : StoredReport} {failed : List Uuid} {chance : Chance} {db' : Db}
      (mem : stored ∈ env.observations.reports)
      (done : db.performReportReconciliation env stored failed chance = some db') :
      Turn env db op db'

theorem step_turn (env : Env) (db : Db) (op : Op) : Turn env db op (step env db op) := by
  cases op with
  | observation =>
    unfold step
    dsimp only
    split
    · exact .idle
    rename_i found
    split
    · exact .idle
    split
    · rename_i turn
      unfold observationTurn at turn
      dsimp only at turn
      split at turn
      · cases turn
      obtain ⟨_, done, turn⟩ := bind_eq_some_iff.1 turn
      split at turn
      · cases turn
      cases turn
      exact .observed found done
    · exact .failed _ rfl rfl
  | report =>
    unfold step
    dsimp only
    split
    · exact .idle
    rename_i found
    have mem := (Env.mem_of_report? found).1
    split
    · exact .idle
    split
    · rename_i done
      split
      · exact .failed _ rfl rfl
      · exact .reported mem done
    · exact .idle
  | failResource =>
    unfold step
    dsimp only
    split
    · exact .idle
    split
    · exact .idle
    split
    · exact .idle
    · exact .failed _ rfl rfl

/-- **One turn** keeps the invariant. -/
theorem Turn.identified {op : Op} (turn : Turn env db op db') (known : db.Identified env) :
    db'.Identified env := by
  cases turn with
  | idle => exact known
  | failed last fails => exact known.log last (by simp [fails])
  | observed found done =>
    exact performResourceReconciliation_identified done
      (mem_all_of_single (Env.mem_of_observation? found).1) known
  | reported mem done => exact performReportReconciliation_identified done mem known

theorem run_identified (env : Env) (ops : List Op) : (run env ops).Identified env :=
  Run.run_invariant (fun _ _ => (step_turn ..).identified) .empty ops

/-! ### Observations that lead to several resources -/

/-- Strong identifiers of the observation belong to different resources. -/
def Db.Torn (env : Env) (db : Db) (observation : Observation) : Prop :=
  ∃ one ∈ observationIdentifiers env.names observation.payload,
    ∃ other ∈ observationIdentifiers env.names observation.payload,
      one.kind ∈ strongIdentifierKinds ∧ other.kind ∈ strongIdentifierKinds ∧
        ∃ known ∈ db.identifiers, ∃ known' ∈ db.identifiers,
          one.Known known ∧ other.Known known' ∧ known.resourceId ≠ known'.resourceId

/-- No resource, identifier, field or membership was touched, and no claim was linked to a
resource. -/
structure Db.AttachesNothing (db db' : Db) : Prop where
  resources : db'.resources = db.resources
  identifiers : db'.identifiers = db.identifiers
  hosts : db'.hosts = db.hosts
  networks : db'.networks = db.networks
  targets : db'.targets = db.targets
  members : db'.members = db.members
  conditions : db'.conditions = db.conditions
  claims : ∀ claim ∈ db'.claims, claim ∈ db.claims ∨ claim.resourceId = none

theorem Db.attachesNothing_recordAttempt (db : Db) :
    db.AttachesNothing (db.recordAttempt source observation false none) :=
  ⟨rfl, rfl, rfl, rfl, rfl, rfl, rfl, fun _ => .inl⟩

theorem Db.Torn.perform (torn : db.Torn env observation) (rooted : db.Rooted) (source : Source)
    (newId : Uuid) :
    ∃ db', db.performResourceReconciliation env source observation newId = some (db', none) ∧
      db.AttachesNothing db' ∧ db'.reconciliations = db.reconciliations ++
        [⟨observation.id, observation.observedAt, source.kind, false, none⟩] := by
  obtain ⟨_, mem, _, mem', strong, strong', _, there, _, there', leads, leads', ne⟩
    := torn
  unfold performResourceReconciliation
  dsimp only
  split
  · rename_i resourceId _ found
    refine absurd ?_ ne
    rw [rooted.matchResource_found found mem strong there leads,
      rooted.matchResource_found found mem' strong' there' leads']
  · rename_i none
    exact absurd leads (rooted.matchResource_none none mem strong there)
  refine ⟨_, rfl, ⟨rfl, rfl, rfl, rfl, rfl, rfl, rfl, fun _ mem => ?_⟩, rfl⟩
  rcases mem_append.1 mem with mem | mem
  · obtain ⟨_, _, rfl⟩ := mem_map.1 mem
    exact .inr rfl
  · exact .inl (mem_of_mem_filter mem)

theorem Db.Identified.not_succeeded (known : db.Identified env) (torn : db.Torn env observation)
    (stored : observation ∈ env.observations.all) :
    ∀ result ∈ db.reconciliations, result.observationId = observation.id →
      result.succeeded = false := by
  intro result mem same
  by_contra succeeded
  obtain ⟨resourceId, _, held⟩ := known.settled result mem (by simpa using succeeded) observation
    stored same.symm
  obtain ⟨one, mem, other, mem', strong, strong', row, there, row', there', leads, leads', ne⟩ :=
    torn
  have its : ∀ identifier ∈ observationIdentifiers env.names observation.payload,
      identifier.kind ∈ strongIdentifierKinds → ∀ row ∈ db.identifiers, identifier.Known row →
        row.resourceId = resourceId := by
    intro identifier listed strong row there leads
    obtain ⟨row', kept, rfl, leads'⟩ := held identifier listed
    exact known.unique row there row' kept (leads.1 ▸ strong) (leads.1.trans leads'.1.symm)
      (leads.2.trans leads'.2.symm)
  exact ne ((its one mem strong row there leads).trans
    (its other mem' strong' row' there' leads').symm)

variable {result : Reconciliation}

theorem latestResult_concat (its : result.observationId = observation.id)
    (log : db'.reconciliations = db.reconciliations ++ [result]) :
    db'.latestResult observation.id = some result := by
  rw [latestResult, log, filter_append]
  simp [its]

theorem mem_of_latestResult {id : Uuid} (latest : db.latestResult id = some result) :
    result ∈ db.reconciliations ∧ result.observationId = id := by
  have mem := mem_of_getLast? latest
  exact ⟨mem_of_mem_filter mem, by simpa using of_mem_filter mem⟩

theorem Db.AttachesNothing.refl : db.AttachesNothing db :=
  ⟨rfl, rfl, rfl, rfl, rfl, rfl, rfl, fun _ => .inl⟩

theorem Env.observation?_of_mem {stored : StoredObservation}
    (mem : stored ∈ env.observations.single) :
    ∃ stored', env.observation? stored.observation.id = some stored' ∧
      stored'.observation = stored.observation := by
  have there : (env.observation? stored.observation.id).isSome :=
    find?_isSome.2 ⟨stored, mem, by simp⟩
  obtain ⟨stored', found⟩ := isSome_iff_exists.1 there
  obtain ⟨mem', same⟩ := Env.mem_of_observation? found
  exact ⟨stored', found, env.observations.apart _ (mem_all_of_single mem') _
    (mem_all_of_single mem) same⟩

theorem Db.Torn.step {stored : StoredObservation} (torn : db.Torn env stored.observation)
    (known : db.Identified env) (mem : stored ∈ env.observations.single) (once : Bool)
    (chance : Chance) :
    let db' := Inventory.step env db (.observation stored.observation.id once chance)
    db.AttachesNothing db' ∧ ∃ result,
      db'.latestResult stored.observation.id = some result ∧ result.succeeded = false := by
  intro db'
  obtain ⟨stored', found, same⟩ := Env.observation?_of_mem mem
  have all := mem_all_of_single mem
  have is : db' = if once = true ∧ (db.latestResult stored.observation.id).isSome then db
      else (db.observationTurn env stored' chance).getD
        (db.recordAttempt stored'.source stored'.observation false none) := by
    show Inventory.step env db (.observation stored.observation.id once chance) = _
    simp only [Inventory.step, found]
    cases db.observationTurn env stored' chance <;> rfl
  rw [is]
  split
  · rename_i before
    obtain ⟨result, latest⟩ := isSome_iff_exists.1 before.2
    obtain ⟨mem, its⟩ := mem_of_latestResult latest
    exact ⟨.refl, result, latest, known.not_succeeded torn all result mem its⟩
  cases turn : db.observationTurn env stored' chance with
  | none =>
    rw [getD_none, same]
    exact ⟨db.attachesNothing_recordAttempt, _, latestResult_concat rfl rfl, rfl⟩
  | some =>
    unfold observationTurn at turn
    rw [same] at turn
    dsimp only at turn
    split at turn
    · cases turn
    obtain ⟨_, performed, nothing, log⟩ := torn.perform known.rooted stored'.source
      (chance.newId stored.observation.id)
    obtain ⟨_, done, turn⟩ := bind_eq_some_iff.1 turn
    cases performed.symm.trans done
    rw [if_neg (by simp)] at turn
    cases turn
    exact ⟨nothing, _, latestResult_concat rfl log, rfl⟩

theorem Db.Torn.derivedResult (torn : db.Torn env observation) (known : db.Identified env)
    (stored : observation ∈ env.observations.all)
    (done : db.derivedResult env source observation failed chance = some (db', resource)) :
    db.AttachesNothing db' ∧ resource = none := by
  rcases derivedResult_cases done with ⟨result, latest, rfl, before⟩ | performed
  · obtain ⟨mem, its⟩ := mem_of_latestResult latest
    have unsuccessful := known.not_succeeded torn stored result mem its
    rcases before with ⟨succeeded, _⟩ | none
    · rw [unsuccessful] at succeeded
      cases succeeded
    · exact ⟨.refl, none⟩
  obtain ⟨_, refused, nothing, _⟩ := torn.perform known.rooted source
    (chance.newId observation.id)
  cases refused.symm.trans performed
  exact ⟨nothing, rfl⟩

/-! ### Memberships -/

/-- A membership of a resource that an outcome reports. -/
def Member.Reported (source : Source) (outcomes : List Outcome) (member : Member) : Prop :=
  ∃ outcome ∈ outcomes, outcome.resource = some member.resourceId ∧
    member.target = (source.id, outcome.target)

/-- The members are those that were there, withdrawn perhaps, and reported ones. -/
def Db.Enlists (source : Source) (outcomes : List Outcome) (db db' : Db) : Prop :=
  ∀ member ∈ db'.members, member.Reported source outcomes ∨
    ∃ old ∈ db.members, ∃ withdrawnAt, member = { old with withdrawnAt }

variable {member : Member}

namespace Db.Enlists

variable {outcomes : List Outcome} {db'' : Db}

theorem of_eq (same : db'.members = db.members) : db.Enlists source outcomes db' := by
  intro member mem
  rw [same] at mem
  exact .inr ⟨member, mem, member.withdrawnAt, rfl⟩

theorem trans (one : db.Enlists source outcomes db') (two : db'.Enlists source outcomes db'') :
    db.Enlists source outcomes db'' := by
  intro member mem
  rcases two member mem with reported | ⟨old, was, withdrawnAt, rfl⟩
  · exact .inl reported
  rcases one old was with reported | ⟨older, been, _, rfl⟩
  · exact .inl reported
  · exact .inr ⟨older, been, withdrawnAt, rfl⟩

theorem writeMember (enlists : db.Enlists source outcomes db')
    (fits : member.Reported source outcomes ∨
      ∃ old ∈ db.members, ∃ withdrawnAt, member = { old with withdrawnAt }) :
    db.Enlists source outcomes (db'.writeMember member) := by
  intro other mem
  rcases mem_place.1 mem with ⟨was, _⟩ | rfl
  · exact enlists other was
  · exact fits

end Db.Enlists

variable {observedAt : Time}

theorem Member.changeDomain_key {previous : Member} {domain : Option DomainState} :
    (member.changeDomain previous domain observedAt).key = member.key := by
  unfold Member.changeDomain
  split
  · rfl
  split <;> rfl

theorem putMember_key (target : CollectorTarget) {member : Option Member}
    (its : ∀ old, member = some old → old.key = (target.key, resourceId))
    (domain : Option DomainState) (observedAt : Time) :
    (putMember target member resourceId domain observedAt).key = (target.key, resourceId) := by
  unfold putMember
  dsimp only
  split
  · rw [Member.changeDomain_key]
    rfl
  rename_i old
  rw [Member.changeDomain_key]
  exact its old rfl

theorem enlists_recordMembers {target : CollectorTarget} {key : String}
    (at_ : target.key = (source.id, key)) (observedAt : Time) (under : List Outcome)
    (listed : ∀ outcome ∈ under, outcome ∈ outcomes ∧ outcome.target = key) (db : Db) :
    db.Enlists source outcomes (db.recordMembers target observedAt under).1 := by
  induction under generalizing db with
  | nil => exact .of_eq rfl
  | cons outcome rest ih =>
    have rest' : ∀ other ∈ rest, other ∈ outcomes ∧ other.target = key := fun other mem =>
      listed other (mem_cons_of_mem _ mem)
    unfold recordMembers
    split
    · exact ih rest' db
    rename_i resourceId is
    refine (Db.Enlists.writeMember (.of_eq rfl) (.inl ?_)).trans (ih rest' _)
    have written := putMember_key target
      (fun old (found : db.members.get? (target.key, resourceId) = some old) =>
        key_of_get? found) outcome.domain observedAt
    obtain ⟨mem, same⟩ := listed outcome (mem_cons_self ..)
    refine ⟨outcome, mem, ?_, ?_⟩
    · rw [is]
      exact congrArg some (congrArg Prod.snd written).symm
    rw [same, ← at_]
    exact congrArg Prod.fst written

theorem putTarget_key {target : Option CollectorTarget} {reported : ReportedTarget}
    (its : ∀ old, target = some old → old.key = (source.id, reported.key)) {report : Report} :
    (putTarget target source report reported).key = (source.id, reported.key) := by
  unfold putTarget
  dsimp only
  split
  · rfl
  rename_i old
  split <;> exact its old rfl

theorem enlists_applyTargets (report : Report) (outcomes : List Outcome)
    {targets : List ReportedTarget} (db : Db) :
    db.Enlists source outcomes (db.applyTargets source report outcomes targets).1 := by
  induction targets generalizing db with
  | nil => exact .of_eq rfl
  | cons reported _ ih =>
    refine Db.Enlists.trans ?_ (ih _)
    refine Db.Enlists.trans (.of_eq rfl) (enlists_recordMembers
      (putTarget_key (fun _ found => key_of_get? found)) report.observedAt
      (outcomesOf outcomes reported.key) ?_ _)
    intro _ mem
    exact ⟨mem_of_mem_filter mem, by simpa using of_mem_filter mem⟩

theorem enlists_withdrawUnreported (outcomes : List Outcome) (db : Db) (applied : Applied) :
    db.Enlists source outcomes (db.withdrawUnreported observedAt applied) := by
  unfold withdrawUnreported
  split
  · -- The members withdrawn are those of the table before.
    refine foldlRecOn (motive := db.Enlists source outcomes) _ _ (.of_eq rfl) ?_
    intro _ enlists member mem
    have written := enlists.writeMember
      (.inr ⟨member, mem_of_mem_filter mem, some observedAt, rfl⟩)
    unfold withdraw
    dsimp only
    split <;> exact written
  · exact .of_eq rfl

theorem enlists_applyReport (db : Db) (source : Source) (report : Report)
    (outcomes : List Outcome) :
    db.Enlists source outcomes (db.applyReport source report outcomes) := by
  -- After the targets, members are withdrawn and then conditions alone are written.
  refine foldlRecOn (motive := db.Enlists source outcomes) _ _ ?_ ?_
  · refine foldlRecOn (motive := db.Enlists source outcomes) _ _ ?_ ?_
    · exact enlists_applyTargets report outcomes db
    · exact fun _ enlists applied _ =>
        enlists.trans (enlists_withdrawUnreported outcomes _ applied)
  intro before enlists id _
  obtain ⟨_, is, _⟩ := keepClaimedInventoryCurrent_eq before id
  exact enlists.trans (.of_eq (by rw [is]))

/-- A reconciled outcome is that of a derived observation that did not lead to several
resources when its turn came. -/
theorem derivedResults_outcome
    (done : db.derivedResults env source failed chance derived = some (db', outcomes))
    (stored : ∀ observation ∈ derived, observation ∈ env.observations.all)
    (known : db.Identified env) {outcome : Outcome} (mem : outcome ∈ outcomes)
    (reconciled : outcome.resource = some resourceId) :
    ∃ before observation after, derived = before ++ observation :: after ∧
      observation.target.getD "" = outcome.target ∧
      ∃ mid earlier, db.derivedResults env source failed chance before = some (mid, earlier) ∧
        ¬ mid.Torn env observation ∧
        ∃ mid', mid.derivedResult env source observation failed chance
          = some (mid', some resourceId) := by
  induction derived generalizing db outcomes with
  | nil =>
    cases done
    cases mem
  | cons observation rest ih =>
    obtain ⟨⟨between, resource⟩, first, others⟩ := bind_eq_some_iff.1 done
    obtain ⟨⟨after, _⟩, next, is⟩ := bind_eq_some_iff.1 others
    cases is
    have all := stored observation (mem_cons_self ..)
    rcases mem_cons.1 mem with rfl | mem
    · refine ⟨[], observation, rest, rfl, rfl, db, [], rfl, fun torn => ?_, between, ?_⟩
      · obtain ⟨_, none⟩ := torn.derivedResult known all first
        rw [show resource = _ from reconciled] at none
        cases none
      · rw [first, ← show resource = _ from reconciled]
    obtain ⟨before, other, after, rfl, target, mid, earlier, reached, untorn, own⟩ :=
      ih next (fun other mem => stored other (mem_cons_of_mem _ mem))
        (derivedResult_identified first all known) mem
    have reached' : db.derivedResults env source failed chance (observation :: before)
        = some (mid, ⟨observation.target.getD "", resource, observation.payload.domain⟩ ::
          earlier) := by
      simp only [derivedResults, first, bind_eq_bind, bind_some, reached]
    exact ⟨observation :: before, other, after, rfl, target, mid, _, reached', untorn, own⟩

/-! ### Runs -/

/-- An observation that leads to several resources attaches nothing, and its outcome is a
failure. -/
def Db.RefusesTorn (env : Env) (db : Db) : Prop :=
  ∀ stored ∈ env.observations.single, db.Torn env stored.observation → ∀ once chance,
    let db' := step env db (.observation stored.observation.id once chance)
    db.AttachesNothing db' ∧ ∃ result,
      db'.latestResult stored.observation.id = some result ∧ result.succeeded = false

/-- The same of an observation derived from a report, in the state its turn comes in.  A
membership is there before the report, or belongs to a derived observation that was
reconciled. -/
def Db.RefusesTornDerived (env : Env) (db : Db) : Prop :=
  ∀ stored ∈ env.observations.reports, ∀ failed chance,
    (∀ before observation after mid outcomes mid' resource,
      stored.report.derived = before ++ observation :: after →
      db.derivedResults env stored.source failed chance before = some (mid, outcomes) →
      mid.Torn env observation →
      mid.derivedResult env stored.source observation failed chance = some (mid', resource) →
        mid.AttachesNothing mid' ∧ resource = none) ∧
    ∀ once, ∀ member ∈ (step env db (.report stored.report.id once failed chance)).members,
      (∃ old ∈ db.members, ∃ withdrawnAt, member = { old with withdrawnAt }) ∨
        ∃ before observation after mid outcomes mid',
          stored.report.derived = before ++ observation :: after ∧
            db.derivedResults env stored.source failed chance before = some (mid, outcomes) ∧
            ¬ mid.Torn env observation ∧
            mid.derivedResult env stored.source observation failed chance
              = some (mid', some member.resourceId) ∧
            observation.target = some member.target.2

theorem derivedResults_members
    (done : db.derivedResults env source failed chance derived = some (db', outcomes)) :
    db'.members = db.members := by
  induction derived generalizing db outcomes with
  | nil =>
    cases done
    rfl
  | cons _ _ ih =>
    obtain ⟨⟨_, _⟩, first, others⟩ := bind_eq_some_iff.1 done
    obtain ⟨⟨_, _⟩, next, is⟩ := bind_eq_some_iff.1 others
    cases is
    rw [ih next]
    rcases derivedResult_cases first with ⟨_, _, rfl, _⟩ | performed
    · rfl
    rcases performResourceReconciliation_cases performed with ⟨_, rfl⟩ | ⟨_, _, attaches⟩
    · rfl
    exact attaches.members

theorem Env.report?_of_mem (mem : stored ∈ env.observations.reports) :
    env.report? stored.report.id = some stored := by
  have there : (env.report? stored.report.id).isSome := find?_isSome.2 ⟨stored, mem, by simp⟩
  obtain ⟨stored', found⟩ := isSome_iff_exists.1 there
  obtain ⟨mem', same⟩ := Env.mem_of_report? found
  rw [found, env.observations.reportsApart stored' mem' stored mem same]

/-- The members after a report, each with where it comes from. -/
theorem performReportReconciliation_members
    (done : db.performReportReconciliation env stored failed chance = some db')
    (mem : stored ∈ env.observations.reports) (known : db.Identified env)
    (there : member ∈ db'.members) :
    (∃ old ∈ db.members, ∃ withdrawnAt, member = { old with withdrawnAt }) ∨
      ∃ before observation after mid outcomes mid',
        stored.report.derived = before ++ observation :: after ∧
          db.derivedResults env stored.source failed chance before = some (mid, outcomes) ∧
          ¬ mid.Torn env observation ∧
          mid.derivedResult env stored.source observation failed chance
            = some (mid', some member.resourceId) ∧
          observation.target = some member.target.2 := by
  obtain ⟨⟨between, outcomes⟩, derived, done⟩ := bind_eq_some_iff.1 done
  cases done
  rcases enlists_applyReport between stored.source stored.report outcomes member there with
    ⟨outcome, listed, reconciled, target⟩ | old
  · obtain ⟨before, observation, after, split, named, mid, earlier, reached, untorn, mid', own⟩ :=
      derivedResults_outcome derived (fun _ => mem_all_of_derived mem) known listed
        reconciled
    refine .inr ⟨before, observation, after, mid, earlier, mid', split, reached, untorn, own, ?_⟩
    obtain ⟨_, _, is⟩ := stored.report.listed observation (by rw [split]; simp)
    rw [is, getD_some] at named
    rw [is, target, named]
  rw [derivedResults_members derived] at old
  exact .inl old

/-- **Strong identifiers belong to one resource.**  In every run of turns, in any order and with
any failures, no strong identifier belongs to two resources; and an observation whose strong
identifiers do lead to several resources, by itself or in a report, fails and leaves resources,
identifiers, fields and memberships as they were. -/
theorem run_keeps_identity (env : Env) (ops : List Op) :
    (run env ops).UniqueIdentity ∧ (run env ops).RefusesTorn env ∧
      (run env ops).RefusesTornDerived env := by
  have known := run_identified env ops
  generalize run env ops = db at known
  refine ⟨known.unique, fun stored mem torn => torn.step known mem, ?_⟩
  intro stored mem _ _
  have all : ∀ observation ∈ stored.report.derived, observation ∈ env.observations.all :=
    fun _ => mem_all_of_derived mem
  constructor
  · intro before observation _ _ _ _ _ split reached torn done
    have before' : ∀ other ∈ before, other ∈ env.observations.all := fun other mem' =>
      all other (by rw [split]; exact mem_append_left _ mem')
    exact torn.derivedResult (derivedResults_identified reached before' known)
      (all observation (by rw [split]; simp)) done
  intro _ member there
  have unchanged : member ∈ db.members →
      ∃ old ∈ db.members, ∃ withdrawnAt, member = { old with withdrawnAt } :=
    fun was => ⟨member, was, member.withdrawnAt, rfl⟩
  simp only [step, Env.report?_of_mem mem] at there
  split at there
  · exact .inl (unchanged there)
  split at there
  · rename_i turn
    split at there
    · exact .inl (unchanged there)
    · exact performReportReconciliation_members turn mem known there
  · exact .inl (unchanged there)

/-- **A strong identifier leads to one resource, whoever reports it.**  Observations that share
one are only ever reconciled to the same resource. -/
theorem run_reconciles_alike (env : Env) (ops : List Op) :
    let db := run env ops
    ∀ one ∈ db.reconciliations, ∀ two ∈ db.reconciliations, one.succeeded → two.succeeded →
      ∀ first ∈ env.observations.all, first.id = one.observationId →
      ∀ second ∈ env.observations.all, second.id = two.observationId →
      ∀ i ∈ observationIdentifiers env.names first.payload, i.kind ∈ strongIdentifierKinds →
      ∀ j ∈ observationIdentifiers env.names second.payload, i.kind = j.kind →
      i.normalizedValue = j.normalizedValue → one.matchedResourceId = two.matchedResourceId := by
  intro db one mem two mem' done done' first stored its second stored' its' i has strong j has'
    kind value
  have known := run_identified env ops
  obtain ⟨_, matched, owns⟩ := known.settled one mem done first stored its
  obtain ⟨_, matched', owns'⟩ := known.settled two mem' done' second stored' its'
  obtain ⟨row, there, rfl, leads⟩ := owns i has
  obtain ⟨row', there', rfl, leads'⟩ := owns' j has'
  have same : row.resourceId = row'.resourceId := known.unique row there row' there'
    (leads.1 ▸ strong) (leads.1.trans (kind.trans leads'.1.symm))
    (leads.2.trans (value.trans leads'.2.symm))
  rw [matched, matched', same]

end Renga.Inventory
