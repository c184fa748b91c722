import Renga.Topology.Neighbors

/-!
# Neighbors, whatever the order of arrival

Observations of neighbors come in in any order, more than once, and between sweeps that let
evidence expire.  What is active in the end depends on which observations came in and on the
last time that was read, and on nothing else.
-/

namespace Renga.Topology.Neighbors

open List KeyTable Option

/-! ### What an arrival says -/

def Env.find (env : Env) (arrival : Arrival) : Option (Observation × Source) := do
  let observation ← env.observations.get? arrival.observationId
  let source ← env.sources.get? observation.sourceId
  let _ ← env.resources.find? (·.id = arrival.resourceId)
  return (observation, source)

def Env.recorded (env : Env) (arrival : Arrival) : Option (List Fact) := do
  let (observation, _) ← env.find arrival
  Evidence.recordAll Fact.observationEndpoint env.texts.valid []
    (env.reportedNeighbors observation arrival.resourceId)

def Env.boundary (env : Env) (arrival : Arrival) : Option SnapshotEvent := do
  let _ ← env.recorded arrival
  let (observation, source) ← env.find arrival
  if completeSnapshot source observation then
    some ⟨arrival.resourceId, source.id, observation.id, .interfaceNeighbors,
      observation.observedAt⟩
  else none

def Env.facts (env : Env) (arrivals : List Arrival) : List Fact :=
  arrivals.flatMap fun arrival => (env.recorded arrival).getD []

def Env.boundaries (env : Env) (arrivals : List Arrival) : List SnapshotEvent :=
  arrivals.filterMap env.boundary

/-- How facts are read: a boundary is drawn by a source for a resource. -/
def Env.reading (env : Env) :
    Evidence.Reading Fact (Uuid × Endpoint) (Option Uuid × Uuid) ObservationOrder where
  identity := Fact.identity
  scope := fun fact => (env.interfaces.resourceOf fact.localInterfaceId, fact.sourceId)
  order := Fact.order

def Env.Stands (env : Env) (arrivals : List Arrival) (fact : Fact) : Prop :=
  env.reading.Stands (env.facts arrivals) (marks (env.boundaries arrivals) .interfaceNeighbors) fact

def Op.arrival : Op → Option Arrival
  | .reconcile observationId resourceId _ => some ⟨observationId, resourceId⟩
  | .expire _ => none

def Op.asOf : Op → Time
  | .reconcile _ _ asOf => asOf
  | .expire asOf => asOf

def Op.commits (env : Env) : Op → Bool
  | .reconcile observationId resourceId _ => (env.recorded ⟨observationId, resourceId⟩).isSome
  | .expire _ => true

def arrivalsOf (ops : List Op) : List Arrival := ops.filterMap Op.arrival

variable {env : Env} {ids : Ids} {db db' : Db} {arrival : Arrival} {arrivals : List Arrival}
  {fact : Fact}

theorem mem_facts : fact ∈ env.facts arrivals ↔
    ∃ arrival ∈ arrivals, ∃ facts, env.recorded arrival = some facts ∧ fact ∈ facts :=
  Evidence.mem_flatMap_getD

variable {observation : Observation} {resourceId : Uuid}

theorem about_of_mem_reportedNeighbors (mem : fact ∈ env.reportedNeighbors observation resourceId) :
    fact.observationId = observation.id ∧ fact.sourceId = observation.sourceId ∧
      env.interfaces.resourceOf fact.localInterfaceId = some resourceId := by
  obtain ⟨_, -, mem⟩ := mem_flatMap.1 mem
  split at mem
  · rename_i interface is
    obtain ⟨_, -, rfl⟩ := mem_map.1 mem
    exact ⟨rfl, rfl, Interfaces.resourceOf_named is⟩
  · exact absurd mem not_mem_nil

variable {source : Source}

theorem find_eq_some (is : env.find arrival = some (observation, source)) :
    observation.id = arrival.observationId ∧ source.id = observation.sourceId := by
  obtain ⟨_, isObservation, is⟩ := bind_eq_some_iff.1 is
  obtain ⟨_, isSource, is⟩ := bind_eq_some_iff.1 is
  obtain ⟨-, -, is⟩ := bind_eq_some_iff.1 is
  obtain ⟨rfl, rfl⟩ := Prod.mk.inj (some.inj is)
  exact ⟨key_of_get? isObservation, key_of_get? isSource⟩

theorem about_of_recorded {facts : List Fact} (is : env.recorded arrival = some facts)
    (mem : fact ∈ facts) : fact.observationId = arrival.observationId ∧
      env.interfaces.resourceOf fact.localInterfaceId = some arrival.resourceId := by
  obtain ⟨⟨_, _⟩, found, is⟩ := bind_eq_some_iff.1 is
  obtain ⟨-, comes, -⟩ := Evidence.mem_of_recordAll is
  rcases comes fact mem with mem | mem
  · exact absurd mem not_mem_nil
  obtain ⟨its, -, resource⟩ := about_of_mem_reportedNeighbors mem
  exact ⟨its.trans (find_eq_some found).1, resource⟩

variable {event : SnapshotEvent}

theorem about_of_boundary (is : env.boundary arrival = some event) :
    event.observationId = arrival.observationId ∧ event.resourceId = arrival.resourceId ∧
      event.sectionName = .interfaceNeighbors := by
  obtain ⟨-, -, is⟩ := bind_eq_some_iff.1 is
  obtain ⟨⟨_, _⟩, found, is⟩ := bind_eq_some_iff.1 is
  dsimp only at is
  split at is
  · obtain rfl := some.inj is
    exact ⟨(find_eq_some found).1, rfl, rfl⟩
  · cases is

/-! ### What a turn writes -/

def Db.facts (db : Db) : List Fact := db.evidence.rows.map Evidence.fact

theorem mem_db_facts : fact ∈ db.facts ↔ ∃ row ∈ db.evidence, row.fact = fact := mem_map

theorem facts_putEvidence : (db.putEvidence env ids fact).map Db.facts
    = Evidence.record Fact.observationEndpoint env.texts.valid db.facts fact := by
  unfold Db.putEvidence Evidence.record
  rw [Db.facts, List.any_map]
  refine (apply_ite (Option.map Db.facts) ..).trans (ite_congr rfl (fun _ => rfl) fun _ => ?_)
  refine (apply_ite (Option.map Db.facts) ..).trans (ite_congr rfl (fun _ => ?_) fun _ => rfl)
  exact congrArg some map_append

theorem facts_putAll (ids : Ids) {l : List Fact} :
    (l.foldlM (Db.putEvidence env ids) db).map Db.facts
    = Evidence.recordAll Fact.observationEndpoint env.texts.valid db.facts l :=
  Evidence.map_foldlM fun _ _ => facts_putEvidence

structure Appends (l : List Fact) (db db' : Db) : Prop where
  events : db'.events = db.events
  rows : ∀ row ∈ db'.evidence, row ∈ db.evidence ∨ (row.stale = none ∧ row.fact ∈ l)

theorem appends_putEvidence (is : db.putEvidence env ids fact = some db') :
    Appends [fact] db db' := by
  unfold Db.putEvidence at is
  split at is
  · obtain rfl := some.inj is
    exact ⟨rfl, fun row mem => .inl mem⟩
  split at is
  · obtain rfl := some.inj is
    refine ⟨rfl, fun _ mem => ((mem_add (ids.get?_next db.evidence)).1 mem).imp_right ?_⟩
    rintro rfl
    exact ⟨rfl, mem_cons_self⟩
  · cases is

theorem appends_putAll {l : List Fact} (is : l.foldlM (Db.putEvidence env ids) db = some db') :
    Appends l db db' := by
  induction l generalizing db with
  | nil =>
    obtain rfl := some.inj is
    exact ⟨rfl, fun row mem => .inl mem⟩
  | cons _ _ ih =>
    obtain ⟨_, one, is⟩ := bind_eq_some_iff.1 is
    have first := appends_putEvidence one
    have rest := ih is
    refine ⟨rest.events.trans first.events, fun row mem => ?_⟩
    rcases rest.rows row mem with mem | ⟨active, mem⟩
    · refine (first.rows row mem).imp_right (And.imp_right fun mem => ?_)
      exact mem_cons.2 (.inl (mem_singleton.1 mem))
    · exact .inr ⟨active, mem_cons_of_mem _ mem⟩

theorem reconcile_eq {asOf : Time} :
    db.reconcile env ids arrival.observationId arrival.resourceId asOf =
      (env.find arrival).bind fun found =>
        ((env.reportedNeighbors found.1 arrival.resourceId).foldlM
          (Db.putEvidence env ids) db).map fun next =>
            ((next.maybeRecordSnapshot found.2 found.1
              arrival.resourceId).refreshEvidenceStaleness env arrival.resourceId asOf).expire
                env asOf := by
  simp only [Db.reconcile, Env.find, bind_eq_bind, bind_assoc, map_eq_bind,
    Option.pure_def, bind_some, Function.comp_def]

/-! ### Staleness -/

theorem superseded_iff (env : Env) {row : Evidence} :
    row.fact.order < (db.latestIdentityEvidence row).fact.order ↔
      env.reading.Superseded db.facts row.fact := by
  have before : row.fact.order < (db.latestIdentityEvidence row).fact.order ↔
      Evidence.beforeLatest (·.fact.order)
        (db.evidence.rows.filter (·.fact.identity = row.fact.identity)) row.fact.order = true := by
    unfold Db.latestIdentityEvidence Evidence.beforeLatest
    cases (db.evidence.rows.filter (·.fact.identity = row.fact.identity)).argmax
        (·.fact.order) with
    | none | some => simp
  rw [before, Evidence.beforeLatest_iff]
  constructor
  · rintro ⟨other, mem, later⟩
    obtain ⟨mem, same⟩ := List.mem_filter.1 mem
    exact ⟨other.fact, mem_db_facts.2 ⟨other, mem, rfl⟩, of_decide_eq_true same, later⟩
  rintro ⟨_, mem, same, later⟩
  obtain ⟨other, memRow, rfl⟩ := mem_db_facts.1 mem
  exact ⟨other, List.mem_filter.2 ⟨memRow, decide_eq_true same⟩, later⟩

variable {asOf : Time}

theorem evidenceStaleness_eq_none_iff {item latest : Fact} {boundary : Option SnapshotEvent} :
    evidenceStaleness item latest boundary asOf = none ↔
      ¬item.order < latest.order ∧ asOf < item.expiresAt ∧
        ¬boundary.any (item.order < ·.order) = true := by
  unfold evidenceStaleness
  by_cases superseded : item.order < latest.order
  · simp [superseded]
  by_cases expired : item.expiresAt ≤ asOf
  · simp [superseded, expired]
  rw [if_neg superseded, if_neg expired, map_eq_none_iff, filter_eq_none_iff,
    Option.any_eq_true]
  simp [superseded, not_le.1 expired]

@[simp] theorem fact_maybeStale (row : Evidence) (stale : Option (Time × StaleReason)) :
    (row.maybeStale stale).fact = row.fact := by
  unfold Evidence.maybeStale
  split <;> rfl

variable {row : Evidence}

theorem stale_maybeStale_eq_none_iff {stale : Option (Time × StaleReason)} :
    (row.maybeStale stale).stale = none ↔ row.stale = none ∧ stale = none := by
  unfold Evidence.maybeStale
  split
  · next active => simp [active]
  · next stale => simp [stale]

@[simp] theorem fact_staleExpired {asOf : Time} : (row.staleExpired asOf).fact = row.fact := by
  unfold Evidence.staleExpired
  split
  · exact fact_maybeStale ..
  · rfl

theorem stale_staleExpired_eq_none_iff :
    (row.staleExpired asOf).stale = none ↔ row.stale = none ∧ asOf < row.fact.expiresAt := by
  unfold Evidence.staleExpired
  split
  · next expired => simp [stale_maybeStale_eq_none_iff, not_lt.2 expired]
  · next unexpired => simp [not_le.1 unexpired]

@[simp] theorem fact_refreshedEvidence {asOf : Time} :
    (db.refreshedEvidence env resourceId asOf row).fact = row.fact := by
  unfold Db.refreshedEvidence
  split
  · exact fact_maybeStale ..
  · rfl

/-- A row is active after it was refreshed if it was active and, on the resource, stands and has
not expired. -/
theorem stale_refreshedEvidence_eq_none_iff :
    (db.refreshedEvidence env resourceId asOf row).stale = none ↔ row.stale = none ∧
      (env.interfaces.resourceOf row.fact.localInterfaceId = some resourceId →
        env.reading.Stands db.facts (marks db.events .interfaceNeighbors) row.fact ∧
          asOf < row.fact.expiresAt) := by
  unfold Db.refreshedEvidence
  split
  · rename_i its
    have scope : env.reading.scope row.fact = (some resourceId, row.fact.sourceId) :=
      Prod.ext its rfl
    have withdrawn : env.reading.Withdrawn (marks db.events .interfaceNeighbors) row.fact ↔
        ∃ mark ∈ marks db.events .interfaceNeighbors,
          mark.1 = (some resourceId, row.fact.sourceId) ∧ row.fact.order < mark.2 := by
      unfold Evidence.Reading.Withdrawn
      rw [scope]
      rfl
    rw [stale_maybeStale_eq_none_iff, evidenceStaleness_eq_none_iff, superseded_iff env,
      before_latestBoundary_iff, ← withdrawn]
    refine and_congr_right fun _ => ?_
    constructor
    · exact fun ⟨latest, unexpired, within⟩ _ => ⟨⟨latest, within⟩, unexpired⟩
    intro holds
    obtain ⟨⟨latest, within⟩, unexpired⟩ := holds its
    exact ⟨latest, unexpired, within⟩
  · next elsewhere => exact ⟨fun active => ⟨active, fun its => absurd its elsewhere⟩, And.left⟩

/-! ### Runs -/

structure Tracks (env : Env) (arrivals : List Arrival) (readings : List Time) (db : Db) :
    Prop where
  facts : ∀ fact, fact ∈ db.facts ↔ fact ∈ env.facts arrivals
  events : ∀ event, event ∈ db.events ↔ event ∈ env.boundaries arrivals
  fallen : ∀ row ∈ db.evidence, row.stale ≠ none →
    ¬env.Stands arrivals row.fact ∨ ∃ reading ∈ readings, row.fact.expiresAt ≤ reading
  stands : ∀ row ∈ db.evidence, row.stale = none → env.Stands arrivals row.fact

variable {readings : List Time} {asOf : Time}
  (found : env.find arrival = some (observation, source))

theorem tracks_nothing : Tracks env [] [] {} where
  facts := fun _ => Iff.rfl
  events := fun _ => Iff.rfl
  fallen := fun _ mem => absurd mem (not_mem_empty _)
  stands := fun _ mem => absurd mem (not_mem_empty _)

include found in
theorem Tracks.arrival_of_same (tracks : Tracks env arrivals readings db) {other : Fact}
    (memFact : fact ∈ env.reportedNeighbors observation arrival.resourceId)
    (memOther : other ∈ db.facts) (same : other.observationEndpoint = fact.observationEndpoint) :
    arrival ∈ arrivals ∧ ∃ facts, env.recorded arrival = some facts := by
  obtain ⟨heard, memHeard, facts, recorded, mem⟩ := mem_facts.1 ((tracks.facts other).1 memOther)
  obtain ⟨observationOf, resourceOf⟩ := about_of_recorded recorded mem
  obtain ⟨its, -, resource⟩ := about_of_mem_reportedNeighbors memFact
  have sameObservation : other.observationId = fact.observationId := congrArg Prod.fst same
  have sameInterface : other.localInterfaceId = fact.localInterfaceId :=
    congrArg (·.2.localInterfaceId) same
  have is : heard = arrival := by
    have observationIs : heard.observationId = arrival.observationId := by
      rw [← observationOf, sameObservation, its, (find_eq_some found).1]
    have resourceIs : some heard.resourceId = some arrival.resourceId := by
      rw [← resourceOf, sameInterface, resource]
    exact Arrival.ext observationIs (some.inj resourceIs)
  exact is ▸ ⟨memHeard, facts, recorded⟩

include found in
theorem recorded_eq : env.recorded arrival =
      Evidence.recordAll Fact.observationEndpoint env.texts.valid []
        (env.reportedNeighbors observation arrival.resourceId) := by
  rw [Env.recorded, found]
  rfl

variable (tracks : Tracks env arrivals readings db)
include tracks

include found in
theorem Tracks.apart (new : arrival ∉ arrivals ∨ env.recorded arrival = none) :
    ∀ fact ∈ env.reportedNeighbors observation arrival.resourceId, ∀ other ∈ db.facts,
      other.observationEndpoint ≠ fact.observationEndpoint := by
  intro _ memFact _ memOther same
  obtain ⟨heard, _, recorded⟩ := tracks.arrival_of_same found memFact memOther same
  rcases new with new | refused
  · exact new heard
  rw [recorded] at refused
  cases refused

theorem Tracks.reconcile_of_refused (refused : env.recorded arrival = none) :
    db.reconcile env ids arrival.observationId arrival.resourceId asOf = none := by
  cases found : env.find arrival with
  | none => rw [reconcile_eq, found, bind_none]
  | some both =>
    have none := Evidence.recordAll_append_of_apart env.texts.valid
      (tracks.apart found (.inr refused)) []
    rw [append_nil, ← recorded_eq found, refused, map_none, ← facts_putAll ids,
      map_eq_none_iff] at none
    rw [reconcile_eq, found, bind_some, none, map_none]

variable {new : List Fact}

include found in
theorem Tracks.putAll (ids : Ids) (accepted : env.recorded arrival = some new) :
    ∃ next, (env.reportedNeighbors observation arrival.resourceId).foldlM
        (Db.putEvidence env ids) db = some next ∧
      ∀ fact, fact ∈ next.facts ↔ fact ∈ env.facts (arrivals ++ [arrival]) := by
  have once : (∀ fact ∈ env.reportedNeighbors observation arrival.resourceId,
      ∀ other ∈ db.facts, other.observationEndpoint ≠ fact.observationEndpoint) ∨
        new ⊆ db.facts := by
    by_cases heard : arrival ∈ arrivals
    · exact .inr fun fact mem =>
        (tracks.facts fact).2 (mem_facts.2 ⟨arrival, heard, new, accepted, mem⟩)
    · exact .inl (tracks.apart found (.inl heard))
  obtain ⟨_, is, mem⟩ := Evidence.mem_recordAll (recorded_eq found ▸ accepted) once
  rw [← facts_putAll ids] at is
  obtain ⟨next, put, rfl⟩ := map_eq_some_iff.1 is
  refine ⟨next, put, fun _ => ?_⟩
  rw [mem, tracks.facts, Env.facts, Env.facts, flatMap_append, mem_append]
  simp [accepted]

omit tracks

theorem facts_subset_concat : env.facts arrivals ⊆ env.facts (arrivals ++ [arrival]) := by
  rw [Env.facts, Env.facts, flatMap_append]
  exact subset_append_left ..

theorem boundaries_concat : env.boundaries (arrivals ++ [arrival])
    = env.boundaries arrivals ++ (env.boundary arrival).toList := by
  rw [Env.boundaries, Env.boundaries, filterMap_append, filterMap_cons]
  cases env.boundary arrival <;> rfl

theorem Env.Stands.of_concat (stands : env.Stands (arrivals ++ [arrival]) fact) :
    env.Stands arrivals fact := by
  refine stands.anti facts_subset_concat (marks_subset ?_)
  rw [boundaries_concat]
  exact subset_append_left ..

theorem Env.Stands.concat (stands : env.Stands arrivals fact)
    (elsewhere : env.interfaces.resourceOf fact.localInterfaceId ≠ some arrival.resourceId) :
    env.Stands (arrivals ++ [arrival]) fact := by
  refine Evidence.Reading.Stands.beside stands (fun new mem => ?_) fun _ mem => ?_
  · rw [Env.facts, flatMap_append, mem_append] at mem
    refine mem.imp_right fun mem same => elsewhere ?_
    obtain ⟨_, memArrival, _, recorded, its⟩ := mem_facts.1 mem
    obtain rfl := mem_singleton.1 memArrival
    have interface : new.localInterfaceId = fact.localInterfaceId :=
      congrArg (·.2.localInterfaceId) same
    rw [← interface]
    exact (about_of_recorded recorded its).2
  rw [boundaries_concat] at mem
  obtain ⟨event, memEvent, its, rfl⟩ := mem_marks.1 mem
  rcases mem_append.1 memEvent with memEvent | memEvent
  · exact .inl (mem_marks.2 ⟨event, memEvent, its, rfl⟩)
  refine .inr fun same => elsewhere ?_
  obtain ⟨-, resource, -⟩ := about_of_boundary (mem_toList.1 memEvent)
  rw [← resource]
  exact (congrArg Prod.fst same).symm

include found in
theorem boundary_eq (accepted : env.recorded arrival = some new) : env.boundary arrival =
      if completeSnapshot source observation then
        some ⟨arrival.resourceId, source.id, observation.id, .interfaceNeighbors,
          observation.observedAt⟩
      else none := by
  rw [Env.boundary, accepted, found]
  rfl

@[simp] theorem evidence_maybeRecordSnapshot :
    (db.maybeRecordSnapshot source observation resourceId).evidence = db.evidence := by
  unfold Db.maybeRecordSnapshot
  split <;> rfl

include found in
theorem Tracks.mem_events (tracks : Tracks env arrivals readings db)
    (accepted : env.recorded arrival = some new) (same : db'.events = db.events) :
    event ∈ (db'.maybeRecordSnapshot source observation arrival.resourceId).events ↔
      event ∈ env.boundaries (arrivals ++ [arrival]) := by
  have boundary := boundary_eq found accepted
  rw [boundaries_concat, mem_append, mem_toList, ← tracks.events, ← same]
  unfold Db.maybeRecordSnapshot
  split
  · rename_i complete
    rw [if_pos complete] at boundary
    rw [boundary, mem_putSnapshotEvent, some_inj, eq_comm (a := event)]
    -- An event of the same observation and resource was recorded by the same arrival.
    intro _ mem sameObservation sameResource _
    rw [same, tracks.events] at mem
    obtain ⟨heard, -, its⟩ := mem_filterMap.1 mem
    obtain ⟨ofObservation, ofResource, -⟩ := about_of_boundary its
    have is : heard = arrival := Arrival.ext
      (ofObservation.symm.trans (sameObservation.trans (find_eq_some found).1))
      (ofResource.symm.trans sameResource)
    rw [is, boundary] at its
    exact (some.inj its).symm
  rename_i partly
  rw [if_neg partly] at boundary
  simp [boundary]

theorem mem_evidence_expire : row ∈ (db.expire env asOf).evidence ↔
    ∃ old ∈ db.evidence, old.staleExpired asOf = row := mem_map

theorem mem_evidence_refresh :
    row ∈ (db.refreshEvidenceStaleness env resourceId asOf).evidence ↔
      ∃ old ∈ db.evidence, db.refreshedEvidence env resourceId asOf old = row := mem_map

theorem facts_expire : (db.expire env asOf).facts = db.facts :=
  Evidence.map_view_map fun _ => fact_staleExpired

theorem facts_refresh : (db.refreshEvidenceStaleness env resourceId asOf).facts = db.facts :=
  Evidence.map_view_map fun _ => fact_refreshedEvidence

variable (tracks : Tracks env arrivals readings db)
include tracks

theorem Tracks.expire :
    Tracks env arrivals (readings ++ [asOf]) (db.expire env asOf) where
  facts := by
    rw [facts_expire]
    exact tracks.facts
  events := tracks.events
  fallen := by
    intro row mem stale
    obtain ⟨old, memOld, rfl⟩ := mem_evidence_expire.1 mem
    rw [fact_staleExpired]
    by_cases active : old.stale = none
    · refine .inr ⟨asOf, mem_append_right _ mem_cons_self, not_lt.1 fun later => ?_⟩
      exact stale (stale_staleExpired_eq_none_iff.2 ⟨active, later⟩)
    refine (tracks.fallen old memOld active).imp_right ?_
    rintro ⟨reading, memReading, expired⟩
    exact ⟨reading, mem_append_left _ memReading, expired⟩
  stands := by
    intro _ mem active
    obtain ⟨old, memOld, rfl⟩ := mem_evidence_expire.1 mem
    rw [fact_staleExpired]
    exact tracks.stands old memOld (stale_staleExpired_eq_none_iff.1 active).1

theorem Tracks.refresh
    (appends : Appends (env.reportedNeighbors observation arrival.resourceId) db db')
    (facts : ∀ fact, fact ∈ db'.facts ↔ fact ∈ env.facts (arrivals ++ [arrival])) {next : Db}
    (evidence : next.evidence = db'.evidence)
    (events : ∀ event, event ∈ next.events ↔ event ∈ env.boundaries (arrivals ++ [arrival])) :
    Tracks env (arrivals ++ [arrival]) (readings ++ [asOf])
      (next.refreshEvidenceStaleness env arrival.resourceId asOf) := by
  have nextFacts : ∀ fact, fact ∈ next.facts ↔ fact ∈ env.facts (arrivals ++ [arrival]) := by
    rw [Db.facts, evidence]
    exact facts
  have standsIff : ∀ fact, env.reading.Stands next.facts
      (marks next.events .interfaceNeighbors) fact ↔ env.Stands (arrivals ++ [arrival]) fact :=
    fun fact =>
      ⟨fun stands => stands.anti (fun fact => (nextFacts fact).2)
          (marks_subset (fun event => (events event).2)),
        fun stands => stands.anti (fun fact => (nextFacts fact).1)
          (marks_subset (fun event => (events event).1))⟩
  have rows : ∀ row ∈ next.evidence, row ∈ db.evidence ∨ (row.stale = none ∧
      env.interfaces.resourceOf row.fact.localInterfaceId = some arrival.resourceId) := by
    intro row mem
    rw [evidence] at mem
    exact (appends.rows row mem).imp_right
      (And.imp_right fun mem => (about_of_mem_reportedNeighbors mem).2.2)
  refine ⟨by rwa [facts_refresh], events, fun row mem stale => ?_, fun _ mem active => ?_⟩
  · obtain ⟨old, memOld, rfl⟩ := mem_evidence_refresh.1 mem
    rw [fact_refreshedEvidence]
    by_cases active : old.stale = none
    · by_cases stands : env.Stands (arrivals ++ [arrival]) old.fact
      · refine .inr ⟨asOf, mem_append_right _ mem_cons_self, not_lt.1 fun later => ?_⟩
        exact stale (stale_refreshedEvidence_eq_none_iff.2
          ⟨active, fun _ => ⟨(standsIff old.fact).2 stands, later⟩⟩)
      · exact .inl stands
    rcases rows old memOld with memOld | ⟨new, -⟩
    · refine (tracks.fallen old memOld active).imp (mt Env.Stands.of_concat) ?_
      rintro ⟨reading, memReading, expired⟩
      exact ⟨reading, mem_append_left _ memReading, expired⟩
    · exact absurd new active
  obtain ⟨old, memOld, rfl⟩ := mem_evidence_refresh.1 mem
  rw [fact_refreshedEvidence]
  obtain ⟨wasActive, here⟩ := stale_refreshedEvidence_eq_none_iff.1 active
  by_cases its : env.interfaces.resourceOf old.fact.localInterfaceId = some arrival.resourceId
  · exact (standsIff old.fact).1 (here its).1
  rcases rows old memOld with memOld | ⟨-, resource⟩
  · exact (tracks.stands old memOld wasActive).concat its
  · exact absurd resource its

theorem Tracks.reconcile (ids : Ids)
    (accepted : env.recorded arrival = some new) (asOf : Time) :
    ∃ next, db.reconcile env ids arrival.observationId arrival.resourceId asOf
        = some (next.expire env asOf) ∧
      Tracks env (arrivals ++ [arrival]) (readings ++ [asOf]) next := by
  obtain ⟨⟨_, _⟩, found, -⟩ := bind_eq_some_iff.1 accepted
  obtain ⟨_, isPut, facts⟩ := tracks.putAll found ids accepted
  have appends := appends_putAll isPut
  refine ⟨_, by rw [reconcile_eq, found, bind_some, isPut, map_some], ?_⟩
  exact tracks.refresh appends facts evidence_maybeRecordSnapshot
    fun _ => tracks.mem_events found accepted appends.events

theorem Tracks.of_refused
    (refused : env.recorded arrival = none) : Tracks env (arrivals ++ [arrival]) readings db := by
  have facts : env.facts (arrivals ++ [arrival]) = env.facts arrivals := by
    rw [Env.facts, Env.facts, flatMap_append, flatMap_singleton, refused]
    exact append_nil _
  have boundaries : env.boundaries (arrivals ++ [arrival]) = env.boundaries arrivals := by
    have none : env.boundary arrival = none := by
      rw [Env.boundary, refused]
      rfl
    rw [boundaries_concat, none]
    exact append_nil _
  have stands : ∀ fact, env.Stands (arrivals ++ [arrival]) fact ↔ env.Stands arrivals fact :=
    fun _ => by rw [Env.Stands, Env.Stands, facts, boundaries]
  exact
    { facts := by rw [facts]; exact tracks.facts
      events := by rw [boundaries]; exact tracks.events
      fallen := fun row mem stale => by
        rw [stands]
        exact tracks.fallen row mem stale
      stands := fun row mem active => (stands row.fact).2 (tracks.stands row mem active) }

/-- **One turn.**  What has been heard is one arrival more, and a time that was read. -/
theorem Tracks.turn (ids : Ids) (op : Op) :
    ∃ times, (∀ time ∈ times, op.commits env = true ∧ time = op.asOf) ∧
      Tracks env (arrivals ++ op.arrival.toList) (readings ++ times) (step env ids db op) := by
  cases op with
  | expire asOf =>
    refine ⟨[asOf], fun time mem => ⟨rfl, mem_singleton.1 mem⟩, ?_⟩
    rw [show (Op.expire asOf).arrival.toList = [] from rfl, append_nil]
    exact tracks.expire
  | reconcile observationId resourceId asOf =>
    cases recorded : env.recorded ⟨observationId, resourceId⟩ with
    | none =>
      have refused : db.reconcile env ids observationId resourceId asOf = none :=
        tracks.reconcile_of_refused recorded
      refine ⟨[], fun time mem => absurd mem not_mem_nil, ?_⟩
      rw [append_nil, step, refused]
      exact tracks.of_refused recorded
    | some new =>
      obtain ⟨_, is, tracksNext⟩ := tracks.reconcile ids recorded asOf
      refine ⟨[asOf] ++ [asOf], fun _ mem => ⟨?_, ?_⟩, ?_⟩
      · exact isSome_iff_exists.2 ⟨new, recorded⟩
      · simpa [Op.asOf] using mem
      rw [step, is, ← append_assoc]
      exact tracksNext.expire

omit tracks

/-- **A run.**  Whatever the order of its turns, its tables are those of what arrived. -/
theorem run_tracks (env : Env) (ids : Ids) (ops : List Op) :
    ∃ times, (∀ time ∈ times, ∃ op ∈ ops, op.commits env = true ∧ time = op.asOf) ∧
      Tracks env (arrivalsOf ops) times (run env ids ops) := by
  induction ops using reverseRecOn with
  | nil => exact ⟨[], fun time mem => absurd mem not_mem_nil, tracks_nothing⟩
  | append_singleton _ op ih =>
    obtain ⟨times, read, tracks⟩ := ih
    obtain ⟨times', read', tracks'⟩ := tracks.turn ids op
    refine ⟨times ++ times', fun time mem => ?_, ?_⟩
    · rcases mem_append.1 mem with mem | mem
      · obtain ⟨before, memBefore, its⟩ := read time mem
        exact ⟨before, mem_append_left _ memBefore, its⟩
      · exact ⟨op, mem_append_right _ mem_cons_self, read' time mem⟩
    rw [run, Run.run_concat, arrivalsOf, filterMap_append]
    exact tracks'

/-- A run ends with a turn that is carried out at a time, and no turn before read a later one. -/
structure UpTo (env : Env) (asOf : Time) (ops : List Op) : Prop where
  last : ∃ before op, ops = before ++ [op] ∧ op.commits env = true ∧ op.asOf = asOf
  latest : ∀ op ∈ ops, op.commits env = true → op.asOf ≤ asOf

theorem Tracks.turn_eq (tracks : Tracks env arrivals readings db) (ids : Ids) {op : Op}
    (commits : op.commits env = true) :
    ∃ next : Db, step env ids db op = next.expire env op.asOf := by
  cases op with
  | expire => exact ⟨db, rfl⟩
  | reconcile _ _ asOf =>
    obtain ⟨_, recorded⟩ := isSome_iff_exists.1 commits
    obtain ⟨next, is, -⟩ := tracks.reconcile ids recorded asOf
    exact ⟨next, by rw [step, is]; rfl⟩

theorem UpTo.run_eq {ops : List Op} (upTo : UpTo env asOf ops) (ids : Ids) :
    ∃ next : Db, run env ids ops = next.expire env asOf := by
  obtain ⟨before, _, rfl, commits, rfl⟩ := upTo.last
  obtain ⟨_, -, tracks⟩ := run_tracks env ids before
  obtain ⟨next, is⟩ := tracks.turn_eq ids commits
  exact ⟨next, by rw [run, Run.run_concat]; exact is⟩

def Db.activeFacts (db : Db) : List Fact := db.active.map Evidence.fact

theorem mem_activeFacts : fact ∈ db.activeFacts ↔
    ∃ row ∈ db.evidence, row.stale = none ∧ row.fact = fact := by
  simp only [Db.activeFacts, Db.active, List.mem_map, List.mem_filter, decide_eq_true_eq, and_assoc,
    KeyTable.mem_def]

theorem UpTo.mem_activeFacts {ops : List Op} (upTo : UpTo env asOf ops) (ids : Ids) :
    fact ∈ (run env ids ops).activeFacts ↔ fact ∈ env.facts (arrivalsOf ops) ∧
      env.Stands (arrivalsOf ops) fact ∧ asOf < fact.expiresAt := by
  obtain ⟨_, read, tracks⟩ := run_tracks env ids ops
  rw [Neighbors.mem_activeFacts]
  constructor
  · rintro ⟨row, mem, active, rfl⟩
    refine ⟨(tracks.facts _).1 (mem_db_facts.2 ⟨row, mem, rfl⟩), tracks.stands row mem active, ?_⟩
    obtain ⟨_, is⟩ := upTo.run_eq ids
    rw [is] at mem
    obtain ⟨_, -, rfl⟩ := mem_evidence_expire.1 mem
    rw [fact_staleExpired]
    exact (stale_staleExpired_eq_none_iff.1 active).2
  rintro ⟨mem, stands, unexpired⟩
  obtain ⟨row, memRow, rfl⟩ := mem_db_facts.1 ((tracks.facts _).2 mem)
  refine ⟨row, memRow, not_not.1 fun stale => ?_, rfl⟩
  rcases tracks.fallen row memRow stale with fell | ⟨time, memTime, expired⟩
  · exact fell stands
  obtain ⟨op, memOp, commits, rfl⟩ := read time memTime
  exact (expired.trans (upTo.latest op memOp commits)).not_gt unexpired

end Renga.Topology.Neighbors
