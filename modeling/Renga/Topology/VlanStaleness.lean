import Renga.Topology.VlanHistory

/-!
# VLANs, whatever the order of arrival

A membership stands in a record if it is the latest about its link and is not before a
boundary.  The rows that are not stale are those that stand, at every point of every run
(`Tracks`), although a row is compared with the rows that are not stale yet and not with all
of them (`Evidence.Reading.stands_of_latest`).
-/

namespace Renga.Topology.Vlans

open List KeyTable Option

variable {env : Env} {db : Db} {arrival : Arrival} {arrivals : List Arrival}
  {fact : Fact} {observation : Observation} {source : Source} {resourceId : Uuid}

/-! ### What has been heard -/

theorem mem_heard_facts : fact ∈ (env.heard arrivals).facts ↔
    ∃ arrival ∈ arrivals, ∃ facts, env.recorded arrival = some facts ∧ fact ∈ facts :=
  Evidence.mem_flatMap_getD

variable {mode : ModeFact}

theorem mem_heard_modeFacts : mode ∈ (env.heard arrivals).modeFacts ↔
    ∃ arrival ∈ arrivals, ∃ modes, env.recordedModes arrival = some modes ∧ mode ∈ modes :=
  Evidence.mem_flatMap_getD

variable (found : env.find arrival = some (observation, source))
include found

theorem recorded_eq :
    env.recorded arrival =
      if observation.interfaces.all (env.modeAllowed arrival.resourceId) then
        Evidence.recordAll Fact.link Fact.valid []
          (observation.interfaces.flatMap (env.factsOf observation arrival.resourceId))
      else none := by
  rw [Env.recorded, found]
  rfl

variable {new : List Fact} {one : Record} {two : Record} {row : Evidence}

theorem recordedModes_eq (accepted : env.recorded arrival = some new) : env.recordedModes arrival =
      Evidence.recordAll ModeFact.link (fun _ => true) []
        (env.reportedModes observation arrival.resourceId
          (completeInterfaceVlanSnapshot source observation)) := by
  rw [Env.recordedModes, accepted, found]
  rfl

theorem boundary_eq (accepted : env.recorded arrival = some new) : env.boundary arrival =
      if completeInterfaceVlanSnapshot source observation then
        some ⟨arrival.resourceId, source.id, observation.id, .interfaceVlans,
          observation.observedAt⟩
      else none := by
  rw [Env.boundary, accepted, found]
  rfl

omit found

theorem about_of_recorded {facts : List Fact} (is : env.recorded arrival = some facts)
    (mem : fact ∈ facts) : ∃ observation, env.observations.get? arrival.observationId
      = some observation ∧ fact.Of env observation arrival.resourceId := by
  obtain ⟨⟨observation, _⟩, found, -⟩ := bind_eq_some_iff.1 is
  rw [recorded_eq found] at is
  split at is
  · obtain ⟨-, comes, -⟩ := Evidence.mem_of_recordAll is
    rcases comes fact mem with mem | mem
    · exact absurd mem not_mem_nil
    obtain ⟨_, -, mem⟩ := mem_flatMap.1 mem
    exact ⟨observation, (find_eq_some found).1, of_mem_factsOf mem⟩
  · cases is

theorem about_of_recordedModes {modes : List ModeFact}
    (is : env.recordedModes arrival = some modes) (mem : mode ∈ modes) :
    ∃ observation, env.observations.get? arrival.observationId = some observation ∧
      mode.Of env observation arrival.resourceId := by
  obtain ⟨_, accepted, rest⟩ := bind_eq_some_iff.1 is
  obtain ⟨⟨observation, _⟩, found, -⟩ := bind_eq_some_iff.1 rest
  rw [recordedModes_eq found accepted] at is
  obtain ⟨-, comes, -⟩ := Evidence.mem_of_recordAll is
  rcases comes mode mem with mem | mem
  · exact absurd mem not_mem_nil
  exact ⟨observation, (find_eq_some found).1, of_mem_reportedModes mem⟩

variable {event : SnapshotEvent}

theorem about_of_boundary (is : env.boundary arrival = some event) :
    event.observationId = arrival.observationId ∧ event.resourceId = arrival.resourceId ∧
      event.sectionName = .interfaceVlans := by
  obtain ⟨_, accepted, rest⟩ := bind_eq_some_iff.1 is
  obtain ⟨⟨_, source⟩, found, -⟩ := bind_eq_some_iff.1 rest
  rw [boundary_eq found accepted] at is
  split at is
  · obtain rfl := some.inj is
    exact ⟨(find_eq_some found).2.1, rfl, rfl⟩
  · cases is

/-- How facts are read: a boundary is drawn by a source for a resource. -/
def Env.reading (env : Env) :
    Evidence.Reading Fact (Uuid × Uuid × String) (Option Uuid × Uuid) ObservationOrder where
  identity := Fact.identity
  scope := fun fact => (env.interfaces.resourceOf fact.interfaceId, fact.sourceId)
  order := Fact.order

def Env.Stands (env : Env) (record : Record) (fact : Fact) : Prop :=
  env.reading.Stands record.facts (marks record.events .interfaceVlans) fact

structure Tracks (env : Env) (arrivals : List Arrival) (db : Db) : Prop where
  same : db.record.Same (env.heard arrivals)
  links : (db.facts.map Fact.link).Nodup
  modeLinks : (db.modeFacts.map ModeFact.link).Nodup
  fallen : ∀ row ∈ db.evidence, row.staleAt ≠ none → ¬env.Stands db.record row.fact
  stands : ∀ row ∈ db.evidence, row.staleAt = none → env.Stands db.record row.fact

theorem Record.Same.rfl {record : Record} : record.Same record :=
  ⟨fun _ => Iff.rfl, fun _ => Iff.rfl, fun _ => Iff.rfl⟩

theorem Record.Same.symm (same : one.Same two) : two.Same one :=
  ⟨fun fact => (same.facts fact).symm, fun mode => (same.modeFacts mode).symm,
    fun event => (same.events event).symm⟩

theorem Record.Same.trans {three : Record} (same : one.Same two) (then_ : two.Same three) :
    one.Same three :=
  ⟨fun fact => (same.facts fact).trans (then_.facts fact),
    fun mode => (same.modeFacts mode).trans (then_.modeFacts mode),
    fun event => (same.events event).trans (then_.events event)⟩

theorem tracks_nothing : Tracks env [] {} where
  same := Record.Same.rfl
  links := nodup_nil
  modeLinks := nodup_nil
  fallen := fun _ mem => absurd mem (not_mem_empty _)
  stands := fun _ mem => absurd mem (not_mem_empty _)

theorem mem_db_facts : fact ∈ db.facts ↔ ∃ row ∈ db.evidence, row.fact = fact := mem_map

theorem Tracks.origin (tracks : Tracks env arrivals db) (mem : fact ∈ db.facts) :
    ∃ arrival ∈ arrivals, ∃ facts, env.recorded arrival = some facts ∧
      ∃ observation, env.observations.get? arrival.observationId = some observation ∧
        fact.Of env observation arrival.resourceId := by
  obtain ⟨heard, memHeard, facts, recorded, mem⟩ := mem_heard_facts.1 ((tracks.same.facts _).1 mem)
  exact ⟨heard, memHeard, facts, recorded, about_of_recorded recorded mem⟩

theorem Tracks.modeOrigin (tracks : Tracks env arrivals db) (mem : mode ∈ db.modeFacts) :
    ∃ arrival ∈ arrivals, ∃ facts, env.recorded arrival = some facts ∧
      ∃ observation, env.observations.get? arrival.observationId = some observation ∧
        mode.Of env observation arrival.resourceId := by
  obtain ⟨heard, memHeard, _, recorded, mem⟩ :=
    mem_heard_modeFacts.1 ((tracks.same.modeFacts _).1 mem)
  obtain ⟨facts, accepted, -⟩ := bind_eq_some_iff.1 recorded
  exact ⟨heard, memHeard, facts, accepted, about_of_recordedModes recorded mem⟩

include found in
theorem arrival_eq_of_find {heard : Arrival} {its : Observation}
    (isObservation : env.observations.get? heard.observationId = some its)
    (sameObservation : its.id = observation.id)
    (sameResource : some heard.resourceId = some arrival.resourceId) : heard = arrival :=
  Arrival.ext ((key_of_get? isObservation).symm.trans
    (sameObservation.trans (find_eq_some found).2.1)) (some.inj sameResource)

include found in
theorem Tracks.apart (tracks : Tracks env arrivals db)
    (new : arrival ∉ arrivals ∨ env.recorded arrival = none) :
    (∀ fact ∈ observation.interfaces.flatMap (env.factsOf observation arrival.resourceId),
      ∀ other ∈ db.facts, other.link ≠ fact.link) ∧
    ∀ complete, ∀ mode ∈ env.reportedModes observation arrival.resourceId complete,
      ∀ other ∈ db.modeFacts, other.link ≠ mode.link := by
  have impossible : ∀ heard ∈ arrivals, (∃ facts, env.recorded heard = some facts) →
      heard ≠ arrival := by
    rintro heard memHeard ⟨facts, recorded⟩ rfl
    rcases new with new | refused
    · exact new memHeard
    rw [recorded] at refused
    cases refused
  refine ⟨fun _ memFact other memOther same => ?_,
    fun _ _ memMode _ memOther same => ?_⟩
  · obtain ⟨heard, memHeard, facts, recorded, its, isObservation, ofOther⟩ := tracks.origin memOther
    obtain ⟨_, -, memFact⟩ := mem_flatMap.1 memFact
    have ofFact := of_mem_factsOf memFact
    refine impossible heard memHeard ⟨facts, recorded⟩
      (arrival_eq_of_find found isObservation ?_ ?_)
    · rw [← ofOther.its, ← ofFact.its]
      exact congrArg Prod.fst same
    rw [← ofOther.resource, ← ofFact.resource]
    exact congrArg (env.interfaces.resourceOf ·.2.1) same
  obtain ⟨heard, memHeard, facts, recorded, _, isObservation, ofOther⟩ :=
    tracks.modeOrigin memOther
  have ofMode := of_mem_reportedModes memMode
  refine impossible heard memHeard ⟨facts, recorded⟩
    (arrival_eq_of_find found isObservation ?_ ?_)
  · rw [← ofOther.its, ← ofMode.its]
    exact congrArg Prod.fst same
  rw [← ofOther.resource, ← ofMode.resource]
  exact congrArg (env.interfaces.resourceOf ·.2) same

theorem Tracks.reconcile_of_refused (tracks : Tracks env arrivals db) {ids : Ids}
    (refused : env.recorded arrival = none) {currentSnapshot : Bool} :
    db.reconcileInterfaceVlans env ids arrival.observationId arrival.resourceId currentSnapshot
      = none := by
  cases found : env.find arrival with
  | none => rw [reconcile_eq, found, bind_none]
  | some both =>
    obtain ⟨observation, source⟩ := both
    have apart := Evidence.recordAll_append_of_apart Fact.valid
      (tracks.apart found (.inr refused)).1 []
    have none : (db.collected env ids source observation arrival.resourceId
        currentSnapshot).map Db.facts = _ :=
      facts_collected
    rw [recorded_eq found] at refused
    rw [append_nil] at apart
    rw [reconcile_eq, found, bind_some, map_eq_none_iff, ← map_eq_none_iff (f := Db.facts),
      none]
    split
    · rename_i allowed
      rw [if_pos allowed] at refused
      rw [apart, refused, map_none]
    · rfl

theorem heard_concat_of_refused (refused : env.recorded arrival = none) :
    env.heard (arrivals ++ [arrival]) = env.heard arrivals := by
  have modes : env.recordedModes arrival = none := by
    rw [Env.recordedModes, refused]
    rfl
  have boundary : env.boundary arrival = none := by
    rw [Env.boundary, refused]
    rfl
  simp [Env.heard, refused, modes, boundary]

theorem mem_heard_concat (env : Env) (arrivals : List Arrival) (arrival : Arrival) :
    (∀ fact, fact ∈ (env.heard (arrivals ++ [arrival])).facts ↔
      fact ∈ (env.heard arrivals).facts ∨ fact ∈ (env.recorded arrival).getD []) ∧
    (∀ mode, mode ∈ (env.heard (arrivals ++ [arrival])).modeFacts ↔
      mode ∈ (env.heard arrivals).modeFacts ∨ mode ∈ (env.recordedModes arrival).getD []) ∧
    ∀ event, event ∈ (env.heard (arrivals ++ [arrival])).events ↔
      event ∈ (env.heard arrivals).events ∨ env.boundary arrival = some event := by
  refine ⟨fun _ => ?_, fun _ => ?_, fun _ => ?_⟩
  · simp [Env.heard]
  · simp [Env.heard]
  rw [Env.heard, filterMap_append, mem_append]
  refine or_congr_right ?_
  cases is : env.boundary arrival with
  | none => simp [is]
  | some => simp [is, eq_comm]

include found in
theorem Tracks.mem_events (tracks : Tracks env arrivals db)
    (accepted : env.recorded arrival = some new) :
    event ∈ (db.announced source observation arrival.resourceId).events ↔
      event ∈ db.events ∨ env.boundary arrival = some event := by
  have boundary := boundary_eq found accepted
  unfold Db.announced
  split
  · rename_i complete
    rw [if_pos complete] at boundary
    rw [boundary, mem_putSnapshotEvent, some_inj, eq_comm (a := event)]
    -- An event of the same observation and resource was recorded by the same arrival.
    intro other mem sameObservation sameResource _
    obtain ⟨heard, -, its⟩ := mem_filterMap.1 ((tracks.same.events other).1 mem)
    obtain ⟨ofObservation, ofResource, -⟩ := about_of_boundary its
    have is : heard = arrival := Arrival.ext
      (ofObservation.symm.trans (sameObservation.trans (find_eq_some found).2.1))
      (ofResource.symm.trans sameResource)
    rw [is, boundary] at its
    exact (some.inj its).symm
  rename_i partly
  rw [if_neg partly] at boundary
  simp [boundary]

theorem evidence_announced :
    (db.announced source observation resourceId).evidence = db.evidence := by
  unfold Db.announced
  split <;> rfl

theorem modeEvidence_announced :
    (db.announced source observation resourceId).modeEvidence = db.modeEvidence := by
  unfold Db.announced
  split <;> rfl

include found in
theorem Tracks.collect (tracks : Tracks env arrivals db) (ids : Ids) (currentSnapshot : Bool)
    (accepted : env.recorded arrival = some new) :
    ∃ next, db.collected env ids source observation arrival.resourceId currentSnapshot
        = some next ∧ next.record.Same (env.heard (arrivals ++ [arrival])) := by
  obtain ⟨modes, acceptedModes⟩ : ∃ modes, env.recordedModes arrival = some modes := by
    rw [recordedModes_eq found accepted]
    exact Evidence.exists_recordAll fun _ _ => rfl
  have once : ((∀ fact ∈ observation.interfaces.flatMap
      (env.factsOf observation arrival.resourceId), ∀ other ∈ db.facts, other.link ≠ fact.link) ∨
        new ⊆ db.facts) ∧
      ((∀ mode ∈ env.reportedModes observation arrival.resourceId
        (completeInterfaceVlanSnapshot source observation), ∀ other ∈ db.modeFacts,
          other.link ≠ mode.link) ∨ modes ⊆ db.modeFacts) := by
    by_cases heard : arrival ∈ arrivals
    · refine ⟨.inr fun fact mem => (tracks.same.facts fact).2 ?_,
        .inr fun mode mem => (tracks.same.modeFacts mode).2 ?_⟩
      · exact mem_heard_facts.2 ⟨arrival, heard, new, accepted, mem⟩
      · exact mem_heard_modeFacts.2 ⟨arrival, heard, modes, acceptedModes, mem⟩
    obtain ⟨facts, modes⟩ := tracks.apart found (.inl heard)
    exact ⟨.inl facts, .inl (modes _)⟩
  have facts := accepted
  rw [recorded_eq found] at facts
  split at facts
  · rename_i allowed
    obtain ⟨all, is, mem⟩ := Evidence.mem_recordAll facts once.1
    have put : (db.collected env ids source observation arrival.resourceId
        currentSnapshot).map Db.facts = _ :=
      facts_collected
    rw [if_pos allowed, is] at put
    obtain ⟨next, isNext, rfl⟩ := map_eq_some_iff.1 put
    have collected := collected_collected isNext
    obtain ⟨_, isModes, memModes⟩ :=
      Evidence.mem_recordAll (recordedModes_eq found accepted ▸ acceptedModes) once.2
    have sameModes := collected.modeFacts
    rw [Db.modeFacts, modeEvidence_announced, ← Db.modeFacts, isModes] at sameModes
    obtain ⟨heardFacts, heardModes, heardEvents⟩ :=
      mem_heard_concat env arrivals arrival
    refine ⟨next, isNext, fun fact => ?_, fun mode => ?_, fun _ => ?_⟩
    · rw [heardFacts, accepted, ← tracks.same.facts]
      exact mem fact
    · rw [heardModes, acceptedModes, ← tracks.same.modeFacts, Db.record,
        ← some.inj sameModes]
      exact memModes mode
    rw [heardEvents, ← tracks.same.events, Db.record, collected.events]
    exact tracks.mem_events found accepted
  · cases facts

/-! ### Staleness -/

structure Record.Within (one two : Record) : Prop where
  facts : one.facts ⊆ two.facts
  events : one.events ⊆ two.events

theorem Env.Stands.of_within (stands : env.Stands two fact) (within : one.Within two) :
    env.Stands one fact :=
  stands.anti within.facts (marks_subset within.events)

structure Record.Extends (env : Env) (resourceId : Uuid) (one two : Record) : Prop extends
    one.Within two where
  newFacts : ∀ fact ∈ two.facts, fact ∈ one.facts ∨
    env.interfaces.resourceOf fact.interfaceId = some resourceId
  newEvents : ∀ event ∈ two.events, event ∈ one.events ∨ event.resourceId = resourceId

theorem Env.Stands.extends (stands : env.Stands one fact) (more : one.Extends env resourceId two)
    (elsewhere : env.interfaces.resourceOf fact.interfaceId ≠ some resourceId) :
    env.Stands two fact := by
  refine Evidence.Reading.Stands.beside stands (fun new mem => ?_) fun _ mem => ?_
  · refine (more.newFacts new mem).imp_right fun resource same => elsewhere ?_
    have interface : new.interfaceId = fact.interfaceId := congrArg (·.2.1) same
    rw [← interface]
    exact resource
  obtain ⟨event, memEvent, its, rfl⟩ := mem_marks.1 mem
  refine (more.newEvents event memEvent).imp (fun memEvent => ?_) fun resource same => ?_
  · exact mem_marks.2 ⟨event, memEvent, its, rfl⟩
  refine elsewhere ?_
  rw [← resource]
  exact (congrArg Prod.fst same).symm

/-- What holds of the rows before they are refreshed: what is stale has fallen, and what is not
stale stands, except on the resource that was reported. -/
structure Ready (env : Env) (resourceId : Uuid) (db : Db) : Prop where
  fallen : ∀ row ∈ db.evidence, row.staleAt ≠ none → ¬env.Stands db.record row.fact
  stands : ∀ row ∈ db.evidence, row.staleAt = none →
    env.interfaces.resourceOf row.fact.interfaceId ≠ some resourceId →
      env.Stands db.record row.fact

theorem eq_of_link (links : (db.facts.map Fact.link).Nodup) {other : Evidence}
    (mem : row ∈ db.evidence) (memOther : other ∈ db.evidence)
    (same : row.fact.link = other.fact.link) : row = other := by
  rw [Db.facts, List.map_map] at links
  exact inj_on_of_nodup_map links mem memOther same

theorem afterBoundary_iff {interfaceId sourceId : Uuid} {order : ObservationOrder}
    (its : env.interfaces.resourceOf interfaceId = some resourceId) :
    db.afterBoundary resourceId sourceId order = true ↔
      ¬∃ mark ∈ marks db.events .interfaceVlans,
        mark.1 = (env.interfaces.resourceOf interfaceId, sourceId) ∧ order < mark.2 := by
  unfold Db.afterBoundary Db.boundary
  rw [decide_eq_true_eq, before_latestBoundary_iff, its]

theorem latestOfLink_spec (mem : row ∈ db.evidence) (active : row.staleAt = none) :
    db.latestOfLink row ∈ db.evidence ∧ (db.latestOfLink row).fact.identity = row.fact.identity ∧
      ∀ other ∈ db.evidence, other.staleAt = none → other.fact.identity = row.fact.identity →
        other.fact.order ≤ (db.latestOfLink row).fact.order := by
  have among : ∀ other ∈ db.evidence, other.staleAt = none →
      other.fact.identity = row.fact.identity → other ∈ db.evidence.rows.filter fun other =>
        other.staleAt = none ∧ other.fact.identity = row.fact.identity :=
    fun other mem active same => List.mem_filter.2 ⟨mem, decide_eq_true ⟨active, same⟩⟩
  obtain ⟨_, is⟩ := Evidence.exists_argmax (·.fact.order) (among row mem active rfl)
  obtain ⟨memLatest, its⟩ := List.mem_filter.1 (argmax_mem is)
  rw [Db.latestOfLink, is]
  refine ⟨memLatest, (of_decide_eq_true its).2, fun other memOther active same => ?_⟩
  have le := le_of_mem_argmax (among other memOther active same) is
  exact le

/-- **Refreshing a resource** leaves its rows that stand, and no other, although a row is held
only against the rows that are not stale. -/
theorem Ready.refreshed (ready : Ready env resourceId db) (links : (db.facts.map Fact.link).Nodup)
    (mem : row ∈ db.evidence) :
    (db.refreshedEvidence env resourceId row).staleAt = none ↔ env.Stands db.record row.fact := by
  by_cases active : row.staleAt = none
  · by_cases its : env.interfaces.resourceOf row.fact.interfaceId = some resourceId
    · obtain ⟨memLatest, identity, latest⟩ := latestOfLink_spec mem active
      have refreshed : (db.refreshedEvidence env resourceId row).staleAt = none ↔
          row.id = (db.latestOfLink row).id ∧
            db.afterBoundary resourceId row.fact.sourceId row.fact.order = true := by
        rw [Db.refreshedEvidence, if_pos ⟨active, its⟩]
        dsimp only
        split
        · next both => exact ⟨fun _ => both, fun _ => active⟩
        rename_i not
        exact ⟨fun none => absurd none (some_ne_none _), fun both => absurd both not⟩
      rw [refreshed, afterBoundary_iff its]
      constructor
      · rintro ⟨same, within⟩
        have is : row = db.latestOfLink row := eq_of_key_eq mem memLatest same
        have fallen : ∀ other ∈ db.facts,
            ¬(∃ row ∈ db.evidence, row.staleAt = none ∧ row.fact = other) →
              ¬env.Stands db.record other := by
          intro other memOther inactive
          obtain ⟨otherRow, memRow, rfl⟩ := mem_db_facts.1 memOther
          exact ready.fallen otherRow memRow fun active => inactive ⟨otherRow, memRow, active, rfl⟩
        refine Evidence.Reading.stands_of_latest fallen ?_ ?_ within
        · intro other same
          obtain ⟨source, interface, -⟩ : other.sourceId = row.fact.sourceId ∧
              other.interfaceId = row.fact.interfaceId ∧ _ := by
            simpa [Env.reading, Fact.identity] using same
          simp [Env.reading, source, interface]
        rintro _ - ⟨other, memRow, active, rfl⟩ same
        have le := latest other memRow active same
        rwa [← is] at le
      rintro ⟨newest, within⟩
      refine ⟨?_, within⟩
      have notLater : ¬row.fact.order < (db.latestOfLink row).fact.order := fun later =>
        newest ⟨_, mem_db_facts.2 ⟨_, memLatest, rfl⟩, identity, later⟩
      have sameOrder : row.fact.order = (db.latestOfLink row).fact.order :=
        le_antisymm (latest row mem active rfl) (not_lt.1 notLater)
      have sameLink : row.fact.link = (db.latestOfLink row).fact.link := by
        have observation : row.fact.observationId = (db.latestOfLink row).fact.observationId :=
          congrArg (fun order => (ofLex order).2) sameOrder
        have rest : row.fact.identity.2 = (db.latestOfLink row).fact.identity.2 :=
          congrArg Prod.snd identity.symm
        exact Prod.ext observation rest
      rw [← eq_of_link links mem memLatest sameLink]
    have kept : db.refreshedEvidence env resourceId row = row := if_neg fun both => its both.2
    rw [kept]
    exact ⟨fun _ => ready.stands row mem active its, fun _ => active⟩
  have kept : db.refreshedEvidence env resourceId row = row := if_neg fun both => active both.1
  rw [kept]
  exact ⟨fun none => absurd none active,
    fun stands => absurd stands (ready.fallen row mem active)⟩

theorem Tracks.same_of_link (same : db.record.Same (env.heard arrivals)) {other : Fact}
    (of : fact.Of env observation resourceId)
    (isObservation : env.observations.get? observation.id = some observation)
    (mem : other ∈ db.facts) (sameLink : other.link = fact.link) :
    other.identity = fact.identity ∧ other.order = fact.order := by
  obtain ⟨_, -, _, recorded, memFact⟩ := mem_heard_facts.1 ((same.facts _).1 mem)
  obtain ⟨its, isIts, ofOther⟩ := about_of_recorded recorded memFact
  have ids : other.observationId = fact.observationId := congrArg Prod.fst sameLink
  have is : its = observation := by
    have key : its.id = observation.id := by rw [← ofOther.its, ids, of.its]
    rw [← key_of_get? isIts, key, isObservation] at isIts
    exact (some.inj isIts).symm
  refine ⟨Prod.ext ?_ (congrArg Prod.snd sameLink :), ?_⟩
  · exact ofOther.source.trans (is ▸ of.source.symm)
  · rw [Fact.order, Fact.order, ofOther.time, of.time, is, ids]

theorem heard_extends (env : Env) (arrivals : List Arrival) (arrival : Arrival) :
    (env.heard arrivals).Extends env arrival.resourceId (env.heard (arrivals ++ [arrival])) := by
  obtain ⟨facts, -, events⟩ := mem_heard_concat env arrivals arrival
  refine ⟨⟨fun fact mem => (facts fact).2 (.inl mem),
    fun event mem => (events event).2 (.inl mem)⟩, fun fact mem => ?_, fun event mem => ?_⟩
  · refine ((facts fact).1 mem).imp_right fun mem => ?_
    cases recorded : env.recorded arrival with
    | none =>
      rw [recorded] at mem
      exact absurd mem not_mem_nil
    | some =>
      rw [recorded] at mem
      obtain ⟨_, -, of⟩ := about_of_recorded recorded mem
      exact of.resource
  · exact ((events event).1 mem).imp_right fun drawn => (about_of_boundary drawn).2.1

theorem Record.Extends.congr {one' two' : Record} (more : one.Extends env resourceId two)
    (same : one'.Same one) (same' : two'.Same two) : one'.Extends env resourceId two' where
  facts := fun fact mem => (same'.facts fact).2 (more.facts ((same.facts fact).1 mem))
  events := fun event mem => (same'.events event).2 (more.events ((same.events event).1 mem))
  newFacts := fun fact mem => (more.newFacts fact ((same'.facts fact).1 mem)).imp_left
    (same.facts fact).2
  newEvents := fun event mem => (more.newEvents event ((same'.events event).1 mem)).imp_left
    (same.events event).2

variable {next : Db} (tracks : Tracks env arrivals db)
  (collected : Collected
    (observation.interfaces.flatMap (env.factsOf observation arrival.resourceId))
    (env.reportedModes observation arrival.resourceId
      (completeInterfaceVlanSnapshot source observation))
    (db.announced source observation arrival.resourceId) next)
  (same : next.record.Same (env.heard (arrivals ++ [arrival])))

include tracks found collected same in
theorem Tracks.ready : Ready env arrival.resourceId next := by
  have more : db.record.Extends env arrival.resourceId next.record :=
    (heard_extends env arrivals arrival).congr tracks.same same
  refine ⟨fun row mem stale => ?_, fun row mem active elsewhere => ?_⟩
  · rcases collected.stale row mem stale with ⟨old, memOld, sameFact, wasStale⟩ | ⟨later, memLater,
      identity, before⟩
    · rw [evidence_announced] at memOld
      rw [← sameFact]
      exact fun stands => tracks.fallen old memOld wasStale (stands.of_within more.toWithin)
    obtain ⟨reported, -, memFact⟩ := mem_flatMap.1 memLater
    obtain ⟨-, -, there⟩ := Evidence.mem_of_recordAll collected.facts
    obtain ⟨other, memOther, sameLink⟩ := there later memLater
    have isObservation : env.observations.get? observation.id = some observation := by
      rw [(find_eq_some found).2.1]
      exact (find_eq_some found).1
    obtain ⟨sameIdentity, sameOrder⟩ :=
      Tracks.same_of_link same (of_mem_factsOf memFact) isObservation memOther sameLink
    refine fun stands => stands.latest ⟨other, memOther, sameIdentity.trans identity, ?_⟩
    refine lt_of_lt_of_eq ?_ sameOrder.symm
    exact Prod.Lex.toLex_lt_toLex.2 (.inl before)
  rcases collected.active row mem active with ⟨old, memOld, sameFact, wasActive⟩ | new
  · rw [evidence_announced] at memOld
    rw [← sameFact] at elsewhere ⊢
    exact (tracks.stands old memOld wasActive).extends more elsewhere
  obtain ⟨_, -, memFact⟩ := mem_flatMap.1 new
  exact absurd (of_mem_factsOf memFact).resource elsewhere

theorem Ready.staleOmitted (ready : Ready env resourceId db) {complete : Bool}
    (drawn : complete = true → ∃ event ∈ db.events, event.resourceId = resourceId ∧
      event.sourceId = observation.sourceId ∧ event.sectionName = .interfaceVlans ∧
        event.observedAt = observation.observedAt) :
    Ready env resourceId (db.staleOmittedIfComplete env observation resourceId complete) ∧
      (db.staleOmittedIfComplete env observation resourceId complete).record = db.record := by
  unfold Db.staleOmittedIfComplete
  split
  · rename_i isComplete
    obtain ⟨event, memEvent, resource, source, section_, time⟩ := drawn isComplete
    have record : ({ db with
        evidence := db.evidence.map (env.staleOmitted observation resourceId) fun row => by
          unfold Env.staleOmitted
          split <;> rfl } : Db).record = db.record :=
      congrArg (Record.mk · db.modeFacts db.events) (Evidence.map_view_map fact_staleOmitted)
    refine ⟨⟨fun row mem stale => ?_, fun _ mem active elsewhere => ?_⟩, record⟩
    · obtain ⟨old, memOld, rfl⟩ := mem_map.1 mem
      rw [record, fact_staleOmitted]
      unfold Env.staleOmitted at stale
      split at stale
      · rename_i omitted
        obtain ⟨its, -, before, on⟩ := of_decide_eq_true omitted.1
        refine fun stands => stands.within ⟨event.mark, ?_, ?_, ?_⟩
        · exact mem_marks.2 ⟨event, memEvent, section_, rfl⟩
        · exact Prod.ext ((congrArg some resource).trans on.symm) (source.trans its.symm)
        · exact Prod.Lex.toLex_lt_toLex.2 (.inl (before.trans_eq time.symm))
      · exact ready.fallen old memOld stale
    obtain ⟨old, memOld, rfl⟩ := mem_map.1 mem
    rw [fact_staleOmitted] at elsewhere
    rw [record, fact_staleOmitted]
    unfold Env.staleOmitted at active
    split at active
    · exact absurd active (some_ne_none _)
    exact ready.stands old memOld active elsewhere
  · exact ⟨ready, rfl⟩

theorem record_refresh : (db.refreshVlanEvidenceStaleness env resourceId).record = db.record :=
  congrArg (Record.mk · db.modeFacts db.events) (Evidence.map_view_map fact_refreshedEvidence)

include tracks found collected same in
/-- **An arrival that is accepted.**  What it says is recorded, and the rows that are not stale are
those that stand. -/
theorem Tracks.refresh (accepted : env.recorded arrival = some new) :
    Tracks env (arrivals ++ [arrival]) (next.refreshed env observation arrival.resourceId
      (completeInterfaceVlanSnapshot source observation)) ∧
    (next.refreshed env observation arrival.resourceId
      (completeInterfaceVlanSnapshot source observation)).record = next.record := by
  have drawn : completeInterfaceVlanSnapshot source observation = true →
      ∃ event ∈ next.events, event.resourceId = arrival.resourceId ∧
        event.sourceId = observation.sourceId ∧ event.sectionName = .interfaceVlans ∧
          event.observedAt = observation.observedAt := by
    intro complete
    have boundary := boundary_eq found accepted
    rw [if_pos complete] at boundary
    refine ⟨⟨arrival.resourceId, source.id, observation.id, .interfaceVlans,
      observation.observedAt⟩, ?_, rfl, (find_eq_some found).2.2, rfl, rfl⟩
    rw [collected.events]
    exact (tracks.mem_events found accepted).2 (.inr boundary)
  obtain ⟨ready, record⟩ := (tracks.ready found collected same).staleOmitted drawn
  have links : (next.facts.map Fact.link).Nodup := by
    refine Evidence.nodup_recordAll ?_ collected.facts
    rw [Db.facts, evidence_announced]
    exact tracks.links
  have modeLinks : (next.modeFacts.map ModeFact.link).Nodup := by
    refine Evidence.nodup_recordAll ?_ collected.modeFacts
    rw [Db.modeFacts, modeEvidence_announced]
    exact tracks.modeLinks
  have all : (next.refreshed env observation arrival.resourceId
      (completeInterfaceVlanSnapshot source observation)).record = next.record :=
    record_refresh.trans record
  have nodup := (congrArg (fun record => (record.facts.map Fact.link).Nodup) record).mpr links
  refine ⟨⟨all ▸ same, ?_, ?_, fun row mem stale => ?_, fun _ mem active => ?_⟩, all⟩
  · exact (congrArg (fun record => (record.facts.map Fact.link).Nodup) all).mpr links
  · exact (congrArg (fun record => (record.modeFacts.map ModeFact.link).Nodup) all).mpr modeLinks
  · obtain ⟨old, memOld, rfl⟩ := mem_map.1 mem
    rw [fact_refreshedEvidence, all, ← record]
    exact fun stands => stale ((ready.refreshed nodup memOld).2 stands)
  obtain ⟨_, memOld, rfl⟩ := mem_map.1 mem
  rw [fact_refreshedEvidence, all, ← record]
  exact (ready.refreshed nodup memOld).1 active

end Renga.Topology.Vlans
