import Renga.Inventory.Schema
import Renga.Lib.Run
import Renga.Topology.Evidence

/-!
# Routing domains

`Renga.IPAM.RoutingDomains`: a source reports the routing domain of an interface, withdraws it
(`null`), or says nothing of it.  Reports are evidence.  A report that is not the latest of its
source about the interface is stored stale, and the latest makes the others stale; a withdrawal is
stored stale too, and keeps older claims from coming back.
-/

namespace Renga.IPAM.RoutingDomains

open List Option Evidence

open Renga.Topology (Interfaces ObservationOrder)

structure Claim where
  key : String
  routeDistinguisher : Option String := none
  deriving DecidableEq

/-- An entry of `"interfaces"`.  The domain may be absent or null. -/
structure ReportedInterface where
  name : String
  routingDomain : Option (Option Claim) := none
  deriving DecidableEq

structure Observation where
  id : Uuid
  sourceId : Uuid
  observedAt : Time
  interfaces : List ReportedInterface := []
  deriving DecidableEq

/-- What stays the same while claims are recorded.  The lookups are those of `resolver/1`: VRFs by
mapping, by route distinguisher and by name. -/
structure Env where
  names : Inventory.Names
  interfaces : Interfaces
  observations : KeyTable Uuid Observation Observation.id
  authoritative : Uuid → Bool := fun _ => false
  mappings : Uuid × String → Option (Option Uuid) := fun _ => none
  byRd : String → Option Uuid := fun _ => none
  byName : String → Option Uuid := fun _ => none

/-- What a row of `interface_routing_domain_evidence` says; it never changes. -/
structure Fact where
  interfaceId : Uuid
  sourceId : Uuid
  observationId : Uuid
  sourceLocalKey : Option String
  routeDistinguisher : Option String
  observedAt : Time
  deriving DecidableEq

structure Evidence where
  fact : Fact
  staleAt : Option Time

def Fact.order (fact : Fact) : ObservationOrder := toLex (fact.observedAt, fact.observationId)

def Fact.identity (fact : Fact) : Uuid × Uuid := (fact.sourceId, fact.interfaceId)

/-- `interface_routing_domain_evidence_observation_link_index`. -/
def Fact.link (fact : Fact) : Uuid × Uuid := (fact.observationId, fact.interfaceId)

/-- The checks of `RoutingDomainEvidence.changeset/2`; a blank key is cast to none, which the
database refuses. -/
def Fact.valid (fact : Fact) : Bool :=
  fact.sourceLocalKey.all (fun key => key ≠ "" && key.length ≤ 255) &&
    fact.routeDistinguisher.all (·.utf8ByteSize ≤ 255)

inductive Resolution where
  | mapping
  | routeDistinguisher
  | name
  | default
  | unmapped
  deriving DecidableEq

structure Domain where
  sourceId : Uuid
  sourceLocalKey : String
  routeDistinguisher : Option String
  authoritative : Bool
  resolution : Resolution
  vrfId : Option Uuid
  observedAt : Time
  deriving DecidableEq

/-- The tables of an organization; an interface has at most one resolved domain. -/
structure Db where
  evidence : List Evidence := []
  domains : Uuid → Option Domain := fun _ => none

/-! ### Ingestion -/

variable (db : Db) (env : Env) (observation : Observation)

/-- `claim_attrs/1`, with what `record_claim/5` stores of the report. -/
def Env.fact (interfaceId : Uuid) (claim : Option Claim) : Fact where
  interfaceId := interfaceId
  sourceId := observation.sourceId
  observationId := observation.id
  sourceLocalKey := claim.map fun claim => env.names.trim claim.key
  routeDistinguisher := ((claim.bind (·.routeDistinguisher)).map env.names.trim).filter (· ≠ "")
  observedAt := observation.observedAt

def Db.facts : List Fact := db.evidence.map Evidence.fact

def Db.newerReportAt (fact : Fact) : Option Time :=
  ((db.facts.filter fun other => other.identity = fact.identity ∧ fact.order < other.order).map
    Fact.observedAt).argmin id

def Evidence.supersede (fact : Fact) (row : Evidence) : Evidence :=
  if row.fact.identity = fact.identity ∧ row.staleAt = none ∧ row.fact.order < fact.order then
    { row with staleAt := some fact.observedAt }
  else row

def Db.recorded (fact : Fact) : List Evidence :=
  match db.newerReportAt fact with
  | some newer => db.evidence ++ [⟨fact, some newer⟩]
  | none =>
    db.evidence.map (Evidence.supersede fact) ++
      [⟨fact, if fact.sourceLocalKey = none then some fact.observedAt else none⟩]

def Db.recordClaim (fact : Fact) : Option Db :=
  if db.facts.any (·.link = fact.link) then some db
  else if fact.valid then some { db with evidence := db.recorded fact }
  else none

/-! ### Resolution -/

def Db.active : List Fact :=
  (db.evidence.filter fun row => row.staleAt = none).map Evidence.fact

/-- `current_claims/1`: the newest of an interface, authoritative sources first. -/
def Db.currentClaim (interfaceId : Uuid) : Option Fact :=
  (db.active.filter (·.interfaceId = interfaceId)).argmax fun fact =>
    toLex (env.authoritative fact.sourceId, fact.order)

def Env.resolve (sourceId : Uuid) (key : String) (routeDistinguisher : Option String) :
    Resolution × Option Uuid :=
  let key := env.names.downcase key
  match env.mappings (sourceId, key), routeDistinguisher.bind env.byRd, env.byName key with
  | some vrfId, _, _ => (.mapping, vrfId)
  | none, some vrfId, _ => (.routeDistinguisher, some vrfId)
  | none, none, some vrfId => (.name, some vrfId)
  | none, none, none => if key = "default" then (.default, none) else (.unmapped, none)

def Env.domain (fact : Fact) : Option Domain :=
  fact.sourceLocalKey.map fun key =>
    let resolved := env.resolve fact.sourceId key fact.routeDistinguisher
    ⟨fact.sourceId, key, fact.routeDistinguisher, env.authoritative fact.sourceId, resolved.1,
      resolved.2, fact.observedAt⟩

def Db.refresh : Db :=
  { db with domains := fun interfaceId => (db.currentClaim env interfaceId).bind env.domain }

/-! ### Arrivals -/

structure Arrival where
  observationId : Uuid
  resourceId : Uuid
  deriving DecidableEq

/-- What an observation says of the interfaces of a resource. -/
def Env.claims (resourceId : Uuid) : List Fact :=
  observation.interfaces.filterMap fun reported => do
    let claim ← reported.routingDomain
    let interface ← env.interfaces.named resourceId (env.names.trim reported.name)
    some (env.fact observation interface.id claim)

/-- `record_claims/5`.  A claim that is refused rolls the report back. -/
def Db.recordClaims (resourceId : Uuid) : Option Db :=
  if observation.interfaces.all (·.routingDomain.isNone) then some db
  else ((env.claims observation resourceId).foldlM Db.recordClaim db).map (Db.refresh · env)

def step (db : Db) (arrival : Arrival) : Db :=
  ((env.observations.get? arrival.observationId).bind
    (db.recordClaims env · arrival.resourceId)).getD db

def run (env : Env) (arrivals : List Arrival) : Db := Run.run (step env) {} arrivals

/-! ### What arrivals report -/

/-- The reports of an arrival: the first about each interface, none if one is refused. -/
def Env.reported (arrival : Arrival) : List Fact :=
  ((env.observations.get? arrival.observationId).bind fun observation =>
    recordAll Fact.link Fact.valid [] (env.claims observation arrival.resourceId)).getD []

def Env.reports (arrivals : List Arrival) : List Fact := arrivals.flatMap env.reported

/-- The latest report of a source about an interface. -/
structure Latest (facts : List Fact) (fact : Fact) : Prop where
  mem : fact ∈ facts
  latest : ∀ other ∈ facts, other.identity = fact.identity → other.order ≤ fact.order

theorem latest_congr {facts facts' : List Fact} (same : ∀ fact, fact ∈ facts ↔ fact ∈ facts')
    {fact : Fact} : Latest facts fact ↔ Latest facts' fact := by
  constructor <;> rintro ⟨mem, latest⟩
  · exact ⟨(same fact).1 mem, fun other its => latest other ((same other).2 its)⟩
  · exact ⟨(same fact).2 mem, fun other its => latest other ((same other).1 its)⟩

variable {env : Env} {db db' : Db} {fact : Fact} {observation : Observation} {resourceId : Uuid}
  {arrivals : List Arrival} {arrival : Arrival}

theorem of_mem_claims (mem : fact ∈ env.claims observation resourceId) :
    fact.observationId = observation.id ∧
      env.interfaces.resourceOf fact.interfaceId = some resourceId := by
  obtain ⟨_, -, is⟩ := mem_filterMap.1 mem
  obtain ⟨_, -, is⟩ := bind_eq_some_iff.1 is
  obtain ⟨_, named, is⟩ := bind_eq_some_iff.1 is
  obtain rfl := some.inj is
  exact ⟨rfl, Interfaces.resourceOf_named named⟩

theorem of_mem_reported (mem : fact ∈ env.reported arrival) :
    fact.observationId = arrival.observationId ∧
      env.interfaces.resourceOf fact.interfaceId = some arrival.resourceId := by
  unfold Env.reported at mem
  cases found : env.observations.get? arrival.observationId with
  | none => simp [found] at mem
  | some observation =>
    cases all : recordAll Fact.link Fact.valid []
        (env.claims observation arrival.resourceId) with
    | none => simp [found, all] at mem
    | some new =>
      simp only [found, all, bind_some, getD_some] at mem
      have its := ((mem_of_recordAll all).2.1 fact mem).resolve_left not_mem_nil
      obtain ⟨id, resource⟩ := of_mem_claims its
      exact ⟨id.trans (KeyTable.key_of_get? found), resource⟩

/-! ### Recording a claim -/

/-- A row is active if it is no withdrawal and its source has no later report. -/
structure Sound (db : Db) : Prop where
  links : (db.facts.map Fact.link).Nodup
  active : ∀ row ∈ db.evidence, row.staleAt = none ↔
    row.fact.sourceLocalKey ≠ none ∧ Latest db.facts row.fact

theorem newerReportAt_eq_none : db.newerReportAt fact = none ↔
    ∀ other ∈ db.facts, other.identity = fact.identity → other.order ≤ fact.order := by
  rw [Db.newerReportAt, argmin_eq_none, map_eq_nil_iff, filter_eq_nil_iff]
  refine forall_congr' fun _ => imp_congr_right fun _ => ?_
  rw [decide_eq_true_eq, not_and, not_lt]

@[simp] theorem fact_supersede {row : Evidence} : (row.supersede fact).fact = row.fact := by
  unfold Evidence.supersede
  split <;> rfl

theorem facts_recorded : (db.recorded fact).map Evidence.fact = db.facts ++ [fact] := by
  unfold Db.recorded
  split
  · exact map_append
  rw [map_append, List.map_map, Db.facts]
  exact congrArg (· ++ [fact]) (map_congr_left fun _ _ => fact_supersede)

theorem Sound.record (sound : Sound db) (new : fact.link ∉ db.facts.map Fact.link) :
    Sound { db with evidence := db.recorded fact } := by
  have facts : ({ db with evidence := db.recorded fact } : Db).facts = db.facts ++ [fact] :=
    facts_recorded
  have grown : ∀ other ∈ db.facts, Latest (db.facts ++ [fact]) other ↔ Latest db.facts other ∧
      (fact.identity = other.identity → fact.order ≤ other.order) := by
    intro other mem
    constructor
    · rintro ⟨-, latest⟩
      exact ⟨⟨mem, fun third its => latest third (mem_append_left _ its)⟩,
        latest fact (mem_append_right _ (mem_singleton_self _))⟩
    rintro ⟨⟨-, latest⟩, last⟩
    refine ⟨mem_append_left _ mem, fun third its => ?_⟩
    rcases mem_append.1 its with its | its
    · exact latest third its
    · exact mem_singleton.1 its ▸ last
  refine ⟨?_, fun row mem => ?_⟩
  · rw [facts, map_append, map_singleton, nodup_append]
    refine ⟨sound.links, nodup_singleton _, fun _ mem _ mem' same => new ?_⟩
    rwa [← mem_singleton.1 mem', ← same]
  rw [facts]
  unfold Db.recorded at mem
  cases newer : db.newerReportAt fact with
  | some time =>
    -- A later report is there, and what is active is not before it.
    have later : ∃ other ∈ db.facts, other.identity = fact.identity ∧ fact.order < other.order := by
      by_contra none
      refine some_ne_none time (newer.symm.trans (newerReportAt_eq_none.2 ?_))
      exact fun other its about => not_lt.1 fun less => none ⟨other, its, about, less⟩
    obtain ⟨other, there, about, less⟩ := later
    rw [newer] at mem
    rcases mem_append.1 mem with mem | mem
    · rw [sound.active row mem, grown row.fact (mem_map_of_mem mem)]
      refine and_congr_right fun _ => ⟨fun latest => ⟨latest, fun same => ?_⟩, And.left⟩
      exact (less.trans_le (latest.latest other there (about.trans same))).le
    obtain rfl := mem_singleton.1 mem
    refine ⟨nofun, fun last => ?_⟩
    exact absurd (last.2.latest other (mem_append_left _ there) about) (not_le.2 less)
  | none =>
    have last := newerReportAt_eq_none.1 newer
    rw [newer] at mem
    rcases mem_append.1 mem with mem | mem
    · obtain ⟨old, there, rfl⟩ := mem_map.1 mem
      have its : old.fact ∈ db.facts := mem_map_of_mem there
      rw [fact_supersede, grown old.fact its, ← and_assoc, ← sound.active old there]
      unfold Evidence.supersede
      split
      · rename_i superseded
        refine ⟨nofun, fun last => ?_⟩
        exact absurd (last.2 superseded.1.symm) (not_le.2 superseded.2.2)
      rename_i kept
      refine ⟨fun active => ⟨active, fun about => ?_⟩, And.left⟩
      by_contra before
      exact kept ⟨about.symm, active, not_le.1 before⟩
    obtain rfl := mem_singleton.1 mem
    have latest : Latest (db.facts ++ [fact]) fact := by
      refine ⟨mem_append_right _ (mem_singleton_self _), fun other its about => ?_⟩
      rcases mem_append.1 its with its | its
      · exact last other its about
      · rw [mem_singleton.1 its]
    by_cases withdrawn : fact.sourceLocalKey = none <;> simp [withdrawn, latest]

theorem recordClaim_spec (sound : Sound db) (fact : Fact) :
    (db.recordClaim fact).map Db.facts = record Fact.link Fact.valid db.facts fact ∧
      ∀ db', db.recordClaim fact = some db' → Sound db' := by
  unfold Db.recordClaim record
  split
  · exact ⟨rfl, fun db' is => some.inj is ▸ sound⟩
  rename_i absent
  split
  · refine ⟨congrArg some facts_recorded, fun db' is => some.inj is ▸ sound.record ?_⟩
    simpa [List.any_eq_true] using absent
  · exact ⟨rfl, nofun⟩

theorem recordAll_spec (sound : Sound db) (l : List Fact) :
    (l.foldlM Db.recordClaim db).map Db.facts = recordAll Fact.link Fact.valid db.facts l ∧
      ∀ db', l.foldlM Db.recordClaim db = some db' → Sound db' := by
  induction l generalizing db with
  | nil => exact ⟨rfl, fun db' is => some.inj is ▸ sound⟩
  | cons fact _ ih =>
    obtain ⟨facts, kept⟩ := recordClaim_spec sound fact
    rw [foldlM_cons, recordAll_cons, ← facts]
    cases is : db.recordClaim fact with
    | none => exact ⟨rfl, nofun⟩
    | some next => exact ih (kept next is)

/-! ### Runs -/

/-- What has been reported is in the tables, and the resolved domains are those of the active
claims. -/
structure Settled (env : Env) (arrivals : List Arrival) (db : Db) : Prop where
  sound : Sound db
  facts : ∀ fact, fact ∈ db.facts ↔ fact ∈ env.reports arrivals
  domains : db.domains = (db.refresh env).domains

theorem Settled.same (settled : Settled env arrivals db)
    (there : env.reported arrival ⊆ db.facts) : Settled env (arrivals ++ [arrival]) db := by
  refine ⟨settled.sound, fun fact => ?_, settled.domains⟩
  rw [Env.reports, flatMap_append, mem_append, flatMap_singleton, settled.facts]
  exact ⟨.inl, fun either => either.elim id fun mem => (settled.facts fact).1 (there mem)⟩

theorem Settled.again (settled : Settled env arrivals db) {item : Fact}
    (found : env.observations.get? arrival.observationId = some observation)
    (its : item ∈ env.claims observation arrival.resourceId) (there : fact ∈ db.facts)
    (same : fact.link = item.link) : arrival ∈ arrivals ∧ fact ∈ env.reported arrival := by
  obtain ⟨before, mem, reported⟩ := mem_flatMap.1 ((settled.facts fact).1 there)
  obtain ⟨id, resource⟩ := of_mem_reported reported
  obtain ⟨id', resource'⟩ := of_mem_claims its
  obtain ⟨observed, interface⟩ := Prod.mk.inj same
  have is : before = arrival := by
    rw [interface, resource', some.injEq] at resource
    rw [observed, id', KeyTable.key_of_get? found] at id
    cases before
    cases arrival
    cases id
    cases resource
    rfl
  exact is ▸ ⟨mem, reported⟩

/-- **One arrival.**  Its reports are recorded, the first time it comes and no other time. -/
theorem Settled.step (settled : Settled env arrivals db) :
    Settled env (arrivals ++ [arrival]) (step env db arrival) := by
  unfold RoutingDomains.step
  cases found : env.observations.get? arrival.observationId with
  | none => exact settled.same (by simp [Env.reported, found])
  | some observation =>
    have is : env.reported arrival = (recordAll Fact.link Fact.valid []
        (env.claims observation arrival.resourceId)).getD [] := by
      rw [Env.reported, found, bind_some]
    obtain ⟨facts, kept⟩ := recordAll_spec settled.sound (env.claims observation arrival.resourceId)
    rw [bind_some, Db.recordClaims]
    split
    · rename_i silent
      have nothing : env.claims observation arrival.resourceId = [] := by
        refine filterMap_eq_nil_iff.2 fun reported mem => ?_
        rw [isNone_iff_eq_none.1 (all_eq_true.1 silent reported mem)]
        rfl
      exact settled.same (by simp [is, nothing])
    cases report : recordAll Fact.link Fact.valid []
        (env.claims observation arrival.resourceId) with
    | none =>
      rw [report, getD_none] at is
      have apart : ∀ item ∈ env.claims observation arrival.resourceId, ∀ other ∈ db.facts,
          other.link ≠ item.link := by
        intro item mem other there same
        have reported := (settled.again found mem there same).2
        rw [is] at reported
        exact not_mem_nil reported
      have refused := recordAll_append_of_apart Fact.valid apart []
      rw [append_nil, report, ← facts, map_none, map_eq_none_iff] at refused
      rw [refused]
      exact settled.same (by simp [is])
    | some new =>
      rw [report, getD_some] at is
      have once : (∀ item ∈ env.claims observation arrival.resourceId, ∀ other ∈ db.facts,
          other.link ≠ item.link) ∨ new ⊆ db.facts := by
        by_cases before : arrival ∈ arrivals
        · refine .inr fun fact mem => (settled.facts fact).2 ?_
          exact mem_flatMap.2 ⟨arrival, before, is ▸ mem⟩
        exact .inl fun _ mem _ there same =>
          before (settled.again found mem there same).1
      obtain ⟨_, recorded, mem⟩ := mem_recordAll report once
      obtain ⟨next, fold, rfl⟩ := map_eq_some_iff.1 (facts.trans recorded)
      rw [fold]
      refine ⟨⟨(kept next fold).links, (kept next fold).active⟩, fun fact => ?_, rfl⟩
      show fact ∈ next.facts ↔ _
      rw [mem, settled.facts, Env.reports, Env.reports, flatMap_append, mem_append,
        flatMap_singleton, is]

/-- **A run.**  Whatever the order of its arrivals, the tables hold what they reported. -/
theorem run_settled (env : Env) (arrivals : List Arrival) :
    Settled env arrivals (run env arrivals) := by
  induction arrivals using reverseRecOn with
  | nil => exact ⟨⟨nodup_nil, fun _ mem => absurd mem not_mem_nil⟩, fun _ => Iff.rfl, rfl⟩
  | append_singleton _ _ ih =>
    rw [run, Run.run_concat]
    exact ih.step

theorem Settled.mem_active (settled : Settled env arrivals db) :
    fact ∈ db.active ↔ Latest (env.reports arrivals) fact ∧ fact.sourceLocalKey ≠ none := by
  rw [Db.active, List.mem_map, ← latest_congr settled.facts]
  constructor
  · rintro ⟨row, mem, rfl⟩
    obtain ⟨mem, active⟩ := mem_filter.1 mem
    exact ((settled.sound.active row mem).1 (of_decide_eq_true active)).symm
  rintro ⟨latest, present⟩
  obtain ⟨row, mem, rfl⟩ := mem_map.1 latest.mem
  exact ⟨row, mem_filter.2 ⟨mem, decide_eq_true
    ((settled.sound.active row mem).2 ⟨present, latest⟩)⟩, rfl⟩

theorem Sound.eq_of_order (sound : Sound db) {one two : Fact} (mem : one ∈ db.facts)
    (mem' : two ∈ db.facts) (about : one.interfaceId = two.interfaceId)
    (same : one.order = two.order) : one = two :=
  inj_on_of_nodup_map sound.links mem mem'
    (Prod.ext (congrArg (fun order => (ofLex order).2) same) about)

theorem active_subset : db.active ⊆ db.facts :=
  (filter_sublist.map Evidence.fact).subset

/-- **Routing domains settle.**  However observations arrive and how often, the active claims are
the reports that are the greatest of their source about their interface by time and observation,
unless they are withdrawals; a source has at most one about an interface.  Two runs in which the
same observations arrive resolve every interface to the same domain. -/
theorem domains_settle (env : Env) (arrivals : List Arrival) :
    (∀ fact, fact ∈ (run env arrivals).active ↔
      Latest (env.reports arrivals) fact ∧ fact.sourceLocalKey ≠ none) ∧
    ((run env arrivals).active.map Fact.identity).Nodup ∧
    ∀ arrivals', (∀ arrival, arrival ∈ arrivals ↔ arrival ∈ arrivals') →
      (run env arrivals).domains = (run env arrivals').domains := by
  have one := run_settled env arrivals
  refine ⟨fun fact => one.mem_active, ?_, fun arrivals' same => ?_⟩
  · have nodup : (run env arrivals).active.Nodup :=
      (filter_sublist.map Evidence.fact).nodup one.sound.links.of_map
    refine nodup.map_on fun fact mem other mem' about => ?_
    obtain ⟨latest, -⟩ := one.mem_active.1 mem
    obtain ⟨latest', -⟩ := one.mem_active.1 mem'
    exact one.sound.eq_of_order (active_subset mem) (active_subset mem')
      (congrArg Prod.snd about) (le_antisymm (latest'.latest fact latest.mem about)
        (latest.latest other latest'.mem about.symm))
  have two := run_settled env arrivals'
  have reports : ∀ fact, fact ∈ env.reports arrivals ↔ fact ∈ env.reports arrivals' := by
    simp only [Env.reports, mem_flatMap, same, implies_true]
  have active : ∀ fact, fact ∈ (run env arrivals).active ↔ fact ∈ (run env arrivals').active := by
    intro fact
    rw [one.mem_active, two.mem_active, latest_congr reports]
  rw [one.domains, two.domains]
  funext interfaceId
  refine congrArg (bind · env.domain) (Contest.argmax_congr ?_ fun _ => ?_)
  · intro _ mem _ mem' key
    obtain ⟨mem, its⟩ := mem_filter.1 mem
    obtain ⟨mem', its'⟩ := mem_filter.1 mem'
    exact one.sound.eq_of_order (active_subset mem) (active_subset mem')
      ((of_decide_eq_true its).trans (of_decide_eq_true its').symm)
      (congrArg (fun key => (ofLex key).2) key)
  · rw [mem_filter, mem_filter, active]

end Renga.IPAM.RoutingDomains
