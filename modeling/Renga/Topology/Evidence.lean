import Renga.Inventory.InterfaceFields
import Renga.Lib.Evidence

/-!
# Evidence about interfaces

What the reconcilers of `Renga.Topology` share: the interfaces a report is about, which are
not written here, the order of observations, and the events that say an observation was
complete for a section (`topology_snapshot_events`).
-/

namespace Renga.Topology

open List

open Renga.Inventory (InterfaceStatus)

/-- A row of `interfaces`, as far as its topology is concerned.  A MAC address is its twelve
digits. -/
structure Interface where
  id : Uuid
  resourceId : Uuid
  name : String
  macAddress : Option String := none
  status : InterfaceStatus := .up
  deriving DecidableEq

def Interface.present (interface : Interface) : Bool := interface.status ≠ .notPresent

abbrev Interfaces := KeyTable Uuid Interface Interface.id

/-- `Map.fetch(interfaces, name)`, of the interfaces of a resource. -/
def Interfaces.named (interfaces : Interfaces) (resourceId : Uuid) (name : String) :
    Option Interface :=
  (interfaces.rows.filter (·.resourceId = resourceId)).reverse.find? (·.name = name)

def Interfaces.resourceOf (interfaces : Interfaces) (interfaceId : Uuid) : Option Uuid :=
  (interfaces.get? interfaceId).map Interface.resourceId

variable {interfaces : Interfaces} {interface : Interface}

theorem Interfaces.resourceOf_named {resourceId : Uuid} {name : String}
    (is : interfaces.named resourceId name = some interface) :
    interfaces.resourceOf interface.id = some resourceId := by
  have mem := mem_reverse.1 (mem_of_find?_eq_some is)
  obtain ⟨mem, its⟩ := mem_filter.1 mem
  rw [Interfaces.resourceOf, KeyTable.get?_of_mem mem, Option.map_some, of_decide_eq_true its]

theorem Interfaces.named_of_mem {resourceId : Uuid}
    (distinct : ∀ one ∈ interfaces.rows, ∀ two ∈ interfaces.rows,
      one.resourceId = two.resourceId → one.name = two.name → one = two)
    (mem : interface ∈ interfaces) (its : interface.resourceId = resourceId) :
    interfaces.named resourceId interface.name = some interface := by
  have own : interface ∈ interfaces.rows.filter (·.resourceId = resourceId) :=
    mem_filter.2 ⟨mem, decide_eq_true its⟩
  cases found : interfaces.named resourceId interface.name with
  | none =>
    have none := find?_eq_none.1 found interface (mem_reverse.2 own)
    exact absurd (decide_eq_true rfl) none
  | some other =>
    obtain ⟨memOther, itsOther⟩ :=
      mem_filter.1 (mem_reverse.1 (mem_of_find?_eq_some found))
    have name : other.name = interface.name := by simpa using find?_some found
    rw [distinct other memOther interface mem
      ((of_decide_eq_true itsOther).trans its.symm) name]

structure Ids where
  next : List Uuid → Uuid
  fresh : ∀ used, next used ∉ used

theorem le_foldr_max {used : List ℕ} {id : ℕ} (mem : id ∈ used) : id ≤ used.foldr max 0 := by
  induction used with
  | nil => exact absurd mem not_mem_nil
  | cons _ _ ih =>
    rcases mem_cons.1 mem with rfl | mem
    · exact le_max_left ..
    · exact (ih mem).trans (le_max_right ..)

def Ids.counted : Ids where
  next := fun used => used.foldr max 0 + 1
  fresh := fun _ mem => absurd (le_foldr_max mem) (Nat.not_succ_le_self _)

theorem Ids.get?_next {ρ : Type*} {key : ρ → Uuid} (ids : Ids) (table : KeyTable Uuid ρ key) :
    table.get? (ids.next (table.rows.map key)) = none :=
  KeyTable.get?_eq_none_iff.2 fun row mem same => ids.fresh _ (mem_map.2 ⟨row, mem, same⟩)

/-- The order of observations: by the time they were made, then by their key. -/
abbrev ObservationOrder := Time ×ₗ Uuid

/-- An observation that is reconciled for a resource. -/
@[ext] structure Arrival where
  observationId : Uuid
  resourceId : Uuid
  deriving DecidableEq

inductive SectionName where
  | interfaceVlans
  | interfaceNeighbors
  | interfaceRelationships
  deriving DecidableEq

structure SnapshotEvent where
  resourceId : Uuid
  sourceId : Uuid
  observationId : Uuid
  sectionName : SectionName
  observedAt : Time
  deriving DecidableEq

variable (events : List SnapshotEvent) (event : SnapshotEvent) (sectionName : SectionName)
  (resourceId : Uuid)

/-- `evidence_order/1` and `observation_order/1`, of an event. -/
def SnapshotEvent.order : ObservationOrder :=
  toLex (event.observedAt, event.observationId)

def SnapshotEvent.mark : (Option Uuid × Uuid) × ObservationOrder :=
  ((some event.resourceId, event.sourceId), event.order)

/-- The events of a section that are boundaries of a source on a resource. -/
def boundaryEvents (sourceId : Uuid) : List SnapshotEvent :=
  events.filter fun event =>
    event.resourceId = resourceId ∧ event.sourceId = sourceId ∧ event.sectionName = sectionName

/-- The latest of them: `latest_boundary/3`, and the entry of a source in
`latest_snapshot_events/3`. -/
def latestBoundary (sourceId : Uuid) : Option SnapshotEvent :=
  (boundaryEvents events sectionName resourceId sourceId).argmax SnapshotEvent.order

/-- An event is recorded once: `put_snapshot_event/5`, and `maybe_record_snapshot/5`, which asks
for the source too; it is that of the observation. -/
def putSnapshotEvent : List SnapshotEvent :=
  if events.any fun other => other.observationId = event.observationId ∧
      other.resourceId = event.resourceId ∧ other.sectionName = event.sectionName then
    events
  else events ++ [event]

theorem mem_putSnapshotEvent {events : List SnapshotEvent} {event : SnapshotEvent}
    (once : ∀ other ∈ events, other.observationId = event.observationId →
      other.resourceId = event.resourceId → other.sectionName = event.sectionName → other = event)
    {other : SnapshotEvent} :
    other ∈ putSnapshotEvent events event ↔ other ∈ events ∨ other = event := by
  unfold putSnapshotEvent
  split
  · rename_i there
    obtain ⟨same, mem, its⟩ := any_eq_true.1 there
    obtain ⟨observation, resource, section_⟩ := of_decide_eq_true its
    refine ⟨Or.inl, fun either => either.elim id ?_⟩
    rintro rfl
    exact once same mem observation resource section_ ▸ mem
  · rw [mem_append, mem_singleton]

def marks : List ((Option Uuid × Uuid) × ObservationOrder) :=
  (events.filter (·.sectionName = sectionName)).map SnapshotEvent.mark

theorem mem_marks {events : List SnapshotEvent} {sectionName : SectionName}
    {mark : (Option Uuid × Uuid) × ObservationOrder} : mark ∈ marks events sectionName ↔
      ∃ event ∈ events, event.sectionName = sectionName ∧ event.mark = mark := by
  simp only [marks, mem_map, mem_filter, decide_eq_true_eq, and_assoc]

theorem marks_subset {events events' : List SnapshotEvent} (more : events ⊆ events')
    {sectionName : SectionName} : marks events sectionName ⊆ marks events' sectionName := by
  intro _ mem
  obtain ⟨event, memEvent, its⟩ := mem_marks.1 mem
  exact mem_marks.2 ⟨event, more memEvent, its⟩

theorem before_latestBoundary_iff {events : List SnapshotEvent} {sectionName : SectionName}
    {resourceId sourceId : Uuid} {time : ObservationOrder} :
    (latestBoundary events sectionName resourceId sourceId).any (time < ·.order) = true ↔
      ∃ mark ∈ marks events sectionName, mark.1 = (some resourceId, sourceId) ∧ time < mark.2 := by
  rw [latestBoundary, ← Evidence.beforeLatest, Evidence.beforeLatest_iff]
  simp only [mem_marks, boundaryEvents, mem_filter, decide_eq_true_eq]
  constructor
  · rintro ⟨event, ⟨mem, rfl, rfl, rfl⟩, before⟩
    exact ⟨_, ⟨event, mem, rfl, rfl⟩, rfl, before⟩
  rintro ⟨_, ⟨event, mem, rfl, rfl⟩, its, before⟩
  obtain ⟨rfl, rfl⟩ : event.resourceId = resourceId ∧ event.sourceId = sourceId := by
    simpa [SnapshotEvent.mark] using its
  exact ⟨event, ⟨mem, rfl, rfl, rfl⟩, before⟩

end Renga.Topology
