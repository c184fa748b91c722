import Renga.Inventory.Schema
import Renga.Lib.Run
import Renga.Topology.Evidence

/-!
# VLANs of interfaces

`Renga.Topology.reconcile_interface_vlans/6`: what interfaces report of their VLANs and of
their mode is recorded as evidence.  Evidence of a membership goes stale when its source
reports the same link later, or reports all of the resource without it.  Evidence of a mode
never goes stale; a complete report withdraws the modes it does not mention.
-/

namespace Renga.Topology.Vlans

inductive TaggingMode where
  | tagged
  | untagged
  deriving DecidableEq

inductive Mode where
  | access
  | trunk
  | taggedAll
  deriving DecidableEq

structure ReportedMembership where
  key : Option String := none
  scope : Option String := none
  vid : ℕ
  taggingMode : TaggingMode
  deriving DecidableEq

/-- An entry of `"interfaces"`.  The mode may be absent or null. -/
structure ReportedInterface where
  name : String
  vlanMode : Option (Option Mode) := none
  vlans : List ReportedMembership := []
  deriving DecidableEq

/-- A row of `observations`.  `complete` is what `"section_completeness"` has for
`"interface_vlans"`. -/
structure Observation where
  id : Uuid
  sourceId : Uuid
  observedAt : Time
  interfaces : List ReportedInterface := []
  complete : Bool := false
  deriving DecidableEq

/-- A row of `sources`, with the entry `"interface_vlan_snapshot_policy"` of its metadata. -/
structure Source where
  id : Uuid
  interfaceVlanSnapshotPolicy : Option String := none
  deriving DecidableEq

def completeInterfaceVlanSnapshot (source : Source) (observation : Observation) : Bool :=
  source.interfaceVlanSnapshotPolicy = some "complete" && observation.complete

structure Mapping where
  sourceId : Uuid
  sourceLocalScope : String
  vlanGroupId : Option Uuid
  deriving DecidableEq

structure Vlan where
  id : Uuid
  vlanGroupId : Option Uuid
  vid : ℕ
  deriving DecidableEq

structure VidRange where
  vlanGroupId : Uuid
  startVid : ℕ
  endVid : ℕ
  deriving DecidableEq

/-- What stays the same while VLANs are reconciled.  `distinctNames` is
`interfaces_organization_id_resource_id_name_index`. -/
structure Env where
  names : Inventory.Names
  interfaces : Interfaces
  distinctNames : ∀ one ∈ interfaces.rows, ∀ two ∈ interfaces.rows,
    one.resourceId = two.resourceId → one.name = two.name → one = two
  resources : List Uuid := []
  sources : KeyTable Uuid Source Source.id := KeyTable.empty
  observations : KeyTable Uuid Observation Observation.id := KeyTable.empty
  mappings : List Mapping := []
  vlans : List Vlan := []
  vidRanges : List VidRange := []

/-! ### Evidence -/

inductive Resolution where
  | resolved
  | unmappedScope
  | ambiguousScope
  | outOfRange
  | unknownVlan
  deriving DecidableEq

variable (env : Env) (ids : Ids) (observation : Observation) (resourceId : Uuid)

def Env.vidAllowed (vlanGroupId : Uuid) (vid : ℕ) : Bool :=
  env.vidRanges.any fun range =>
    range.vlanGroupId = vlanGroupId ∧ range.startVid ≤ vid ∧ vid ≤ range.endVid

def Env.resolveMappedVlan (vlanGroupId : Option Uuid) (vid : ℕ) : Option Uuid × Resolution :=
  match env.vlans.find? fun vlan => vlan.vlanGroupId = vlanGroupId ∧ vlan.vid = vid with
  | some vlan => (some vlan.id, .resolved)
  | none =>
    if vlanGroupId.any fun group => ¬env.vidAllowed group vid then (none, .outOfRange)
    else (none, .unknownVlan)

def Env.resolveSourceVlan (sourceId : Uuid) (scope : Option String) (vid : ℕ) :
    Option Uuid × Resolution :=
  match env.mappings.filter fun mapping =>
      mapping.sourceId = sourceId ∧ scope.all (· = mapping.sourceLocalScope) with
  | [] => (none, .unmappedScope)
  | [mapping] => env.resolveMappedVlan mapping.vlanGroupId vid
  | _ => (none, .ambiguousScope)

/-- What a row of `interface_vlan_evidence` says; it never changes. -/
structure Fact where
  interfaceId : Uuid
  sourceId : Uuid
  observationId : Uuid
  sourceLocalKey : String
  sourceLocalScope : Option String
  vid : ℕ
  vlanId : Option Uuid
  taggingMode : TaggingMode
  resolution : Resolution
  observedAt : Time
  deriving DecidableEq

structure Evidence where
  id : Uuid
  fact : Fact
  staleAt : Option Time := none
  deriving DecidableEq

/-- What a row of `interface_vlan_mode_evidence` says; it never changes.  A null mode is a
withdrawal. -/
structure ModeFact where
  interfaceId : Uuid
  sourceId : Uuid
  observationId : Uuid
  mode : Option Mode
  observedAt : Time
  completeSnapshot : Bool
  deriving DecidableEq

structure ModeEvidence where
  id : Uuid
  fact : ModeFact
  deriving DecidableEq

def Fact.order (fact : Fact) : ObservationOrder := toLex (fact.observedAt, fact.observationId)

def ModeFact.order (fact : ModeFact) : ObservationOrder :=
  toLex (fact.observedAt, fact.observationId)

def Fact.membershipOrder (fact : Fact) : ObservationOrder ×ₗ String :=
  toLex (fact.order, fact.sourceLocalKey)

def Fact.identity (fact : Fact) : Uuid × Uuid × String :=
  (fact.sourceId, fact.interfaceId, fact.sourceLocalKey)

def Fact.link (fact : Fact) : Uuid × Uuid × String :=
  (fact.observationId, fact.interfaceId, fact.sourceLocalKey)

def ModeFact.link (fact : ModeFact) : Uuid × Uuid := (fact.observationId, fact.interfaceId)

def Env.fact (interface : Interface) (membership : ReportedMembership) : Fact :=
  let scope := membership.scope.map env.names.trim
  let resolved := env.resolveSourceVlan observation.sourceId scope membership.vid
  { interfaceId := interface.id
    sourceId := observation.sourceId
    observationId := observation.id
    sourceLocalKey := (membership.key.map env.names.trim).getD
      (scope.getD "default" ++ ":" ++ toString membership.vid)
    sourceLocalScope := scope.filter (· ≠ "")
    vid := membership.vid
    vlanId := resolved.1
    taggingMode := membership.taggingMode
    resolution := resolved.2
    observedAt := observation.observedAt }

def Fact.valid (fact : Fact) : Bool :=
  fact.sourceLocalKey ≠ "" && fact.sourceLocalKey.utf8ByteSize ≤ 2000 &&
    fact.sourceLocalScope.all (·.length ≤ 255) && 1 ≤ fact.vid && fact.vid ≤ 4094

def modeFact (interface : Interface) (mode : Option Mode) (completeSnapshot : Bool) : ModeFact :=
  ⟨interface.id, observation.sourceId, observation.id, mode, observation.observedAt,
    completeSnapshot⟩

/-! ### Current state -/

/-- A row of `current_interface_vlan_memberships`; the source is its metadata. -/
structure Membership where
  interfaceId : Uuid
  vlanId : Uuid
  evidenceId : Uuid
  taggingMode : TaggingMode
  sourceId : Uuid
  deriving DecidableEq

/-- A row of `current_interface_vlan_modes`; the source is its metadata. -/
structure CurrentMode where
  interfaceId : Uuid
  evidenceId : Uuid
  mode : Mode
  sourceId : Uuid
  deriving DecidableEq

structure Db where
  evidence : KeyTable Uuid Evidence Evidence.id := KeyTable.empty
  modeEvidence : KeyTable Uuid ModeEvidence ModeEvidence.id := KeyTable.empty
  events : List SnapshotEvent := []
  memberships : List Membership := []
  modes : KeyTable Uuid CurrentMode CurrentMode.interfaceId := KeyTable.empty

variable (db : Db) (observation : Observation) (resourceId : Uuid)

/-- The events that count for an interface's evidence: `latest_snapshot_events/3` of a resource,
by source. -/
def Db.boundary (sourceId : Uuid) : Option SnapshotEvent :=
  latestBoundary db.events .interfaceVlans resourceId sourceId

/-- `is_nil(boundary) or observation_order(evidence) >= observation_order(boundary)`. -/
def Db.afterBoundary (sourceId : Uuid) (order : ObservationOrder) : Bool :=
  ¬(db.boundary resourceId sourceId).any (order < ·.order)

def latestSourceMembershipEvidence (rows : List Evidence) : List Evidence :=
  Evidence.latestOfGroups (fun row => (row.fact.sourceId, row.fact.sourceLocalKey))
    (·.fact.membershipOrder) rows

def selectEffectiveUntagged (rows : List Evidence) : List Evidence :=
  let untagged := rows.filter (·.fact.taggingMode = .untagged)
  let tagged := rows.filter (·.fact.taggingMode ≠ .untagged)
  match untagged.argmax (·.fact.membershipOrder) with
  | none => tagged
  | some row => row :: tagged

def Db.selectedMemberships (interfaceId : Uuid) : List Evidence :=
  let active := db.evidence.rows.filter fun row =>
    row.fact.interfaceId = interfaceId ∧ row.staleAt = none
  let latest := (latestSourceMembershipEvidence active).filter fun row =>
    db.afterBoundary resourceId row.fact.sourceId row.fact.order ∧ row.fact.vlanId ≠ none
  selectEffectiveUntagged
    (Evidence.latestOfGroups (·.fact.vlanId) (·.fact.membershipOrder) latest)

def Evidence.membership (row : Evidence) : Option Membership :=
  row.fact.vlanId.map fun vlanId =>
    ⟨row.fact.interfaceId, vlanId, row.id, row.fact.taggingMode, row.fact.sourceId⟩

def Db.rebuildCurrentMemberships (interfaceId : Uuid) : Db :=
  { db with
    memberships := db.memberships.filter (·.interfaceId ≠ interfaceId) ++
      (db.selectedMemberships resourceId interfaceId).filterMap Evidence.membership }

/-- `effective_mode_evidence/3`: of each source the latest counts. -/
def Db.effectiveModeEvidence (interfaceId : Uuid) : Option ModeEvidence :=
  let own := db.modeEvidence.rows.filter (·.fact.interfaceId = interfaceId)
  let bySource := Evidence.latestOfGroups (·.fact.sourceId) (·.fact.order) own
  let standing := bySource.filter fun row =>
    db.afterBoundary resourceId row.fact.sourceId row.fact.order ∧ row.fact.mode ≠ none
  standing.argmax (·.fact.order)

def modeCompatible (mode : Mode) (memberships : List Membership) : Bool :=
  mode ≠ .access ∨ memberships.all (·.taggingMode = .untagged)

def Db.currentMode (interfaceId : Uuid) : Option CurrentMode := do
  let row ← db.effectiveModeEvidence resourceId interfaceId
  let mode ← row.fact.mode
  if modeCompatible mode (db.memberships.filter (·.interfaceId = interfaceId)) then
    some ⟨interfaceId, row.id, mode, row.fact.sourceId⟩
  else none

def Db.rebuildCurrentMode (interfaceId : Uuid) : Db :=
  { db with
    modes := match db.currentMode resourceId interfaceId with
      | some mode => db.modes.place mode
      | none => db.modes.erase interfaceId }

/-! ### A report -/

/-- The rows of a link that an observation is later than. -/
def Evidence.supersedeLink (fact : Fact) (row : Evidence) : Evidence :=
  if row.fact.identity = fact.identity ∧ row.staleAt = none ∧
      row.fact.observedAt < fact.observedAt then
    { row with staleAt := some fact.observedAt }
  else row

def Db.putInterfaceVlanEvidence (currentSnapshot : Bool) (db : Db) (fact : Fact) : Option Db :=
  let evidence : KeyTable Uuid Evidence Evidence.id :=
    if currentSnapshot then
      db.evidence.map (Evidence.supersedeLink fact) fun row => by
        unfold Evidence.supersedeLink
        split <;> rfl
    else db.evidence
  if evidence.rows.any (·.fact.link = fact.link) then some { db with evidence }
  else if fact.valid then
    some { db with
      evidence := evidence.add ⟨ids.next (evidence.rows.map Evidence.id), fact, none⟩
        (ids.get?_next evidence) }
  else none

def Db.putInterfaceVlanModeEvidence (fact : ModeFact) : Db :=
  if db.modeEvidence.rows.any (·.fact.link = fact.link) then db
  else
    { db with
      modeEvidence := db.modeEvidence.add
        ⟨ids.next (db.modeEvidence.rows.map ModeEvidence.id), fact⟩
        (ids.get?_next db.modeEvidence) }

def validReportedMode (reported : ReportedInterface) (mode : Option Mode) : Bool :=
  ¬(mode = some .access ∧ reported.vlans.any (·.taggingMode ≠ .untagged))

def Db.putReportedVlanMode (interface : Interface) (reported : ReportedInterface) (complete : Bool)
    : Option Db :=
  match reported.vlanMode with
  | none => some db
  | some mode =>
    if validReportedMode reported mode then
      some (db.putInterfaceVlanModeEvidence ids (modeFact observation interface mode complete))
    else none

def Env.reportedInterface (reported : ReportedInterface) : Option Interface :=
  env.interfaces.named resourceId (env.names.trim reported.name)

def Db.collectInterfaceVlanEvidence (currentSnapshot complete : Bool) (db : Db)
    (reported : ReportedInterface) : Option Db :=
  match env.reportedInterface resourceId reported with
  | none => some db
  | some interface => do
      let db ← db.putReportedVlanMode ids observation interface reported complete
      (reported.vlans.map (env.fact observation interface)).foldlM
        (Db.putInterfaceVlanEvidence ids currentSnapshot) db

/-- The interfaces whose memberships a report mentions. -/
def Env.evidenceInterfaceIds : List Uuid :=
  observation.interfaces.flatMap fun reported =>
    match env.reportedInterface resourceId reported with
    | none => []
    | some interface => reported.vlans.map fun _ => interface.id

def Env.modeInterfaceIds : List Uuid :=
  observation.interfaces.filterMap fun reported =>
    if reported.vlanMode.isSome then
      (env.reportedInterface resourceId reported).map Interface.id
    else none

/-- The interfaces of the resource whose mode a report does not mention. -/
def Env.omittedModeInterfaces : List Interface :=
  let names := (observation.interfaces.filter (·.vlanMode.isSome)).map
    fun reported => env.names.trim reported.name
  env.interfaces.rows.filter fun interface =>
    interface.resourceId = resourceId ∧ interface.name ∉ names

def Db.addOmittedModeWithdrawals (complete : Bool) : Db :=
  if complete then
    (env.omittedModeInterfaces observation resourceId).foldl (fun db interface =>
      db.putInterfaceVlanModeEvidence ids (modeFact observation interface none true)) db
  else db

def Env.observedKeys : List (Uuid × String) :=
  observation.interfaces.flatMap fun reported =>
    match env.reportedInterface resourceId reported with
    | none => []
    | some interface => reported.vlans.map fun membership =>
      (interface.id, (env.fact observation interface membership).sourceLocalKey)

def Env.omissionCandidate (row : Evidence) : Bool :=
  row.fact.sourceId = observation.sourceId ∧ row.staleAt = none ∧
    row.fact.observedAt < observation.observedAt ∧
    env.interfaces.resourceOf row.fact.interfaceId = some resourceId

def Env.staleOmitted (row : Evidence) : Evidence :=
  if env.omissionCandidate observation resourceId row ∧
      (row.fact.interfaceId, row.fact.sourceLocalKey) ∉
        env.observedKeys observation resourceId then
    { row with staleAt := some observation.observedAt }
  else row

def Db.staleOmittedIfComplete (complete : Bool) : Db :=
  if complete then
    { db with
      evidence := db.evidence.map (env.staleOmitted observation resourceId) fun row => by
        unfold Env.staleOmitted
        split <;> rfl }
  else db

/-- The interfaces of the rows `stale_omitted_vlan_evidence_if_complete/6` looked at. -/
def Db.staleInterfaceIds (complete : Bool) : List Uuid :=
  if complete then
    (db.evidence.rows.filter (env.omissionCandidate observation resourceId)).map
      (·.fact.interfaceId)
  else []

def laterObservedAt (latest : Fact) (boundary : Option SnapshotEvent) : Time :=
  match boundary with
  | none => latest.observedAt
  | some event => if event.order ≤ latest.order then latest.observedAt else event.observedAt

/-- The latest of the group of a row; the row is one of the group. -/
def Db.latestOfLink (row : Evidence) : Evidence :=
  ((db.evidence.rows.filter fun other =>
    other.staleAt = none ∧ other.fact.identity = row.fact.identity).argmax
      (·.fact.order)).getD row

/-- `stale_vlan_evidence/3`, of a row on the resource that is active. -/
def Db.refreshedEvidence (row : Evidence) : Evidence :=
  if row.staleAt = none ∧ env.interfaces.resourceOf row.fact.interfaceId = some resourceId then
    let latest := db.latestOfLink row
    if row.id = latest.id ∧ db.afterBoundary resourceId row.fact.sourceId row.fact.order then row
    else
      { row with
        staleAt := some (laterObservedAt latest.fact (db.boundary resourceId row.fact.sourceId)) }
  else row

def Db.refreshVlanEvidenceStaleness : Db :=
  { db with
    evidence := db.evidence.map (db.refreshedEvidence env resourceId) fun row => by
      unfold Db.refreshedEvidence
      split
      · dsimp only
        split <;> rfl
      · rfl }

def Db.rebuildChangedVlanInterfaces (changed : List Uuid) : Db :=
  changed.dedup.foldl (fun db interfaceId =>
    (db.rebuildCurrentMemberships resourceId interfaceId).rebuildCurrentMode resourceId
      interfaceId) db

def Db.reconcileInterfaceVlans (observationId resourceId : Uuid) (currentSnapshot : Bool) :
    Option Db := do
  let observation ← env.observations.get? observationId
  let source ← env.sources.get? observation.sourceId
  let _ ← env.resources.find? (· = resourceId)
  let complete := completeInterfaceVlanSnapshot source observation
  let db := if complete then
      { db with
        events := putSnapshotEvent db.events
          ⟨resourceId, source.id, observation.id, .interfaceVlans, observation.observedAt⟩ }
    else db
  let db ← observation.interfaces.foldlM
    (Db.collectInterfaceVlanEvidence env ids observation resourceId currentSnapshot complete) db
  let db := db.addOmittedModeWithdrawals env ids observation resourceId complete
  let stale := db.staleInterfaceIds env observation resourceId complete
  let db := db.staleOmittedIfComplete env observation resourceId complete
  let db := db.refreshVlanEvidenceStaleness env resourceId
  let withdrawn := if complete then
      (env.omittedModeInterfaces observation resourceId).map Interface.id
    else []
  some (db.rebuildChangedVlanInterfaces resourceId
    (env.evidenceInterfaceIds observation resourceId ++ stale ++
      (env.modeInterfaceIds observation resourceId ++ withdrawn)))

/-- An observation is reconciled with a resource; `currentSnapshot` is whether it is the latest of
its source. -/
structure Op where
  observationId : Uuid
  resourceId : Uuid
  currentSnapshot : Bool
  deriving DecidableEq

def step (op : Op) : Db :=
  (db.reconcileInterfaceVlans env ids op.observationId op.resourceId op.currentSnapshot).getD db

def run (env : Env) (ids : Ids) (ops : List Op) : Db := Run.run (step env ids) {} ops

end Renga.Topology.Vlans
