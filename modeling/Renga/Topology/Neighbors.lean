import Renga.Inventory.Schema
import Renga.Lib.Greedy
import Renga.Lib.Run
import Renga.Topology.Evidence

/-!
# Neighbors

`Renga.Topology.NeighborReconciler`: what interfaces report of their LLDP and CDP neighbors is
recorded as evidence.  Evidence goes stale once: when something later is known about the same
neighbor, when its time to live is over, or when a later report was complete and did not repeat
it.
-/

namespace Renga.Topology.Neighbors

open Renga.Inventory (IdentifierKind Names ResourceIdentifier InterfaceStatus)

/-! ### Identifiers of the other end -/

inductive Protocol where
  | lldp
  | cdp
  deriving DecidableEq

def Protocol.text : Protocol → String
  | .lldp => "lldp"
  | .cdp => "cdp"

inductive ChassisIdKind where
  | macAddress
  | networkAddress
  | local_
  | name
  deriving DecidableEq

def ChassisIdKind.text : ChassisIdKind → String
  | .macAddress => "mac_address"
  | .networkAddress => "network_address"
  | .local_ => "local"
  | .name => "name"

inductive PortIdKind where
  | macAddress
  | local_
  | name
  deriving DecidableEq

def PortIdKind.chassis : PortIdKind → ChassisIdKind
  | .macAddress => .macAddress
  | .local_ => .local_
  | .name => .name

def isHexDigit (c : Char) : Bool := c ∈ "0123456789abcdefABCDEF".toList

/-- `count` groups of `size` digits, with a separator between. -/
def hexGroups (separator : Char) (count size : ℕ) (text : List Char) : Bool :=
  let groups := text.splitOn separator
  groups.length = count && groups.all fun group => group.length = size && group.all isHexDigit

def isMacAddress (names : Names) (value : String) : Bool :=
  let text := (names.trim value).toList
  (text.length = 12 && text.all isHexDigit) || hexGroups ':' 6 2 text || hexGroups '-' 6 2 text ||
    hexGroups '.' 3 4 text

/-- `MacAddress.cast/1`: the twelve digits, if there are twelve. -/
def castMacAddress (names : Names) (value : String) : Option String :=
  let digits := (names.downcase (names.trim value)).toList.filter isHexDigit
  if digits.length = 12 then some (String.ofList digits) else none

/-- What `Inet.cast/1` returns: the address as it is printed, the mask of a single host, and the
mask that was given. -/
structure Inet where
  address : String
  hostMask : ℕ
  netmask : Option ℕ

structure Texts where
  names : Names
  /-- `lower`, of the database. -/
  lower : String → String
  castInet : String → Option Inet

def Texts.normalizeChassis (texts : Texts) (kind : Option ChassisIdKind) (value : String) :
    String :=
  let trimmed := texts.names.trim value
  match kind with
  | some .networkAddress =>
    match texts.castInet value with
    | some inet =>
      match inet.netmask with
      | none => inet.address
      | some mask =>
        if mask = inet.hostMask then inet.address else inet.address ++ "/" ++ toString mask
    | none => texts.names.downcase trimmed
  | some .macAddress => texts.names.normalizeMac trimmed
  | some .name => texts.names.downcase trimmed
  | some .local_ => trimmed
  | none =>
    if isMacAddress texts.names trimmed then texts.names.normalizeMac trimmed else trimmed

def Texts.normalizePort (texts : Texts) (kind : Option PortIdKind) (value : String) : String :=
  if kind = some .name then texts.names.trim value
  else texts.normalizeChassis (kind.map PortIdKind.chassis) value

/-! ### Reports -/

structure ReportedNeighbor where
  protocol : Protocol
  remoteChassisId : String
  remoteChassisIdKind : Option ChassisIdKind := none
  remoteSystemName : Option String := none
  remotePortId : String
  remotePortIdKind : Option PortIdKind := none
  remotePortDescription : Option String := none
  ttlSeconds : ℕ
  deriving DecidableEq

structure ReportedInterface where
  name : String
  neighbors : List ReportedNeighbor := []
  deriving DecidableEq

/-- A row of `observations`.  `complete` is what `"section_completeness"` has for
`"interface_neighbors"`. -/
structure Observation where
  id : Uuid
  sourceId : Uuid
  observedAt : Time
  interfaces : List ReportedInterface := []
  complete : Bool := false
  deriving DecidableEq

/-- A row of `sources`, with the entry `"interface_neighbor_snapshot_policy"` of its
metadata. -/
structure Source where
  id : Uuid
  interfaceNeighborSnapshotPolicy : Option String := none
  deriving DecidableEq

def completeSnapshot (source : Source) (observation : Observation) : Bool :=
  source.interfaceNeighborSnapshotPolicy = some "complete" && observation.complete

structure Resource where
  id : Uuid
  name : String
  displayName : Option String := none
  deriving DecidableEq

structure Host where
  resourceId : Uuid
  hostname : Option String := none
  fqdn : Option String := none
  deriving DecidableEq

/-- What stays the same while neighbors are reconciled. -/
structure Env where
  texts : Texts
  interfaces : Interfaces := KeyTable.empty
  resources : List Resource := []
  hosts : List Host := []
  identifiers : List ResourceIdentifier := []
  sources : KeyTable Uuid Source Source.id := KeyTable.empty
  observations : KeyTable Uuid Observation Observation.id := KeyTable.empty

/-! ### Evidence -/

/-- What a row of `interface_neighbor_evidence` says; it never changes. -/
structure Fact where
  localInterfaceId : Uuid
  sourceId : Uuid
  observationId : Uuid
  protocol : Protocol
  remoteChassisId : String
  remoteChassisIdKind : Option ChassisIdKind
  remoteChassisIdNormalized : String
  remoteSystemName : Option String
  remotePortId : String
  remotePortIdKind : Option PortIdKind
  remotePortIdNormalized : String
  remotePortDescription : Option String
  ttlSeconds : ℕ
  observedAt : Time
  expiresAt : Time
  deriving DecidableEq

inductive StaleReason where
  | expired
  | superseded
  | withdrawn
  deriving DecidableEq

/-- A row of `interface_neighbor_evidence`: `stale_at` and `stale_reason` are null together. -/
structure Evidence where
  id : Uuid
  fact : Fact
  stale : Option (Time × StaleReason) := none
  deriving DecidableEq

def Fact.order (fact : Fact) : ObservationOrder := toLex (fact.observedAt, fact.observationId)

/-- The neighbor a fact is about, and on which interface. -/
structure Endpoint where
  localInterfaceId : Uuid
  protocol : Protocol
  remoteChassisIdKind : Option ChassisIdKind
  remoteChassisIdNormalized : String
  remotePortIdKind : Option PortIdKind
  remotePortIdNormalized : String
  deriving DecidableEq

@[inherit_doc Endpoint]
def Fact.endpoint (fact : Fact) : Endpoint :=
  ⟨fact.localInterfaceId, fact.protocol, fact.remoteChassisIdKind,
    fact.remoteChassisIdNormalized, fact.remotePortIdKind, fact.remotePortIdNormalized⟩

def Fact.identity (fact : Fact) : Uuid × Endpoint := (fact.sourceId, fact.endpoint)

/-- `interface_neighbor_evidence_observation_endpoint_index`. -/
def Fact.observationEndpoint (fact : Fact) : Uuid × Endpoint := (fact.observationId, fact.endpoint)

/-- What `put_evidence/5` puts.  A text that is blank is cast to null. -/
def Texts.fact (texts : Texts) (observation : Observation) (interface : Interface)
    (attrs : ReportedNeighbor) : Fact :=
  let chassisId := texts.names.trim attrs.remoteChassisId
  let portId := texts.names.trim attrs.remotePortId
  { localInterfaceId := interface.id
    sourceId := observation.sourceId
    observationId := observation.id
    protocol := attrs.protocol
    remoteChassisId := chassisId
    remoteChassisIdKind := attrs.remoteChassisIdKind
    remoteChassisIdNormalized := texts.normalizeChassis attrs.remoteChassisIdKind chassisId
    remoteSystemName := (attrs.remoteSystemName.map texts.names.trim).filter (· ≠ "")
    remotePortId := portId
    remotePortIdKind := attrs.remotePortIdKind
    remotePortIdNormalized := texts.normalizePort attrs.remotePortIdKind portId
    remotePortDescription := (attrs.remotePortDescription.map texts.names.trim).filter (· ≠ "")
    ttlSeconds := attrs.ttlSeconds
    observedAt := observation.observedAt
    expiresAt := observation.observedAt + seconds attrs.ttlSeconds }

def Texts.valid (texts : Texts) (fact : Fact) : Bool :=
  let required := [fact.remoteChassisId, fact.remoteChassisIdNormalized, fact.remotePortId,
    fact.remotePortIdNormalized]
  required.all (fun text => texts.names.trim text ≠ "" && text.length ≤ 255) &&
    fact.remoteSystemName.all (·.length ≤ 255) &&
    fact.remotePortDescription.all (·.length ≤ 255) &&
    0 < fact.ttlSeconds && fact.ttlSeconds ≤ 65535

variable (env : Env) (resourceId : Uuid) (row : Evidence)

/-- What an observation says of the interfaces of a resource, in the order it says it.  An
interface that is not there is passed over. -/
def Env.reportedNeighbors (observation : Observation) (resourceId : Uuid) : List Fact :=
  observation.interfaces.flatMap fun reported =>
    match env.interfaces.named resourceId (env.texts.names.trim reported.name) with
    | some interface => reported.neighbors.map (env.texts.fact observation interface)
    | none => []

/-! ### The other end -/

def Env.present (env : Env) : List Interface := env.interfaces.rows.filter Interface.present

def Env.withMac (mac : String) : List Interface :=
  env.present.filter (·.macAddress = some mac)

/-- `chassis_identifier_kinds/1`, where `stable_resource_ids/3` asks for them. -/
def Env.chassisIdentifierKinds (fact : Fact) : List IdentifierKind :=
  let localKinds : List IdentifierKind :=
    [.serialNumber, .machineId, .dmiUuid, .providerInstanceId, .bmcAddress, .externalId]
  match fact.remoteChassisIdKind with
  | some .name | some .macAddress => []
  | some .networkAddress => [.bmcAddress]
  | some .local_ => localKinds
  | none => if isMacAddress env.texts.names fact.remoteChassisId then [] else localKinds

/-- `matching_identifier_resource_ids/4`.  A network address is compared with every BMC address
as addresses are compared, other identifiers as texts. -/
def Env.matchingIdentifierResourceIds (fact : Fact) : List Uuid :=
  let kinds := env.chassisIdentifierKinds fact
  let same : ResourceIdentifier → Bool := fun identifier =>
    if fact.remoteChassisIdKind = some .networkAddress then
      identifier.kind = .bmcAddress ∧
        env.texts.normalizeChassis (some .networkAddress) identifier.value
          = env.texts.normalizeChassis (some .networkAddress) fact.remoteChassisId
    else
      identifier.kind ∈ kinds ∧ identifier.normalizedValue
        = env.texts.names.normalizeValue identifier.kind fact.remoteChassisId
  (env.identifiers.filter same).map (·.resourceId)

def Env.stableResourceIds (fact : Fact) : List Uuid :=
  let interfaceIds :=
    if fact.remoteChassisIdKind ∈ [none, some .macAddress] ∧
        isMacAddress env.texts.names fact.remoteChassisId then
      match castMacAddress env.texts.names fact.remoteChassisId with
      | some mac => (env.withMac mac).map (·.resourceId)
      | none => []
    else []
  (env.matchingIdentifierResourceIds fact ++ interfaceIds).dedup

def Env.stablePortInterfaces (fact : Fact) : List Interface :=
  if fact.remotePortIdKind ∈ [some .local_, some .name] then []
  else if isMacAddress env.texts.names fact.remotePortId then
    match castMacAddress env.texts.names fact.remotePortId with
    | some mac => env.withMac mac
    | none => []
  else []

def Env.identifierNameHint (kind : Option ChassisIdKind) (value : String) : Option String :=
  match kind with
  | some .macAddress | some .networkAddress => none
  | none => if isMacAddress env.texts.names value then none else some value
  | some .local_ | some .name => some value

/-- `named_resource_ids/2`.  The names of a host stand in for those of its resource. -/
def Env.namedResourceIds (fact : Fact) : List Uuid :=
  let names := ([fact.remoteSystemName,
      env.identifierNameHint fact.remoteChassisIdKind fact.remoteChassisId].reduceOption).map
    fun name => env.texts.names.downcase (env.texts.names.trim name)
  let hosted := fun resourceId => env.hosts.any (·.resourceId = resourceId)
  let resources := env.resources.filter fun resource => ¬hosted resource.id ∧
    (env.texts.lower resource.name ∈ names ∨
      resource.displayName.any (env.texts.lower · ∈ names))
  let hosts := env.hosts.filter fun host =>
    host.hostname.any (· ∈ names) ∨ host.fqdn.any (· ∈ names)
  let identifiers := env.identifiers.filter fun identifier => ¬hosted identifier.resourceId ∧
    identifier.kind ∈ [IdentifierKind.hostname, IdentifierKind.fqdn] ∧
    identifier.normalizedValue ∈ names
  (resources.map (·.id) ++ hosts.map (·.resourceId) ++ identifiers.map (·.resourceId)).dedup

def Env.reportedPortMac (fact : Fact) : Option String :=
  if fact.remotePortIdKind ∈ [none, some .macAddress] ∧
      isMacAddress env.texts.names fact.remotePortId then
    castMacAddress env.texts.names fact.remotePortId
  else none

def Env.namedPortInterfaces (resourceIds : List Uuid) (fact : Fact) : List Interface :=
  let names := ([env.identifierNameHint (fact.remotePortIdKind.map PortIdKind.chassis)
      fact.remotePortId, fact.remotePortDescription].reduceOption).map env.texts.names.trim
  env.present.filter fun interface =>
    interface.resourceId ∈ resourceIds ∧ interface.name ∈ names ∧
      (env.reportedPortMac fact).all fun mac => interface.macAddress.all (· = mac)

inductive Strategy where
  | stableIdentifiers
  | nameFallback
  deriving DecidableEq

inductive MatchStatus where
  | matched (strategy : Strategy) (remoteInterfaceId : Uuid)
  | unresolved
  | ambiguous (candidateCount : ℕ)
  deriving DecidableEq

def MatchStatus.remote : MatchStatus → Option Uuid
  | .matched _ remoteInterfaceId => some remoteInterfaceId
  | _ => none

/-- The interfaces `match_remote_interface/3` finds, and how. -/
def Env.remoteInterfaces (fact : Fact) : List Interface × Strategy :=
  match env.stableResourceIds fact, env.stablePortInterfaces fact with
  | [], [] => (env.namedPortInterfaces (env.namedResourceIds fact) fact, .nameFallback)
  | [], ports => (ports, .stableIdentifiers)
  | ids, [] => (env.namedPortInterfaces ids fact, .nameFallback)
  | ids, ports => (ports.filter (·.resourceId ∈ ids), .stableIdentifiers)

def Env.matchRemoteInterface (fact : Fact) : MatchStatus :=
  let (interfaces, strategy) := env.remoteInterfaces fact
  match interfaces.filter (·.id ≠ fact.localInterfaceId) with
  | [interface] => .matched strategy interface.id
  | [] => .unresolved
  | candidates => .ambiguous candidates.length

structure NeighborMatch where
  evidenceId : Uuid
  status : MatchStatus
  deriving DecidableEq

/-! ### Adjacencies -/

inductive Confidence where
  | reciprocal
  | reported
  deriving DecidableEq

/-- A row of `current_interface_adjacencies`; `protocols` is its metadata. -/
structure Adjacency where
  interfaceA : Uuid
  interfaceB : Uuid
  primaryEvidenceId : Uuid
  confidence : Confidence
  lastObservedAt : Time
  protocols : List String
  deriving DecidableEq

structure Candidate where
  interfaceA : Uuid
  interfaceB : Uuid
  primary : Evidence
  confidence : Confidence
  protocols : List String
  deriving DecidableEq

def canonicalPair (first second : Uuid) : Uuid × Uuid :=
  if first < second then (first, second) else (second, first)

def Evidence.primaryOrder :
    ObservationOrder ×ₗ String ×ₗ String ×ₗ String ×ₗ String ×ₗ String ×ₗ Uuid :=
  toLex (row.fact.order, toLex (row.fact.protocol.text,
    toLex ((row.fact.remoteChassisIdKind.map ChassisIdKind.text).getD "",
      toLex (row.fact.remoteChassisIdNormalized,
        toLex ((row.fact.remotePortIdKind.map (·.chassis.text)).getD "",
          toLex (row.fact.remotePortIdNormalized, row.id))))))

def adjacencyCandidates (evidence : List (Evidence × Uuid)) : List Candidate :=
  let directed := evidence.map fun item => (item.1.fact.localInterfaceId, item.2)
  (Evidence.groups (fun item => canonicalPair item.1.fact.localInterfaceId item.2)
      evidence).filterMap fun group =>
    ((group.2.map Prod.fst).argmax Evidence.primaryOrder).map fun primary =>
      { interfaceA := group.1.1
        interfaceB := group.1.2
        primary := primary
        confidence :=
          if group.1 ∈ directed ∧ group.1.swap ∈ directed then .reciprocal else .reported
        protocols := ((group.2.map fun item => item.1.fact.protocol.text).dedup).insertionSort
          (· ≤ ·) }

def Confidence.rank : Confidence → ℕ
  | .reciprocal => 0
  | .reported => 1

def adjacencyPrecedes (first second : Candidate) : Bool :=
  if first.confidence.rank ≠ second.confidence.rank then
    first.confidence.rank < second.confidence.rank
  else if first.primary.fact.order ≠ second.primary.fact.order then
    second.primary.fact.order < first.primary.fact.order
  else if first.interfaceA ≠ second.interfaceA then first.interfaceA < second.interfaceA
  else first.interfaceB ≤ second.interfaceB

def Candidate.ends (candidate : Candidate) : List Uuid :=
  [candidate.interfaceA, candidate.interfaceB]

def selectNonConflictingAdjacencies (candidates : List Candidate) : List Candidate :=
  Greedy.select Candidate.ends
    (candidates.insertionSort fun first second => adjacencyPrecedes first second)

def Candidate.adjacency (candidate : Candidate) : Adjacency where
  interfaceA := candidate.interfaceA
  interfaceB := candidate.interfaceB
  primaryEvidenceId := candidate.primary.id
  confidence := candidate.confidence
  lastObservedAt := candidate.primary.fact.observedAt
  protocols := candidate.protocols

/-! ### Turns -/

structure Db where
  evidence : KeyTable Uuid Evidence Evidence.id := KeyTable.empty
  events : List SnapshotEvent := []
  matches_ : KeyTable Uuid NeighborMatch NeighborMatch.evidenceId := KeyTable.empty
  adjacencies : List Adjacency := []

variable (db : Db) (resourceId : Uuid) (asOf : Time) (row : Evidence)

/-- `put_evidence/5`.  The first fact of an observation about a neighbor stays. -/
def Db.putEvidence (ids : Ids) (db : Db) (fact : Fact) : Option Db :=
  if db.evidence.rows.any (·.fact.observationEndpoint = fact.observationEndpoint) then some db
  else if env.texts.valid fact then
    some { db with
      evidence := db.evidence.add ⟨ids.next (db.evidence.rows.map Evidence.id), fact, none⟩
        (ids.get?_next db.evidence) }
  else none

def Db.maybeRecordSnapshot (source : Source) (observation : Observation) (resourceId : Uuid) : Db :=
  if completeSnapshot source observation then
    { db with
      events := putSnapshotEvent db.events
        ⟨resourceId, source.id, observation.id, .interfaceNeighbors, observation.observedAt⟩ }
  else db

/-- `latest_identity_evidence/2`.  The item itself is among those that are asked for. -/
def Db.latestIdentityEvidence (item : Evidence) : Evidence :=
  ((db.evidence.rows.filter (·.fact.identity = item.fact.identity)).argmax
    (·.fact.order)).getD item

def evidenceStaleness (item latest : Fact) (boundary : Option SnapshotEvent) (asOf : Time) :
    Option (Time × StaleReason) :=
  if item.order < latest.order then some (latest.observedAt, .superseded)
  else if item.expiresAt ≤ asOf then some (item.expiresAt, .expired)
  else (boundary.filter (item.order < ·.order)).map fun event => (event.observedAt, .withdrawn)

def Evidence.maybeStale (stale : Option (Time × StaleReason)) : Evidence :=
  if row.stale = none then { row with stale } else row

@[simp] theorem Evidence.id_maybeStale (row : Evidence) {stale : Option (Time × StaleReason)} :
    (row.maybeStale stale).id = row.id := by
  unfold Evidence.maybeStale
  split <;> rfl

def Db.refreshedEvidence : Evidence :=
  if env.interfaces.resourceOf row.fact.localInterfaceId = some resourceId then
    row.maybeStale (evidenceStaleness row.fact (db.latestIdentityEvidence row).fact
      (latestBoundary db.events .interfaceNeighbors resourceId row.fact.sourceId) asOf)
  else row

def Db.refreshEvidenceStaleness : Db :=
  { db with
    evidence := db.evidence.map (db.refreshedEvidence env resourceId asOf) fun row => by
      unfold Db.refreshedEvidence
      split
      · exact row.id_maybeStale
      · rfl }

def Evidence.staleExpired : Evidence :=
  if row.fact.expiresAt ≤ asOf then row.maybeStale (some (row.fact.expiresAt, .expired)) else row

def Db.staleExpired (db : Db) (asOf : Time) : Db :=
  { db with
    evidence := db.evidence.map (Evidence.staleExpired asOf) fun row => by
      unfold Evidence.staleExpired
      split
      · exact row.id_maybeStale
      · rfl }

def Db.active : List Evidence := db.evidence.rows.filter (·.stale = none)

/-- Whether the interface a row is about meets a condition, as a join finds it. -/
def Env.localInterface (holds : Interface → Bool) : Bool :=
  (env.interfaces.get? row.fact.localInterfaceId).any holds

def Db.reconcileActiveMatches : Db :=
  let ineligible := (db.active.filter (env.localInterface · (¬·.present))).map Evidence.id
  let eligible := db.active.filter (env.localInterface · (·.present))
  { db with
    matches_ := (eligible.map fun row => ⟨row.id, env.matchRemoteInterface row.fact⟩).foldl
      KeyTable.place (db.matches_.filter (·.evidenceId ∉ ineligible)) }

def Db.activeMatchedEvidence : List (Evidence × Uuid) :=
  db.active.filterMap fun row => do
    let found ← db.matches_.get? row.id
    let remote ← found.status.remote
    if env.localInterface row (·.present) ∧ (env.interfaces.get? remote).any (·.present) then
      some (row, remote)
    else none

/-- `rebuild_adjacencies/2`.  All rows are deleted and those of the selection inserted. -/
def Db.rebuildAdjacencies : Db :=
  let candidates := adjacencyCandidates (db.activeMatchedEvidence env)
  { db with
    adjacencies := (selectNonConflictingAdjacencies candidates).map Candidate.adjacency }

/-- `expire/2` and `refresh/2`, and the end of `reconcile/6`. -/
def Db.expire : Db :=
  ((db.staleExpired asOf).reconcileActiveMatches env).rebuildAdjacencies env

/-- `reconcile/6`.  The callers have looked up the observation; what it reports of interfaces is
part of it. -/
def Db.reconcile (ids : Ids) (db : Db) (observationId resourceId : Uuid) (asOf : Time) :
    Option Db := do
  let observation ← env.observations.get? observationId
  let source ← env.sources.get? observation.sourceId
  let _ ← env.resources.find? (·.id = resourceId)
  let db ← (env.reportedNeighbors observation resourceId).foldlM (Db.putEvidence env ids) db
  let db := db.maybeRecordSnapshot source observation resourceId
  some ((db.refreshEvidenceStaleness env resourceId asOf).expire env asOf)

/-- What happens to the neighbors of an organization. -/
inductive Op where
  | reconcile (observationId resourceId : Uuid) (asOf : Time)
  | expire (asOf : Time)
  deriving DecidableEq

/-- One turn.  What is rolled back leaves nothing behind. -/
def step (ids : Ids) (db : Db) : Op → Db
  | .reconcile observationId resourceId asOf =>
    (db.reconcile env ids observationId resourceId asOf).getD db
  | .expire asOf => db.expire env asOf

def run (env : Env) (ids : Ids) (ops : List Op) : Db := Run.run (step env ids) {} ops

end Renga.Topology.Neighbors
