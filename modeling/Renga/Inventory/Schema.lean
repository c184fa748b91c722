import Renga.Inventory.HostFields
import Renga.Inventory.InterfaceFields

/-!
# The inventory of an organization

The tables `Renga.Inventory.Reconciler` and `Renga.Inventory.Collectors` read and write, for
one organization: reconciliation runs under its lock, so the transactions of one
organization come one after the other.  What `AgentPayload.validate_observation/2` promises
and the code relies on is part of the types: the keys of a report's targets differ, and a
derived observation names one of them.
-/

namespace Renga.Inventory

/-! ### Identifiers -/

inductive IdentifierKind where
  | serialNumber
  | assetTag
  | hostname
  | fqdn
  | machineId
  | dmiUuid
  | macAddress
  | providerInstanceId
  | bmcAddress
  | externalId
  deriving DecidableEq

def strongIdentifierKinds : List IdentifierKind := [.serialNumber, .dmiUuid, .machineId]

/-- `@weak_identifier_kinds`, with the host field each is looked up in. -/
def weakIdentifierKinds : List (IdentifierKind × HostField) :=
  [(.hostname, .hostname), (.fqdn, .fqdn)]

def acceptedIdentifierKinds : List IdentifierKind :=
  [.bmcAddress, .dmiUuid, .fqdn, .hostname, .macAddress, .machineId, .providerInstanceId,
    .serialNumber]

def caseInsensitive : IdentifierKind → Bool
  | .hostname | .fqdn | .machineId | .dmiUuid | .bmcAddress => true
  | _ => false

def macDigits : List Char → List Char
  | a :: b :: [] => [a, b]
  | a :: b :: rest => a :: b :: ':' :: macDigits rest
  | rest => rest

/-- The canonical form of a MAC address in any notation. -/
def Names.normalizeMac (names : Names) (value : String) : String :=
  let lower := names.downcase (names.trim value)
  let compact := lower.toList.filter fun c => c ∉ [':', '.', '-']
  if compact.length = 12 ∧ compact.all (fun c => c ∈ "0123456789abcdef".toList) then
    String.ofList (macDigits compact)
  else lower

def Names.normalizeValue (names : Names) (kind : IdentifierKind) (value : String) : String :=
  if kind = .macAddress then names.normalizeMac value
  else if caseInsensitive kind then names.downcase (names.trim value)
  else names.trim value

structure Identifier where
  kind : IdentifierKind
  value : String
  normalizedValue : String
  deriving DecidableEq

def Names.identifier (names : Names) (kind : IdentifierKind) (value : String) : Identifier :=
  ⟨kind, names.trim value, names.normalizeValue kind value⟩

structure ResourceIdentifier where
  resourceId : Uuid
  kind : IdentifierKind
  value : String
  normalizedValue : String
  deriving DecidableEq

structure IdentifierClaim where
  observationId : Uuid
  kind : IdentifierKind
  normalizedValue : String
  resourceId : Option Uuid
  deriving DecidableEq

/-! ### Observations -/

/-- `resources.kind`, as far as reconciliation tells the kinds apart. -/
inductive ResourceKind where
  | server
  | switch
  | vm
  | pdu
  | other (name : String)
  deriving DecidableEq

def ResourceKind.collector : ResourceKind → Bool
  | .switch | .vm | .pdu => true
  | _ => false

inductive DomainState where
  | running
  | idle
  | paused
  | shuttingDown
  | shutoff
  | crashed
  | pmsuspended
  | unknown
  deriving DecidableEq

def DomainState.active : DomainState → Bool
  | .running | .idle | .paused | .shuttingDown => true
  | _ => false

structure ResourcePayload where
  kind : Option ResourceKind := none
  identifiers : IdentifierKind → Option IdentifierValues := fun _ => none
  attributes : HostField → Option (Option String) := fun _ => none
  interfaces : Option (KeyTable String InterfaceReport InterfaceReport.name) := none
  domain : Option DomainState := none

/-- A row of `observations` that reports one resource.  `target` is the target it was reported
under if it was derived from the report of a collector. -/
structure Observation where
  id : Uuid
  observedAt : Time
  payload : ResourcePayload
  target : Option String := none

structure Source where
  id : Uuid
  kind : SourceKind
  collectorStream : Bool := false
  deriving DecidableEq

inductive TargetStatus where
  | reachable
  | unreachable
  deriving DecidableEq

structure ReportedTarget where
  key : String
  status : TargetStatus
  error : Option String := none
  deriving DecidableEq

/-- The report of a collector stream with the observations derived from it, which have its time
and each name one of its targets. -/
structure Report where
  id : Uuid
  observedAt : Time
  complete : Bool
  targets : KeyTable String ReportedTarget ReportedTarget.key
  derived : List Observation
  listed : ∀ observation ∈ derived, ∃ reported ∈ targets, observation.target = some reported.key
  sameTime : ∀ observation ∈ derived, observation.observedAt = observedAt

/-! ### Rows -/

structure Resource where
  id : Uuid
  kind : ResourceKind
  deriving DecidableEq

/-- A row of `observation_reconciliations`, joined with its observation and the kind of its
source.  These do not change. -/
structure Reconciliation where
  observationId : Uuid
  observedAt : Time
  sourceKind : SourceKind
  succeeded : Bool
  matchedResourceId : Option Uuid
  deriving DecidableEq

inductive ConditionReason where
  | observationReconciled
  | stillReported
  | withdrawn
  | stale
  deriving DecidableEq

structure Condition where
  status : Bool
  reason : ConditionReason
  deriving DecidableEq

abbrev TargetKey := Uuid × String

structure CollectorTarget where
  key : TargetKey
  status : TargetStatus
  error : Option String
  lastReportedAt : Time
  lastReachableAt : Option Time
  lastCompleteAt : Option Time := none
  lastObservationId : Uuid
  deriving DecidableEq

structure Member where
  target : TargetKey
  resourceId : Uuid
  firstReportedAt : Time
  lastReportedAt : Time
  withdrawnAt : Option Time
  domain : Option DomainState := none
  domainReportedAt : Option Time := none
  activeSince : Option Time := none
  deriving DecidableEq

def Member.key (member : Member) : TargetKey × Uuid := (member.target, member.resourceId)

def Member.present (member : Member) : Bool :=
  match member.withdrawnAt with
  | none => true
  | some withdrawnAt => withdrawnAt < member.lastReportedAt

structure Db where
  resources : KeyTable Uuid Resource Resource.id := KeyTable.empty
  identifiers : List ResourceIdentifier := []
  claims : List IdentifierClaim := []
  hosts : Uuid → Option (HostField → Slot String) := fun _ => none
  networks : Uuid → Network := fun _ => {}
  reconciliations : List Reconciliation := []
  conditions : Uuid → Option Condition := fun _ => none
  targets : KeyTable TargetKey CollectorTarget CollectorTarget.key := KeyTable.empty
  members : KeyTable (TargetKey × Uuid) Member Member.key := KeyTable.empty

structure StoredObservation where
  source : Source
  observation : Observation

structure StoredReport where
  source : Source
  report : Report

/-- The rows of `observations`, which are immutable: those that report a resource by themselves,
and the reports of collectors with what was derived from them.  All have the one primary key. -/
structure Observations where
  single : List StoredObservation := []
  reports : List StoredReport := []
  apart : ∀ one ∈ single.map (·.observation) ++ reports.flatMap (·.report.derived),
    ∀ other ∈ single.map (·.observation) ++ reports.flatMap (·.report.derived),
      one.id = other.id → one = other
  reportsApart : ∀ one ∈ reports, ∀ other ∈ reports, one.report.id = other.report.id → one = other
  reportsElse : ∀ one ∈ single.map (·.observation) ++ reports.flatMap (·.report.derived),
    ∀ stored ∈ reports, one.id ≠ stored.report.id

def Observations.all (observations : Observations) : List Observation :=
  observations.single.map (·.observation) ++ observations.reports.flatMap (·.report.derived)

/-- What stays the same while observations are reconciled: the text functions, the overrides
people have set, and the observations themselves. -/
structure Env where
  names : Names
  hostOverrides : Uuid → HostField → Option (Override String) := fun _ _ => none
  interfaceOverrides : Uuid → InterfaceOverrides := fun _ _ _ => none
  observations : Observations

/-- `Inventory.get_observation!/2`, for one that reports a resource. -/
def Env.observation? (env : Env) (id : Uuid) : Option StoredObservation :=
  env.observations.single.find? fun stored => stored.observation.id = id

def Env.report? (env : Env) (id : Uuid) : Option StoredReport :=
  env.observations.reports.find? fun stored => stored.report.id = id

end Renga.Inventory
