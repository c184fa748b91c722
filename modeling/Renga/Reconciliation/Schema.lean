import Renga.Json
import Renga.Lib.KeyTable
import Renga.Lib.Run
import Renga.Organizations

/-!
# The tables of durable reconciliation work

`reconciliation_work` holds one row for each accepted obligation of an organization,
`reconciliation_lanes` one row for each organization: the last position given out, the units and
bytes that are still reserved, and who may work on the lane until when.
-/

namespace Renga.Reconciliation

def milliseconds (n : ℤ) : Time := n * 1000

/-! ### What admission and execution read -/

structure IntakeApiKey where
  id : Uuid
  organizationId : Uuid
  tokenHash : String
  active : Bool := true
  deriving DecidableEq

structure Agent where
  id : Uuid
  organizationId : Uuid
  installationId : String
  sourceId : Option Uuid := none
  active : Bool := true
  deriving DecidableEq

structure Source where
  id : Uuid
  organizationId : Uuid
  kind : String
  agentId : Option Uuid := none
  collectorId : Option String := none
  active : Bool := true
  deriving DecidableEq

structure Observation where
  id : Uuid
  organizationId : Uuid
  sourceId : Uuid
  idempotencyKey : String
  payloadDigest : String
  payload : Payload
  parentObservationId : Option Uuid := none
  intakeApiKeyId : Option Uuid := none
  deriving DecidableEq

/-- The attributes `AgentPayload.validate_observation/2` returns, as far as they are
used. -/
structure Attrs where
  idempotencyKey : Option String
  payload : Payload

structure Env where
  /-- `AgentPayload.validate_observation/2`. -/
  validateObservation : Payload → Source → Except (List String) Attrs
  /-- The errors of `Observation.changeset/2`, without those of the database. -/
  observationErrors : Observation → List String
  /-- `digest_payload/1`. -/
  digestPayload : Payload → String
  /-- `byte_size(Jason.encode!(payload))`. -/
  encodedSize : Payload → ℕ
  /-- `String.trim/1`. -/
  trim : String → String

/-! ### Payloads -/

variable (payload : Payload)

def observationScope : String :=
  match Json.get? payload "scope" with
  | some (.string scope) => if scope ∈ ["host", "targets", "hypervisor"] then scope else "host"
  | _ => "host"

def scopedReport? : Bool := observationScope payload ≠ "host"

def collector (env : Env) (payload : Payload) : Option (String × Json) :=
  match Json.get? payload "collector" with
  | some (.object fields) =>
    match Json.get? fields "id", Json.get? fields "kind" with
    | some (.string id), some kind => some (env.trim id, kind)
    | _, _ => none
  | _ => none

/-- `AgentPayload.report_targets/1`, whose entries only count here. -/
def reportTargets : List Json :=
  match Json.get? payload "scope", Json.get? payload "targets",
      Json.get? payload "hypervisor" with
  | some (.string "targets"), some (.array targets), _ => targets
  | some (.string "hypervisor"), _, some hypervisor => [hypervisor]
  | _, _, _ => []

def reportResources : List Json :=
  match Json.get? payload "resources" with
  | some (.array resources) => resources
  | _ => []

def reservedUnits : ℤ :=
  if scopedReport? payload then
    1 + (reportResources payload).length + (reportTargets payload).length
  else 1

theorem reservedUnits_pos {payload : Payload} : 0 < reservedUnits payload := by
  unfold reservedUnits
  split <;> omega

/-! ### Work and lanes -/

inductive WorkStatus where
  | pending
  | succeeded
  | quarantined
  deriving DecidableEq

inductive QuarantineKind where
  | domain
  deriving DecidableEq

structure Work where
  id : Uuid
  organizationId : Uuid
  observationId : Uuid
  sourceId : Uuid
  position : ℤ
  units : ℤ
  bytes : ℤ
  status : WorkStatus := .pending
  checkpoint : ℤ := 0
  generation : ℤ := 0
  originalKeyId : Uuid
  installationAgentId : Uuid
  installationId : String
  runAfter : Time
  quarantineKind : Option QuarantineKind := none
  error : Payload := []
  insertedAt : Time
  deriving DecidableEq

structure Lane where
  organizationId : Uuid
  position : ℤ := 0
  pendingUnits : ℤ := 0
  pendingBytes : ℤ := 0
  lastTurnAt : Option Time := none
  token : Option Uuid := none
  workId : Option Uuid := none
  version : ℤ := 0
  expiresAt : Option Time := none
  deriving DecidableEq

/-- The constraints `reconciliation_work_status` and `reconciliation_work_values`. -/
def Work.Checked (work : Work) : Prop :=
  (work.status ≠ .quarantined ∧ work.quarantineKind = none ∨
    work.status = .quarantined ∧ work.quarantineKind = some .domain) ∧
  0 < work.position ∧ 0 < work.units ∧ 0 ≤ work.bytes ∧ 0 ≤ work.generation ∧
    0 ≤ work.checkpoint

instance (work : Work) : Decidable work.Checked := by unfold Work.Checked; infer_instance

/-- The constraints `reconciliation_lane_lease` and `reconciliation_lane_values`. -/
def Lane.Checked (lane : Lane) : Prop :=
  (lane.token = none ∧ lane.workId = none ∧ lane.expiresAt = none ∨
    lane.token.isSome ∧ lane.workId.isSome ∧ lane.expiresAt.isSome) ∧
  0 ≤ lane.position ∧ 0 ≤ lane.pendingUnits ∧ 0 ≤ lane.pendingBytes ∧ 0 ≤ lane.version

instance (lane : Lane) : Decidable lane.Checked := by unfold Lane.Checked; infer_instance

/-- `guard_reconciliation_history()` for an update of a lane. -/
def Lane.HistoryKept (old new : Lane) : Prop :=
  new.organizationId = old.organizationId ∧ old.position ≤ new.position ∧
    old.version ≤ new.version ∧
    (old.lastTurnAt.all fun t => new.lastTurnAt.any fun t' => t ≤ t') = true

instance (old new : Lane) : Decidable (old.HistoryKept new) := by
  unfold Lane.HistoryKept; infer_instance

/-- `guard_reconciliation_history()` for an update of a work row. -/
def Work.HistoryKept (old new : Work) : Prop :=
  new = { old with
    status := new.status, checkpoint := new.checkpoint, generation := new.generation
    runAfter := new.runAfter, quarantineKind := new.quarantineKind, error := new.error } ∧
  old.generation ≤ new.generation ∧ old.checkpoint ≤ new.checkpoint ∧
    (old.status = .succeeded → new = old)

instance (old new : Work) : Decidable (old.HistoryKept new) := by
  unfold Work.HistoryKept; infer_instance

/-! ### The database -/

/-- Why a transaction is rolled back with an answer. -/
inductive Reason where
  | forbidden
  | authorityUnavailable
  | unsupportedAuthority
  | sourceNotOwned
  | invalidPayload (errors : List String)
  | invalidObservation (errors : List String)
  | idempotencyConflict
  | unsupportedExistingObservation
  | capacity
  | notFound
  | staleWork
  | terminalWork
  | notTerminal
  | superseded
  | headChanged
  | staleClaim
  | expiredClaim
  | unsupportedExecution
  | operation (reason : String)
  deriving DecidableEq

inductive Error where
  | rollback (reason : Reason)
  /-- `ArgumentError`. -/
  | argument
  /-- `Repo.one!/1` and its kin found no row. -/
  | noResults
  | uniqueViolation
  | checkViolation
  | historyViolation
  deriving DecidableEq

structure Db where
  organizations : KeyTable Uuid Organization Organization.id := .empty
  keys : KeyTable Uuid IntakeApiKey IntakeApiKey.id := .empty
  agents : KeyTable Uuid Agent Agent.id := .empty
  sources : KeyTable Uuid Source Source.id := .empty
  observations : KeyTable Uuid Observation Observation.id := .empty
  lanes : KeyTable Uuid Lane Lane.organizationId := .empty
  work : KeyTable Uuid Work Work.id := .empty

namespace Db

def updateLane (db : Db) (old new : Lane) : Except Error Db := do
  Except.require (decide (old.HistoryKept new)) .historyViolation
  Except.require (decide new.Checked) .checkViolation
  return { db with lanes := db.lanes.put new }

def updateWork (db : Db) (old new : Work) : Except Error Db := do
  Except.require (decide (old.HistoryKept new)) .historyViolation
  Except.require (decide new.Checked) .checkViolation
  return { db with work := db.work.put new }

/-- Inserts a work row.  Its position is unique within the organization. -/
def insertWork (db : Db) (work : Work) : Except Error Db := do
  Except.require (decide work.Checked) .checkViolation
  Except.require (db.work.rows.all fun other =>
    ¬ (other.organizationId = work.organizationId ∧ other.position = work.position))
    .uniqueViolation
  if fresh : db.work.get? work.id = none then
    return { db with work := db.work.add work fresh }
  else .error .uniqueViolation

/-- Inserts an observation.  Its idempotency key is unique within the source. -/
def insertObservation (db : Db) (observation : Observation) : Except Error Db := do
  Except.require (db.observations.rows.all fun other =>
    ¬ (other.organizationId = observation.organizationId ∧
      other.sourceId = observation.sourceId ∧
      other.idempotencyKey = observation.idempotencyKey)) .uniqueViolation
  if fresh : db.observations.get? observation.id = none then
    return { db with observations := db.observations.add observation fresh }
  else .error .uniqueViolation

/-- The lane of an organization.  One that has none yet gets the empty one when it is
first locked. -/
def laneOf (db : Db) (organizationId : Uuid) : Lane :=
  (db.lanes.get? organizationId).getD { organizationId }

def outstanding (db : Db) (organizationId : Uuid) : List Work :=
  db.work.rows.filter fun work =>
    work.organizationId = organizationId ∧ work.status ≠ .succeeded

end Db

end Renga.Reconciliation
