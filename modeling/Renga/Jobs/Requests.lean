import Renga.Jobs.TargetBindings

/-!
# Requesting jobs

`create_job/5`, `create_system_job/5` and `create_batch/5` of `Renga.Jobs`.  A request is checked
against the organization's allowed capabilities, the agent, the resource, the capability's own
changeset and authorization and, for a privileged capability, the resource's binding.
-/

namespace Renga.Jobs

structure CreateOpts where
  resourceId : Option Uuid := none
  notAfter : Option Time := none
  idempotencyKey : Option String := none
  maxAttempts : ℤ := 3
  batchId : Option Uuid := none

variable (env : Env) (db : Db) (organizationId : Uuid) (scope : Scope) (agentId : Uuid)

def fetchRequestableAgent! (key : String) : Except Error Agent := do
  let agent ← Except.ofOption
    ((db.agents.get? agentId).filter fun agent => decide (agent.organizationId = organizationId))
    (.rollback .agentNotFound)
  ensure (decide (agent.status = .active)) .agentDisabled
  ensure (decide (key ∈ agent.capabilities)) .capabilityNotAdvertised
  return agent

def fetchReportedResourceId! (agent : Agent) :
    Option Uuid → Except Error (Option Uuid)
  | none => .ok none
  | some resourceId => do
      ensure (decide ((organizationId, resourceId) ∈ db.resources)) .resourceNotFound
      ensure (TargetBindings.reportsOn? db organizationId agent resourceId) .agentNotForResource
      return some resourceId

def castParameters! (capability : Capability) (parameters : Payload) : Except Error Payload :=
  match capability.parametersChangeset (env.stringify parameters) with
  | .ok parameters => .ok (env.stringify parameters)
  | .error errors => .error (.rollback (.invalidParameters errors))

/-- `deadline!/2`.  `DateTime.diff/2` counts whole seconds on both sides. -/
def deadline! (notAfter : Option Time) (now : Time) : Except Error Time :=
  match notAfter with
  | none => .ok (now + seconds 3600)
  | some notAfter =>
    let difference := notAfter / 1000 - now / 1000
    if 0 < difference ∧ difference ≤ 7 * 24 * 3600 then .ok notAfter
    else .error (.rollback .invalidDeadline)

def authorizeCapability! (capability : Capability) (scope : Scope) (agent : Agent)
    (parameters : Payload) : Except Error PUnit :=
  match capability.authorize scope agent parameters with
  | .ok _ => .ok ⟨⟩
  | .error reason => .error (.rollback (.capability reason))

def captureBinding! (agent : Agent) (resourceId : Option Uuid) (capability : Capability) :
    Except Error (Option TargetBinding) :=
  if capability.riskClass ≠ .observe then do
    let binding ← TargetBindings.capture! db organizationId agent resourceId
    return some binding
  else .ok none

def findIdempotent! : Option String → Except Error (Option Job)
  | none => .ok none
  | some key =>
    if key = "" then .error (.rollback .invalidIdempotencyKey)
    else .ok (db.jobs.rows.find? fun job =>
      decide (job.organizationId = organizationId) && decide (job.idempotencyKey = some key))

def sameRequest? (job : Job) (agentId : Uuid) (resourceId : Option Uuid) (capability : Capability)
    (parameters : Payload) : Bool :=
  decide (job.agentId = agentId) && decide (job.resourceId = resourceId) &&
    decide (job.capability = capability.name) &&
    decide (job.capabilityVersion = capability.version) && decide (job.parameters = parameters)

def ensureSingleOpenResourceCollection! (resourceId : Option Uuid) (capability : Capability) :
    Except Error PUnit :=
  match resourceId with
  | none => .ok ⟨⟩
  | some resourceId =>
    if capability.key = "inventory.collect@1" then
      ensure (!db.jobs.rows.any fun job =>
        decide (job.organizationId = organizationId) &&
          decide (job.resourceId = some resourceId) &&
          (decide (job.capability = "inventory.collect") &&
            decide (job.capabilityVersion = 1)) &&
          (decide (job.state ∈ openStates) && job.importedAt.isNone)) .resourceCollectionOpen
    else .ok ⟨⟩

/-- `recent_creations/3`: the jobs created in the minute before, counted up to `cap`. -/
def recentCreations (now : Time) (cap : ℕ) : ℕ :=
  ((db.jobs.rows.filter fun job =>
    decide (job.organizationId = organizationId) &&
      decide (now - seconds 60 < job.insertedAt)).take cap).length

def enforceRateLimit! (organization : Organization) (now : Time) : Except Error PUnit :=
  let limit := organization.jobCreationRate
  ensure (decide (recentCreations db organization.id now limit < limit)) .rateLimited

def newJob (actor : Actor) (agent : Agent) (capability : Capability) (parameters : Payload)
    (resourceId : Option Uuid) (notAfter : Time) (binding : Option TargetBinding)
    (opts : CreateOpts) (newId : Uuid) (now : Time) : Job :=
  { id := newId
    organizationId
    agentId := agent.id
    batchId := opts.batchId
    resourceId
    capability := capability.name
    capabilityVersion := capability.version
    riskClass := capability.riskClass
    retryClass := capability.retryClass
    parameters
    requestedByType := if actor = .system then .system else .user
    requestedByUserId :=
      match actor with
      | .user userId => some userId
      | _ => none
    idempotencyKey := opts.idempotencyKey
    state := .queued
    maxAttempts := opts.maxAttempts
    notAfter
    outputLimitBytes := capability.outputLimitBytes
    timeoutMs := capability.timeoutMs
    targetBindingId := binding.map (·.id)
    targetBindingVersion := binding.map (·.version)
    insertedAt := now }

/-- The insert at the end of `do_create!/7`, with its `created` event. -/
def insertRequested! (job : Job) (actor : Actor) (key : String) (now : Time) :
    Except Error (Db × Job) := do
  let db ← db.insertJob job
  apply! db job {} [{ type := .created, actor, payload := [("capability", .string key)] }] now

def doCreate! (actor : Actor) (agentId : Uuid) (capability : Capability) (parameters : Payload)
    (opts : CreateOpts) (scope : Scope) (newId : Uuid) (now : Time) : Except Error (Db × Job) := do
  let organization ← Except.ofOption (db.organizations.get? organizationId) .matchError
  ensure (decide (capability.key ∈ allowedCapabilities env organization)) .capabilityNotAllowed
  let agent ← fetchRequestableAgent! db organizationId agentId capability.key
  let resourceId ← fetchReportedResourceId! db organizationId agent opts.resourceId
  let parameters ← castParameters! env capability parameters
  let notAfter ← deadline! opts.notAfter now
  authorizeCapability! capability scope agent parameters
  let binding ← captureBinding! db organizationId agent resourceId capability
  match ← findIdempotent! db organizationId opts.idempotencyKey with
  | none => do
      ensureSingleOpenResourceCollection! db organizationId resourceId capability
      enforceRateLimit! db organization now
      insertRequested! db
        (newJob organizationId actor agent capability parameters resourceId notAfter binding opts
          newId now) actor capability.key now
  | some existing =>
    if sameRequest? existing agent.id resourceId capability parameters then .ok (db, existing)
    else .error (.rollback .idempotencyConflict)

def authorizeRequest! (capability : Capability) : Except Error PUnit :=
  if capability.riskClass = .observe then
    db.authorizeAll! scope capability.requiredPermissions
  else .error (.rollback .forbidden)

def createJob (capabilityKey : String) (parameters : Payload) (opts : CreateOpts) (newId : Uuid)
    (now : Time) : Except Error (Db × Job) := do
  let capability ← Except.ofOption (env.fetch capabilityKey) (.rollback .unknownCapability)
  let actor ← requestingUser scope
  authorizeRequest! db scope capability
  doCreate! env db scope.organizationId actor agentId capability parameters opts scope newId now

def createSystemJob (capabilityKey : String) (parameters : Payload) (opts : CreateOpts)
    (newId : Uuid) (now : Time) : Except Error (Db × Job) := do
  let capability ← Except.ofOption (env.fetch capabilityKey) (.rollback .unknownCapability)
  let _ ← db.lockActiveOrganization! organizationId
  doCreate! env db organizationId .system agentId capability parameters opts
    { organizationId } newId now

/-- The order `batch_targets/3` prefers agents in: the most recently contacted
first, one never contacted last. -/
def contactedBefore (a b : Agent) : Prop :=
  match a.lastContactedAt, b.lastContactedAt with
  | some s, some t => t < s ∨ (s = t ∧ a.id ≤ b.id)
  | some _, none => True
  | none, some _ => False
  | none, none => a.id ≤ b.id

instance : DecidableRel contactedBefore := fun a b => by
  unfold contactedBefore
  split <;> infer_instance

def batchTarget (capabilityKey : String) (resourceId : Uuid) : Option Agent :=
  ((db.agents.rows.filter fun agent =>
    decide (agent.organizationId = organizationId) && decide (agent.status = .active) &&
      decide (capabilityKey ∈ agent.capabilities) &&
      TargetBindings.reportsOn? db organizationId agent resourceId).insertionSort
    contactedBefore).head?

/-- The jobs of `create_batch!/6`, one for each resource that has an agent. -/
def createEach! (env : Env) (scope : Scope) (actor : Actor) (capability : Capability)
    (parameters : Payload) (opts : CreateOpts) (newId : Uuid → Uuid) (now : Time) :
    Db → List (Uuid × Agent) → Except Error (Db × List Job)
  | db, [] => .ok (db, [])
  | db, (resourceId, agent) :: targets => do
      let (db, job) ← doCreate! env db scope.organizationId actor agent.id capability parameters
        { opts with resourceId := some resourceId } scope (newId resourceId) now
      let (db, jobs) ← createEach! env scope actor capability parameters opts newId now db targets
      return (db, job :: jobs)

def createBatch (capabilityKey : String) (parameters : Payload) (resourceIds : List Uuid)
    (notAfter : Option Time) (batchId : Uuid) (newId : Uuid → Uuid) (now : Time) :
    Except Error (Db × List Job) := do
  let resourceIds := resourceIds.eraseDups
  ensure (!resourceIds.isEmpty) .noAgents
  ensure (decide (resourceIds.length ≤ 1000)) .batchTooLarge
  let capability ← Except.ofOption (env.fetch capabilityKey) (.rollback .unknownCapability)
  let actor ← requestingUser scope
  authorizeRequest! db scope capability
  let targets := resourceIds.filterMap fun resourceId =>
    (batchTarget db scope.organizationId capability.key resourceId).map (resourceId, ·)
  ensure (!targets.isEmpty) .noAgents
  createEach! env scope actor capability parameters { notAfter, batchId := some batchId } newId now
    db targets

end Renga.Jobs
