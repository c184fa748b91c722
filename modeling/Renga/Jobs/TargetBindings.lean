import Renga.Jobs.Lifecycle

/-!
# Installation keys and target bindings

`Renga.Inventory.InstallationKeys` and `Renga.Jobs.TargetBindings`.  An installation
presents a public key on check-in; a person approves it.  A resource is bound to an
installation under its approved key, and a privileged job runs only under the binding it was
requested under.  A key that is replaced ends every binding that names it, and an ended
binding fails the jobs still queued under it.
-/

namespace Renga.Jobs

/-! ### Installation keys -/

namespace InstallationKeys

def lockCurrent (db : Db) (organizationId agentId : Uuid) : Option InstallationKey :=
  db.installationKeys.rows.find? fun key =>
    decide (key.organizationId = organizationId) && decide (key.agentId = agentId) &&
      (decide (key.status = .pending) || decide (key.status = .approved))

def insertPending! (env : Env) (db : Db) (agent : Agent) (algorithm : String)
    (publicKey : Binary) (newId : Uuid) : Except Error (Db × InstallationKey) :=
  let key : InstallationKey :=
    { id := newId
      organizationId := agent.organizationId
      agentId := agent.id
      algorithm
      publicKey
      fingerprint := env.fingerprint publicKey }
  if fresh : db.installationKeys.get? key.id = none then
    .ok ({ db with installationKeys := db.installationKeys.add key fresh }, key)
  else .error .uniqueViolation

end InstallationKeys

namespace TargetBindings

variable (db : Db) (binding : TargetBinding) (organizationId : Uuid)

def ended (reason : RevokedReason) (now : Time) : TargetBinding :=
  { binding with status := .revoked, revokedAt := some now, revokedReason := some reason }

def endBinding! (reason : RevokedReason) (now : Time) : Except Error (Db × List Job) :=
  let binding := ended binding reason now
  failQueuedForBinding! { db with targetBindings := db.targetBindings.put binding }
    binding.organizationId binding.id "binding_changed" now

def endBindings! (reason : RevokedReason) (now : Time) :
    Db → List TargetBinding → Except Error (Db × PUnit)
  | db, [] => .ok (db, ⟨⟩)
  | db, binding :: bindings => do
      let (db, _) ← endBinding! db binding reason now
      endBindings! reason now db bindings

def revokeForKey! (keyId : Uuid) (now : Time) : Except Error (Db × PUnit) :=
  endBindings! .keyReplaced now db <| db.targetBindings.rows.filter fun binding =>
    decide (binding.organizationId = organizationId) &&
      (decide (binding.installationKeyId = keyId) && decide (binding.status = .active))

def active (db : Db) (organizationId resourceId : Uuid) : Option TargetBinding :=
  db.targetBindings.rows.find? fun binding =>
    decide (binding.organizationId = organizationId) &&
      (decide (binding.resourceId = resourceId) && decide (binding.status = .active))

def nextVersion (resourceId : Uuid) : ℤ :=
  ((db.targetBindings.rows.filter fun binding =>
    decide (binding.organizationId = organizationId) &&
      decide (binding.resourceId = resourceId)).map TargetBinding.version).foldl max 0 + 1

/-- `reports_on?/3`, which `Renga.Jobs` repeats as `agent_reports_on?/3`. -/
def reportsOn? (agent : Agent) (resourceId : Uuid) : Bool :=
  match agent.sourceId with
  | none => false
  | some sourceId =>
    db.claims.any fun claim =>
      decide (claim.organizationId = organizationId) &&
        (decide (claim.resourceId = resourceId) && decide (claim.sourceId = sourceId))

def approvedKey? : Bool :=
  db.installationKeys.rows.any fun key =>
    decide (key.organizationId = binding.organizationId) &&
      (decide (key.id = binding.installationKeyId) && decide (key.status = .approved))

def capture! (agent : Agent) (resourceId : Option Uuid) : Except Error TargetBinding :=
  match resourceId.bind (active db organizationId) with
  | none => .error (.rollback .targetNotBound)
  | some binding =>
    if binding.agentId = agent.id then do
      ensure (approvedKey? db binding) .installationKeyNotApproved
      return binding
    else .error (.rollback .targetNotBound)

/-- `check/1`: the binding a privileged job may still be leased under, with the key
to verify the lease signature with. -/
def check (job : Job) : Except Error (TargetBinding × InstallationKey) := do
  let bindingId ← Except.ofOption job.targetBindingId (.rollback .bindingChanged)
  let binding ← Except.ofOption (db.targetBindings.get? bindingId) (.rollback .bindingChanged)
  ensure (decide (binding.organizationId = job.organizationId)) .bindingChanged
  ensure (decide (binding.status = .active)) .bindingChanged
  ensure (decide (some binding.version = job.targetBindingVersion)) .bindingChanged
  ensure (decide (binding.agentId = job.agentId)) .bindingChanged
  let key ← Except.ofOption (db.installationKeys.get? binding.installationKeyId) .matchError
  ensure (decide (key.status = .approved)) .installationKeyNotApproved
  return (binding, key)

/-- Inserts an active binding under a fresh id; the unique indexes allow one active
binding and one binding of each version per resource. -/
def insertBinding! : Except Error (Db × TargetBinding) :=
  if fresh : db.targetBindings.get? binding.id = none then
    if db.targetBindings.rows.any fun other =>
        decide (other.organizationId = binding.organizationId) &&
          decide (other.resourceId = binding.resourceId) &&
          (decide (other.status = .active) || decide (other.version = binding.version)) then
      .error .uniqueViolation
    else .ok ({ db with targetBindings := db.targetBindings.add binding fresh }, binding)
  else .error .uniqueViolation

def bind (scope : Scope) (resourceId agentId : Uuid) (fingerprint : String) (newId : Uuid)
    (now : Time) : Except Error (Db × TargetBinding) := do
  db.authorizeMember! scope "intake_keys.manage"
  let organizationId := scope.organizationId
  ensure (decide ((organizationId, resourceId) ∈ db.resources)) .resourceNotFound
  let agent ← Except.ofOption
    ((db.agents.get? agentId).filter fun agent =>
      decide (agent.organizationId = organizationId) && decide (agent.status = .active))
    (.rollback .agentNotFound)
  ensure (reportsOn? db organizationId agent resourceId) .agentNotForResource
  let key ← Except.ofOption
    ((db.installationKeys.rows.find? fun key =>
      decide (key.organizationId = organizationId) && decide (key.agentId = agent.id) &&
        decide (key.status = .approved)).filter fun key => decide (key.fingerprint = fingerprint))
    (.rollback .keyChanged)
  let (db, _) ← endBindings! .replaced now db (active db organizationId resourceId).toList
  insertBinding! db
    { id := newId
      organizationId
      resourceId
      agentId := agent.id
      installationKeyId := key.id
      version := nextVersion db organizationId resourceId }

def revoke (scope : Scope) (bindingId : Uuid) (now : Time) : Except Error (Db × PUnit) := do
  db.authorizeMember! scope "intake_keys.manage"
  let binding ← Except.ofOption
    ((db.targetBindings.get? bindingId).filter fun binding =>
      decide (binding.organizationId = scope.organizationId) && decide (binding.status = .active))
    (.rollback .notFound)
  endBindings! .revoked now db [binding]

end TargetBindings

namespace InstallationKeys

def replaced (key : InstallationKey) : InstallationKey := { key with status := .replaced }

def replace! (env : Env) (db : Db) (agent : Agent) (current : InstallationKey)
    (algorithm : String) (publicKey : Binary) (newId : Uuid) (now : Time) :
    Except Error (Db × InstallationKey) := do
  let db := { db with installationKeys := db.installationKeys.put (replaced current) }
  let (db, _) ← TargetBindings.revokeForKey! db agent.organizationId current.id now
  insertPending! env db agent algorithm publicKey newId

def present! (env : Env) (db : Db) (agent : Agent) (algorithm : String) (publicKey : Binary)
    (newId : Uuid) (now : Time) : Except Error (Db × InstallationKey) :=
  match lockCurrent db agent.organizationId agent.id with
  | none => insertPending! env db agent algorithm publicKey newId
  | some current =>
    if current.algorithm = algorithm ∧ current.publicKey = publicKey then .ok (db, current)
    else replace! env db agent current algorithm publicKey newId now

def approve (db : Db) (scope : Scope) (keyId : Uuid) (fingerprint : String) :
    Except Error (Db × InstallationKey) := do
  db.authorizeMember! scope "intake_keys.manage"
  let key ← Except.ofOption
    ((db.installationKeys.get? keyId).filter fun key =>
      decide (key.organizationId = scope.organizationId)) (.rollback .notFound)
  ensure (decide (key.status = .pending) && decide (key.fingerprint = fingerprint)) .keyChanged
  let approved := { key with status := .approved }
  return ({ db with installationKeys := db.installationKeys.put approved }, approved)

end InstallationKeys

end Renga.Jobs
