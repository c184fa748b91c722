import Renga.Jobs.Reports
import Renga.Jobs.Requests
import Renga.Jobs.SignedLeases

/-!
# The operations on the job tables

`Op` collects every transaction the modelled contexts run on the tables of `Db`, with the
random values and the clock reading each one draws.  `perform` is the transaction and `step`
what the database holds afterwards.  Nothing ties the arguments of one operation to those of
another, so a run over a list of operations is any interleaving of any callers, at any times
and with any agent, token or signature.
-/

namespace Renga.Jobs

/-- `OrganizationLifecycle.apply_change/4` as far as it touches the job tables. -/
def changeOrganization (db : Db) (organizationId : Uuid) (action : OrganizationLifecycle.Action)
    (now : Time) : Except Error (Db × Organization) := do
  let organization ← Except.ofOption (db.organizations.get? organizationId) (.rollback .notFound)
  match OrganizationLifecycle.transition organization action now with
  | none => .error (.rollback .purging)
  | some none => .ok (db, organization)
  | some (some attrs) =>
    let updated := OrganizationLifecycle.change organization attrs
    let db := { db with organizations := db.organizations.put updated }
    if updated.status ≠ .active then do
      let (db, _) ← suspendOrganization! db updated.id now
      return (db, updated)
    else .ok (db, updated)

def allowCapabilities (env : Env) (db : Db) (scope : Scope) (keys : List String) :
    Except Error (Db × PUnit) := do
  let organization ← db.lockActiveOrganization! scope.organizationId
  db.authorizeMember! scope "organization.manage"
  ensure (keys.all fun key => (env.fetch key).isSome) .unknownCapability
  let updated := { organization with allowedCapabilities := some keys.eraseDups }
  return ({ db with organizations := db.organizations.put updated }, ⟨⟩)

/-- `Transfers.Import.secure/3` for a job record.  The archive holds neither token
digests nor the offer's nonce; a leased job keeps its shape with a lease token no one
holds. -/
def secureJob (record : Job) (lease : Digest) (now : Time) : Job :=
  { record with
    importedAt := some now
    leaseTokenHash := if record.state ∈ leasedStates then some lease else none
    reportTokenHash := none
    offerTokenHash := none
    offerNonce := none
    offerExpiresAt := none }

def importJob (db : Db) (record : Job) (events : List JobEvent) (lease : Digest) (now : Time) :
    Except Error (Db × PUnit) := do
  let db ← db.insertJob (secureJob record lease now)
  let db ← db.insertEvents (events.map fun event =>
    { event with jobId := record.id, organizationId := record.organizationId })
  return (db, ⟨⟩)

/-- A transaction of the job context, or of one it shares tables with. -/
inductive Op where
  | createOrganization (id : Uuid) (jobCreationRate : ℕ)
  | changeOrganization (organizationId : Uuid) (action : OrganizationLifecycle.Action) (now : Time)
  | allowCapabilities (scope : Scope) (keys : List String)
  /-- The inventory context writes its own tables as it likes. -/
  | inventory (agents : KeyTable Uuid Agent Agent.id) (resources : List (Uuid × Uuid))
      (claims : List ResourceIdentifierClaim)
  | createJob (scope : Scope) (agentId : Uuid) (capabilityKey : String) (parameters : Payload)
      (opts : CreateOpts) (newId : Uuid) (now : Time)
  | createSystemJob (organizationId agentId : Uuid) (capabilityKey : String)
      (parameters : Payload) (opts : CreateOpts) (newId : Uuid) (now : Time)
  | createBatch (scope : Scope) (capabilityKey : String) (parameters : Payload)
      (resourceIds : List Uuid) (notAfter : Option Time) (batchId : Uuid) (newId : Uuid → Uuid)
      (now : Time)
  | importJob (record : Job) (events : List JobEvent) (lease : Digest) (now : Time)
  | cancelJob (scope : Scope) (jobId : Uuid) (now : Time)
  | leaseJobs (organizationId : Uuid) (installationId : String) (keys : List String) (limit : ℕ)
      (newToken : Uuid → Token) (skipped : Uuid → Bool) (now : Time)
  | report (organizationId : Uuid) (installationId : String) (report : Report) (now : Time)
  | sweepOne (organizationId jobId : Uuid) (kind : SweepKind) (skipped : Uuid → Bool) (now : Time)
  | resolveJob (scope : Scope) (jobId : Uuid) (outcome : Outcome) (note : Option String)
      (now : Time)
  | reconcileJob (organizationId jobId : Uuid) (outcome : Outcome) (details : Payload) (now : Time)
  | presentKey (organizationId : Uuid) (installationId : String) (algorithm : String)
      (publicKey : Binary) (newId : Uuid) (now : Time)
  | approveKey (scope : Scope) (keyId : Uuid) (fingerprint : String)
  | bind (scope : Scope) (resourceId agentId : Uuid) (fingerprint : String) (newId : Uuid)
      (now : Time)
  | revoke (scope : Scope) (bindingId : Uuid) (now : Time)
  | offer (organizationId : Uuid) (installationId : String) (keys : List String) (limit : ℕ)
      (newSecret : Uuid → SignedLeases.OfferSecret) (skipped : Uuid → Bool) (now : Time)
  | claim (organizationId : Uuid) (installationId : String) (request : SignedLeases.Claim)
      (now : Time)

/-- What a committed transaction returns to its caller. -/
inductive Reply where
  | done
  | job (job : Job)
  | jobs (jobs : List Job)
  | leased (leases : List (Job × Token))
  | offered (offers : List SignedLeases.OfferResult)
  | claimed (result : SignedLeases.ClaimResult)

def replying {α : Type} (reply : α → Reply) (result : Except Error (Db × α)) :
    Except Error (Db × Reply) :=
  result.map fun p => (p.1, reply p.2)

def perform (env : Env) (db : Db) : Op → Except Error (Db × Reply)
  | .createOrganization id jobCreationRate =>
    if fresh : db.organizations.get? id = none then
      .ok ({ db with organizations :=
        db.organizations.add { id, status := .active, jobCreationRate } fresh }, .done)
    else .error .uniqueViolation
  | .changeOrganization organizationId action now =>
    replying (fun _ => .done) (changeOrganization db organizationId action now)
  | .allowCapabilities scope keys => replying (fun _ => .done) (allowCapabilities env db scope keys)
  | .inventory agents resources claims => .ok ({ db with agents, resources, claims }, .done)
  | .createJob scope agentId capabilityKey parameters opts newId now =>
    replying .job (createJob env db scope agentId capabilityKey parameters opts newId now)
  | .createSystemJob organizationId agentId capabilityKey parameters opts newId now =>
    replying .job
      (createSystemJob env db organizationId agentId capabilityKey parameters opts newId now)
  | .createBatch scope capabilityKey parameters resourceIds notAfter batchId newId now =>
    replying .jobs
      (createBatch env db scope capabilityKey parameters resourceIds notAfter batchId newId now)
  | .importJob record events lease now =>
    replying (fun _ => .done) (importJob db record events lease now)
  | .cancelJob scope jobId now => replying .job (cancelJob env db scope jobId now)
  | .leaseJobs organizationId installationId keys limit newToken skipped now => do
      let agent ← db.intakeAgent! organizationId installationId
      replying (fun leases => .leased (leases.filterMap id))
        (leaseJobs env db organizationId agent keys limit newToken skipped now)
  | .report organizationId installationId report now => do
      let agent ← db.intakeAgent! organizationId installationId
      replying .job (reportJob env db organizationId agent report now)
  | .sweepOne organizationId jobId kind skipped now =>
    replying (fun _ => .done) (sweepOne db organizationId jobId now kind skipped)
  | .resolveJob scope jobId outcome note now =>
    replying .job (resolveJob env db scope jobId outcome note now)
  | .reconcileJob organizationId jobId outcome details now =>
    replying .job (reconcileJob env db organizationId jobId outcome details now)
  | .presentKey organizationId installationId algorithm publicKey newId now => do
      let agent ← db.intakeAgent! organizationId installationId
      replying (fun _ => .done)
        (InstallationKeys.present! env db agent algorithm publicKey newId now)
  | .approveKey scope keyId fingerprint =>
    replying (fun _ => .done) (InstallationKeys.approve db scope keyId fingerprint)
  | .bind scope resourceId agentId fingerprint newId now =>
    replying (fun _ => .done)
      (TargetBindings.bind db scope resourceId agentId fingerprint newId now)
  | .revoke scope bindingId now =>
    replying (fun _ => .done) (TargetBindings.revoke db scope bindingId now)
  | .offer organizationId installationId keys limit newSecret skipped now => do
      let agent ← db.intakeAgent! organizationId installationId
      replying .offered
        (SignedLeases.offer env db organizationId agent keys limit newSecret skipped now)
  | .claim organizationId installationId request now => do
      let agent ← db.intakeAgent! organizationId installationId
      replying .claimed (SignedLeases.claim env db organizationId agent request now)

def step (env : Env) (db : Db) (op : Op) : Db :=
  Run.commit db ((perform env db op).map Prod.fst)

abbrev run (env : Env) (db : Db) (ops : List Op) : Db := Run.run (step env) db ops

/-- The loop of `sweep/1` over the jobs it found, each in its own transaction. -/
def sweepEach (env : Env) (kind : SweepKind) (skipped : Uuid → Bool) (now : Time) (db : Db)
    (ids : List (Uuid × Uuid)) : Db :=
  run env db (ids.map fun id => .sweepOne id.1 id.2 kind skipped now)

/-- `sweep/1`: first the lapsed leases, then the passed deadlines. -/
def sweep (env : Env) (skipped : Uuid → Bool) (now : Time) (db : Db) : Db :=
  let db := sweepEach env .lease skipped now db (sweepIds db .lease now)
  sweepEach env .deadline skipped now db (sweepIds db .deadline now)

variable {env : Env} {db : Db} {op : Op}

theorem step_of_ok {db' : Db} {reply : Reply} (h : perform env db op = .ok (db', reply)) :
    step env db op = db' := by
  simp [step, h, Except.map]

theorem step_of_error {e : Error} (h : perform env db op = .error e) : step env db op = db := by
  simp [step, h, Except.map]

end Renga.Jobs
