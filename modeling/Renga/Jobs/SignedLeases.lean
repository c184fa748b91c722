import Renga.Jobs.TargetBindings

/-!
# Signed leases

`Renga.Jobs.SignedLeases`: leasing `operate` and `interactive` jobs.  An offer hands the
agent a token and a nonce for a queued privileged job; a claim leases the job when the agent
signs `message` over both with its approved key.  `message` is the list of characters the
source joins.
-/

namespace Renga.Jobs.SignedLeases

def offerSeconds : ℤ := 60

def joinLines (lines : List String) : List Char :=
  lines.flatMap fun line => line.toList ++ ['\n']

/-- `message/6`: the bytes an agent signs to claim an offer.  A resource id that was
cleared is the empty line. -/
def message (jobId : Uuid) (leaseToken nonce : Token) (installationId : String)
    (resourceId : Option Uuid) (bindingVersion : ℤ) : List Char :=
  joinLines ["renga-job-lease-v1", toString jobId, leaseToken, nonce, installationId,
    (resourceId.map toString).getD "", toString bindingVersion]

variable (env : Env) (db : Db) (job : Job) (organizationId : Uuid) (agent : Agent)

def approvedKey : Option InstallationKey :=
  db.installationKeys.rows.find? fun key =>
    decide (key.organizationId = agent.organizationId) && decide (key.agentId = agent.id) &&
      decide (key.status = .approved)

structure OfferSecret where
  token : Token
  nonce : Token
  deriving DecidableEq

def offered (secret : OfferSecret) (now : Time) : Job :=
  { job with
    offerTokenHash := some (env.hashToken secret.token)
    offerNonce := some secret.nonce
    offerExpiresAt := some (now + seconds offerSeconds) }

def withoutOffer : Job :=
  { job with offerTokenHash := none, offerNonce := none, offerExpiresAt := none }

/-- What became of one job an offer request looked at. -/
inductive OfferResult where
  | offered (job : Job) (secret : OfferSecret)
  | refused
  | waiting

def offerJob! (allowed : List String) (newSecret : Uuid → OfferSecret) (now : Time) (db : Db)
    (job : Job) : Except Error (Db × OfferResult) :=
  if job.capabilityKey ∈ allowed then
    match TargetBindings.check db job with
    | .ok _ => do
        let secret := newSecret job.id
        let updated := offered env job secret now
        let db ← db.updateJob job updated
        return (db, .offered updated secret)
    | .error (.rollback .bindingChanged) => do
        let (db, _) ← refuse! db job "binding_changed" now
        return (db, .refused)
    -- The installation's key awaits approval; the job waits with it.
    | .error (.rollback .installationKeyNotApproved) => .ok (db, .waiting)
    | .error _ => .error .matchError
  else do
    let (db, _) ← refuse! db job "capability_not_allowed" now
    return (db, .refused)

def offer (keys : List String) (limit : ℕ) (newSecret : Uuid → OfferSecret) (skipped : Uuid → Bool)
    (now : Time) : Except Error (Db × List OfferResult) := do
  ensure (decide (agent.organizationId = organizationId)) .forbidden
  let organization ← db.lockActiveOrganization! organizationId
  match approvedKey db agent with
  | none => .ok (db, [])
  | some _ =>
    let allowed := allowedCapabilities env organization
    let jobs := ((leasableJobs db organizationId agent keys now).filter fun job =>
      decide (job.riskClass ≠ .observe) && !skipped job.id).take limit
    forEachJob (offerJob! env allowed newSecret now) db jobs

def lockJob (jobId : Uuid) : Option Job :=
  (db.jobs.get? jobId).filter fun job =>
    decide (job.organizationId = organizationId) && decide (job.agentId = agent.id) &&
      job.importedAt.isNone

def currentOffer? (token nonce : Token) (now : Time) : Bool :=
  decide (job.state = .queued) && (job.offerExpiresAt.any fun t => decide (now < t)) &&
    decide (now < job.notAfter) && decide (job.offerTokenHash = some (env.hashToken token)) &&
    decide (job.offerNonce = some nonce)

def verified? (token nonce : Token) (signature : Binary) (key : InstallationKey) : Bool :=
  decide (key.algorithm = "ed25519") && decide (signature.length = 64) &&
    env.verify key.publicKey
      (message job.id token nonce agent.installationId job.resourceId
        (job.targetBindingVersion.getD 0)) signature

inductive ClaimResult where
  | leased (job : Job) (token : Token)
  | failed (reason : Reason)

structure Claim where
  jobId : Uuid
  token : Token
  nonce : Token
  signature : Binary

def claim (request : Claim) (now : Time) : Except Error (Db × ClaimResult) := do
  let organization ← db.lockActiveOrganization! organizationId
  let job ← Except.ofOption (lockJob db organizationId agent request.jobId) (.rollback .notFound)
  ensure (currentOffer? env job request.token request.nonce now) .offerInvalid
  if job.capabilityKey ∈ allowedCapabilities env organization then
    match TargetBindings.check db job with
    | .ok (_, key) => do
        ensure (verified? env job agent request.token request.nonce request.signature key)
          .signatureInvalid
        let cleared := withoutOffer job
        let db ← db.updateJob job cleared
        let (db, leased, token) ← leaseWithToken! env db cleared agent request.token now
        return (db, .leased leased token)
    | .error (.rollback .bindingChanged) => do
        let (db, _) ← refuse! db job "binding_changed" now
        return (db, .failed .bindingChanged)
    | .error e => .error e
  else do
    let (db, _) ← refuse! db job "capability_not_allowed" now
    return (db, .failed .capabilityNotAllowed)

end Renga.Jobs.SignedLeases
