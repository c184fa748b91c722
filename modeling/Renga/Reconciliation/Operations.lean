import Renga.Reconciliation.Schema

/-!
# Durable reconciliation work

`Renga.Inventory.ReconciliationWork`.  A root payload is accepted together with a reservation of
units and bytes in its organization's lane (`admitWork`, which is the source's `admit`).
-/

namespace Renga.Reconciliation

def ensure (condition : Bool) (reason : Reason) : Except Error PUnit :=
  Except.require condition (.rollback reason)

/-! ### Locks -/

variable (env : Env) (db : Db) (organizationId : Uuid) (lane : Lane)

def Db.lockOrganization! : Except Error Organization :=
  match db.organizations.get? organizationId with
  | some organization =>
    if organization.status = .active then .ok organization else .error (.rollback .forbidden)
  | none => .error (.rollback .forbidden)

def Db.lockForPerson! (scope : Scope) : Except Error PUnit := do
  ensure scope.userId.isSome .forbidden
  let _ ← db.lockOrganization! scope.organizationId
  ensure (scope.holds "inventory.reconcile") .forbidden

def Db.lockLane! : Db × Lane :=
  match found : db.lanes.get? organizationId with
  | some lane => (db, lane)
  | none => ({ db with lanes := db.lanes.add { organizationId } found }, { organizationId })

def Db.scopedWork! (workId : Uuid) : Except Error Work := do
  let work ← Except.ofOption (db.work.get? workId) (.rollback .notFound)
  ensure (decide (work.organizationId = organizationId)) .notFound
  return work

def Db.lockSource! (sourceId : Uuid) : Except Error Source :=
  match db.sources.get? sourceId with
  | some source => if source.organizationId = organizationId then .ok source else .error .noResults
  | none => .error .noResults

/-! ### Admission -/

structure Limits where
  maxUnits : ℤ
  maxBytes : ℤ
  deriving DecidableEq

def validateLimits! (limits : Limits) : Except Error PUnit :=
  Except.require (decide (0 ≤ limits.maxUnits ∧ 0 ≤ limits.maxBytes)) .argument

def currentAuthority (keyId agentId : Uuid) (installationId : String) (sourceId : Uuid) :
    Except Error (IntakeApiKey × Agent × Source) :=
  match (db.keys.get? keyId).filter (·.organizationId = organizationId),
      (db.agents.get? agentId).filter (·.organizationId = organizationId),
      (db.sources.get? sourceId).filter (·.organizationId = organizationId) with
  | some key, some agent, some source =>
    if key.active ∧ agent.active ∧ source.active ∧ agent.installationId = installationId then
      if agent.sourceId = some source.id ∨ source.agentId = some agent.id then
        .ok (key, agent, source)
      else .error (.rollback .sourceNotOwned)
    else .error (.rollback .authorityUnavailable)
  | _, _, _ => .error (.rollback .authorityUnavailable)

def validatedAttrs! (params : Payload) (source : Source) : Except Error Attrs :=
  match env.validateObservation params source with
  | .error errors => .error (.rollback (.invalidPayload errors))
  | .ok attrs =>
    if collector env attrs.payload
        = source.collectorId.map fun id => (id, Json.string source.kind) then .ok attrs
    else .error (.rollback .sourceNotOwned)

/-- Whether an observation was stored by this request. -/
inductive Disposition where
  | created
  | duplicate
  deriving DecidableEq

def findIdempotentObservation (sourceId : Uuid) (key : String) : Option Observation :=
  db.observations.rows.find? fun observation =>
    observation.organizationId = organizationId ∧ observation.sourceId = sourceId ∧
      observation.idempotencyKey = key

def acceptObservation (sourceId keyId : Uuid) (attrs : Attrs) (newId : Uuid) :
    Except Error (Db × Observation × Disposition) := do
  let key ← Except.ofOption attrs.idempotencyKey .argument
  let digest := env.digestPayload attrs.payload
  match findIdempotentObservation db organizationId sourceId key with
  | some observation =>
    ensure (decide (observation.payloadDigest = digest)) .idempotencyConflict
    return (db, observation, .duplicate)
  | none =>
    let observation : Observation :=
      { id := newId
        organizationId
        sourceId
        idempotencyKey := env.trim key
        payloadDigest := digest
        payload := attrs.payload
        intakeApiKeyId := some keyId }
    match env.observationErrors observation with
    | [] =>
      let db ← db.insertObservation observation
      return (db, observation, .created)
    | errors => .error (.rollback (.invalidObservation errors))

def reserve! (observation : Observation) (originalKeyId agentId : Uuid) (installationId : String)
    (limits : Limits) (newId : Uuid) (now : Time) : Except Error (Db × Work) := do
  let units := reservedUnits observation.payload
  let bytes : ℤ := env.encodedSize observation.payload
  ensure (decide (¬ (limits.maxUnits < lane.pendingUnits + units ∨
    limits.maxBytes < lane.pendingBytes + bytes))) .capacity
  let work : Work :=
    { id := newId
      organizationId := observation.organizationId
      observationId := observation.id
      sourceId := observation.sourceId
      position := lane.position + 1
      units
      bytes
      originalKeyId
      installationAgentId := agentId
      installationId
      runAfter := now
      insertedAt := now }
  let db ← db.insertWork work
  let db ← db.updateLane lane { lane with
    position := work.position
    pendingUnits := lane.pendingUnits + units
    pendingBytes := lane.pendingBytes + bytes }
  return (db, work)

/-- The work of an organization for one observation, by position. -/
def Db.workFor (observationId : Uuid) : List Work :=
  (db.work.rows.filter fun work =>
    work.organizationId = organizationId ∧ work.observationId = observationId).insertionSort
    fun a b => a.position ≤ b.position

def Db.firstWork (observationId : Uuid) : Option Work :=
  (db.workFor organizationId observationId).head?

def Db.latestWork (work : Work) : Option Work :=
  (db.workFor work.organizationId work.observationId).getLast?

def admitWork (key : Option IntakeApiKey) (installationId : String) (sourceId : Uuid)
    (params : Payload) (limits : Limits) (newObservation newWork : Uuid) (now : Time) :
    Except Error (Db × Work × Disposition) := do
  let key ← Except.ofOption key (.rollback .unsupportedAuthority)
  validateLimits! limits
  let _ ← db.lockOrganization! organizationId
  let agent ← Except.ofOption (db.agents.rows.find? fun agent =>
    agent.organizationId = organizationId ∧ agent.installationId = installationId)
    (.rollback .authorityUnavailable)
  let (current, agent, source) ←
    currentAuthority db organizationId key.id agent.id installationId sourceId
  ensure (decide (current.tokenHash = key.tokenHash)) .authorityUnavailable
  let attrs ← validatedAttrs! env params source
  let (db, lane) := db.lockLane! organizationId
  let (db, observation, disposition) ←
    acceptObservation env db organizationId sourceId key.id attrs newObservation
  match disposition with
  | .created =>
    let (db, work) ←
      reserve! env db lane observation key.id agent.id installationId limits newWork now
    return (db, work, .created)
  | .duplicate =>
    let work ← Except.ofOption (db.firstWork organizationId observation.id)
      (.rollback .unsupportedExistingObservation)
    return (db, work, .duplicate)

/-! ### Claims -/

structure Claim where
  organizationId : Uuid
  workId : Uuid
  token : Uuid
  laneVersion : ℤ
  generation : ℤ
  checkpoint : ℤ
  status : WorkStatus
  deriving DecidableEq

variable (claim : Claim) (organizationId : Uuid) (lane : Lane)

def Db.headWork : Option Work :=
  ((db.outstanding organizationId).insertionSort fun a b => a.position ≤ b.position).head?

def Lane.sooner (a b : Lane) : Prop :=
  match a.lastTurnAt, b.lastTurnAt with
  | none, some _ => True
  | some _, none => False
  | none, none => a.organizationId ≤ b.organizationId
  | some t, some t' => t < t' ∨ t = t' ∧ a.organizationId ≤ b.organizationId

instance : DecidableRel Lane.sooner := by
  intro a b
  unfold Lane.sooner
  split <;> infer_instance

/-- A lane `candidate/1` may choose: its organization is active, its head is ready, and no
claim on it is running. -/
def Db.ready (now : Time) (lane : Lane) : Bool :=
  (db.organizations.get? lane.organizationId).any (fun organization =>
    organization.status = .active) &&
  (db.headWork lane.organizationId).any (fun work =>
    work.status = .pending ∧ work.runAfter ≤ now) &&
  lane.expiresAt.all fun t => t ≤ now

/-- `candidate/1`.  Rows another transaction has locked are skipped. -/
def candidate (organizationId : Option Uuid) (skipped : Uuid → Bool) (now : Time) : Option Uuid :=
  (((db.lanes.rows.filter fun lane =>
    db.ready now lane && organizationId.all (lane.organizationId = ·) &&
      !skipped lane.organizationId).insertionSort Lane.sooner).head?).map Lane.organizationId

def claimBudget! (claimMs : ℤ) : Except Error PUnit :=
  Except.require (decide (0 < claimMs ∧ claimMs ≤ 30000)) .argument

inductive Claimed where
  | idle
  | busy
  | claim (claim : Claim)

def recordBusyAttempt! (now : Time) : Except Error (Db × Claimed) :=
  match db.lanes.get? organizationId with
  | some lane => do
      let db ← db.updateLane lane { lane with lastTurnAt := some now }
      return (db, .busy)
  | none => .ok (db, .busy)

def claimAvailable! (claimMs : ℤ) (token : Uuid) (now : Time) : Except Error (Db × Claimed) := do
  let work ← Except.ofOption (db.headWork organizationId) .noResults
  let _ ← db.lockSource! organizationId work.sourceId
  let lane ← Except.ofOption (db.lanes.get? organizationId) .noResults
  ensure (decide (work.status = .pending ∧ work.runAfter ≤ now) &&
    lane.expiresAt.all fun t => t ≤ now) .headChanged
  claimBudget! claimMs
  let version := lane.version + 1
  let db ← db.updateLane lane { lane with
    token := some token
    workId := some work.id
    version
    expiresAt := some (now + milliseconds claimMs)
    lastTurnAt := some now }
  return (db, .claim
    { organizationId
      workId := work.id
      token
      laneVersion := version
      generation := work.generation
      checkpoint := work.checkpoint
      status := work.status })

/-- `claim_next/1`.  `free` says whether the advisory lock was free, `contended` whether
the source or the work row was locked by someone else. -/
def claimNext (organizationId : Option Uuid) (claimMs : ℤ) (skipped : Uuid → Bool)
    (free contended : Bool) (token : Uuid) (selectedAt now : Time) : Except Error (Db × Claimed) :=
  match candidate db organizationId skipped selectedAt with
  | none => .ok (db, .idle)
  | some organizationId =>
    if free ∧ ¬ contended then claimAvailable! db organizationId claimMs token now
    else recordBusyAttempt! db organizationId now

/-! ### Turns -/

/-- The lane `owned_lane/1` selects at a reading of the clock. -/
def Db.ownedLane (now : Time) : Option Lane :=
  (db.lanes.get? claim.organizationId).filter fun lane =>
    lane.token = some claim.token ∧ lane.workId = some claim.workId ∧
      lane.version = claim.laneVersion ∧ (lane.expiresAt.any fun t => now < t) = true

def ensureOwned! (work : Work) (now : Time) : Except Error PUnit := do
  ensure (decide ((lane.token = some claim.token ∧ lane.version = claim.laneVersion ∧
    lane.workId = some claim.workId ∧ work.generation = claim.generation ∧
    work.checkpoint = claim.checkpoint ∧ work.status = claim.status) ∧
    work.status = .pending)) .staleClaim
  ensure (db.ownedLane claim now).isSome .expiredClaim

def lockTurn! (now : Time) : Except Error (Db × Lane × Work × Source) := do
  let _ ← db.lockOrganization! claim.organizationId
  let work ← db.scopedWork! claim.organizationId claim.workId
  let source ← db.lockSource! work.organizationId work.sourceId
  let (db, lane) := db.lockLane! claim.organizationId
  ensureOwned! db claim lane work now
  return (db, lane, work, source)

def updateOwnedWork! (change : Work → Work) : Except Error Db :=
  match (db.work.get? claim.workId).filter fun work =>
      work.organizationId = claim.organizationId ∧ work.generation = claim.generation ∧
        work.checkpoint = claim.checkpoint ∧ work.status = claim.status ∧
        work.status = .pending with
  | some work => db.updateWork work (change work)
  | none => .error (.rollback .staleClaim)

def releaseOwnedLane! (units bytes : ℤ) (now : Time) : Except Error Db :=
  match db.ownedLane claim now with
  | some owned =>
    db.updateLane owned { owned with
      token := none
      workId := none
      expiresAt := none
      version := lane.version + 1
      pendingUnits := lane.pendingUnits - units
      pendingBytes := lane.pendingBytes - bytes }
  | none => .error (.rollback .expiredClaim)

def finish! (work : Work) (status : WorkStatus) (now : Time) : Except Error Db := do
  let db ← updateOwnedWork! db claim fun row =>
    { row with status, checkpoint := work.checkpoint + 1, error := [] }
  if status = .succeeded then releaseOwnedLane! db claim lane work.units work.bytes now
  else releaseOwnedLane! db claim lane 0 0 now

inductive Outcome where
  | progress (value : Json)
  | complete (value : Json)
  | error (reason : String)

def requireHost! (observation : Observation) (source : Source) : Except Error PUnit :=
  ensure (decide (¬ (observation.parentObservationId.isSome ∨
    scopedReport? observation.payload ∨ source.kind ≠ "host_agent"))) .unsupportedExecution

def execute (operation : Organization → Observation → Outcome) (checkedAt releasedAt : Time) :
    Except Error (Db × Json) := do
  let (db, lane, work, source) ← lockTurn! db claim checkedAt
  let observation ← Except.ofOption ((db.observations.get? work.observationId).filter
    (·.organizationId = work.organizationId)) .noResults
  requireHost! observation source
  let organization ← Except.ofOption (db.organizations.get? work.organizationId) .noResults
  match operation organization observation with
  | .progress value =>
    let db ← finish! db claim lane work .pending releasedAt
    return (db, value)
  | .complete value =>
    let db ← finish! db claim lane work .succeeded releasedAt
    return (db, value)
  | .error reason => .error (.rollback (.operation reason))

inductive FailKind where
  | backoff
  | domain
  deriving DecidableEq

def fail (kind : FailKind) (error : Payload) (backoffMs : ℤ) (checkedAt now releasedAt : Time) :
    Except Error (Db × Work) := do
  let (db, lane, work, _) ← lockTurn! db claim checkedAt
  let db ← updateOwnedWork! db claim fun row =>
    { row with
      status := if kind = .backoff then .pending else .quarantined
      quarantineKind := if kind = .backoff then none else some .domain
      error
      runAfter := now + milliseconds backoffMs }
  let db ← releaseOwnedLane! db claim lane 0 0 releasedAt
  let work ← Except.ofOption (db.work.get? work.id) .noResults
  return (db, work)

/-! ### Retries -/

def invalidateLane! : Except Error Db :=
  db.updateLane lane
    { lane with token := none, workId := none, expiresAt := none, version := lane.version + 1 }

def retry (scope : Scope) (workId : Uuid) (generation : ℤ) (now : Time) :
    Except Error (Db × Work) := do
  db.lockForPerson! scope
  let work ← db.scopedWork! scope.organizationId workId
  let _ ← db.lockSource! work.organizationId work.sourceId
  let (db, lane) := db.lockLane! scope.organizationId
  ensure (decide (work.generation = generation)) .staleWork
  ensure (decide (work.status ≠ .succeeded)) .terminalWork
  let db ← invalidateLane! db lane
  let next := { work with
    generation := generation + 1
    status := .pending
    runAfter := now
    quarantineKind := none
    error := [] }
  let db ← db.updateWork work next
  return (db, next)

def terminalRetry (scope : Scope) (workId : Uuid) (generation : ℤ) (limits : Limits)
    (newWork : Uuid) (now : Time) : Except Error (Db × Work) := do
  validateLimits! limits
  db.lockForPerson! scope
  let work ← db.scopedWork! scope.organizationId workId
  let _ ← db.lockSource! work.organizationId work.sourceId
  let (db, lane) := db.lockLane! scope.organizationId
  ensure (decide (work.generation = generation)) .staleWork
  ensure (decide (work.status = .succeeded)) .notTerminal
  let latest ← Except.ofOption (db.latestWork work) .noResults
  ensure (decide (latest.id = work.id)) .superseded
  let observation ← Except.ofOption (db.observations.get? work.observationId) .noResults
  reserve! env db lane observation work.originalKeyId work.installationAgentId
    work.installationId limits newWork now

/-! ### Runs -/

inductive Op where
  /-- Other contexts write the tables this one only reads. -/
  | context (organizations : KeyTable Uuid Organization Organization.id)
      (keys : KeyTable Uuid IntakeApiKey IntakeApiKey.id) (agents : KeyTable Uuid Agent Agent.id)
      (sources : KeyTable Uuid Source Source.id)
  /-- An observation is stored outside of admission. -/
  | observe (observation : Observation)
  | admitWork (organizationId : Uuid) (key : Option IntakeApiKey) (installationId : String)
      (sourceId : Uuid) (params : Payload) (limits : Limits) (newObservation newWork : Uuid)
      (now : Time)
  | claimNext (organizationId : Option Uuid) (claimMs : ℤ) (skipped : Uuid → Bool)
      (free contended : Bool) (token : Uuid) (selectedAt now : Time)
  | execute (claim : Claim) (operation : Organization → Observation → Outcome)
      (checkedAt releasedAt : Time)
  | fail (claim : Claim) (kind : FailKind) (error : Payload) (backoffMs : ℤ)
      (checkedAt now releasedAt : Time)
  | retry (scope : Scope) (workId : Uuid) (generation : ℤ) (now : Time)
  | terminalRetry (scope : Scope) (workId : Uuid) (generation : ℤ) (limits : Limits)
      (newWork : Uuid) (now : Time)

/-- What a committed transaction returns to its caller. -/
inductive Reply where
  | done
  | admitted (work : Work) (disposition : Disposition)
  | claimed (claimed : Claimed)
  | executed (value : Json)
  | work (work : Work)

def perform : Op → Except Error (Db × Reply)
  | .context organizations keys agents sources =>
    .ok ({ db with organizations, keys, agents, sources }, .done)
  | .observe observation => do
      let db ← db.insertObservation observation
      return (db, .done)
  | .admitWork organizationId key installationId sourceId params limits newObservation newWork
      now => do
      let (db, work, disposition) ← admitWork env db organizationId key installationId sourceId
        params limits newObservation newWork now
      return (db, .admitted work disposition)
  | .claimNext organizationId claimMs skipped free contended token selectedAt now => do
      let (db, claimed) ←
        claimNext db organizationId claimMs skipped free contended token selectedAt now
      return (db, .claimed claimed)
  | .execute claim operation checkedAt releasedAt => do
      let (db, value) ← execute db claim operation checkedAt releasedAt
      return (db, .executed value)
  | .fail claim kind error backoffMs checkedAt now releasedAt => do
      let (db, work) ← fail db claim kind error backoffMs checkedAt now releasedAt
      return (db, .work work)
  | .retry scope workId generation now => do
      let (db, work) ← retry db scope workId generation now
      return (db, .work work)
  | .terminalRetry scope workId generation limits newWork now => do
      let (db, work) ← terminalRetry env db scope workId generation limits newWork now
      return (db, .work work)

def step (op : Op) : Db :=
  Run.commit db ((perform env db op).map Prod.fst)

/-- The database after a list of operations: any interleaving of any callers. -/
abbrev run (env : Env) (db : Db) (ops : List Op) : Db := Run.run (step env) db ops

end Renga.Reconciliation
