import Renga.Lib.KeyTable
import Renga.Lib.Run
import Renga.Jobs.Schema

/-!
# The database the job context works on

A transaction is a function from `Db` into `Except Error`: `.error` is a rolled back
transaction, with the reason the context gives or the constraint PostgreSQL raised.  Every
operation takes the row locks it needs before it reads what it decides on, so transactions
are modelled as if they ran one after the other.
-/

namespace Renga.Jobs

open Except

/-! ### Environment -/

abbrev Binary := List UInt8

inductive AgentStatus where
  | active
  | disabled
  deriving DecidableEq

structure Agent where
  id : Uuid
  organizationId : Uuid
  installationId : String
  status : AgentStatus := .active
  sourceId : Option Uuid := none
  capabilities : List String := []
  lastContactedAt : Option Time := none
  deriving DecidableEq

/-- `Renga.Jobs.Capability`, one registered capability module.  The changesets
return the cast map or the errors that refuse it. -/
structure Capability where
  name : String
  version : ℤ
  riskClass : RiskClass
  retryClass : RetryClass
  timeoutMs : ℤ
  outputLimitBytes : ℤ := 64 * 1024
  requiredPermissions : List String := ["jobs.request"]
  allowedByDefault? : Bool := true
  parametersChangeset : Payload → Except String Payload
  resultChangeset : Payload → Except String Payload
  authorize : Scope → Agent → Payload → Except String Unit := fun _ _ _ => .ok ()

def Capability.key (capability : Capability) : String :=
  capability.name ++ "@" ++ toString capability.version

structure Env where
  /-- `Registry.all/0`. -/
  registry : List Capability
  /-- `Jobs.hash_token/1`. -/
  hashToken : Token → Digest
  /-- `String.slice(string, 0, length)`, which counts graphemes. -/
  slice : String → ℕ → String
  /-- It keeps the front of a text, and all of one that has no more characters. -/
  sliced : ∀ text length, (slice text length).toList <+: text.toList ∧
    (text.length ≤ length → slice text length = text)
  /-- `stringify/1`: the map as it reads back from JSONB. -/
  stringify : Payload → Payload
  /-- `:crypto.verify/5` with a public key, a message and a signature. -/
  verify : Binary → List Char → Binary → Bool
  /-- `InstallationKey.fingerprint/1`. -/
  fingerprint : Binary → String

/-- A `slice` that cuts nothing. -/
theorem sliced_whole (text : String) (length : ℕ) :
    text.toList <+: text.toList ∧ (text.length ≤ length → text = text) :=
  ⟨List.prefix_rfl, fun _ => rfl⟩

def Env.fetch (env : Env) (key : String) : Option Capability :=
  env.registry.find? fun capability => decide (capability.key = key)

def Env.defaultAllowedKeys (env : Env) : List String :=
  (env.registry.filter (·.allowedByDefault?)).map Capability.key

def allowedCapabilities (env : Env) (organization : Organization) : List String :=
  organization.allowedCapabilities.getD env.defaultAllowedKeys

/-! ### Installation keys and target bindings -/

inductive KeyStatus where
  | pending
  | approved
  | replaced
  deriving DecidableEq

structure InstallationKey where
  id : Uuid
  organizationId : Uuid
  agentId : Uuid
  algorithm : String
  publicKey : Binary
  fingerprint : String
  status : KeyStatus := .pending
  deriving DecidableEq

inductive BindingStatus where
  | active
  | revoked
  deriving DecidableEq

inductive RevokedReason where
  | replaced
  | revoked
  | keyReplaced
  deriving DecidableEq

structure TargetBinding where
  id : Uuid
  organizationId : Uuid
  resourceId : Uuid
  agentId : Uuid
  installationKeyId : Uuid
  version : ℤ
  status : BindingStatus := .active
  revokedAt : Option Time := none
  revokedReason : Option RevokedReason := none
  deriving DecidableEq

/-- A row of `resource_identifier_claims`: the source reports on the resource. -/
structure ResourceIdentifierClaim where
  organizationId : Uuid
  resourceId : Uuid
  sourceId : Uuid
  deriving DecidableEq

structure Db where
  organizations : KeyTable Uuid Organization Organization.id := .empty
  agents : KeyTable Uuid Agent Agent.id := .empty
  resources : List (Uuid × Uuid) := []
  claims : List ResourceIdentifierClaim := []
  installationKeys : KeyTable Uuid InstallationKey InstallationKey.id := .empty
  targetBindings : KeyTable Uuid TargetBinding TargetBinding.id := .empty
  jobs : KeyTable Uuid Job Job.id := .empty
  jobEvents : List JobEvent := []

/-! ### Errors -/

inductive Reason where
  | notFound
  | forbidden
  | unknownCapability
  | capabilityNotAllowed
  | agentNotFound
  | agentDisabled
  | agentNotRegistered
  | intakeCredentialChanged
  | capabilityNotAdvertised
  | resourceNotFound
  | agentNotForResource
  | invalidParameters (errors : String)
  | invalidDeadline
  | capability (reason : String)
  | targetNotBound
  | installationKeyNotApproved
  | invalidIdempotencyKey
  | idempotencyConflict
  | resourceCollectionOpen
  | rateLimited
  | noAgents
  | batchTooLarge
  | notCancellable
  | invalidReport
  | leaseNotHeld
  | sequenceConflict
  | staleSequence
  | invalidResult
  | resultErrors (errors : String)
  | invalidFailure
  | invalidTransition
  | outputLimitExceeded
  | notUncertain
  | eventPayloadTooLarge
  | offerInvalid
  | signatureInvalid
  | bindingChanged
  | keyChanged
  | purging
  deriving DecidableEq

inductive Error where
  /-- The context rolled back. -/
  | rollback (reason : Reason)
  /-- A CHECK constraint of `jobs` refused the row. -/
  | checkViolation (constraint : JobsConstraint)
  /-- `jobs_imported_immutable`, raised by the trigger on imported jobs. -/
  | importedImmutable
  /-- `failure_reason` is a `varchar(255)`. -/
  | valueTooLong
  /-- A CHECK constraint of `job_events` refused an event. -/
  | eventViolation
  /-- A unique index refused a row. -/
  | uniqueViolation
  /-- A match in the context's own code failed. -/
  | matchError
  deriving DecidableEq

abbrev ensure (condition : Bool) (reason : Reason) : Except Error PUnit :=
  require condition (.rollback reason)

/-! ### Reading -/

namespace Db

variable (db : Db) (organizationId : Uuid)

def eventsOf (jobId : Uuid) : List JobEvent :=
  db.jobEvents.filter fun event => decide (event.jobId = jobId)

def lockActiveOrganization! : Except Error Organization := do
  let organization ← ofOption (db.organizations.get? organizationId) (.rollback .forbidden)
  ensure (decide (organization.status = .active)) .forbidden
  return organization

/-- `Inventory.with_intake_agent/4` up to its operation: the organization is active
and the installation is one of its active agents. -/
def intakeAgent! (installationId : String) : Except Error Agent := do
  let organization ← ofOption (db.organizations.get? organizationId) .matchError
  ensure (decide (organization.status = .active)) .intakeCredentialChanged
  let agent ← ofOption
    (db.agents.rows.find? fun agent => decide (agent.organizationId = organizationId) &&
      decide (agent.installationId = installationId)) (.rollback .agentNotRegistered)
  ensure (decide (agent.status = .active)) .agentDisabled
  return agent

def lockJob! (jobId : Uuid) : Except Error Job := do
  let job ← ofOption (db.jobs.get? jobId) (.rollback .notFound)
  ensure (decide (job.organizationId = organizationId) && job.importedAt.isNone) .notFound
  return job

/-- `authorize_member!/2`: the membership is rechecked inside the transaction, and
the organization must be active. -/
def authorizeMember! (scope : Scope) (permission : String) : Except Error PUnit := do
  let _ ← db.lockActiveOrganization! scope.organizationId
  ensure (scope.holds permission) .forbidden

def authorizeAll! (db : Db) (scope : Scope) : List String → Except Error PUnit
  | [] => .ok ⟨⟩
  | permission :: permissions => do
      db.authorizeMember! scope permission
      db.authorizeAll! scope permissions

/-! ### Writing -/

def reasonFits (job : Job) : Bool :=
  job.failureReason.all fun reason => decide (reason.length ≤ 255)

def updateJob (old new : Job) : Except Error Db := do
  require (reasonFits new) .valueTooLong
  require (!Job.rejectImportedJobUpdate old new) .importedImmutable
  match new.violation with
  | some constraint => .error (.checkViolation constraint)
  | none => .ok { db with jobs := db.jobs.put new }

/-- `Repo.insert!/1` of a job row under a fresh id: the CHECK constraints and the
unique index on idempotency keys. -/
def insertJob (job : Job) : Except Error Db := do
  require (reasonFits job) .valueTooLong
  match fresh : db.jobs.get? job.id, job.violation with
  | some _, _ => .error .uniqueViolation
  | none, some constraint => .error (.checkViolation constraint)
  | none, none =>
    if job.idempotencyKey.isSome && db.jobs.rows.any fun other =>
        decide (other.organizationId = job.organizationId) &&
          decide (other.idempotencyKey = job.idempotencyKey) then
      .error .uniqueViolation
    else .ok { db with jobs := db.jobs.add job fresh }

def insertEvents (db : Db) : List JobEvent → Except Error Db
  | [] => .ok db
  | event :: entries =>
    if !event.valid then .error .eventViolation
    else if db.jobEvents.any event.clashes then .error .uniqueViolation
    else insertEvents { db with jobEvents := db.jobEvents ++ [event] } entries

end Db

/-- The entries `apply!/4` builds: the events numbered from `sequence` on. -/
def entries (job : Job) (attempt : ℤ) (now : Time) : ℤ → List EventParts → List JobEvent
  | _, [] => []
  | sequence, parts :: events =>
    { organizationId := job.organizationId
      jobId := job.id
      sequence
      attempt
      type := parts.type
      actor := parts.actor
      payload := parts.payload
      reportSequence := parts.reportSequence
      insertedAt := now } :: entries job attempt now (sequence + 1) events

/-- `Map.put(changes, :last_sequence, job.last_sequence + length(entries))`. -/
def numbered (job : Job) (changes : Changes) (events : List EventParts) : Changes :=
  { changes with lastSequence := some (job.lastSequence + events.length) }

/-- `apply!/4`, the only writer of jobs and their events: applies `changes` to a
locked job and appends `events` after its last sequence. -/
def apply! (db : Db) (job : Job) (changes : Changes) (events : List EventParts) (now : Time) :
    Except Error (Db × Job) := do
  let attempt := changes.attempts.getD job.attempts
  let updated := job.change (numbered job changes events)
  let db ← db.updateJob job updated
  let db ← db.insertEvents (entries job attempt now (job.lastSequence + 1) events)
  return (db, updated)

/-! ### What the writers do -/

namespace Db

variable {db : Db}

theorem lockActiveOrganization!_eq_ok_iff {organizationId : Uuid} {organization : Organization} :
    db.lockActiveOrganization! organizationId = .ok organization ↔
      db.organizations.get? organizationId = some organization ∧ organization.status = .active := by
  simp only [lockActiveOrganization!, bind_eq_ok_iff, ofOption_eq_ok_iff,
    require_eq_ok_iff, pure_eq_ok_iff, decide_eq_true_eq]
  constructor
  · rintro ⟨_, found, _, active, rfl⟩
    exact ⟨found, active⟩
  rintro ⟨found, active⟩
  exact ⟨organization, found, ⟨⟩, active, rfl⟩

variable {job : Job}

theorem lockJob!_eq_ok_iff {organizationId jobId : Uuid} :
    db.lockJob! organizationId jobId = .ok job ↔
      db.jobs.get? jobId = some job ∧ job.organizationId = organizationId ∧
        job.importedAt = none := by
  simp only [lockJob!, bind_eq_ok_iff, ofOption_eq_ok_iff,
    require_eq_ok_iff, pure_eq_ok_iff, Bool.and_eq_true, decide_eq_true_eq,
    Option.isNone_iff_eq_none]
  constructor
  · rintro ⟨_, found, _, ⟨own, native⟩, rfl⟩
    exact ⟨found, own, native⟩
  rintro ⟨found, own, native⟩
  exact ⟨job, found, ⟨⟩, ⟨own, native⟩, rfl⟩

variable {db' : Db} {old new : Job}

theorem updateJob_eq_ok_iff : db.updateJob old new = .ok db' ↔
      reasonFits new = true ∧ Job.rejectImportedJobUpdate old new = false ∧ new.Checked ∧
        db' = { db with jobs := db.jobs.put new } := by
  simp only [updateJob, bind_eq_ok_iff, require_eq_ok_iff, Bool.not_eq_true',
    ← Job.violation_eq_none_iff]
  cases h : new.violation with
  | none =>
    simp only [ok.injEq, exists_const, true_and]
    tauto
  | some => simp

variable {e : Error}

theorem updateJob_eq_error (h : db.updateJob old new = .error e) :
    e = .valueTooLong ∨ (e = .importedImmutable ∧ Job.rejectImportedJobUpdate old new = true) ∨
      ∃ c, e = .checkViolation c ∧ Job.rejectImportedJobUpdate old new = false ∧ ¬ c.Holds new := by
  simp only [updateJob, bind_eq_error_iff, require_eq_error_iff,
    require_eq_ok_iff, Bool.not_eq_false', Bool.not_eq_true'] at h
  rcases h with ⟨_, rfl⟩ | ⟨_, _, ⟨rejected, rfl⟩ | ⟨_, passed, h⟩⟩
  · exact .inl rfl
  · exact .inr (.inl ⟨rfl, rejected⟩)
  cases violated : new.violation with
  | none => simp [violated] at h
  | some c =>
    simp only [violated, error.injEq] at h
    refine .inr (.inr ⟨c, h.symm, passed, ?_⟩)
    simpa using List.find?_some violated

variable {events : List JobEvent}

theorem insertEvents_eq_ok (h : db.insertEvents events = .ok db') :
    db' = { db with jobEvents := db.jobEvents ++ events } := by
  induction events generalizing db with
  | nil =>
    simp only [insertEvents, ok.injEq] at h
    simp [← h]
  | cons _ _ ih =>
    rw [insertEvents] at h
    split at h
    · cases h
    split at h
    · cases h
    simpa using ih h

theorem insertEvents_eq_error (h : db.insertEvents events = .error e) :
    e = .eventViolation ∨ e = .uniqueViolation := by
  induction events generalizing db with
  | nil => cases h
  | cons _ _ ih =>
    rw [insertEvents] at h
    split at h
    · exact .inl (error.inj h).symm
    split at h
    · exact .inr (error.inj h).symm
    · exact ih h

theorem insertJob_eq_ok (h : db.insertJob job = .ok db') : ∃ fresh : db.jobs.get? job.id = none,
      job.Checked ∧ reasonFits job = true ∧ db' = { db with jobs := db.jobs.add job fresh } := by
  obtain ⟨_, fits, h⟩ := bind_eq_ok_iff.1 h
  split at h
  · cases h
  · cases h
  rename_i fresh valid
  split at h
  · cases h
  exact ⟨fresh, (job.violation_eq_none_iff).1 valid, require_eq_ok_iff.1 fits, (ok.inj h).symm⟩

theorem insertJob_eq_error (h : db.insertJob job = .error e) :
    e = .valueTooLong ∨ e = .uniqueViolation ∨ ∃ c, e = .checkViolation c ∧ ¬ c.Holds job := by
  rcases bind_eq_error_iff.1 h with h | ⟨_, _, h⟩
  · exact .inl (require_eq_error_iff.1 h).2.symm
  right
  split at h
  · exact .inl (error.inj h).symm
  · rename_i c _ violated
    refine .inr ⟨c, (error.inj h).symm, ?_⟩
    simpa using List.find?_some violated
  split at h
  · exact .inl (error.inj h).symm
  · cases h

end Db

variable {db : Db} {job : Job} {changes : Changes} {events : List EventParts} {now : Time}
  {db' : Db} {job' : Job}

theorem apply!_eq_ok (h : apply! db job changes events now = .ok (db', job')) :
    job' = job.change (numbered job changes events) ∧ job'.Checked ∧
      Job.rejectImportedJobUpdate job job' = false ∧
      db' = { db with
        jobs := db.jobs.put job'
        jobEvents := db.jobEvents ++
          entries job (changes.attempts.getD job.attempts) now (job.lastSequence + 1) events } := by
  simp only [apply!, bind_eq_ok_iff] at h
  obtain ⟨_, updated, _, inserted, h⟩ := h
  cases h
  obtain ⟨_, native, checked, rfl⟩ := Db.updateJob_eq_ok_iff.1 updated
  exact ⟨rfl, checked, native, Db.insertEvents_eq_ok inserted⟩

theorem apply!_fits (h : apply! db job changes events now = .ok (db', job')) :
    Db.reasonFits job' = true := by
  simp only [apply!, bind_eq_ok_iff] at h
  obtain ⟨_, updated, _, _, h⟩ := h
  cases h
  exact (Db.updateJob_eq_ok_iff.1 updated).1

theorem apply!_eq_error {e : Error} (h : apply! db job changes events now = .error e) :
    e = .valueTooLong ∨ e = .eventViolation ∨ e = .uniqueViolation ∨ (e = .importedImmutable ∧
        Job.rejectImportedJobUpdate job (job.change (numbered job changes events)) = true) ∨
      ∃ c, e = .checkViolation c ∧
        Job.rejectImportedJobUpdate job (job.change (numbered job changes events)) = false ∧
        ¬ c.Holds (job.change (numbered job changes events)) := by
  simp only [apply!, bind_eq_error_iff] at h
  rcases h with h | ⟨_, _, h | ⟨_, _, h⟩⟩
  · rcases Db.updateJob_eq_error h with h | h | h
    · exact .inl h
    · exact .inr (.inr (.inr (.inl h)))
    · exact .inr (.inr (.inr (.inr h)))
  · rcases Db.insertEvents_eq_error h with h | h
    · exact .inr (.inl h)
    · exact .inr (.inr (.inl h))
  · cases h

/-! ### Numbered entries -/

variable {attempt sequence : ℤ}

theorem mem_entries {event : JobEvent} (member : event ∈ entries job attempt now sequence events) :
    event.jobId = job.id ∧ event.attempt = attempt ∧ event.insertedAt = now ∧
      ∃ parts ∈ events, event.type = parts.type ∧ event.actor = parts.actor ∧
        event.payload = parts.payload ∧ event.reportSequence = parts.reportSequence := by
  induction events generalizing sequence with
  | nil => cases member
  | cons parts _ ih =>
    rcases List.mem_cons.1 member with rfl | later
    · exact ⟨rfl, rfl, rfl, parts, List.mem_cons_self, rfl, rfl, rfl, rfl⟩
    obtain ⟨own, same, at_, p, found, facts⟩ := ih later
    exact ⟨own, same, at_, p, List.mem_cons_of_mem _ found, facts⟩

@[simp] theorem length_entries :
    (entries job attempt now sequence events).length = events.length := by
  induction events generalizing sequence with
  | nil => rfl
  | cons _ _ ih => simp [entries, ih]

end Renga.Jobs
