import Renga.Json
import Renga.Organizations

/-!
# The `jobs` and `job_events` tables

One capability run requested of one agent (`Renga.Jobs.Job`), its append-only history
(`Renga.Jobs.JobEvent`) and what PostgreSQL enforces about both.
-/

namespace Renga.Jobs

abbrev Token := String

abbrev Digest := String

inductive RiskClass where
  | observe
  | operate
  | interactive
  deriving DecidableEq

/-- How safe running a job again is after a lost lease. -/
inductive RetryClass where
  | idempotent
  | convergent
  | imperative
  deriving DecidableEq

inductive JobState where
  | queued
  | leased
  | running
  | succeeded
  | failed
  | cancelled
  | expired
  | uncertain
  deriving DecidableEq

def finishedStates : List JobState := [.succeeded, .failed, .cancelled, .expired]

def leasedStates : List JobState := [.leased, .running]

def openStates : List JobState := [.queued, .leased, .running]

inductive RequesterType where
  | user
  | system
  deriving DecidableEq

structure Job where
  id : Uuid
  organizationId : Uuid
  agentId : Uuid
  batchId : Option Uuid := none
  resourceId : Option Uuid := none
  capability : String
  capabilityVersion : ℤ
  riskClass : RiskClass
  retryClass : RetryClass
  parameters : Payload := []
  requestedByType : RequesterType
  requestedByUserId : Option Uuid := none
  idempotencyKey : Option String := none
  state : JobState
  attempts : ℤ := 0
  maxAttempts : ℤ
  notAfter : Time
  leaseTokenHash : Option Digest := none
  reportTokenHash : Option Digest := none
  leasedAt : Option Time := none
  leaseExpiresAt : Option Time := none
  startedAt : Option Time := none
  cancelRequestedAt : Option Time := none
  finishedAt : Option Time := none
  result : Option Payload := none
  failureReason : Option String := none
  outputBytes : ℤ := 0
  outputLimitBytes : ℤ
  timeoutMs : ℤ
  lastSequence : ℤ := 0
  targetBindingId : Option Uuid := none
  targetBindingVersion : Option ℤ := none
  offerTokenHash : Option Digest := none
  offerNonce : Option Token := none
  offerExpiresAt : Option Time := none
  importedAt : Option Time := none
  insertedAt : Time
  deriving DecidableEq

namespace Job

def capabilityKey (job : Job) : String := job.capability ++ "@" ++ toString job.capabilityVersion

end Job

/-- The map of column changes handed to `apply!/4`: a present key holds the new
value of its column. -/
structure Changes where
  state : Option JobState := none
  attempts : Option ℤ := none
  leaseTokenHash : Option (Option Digest) := none
  reportTokenHash : Option (Option Digest) := none
  leasedAt : Option (Option Time) := none
  leaseExpiresAt : Option (Option Time) := none
  startedAt : Option (Option Time) := none
  cancelRequestedAt : Option (Option Time) := none
  finishedAt : Option (Option Time) := none
  result : Option (Option Payload) := none
  failureReason : Option (Option String) := none
  outputBytes : Option ℤ := none
  lastSequence : Option ℤ := none
  offerTokenHash : Option (Option Digest) := none
  offerNonce : Option (Option Token) := none
  offerExpiresAt : Option (Option Time) := none

/-- `Ecto.Changeset.change/2`: the row with the present keys applied. -/
@[simps]
def Job.change (job : Job) (changes : Changes) : Job :=
  { job with
    state := changes.state.getD job.state
    attempts := changes.attempts.getD job.attempts
    leaseTokenHash := changes.leaseTokenHash.getD job.leaseTokenHash
    reportTokenHash := changes.reportTokenHash.getD job.reportTokenHash
    leasedAt := changes.leasedAt.getD job.leasedAt
    leaseExpiresAt := changes.leaseExpiresAt.getD job.leaseExpiresAt
    startedAt := changes.startedAt.getD job.startedAt
    cancelRequestedAt := changes.cancelRequestedAt.getD job.cancelRequestedAt
    finishedAt := changes.finishedAt.getD job.finishedAt
    result := changes.result.getD job.result
    failureReason := changes.failureReason.getD job.failureReason
    outputBytes := changes.outputBytes.getD job.outputBytes
    lastSequence := changes.lastSequence.getD job.lastSequence
    offerTokenHash := changes.offerTokenHash.getD job.offerTokenHash
    offerNonce := changes.offerNonce.getD job.offerNonce
    offerExpiresAt := changes.offerExpiresAt.getD job.offerExpiresAt }

/-! ### CHECK constraints of `jobs` -/

/-- The CHECK constraints of `jobs` that the column types do not already
enforce. -/
inductive JobsConstraint where
  | finishedShape
  | leaseShape
  | privilegedBinding
  | startedShape
  | uncertainOnlyImperative
  | validAttempts
  | validCapability
  | validLimits
  | validRequester
  deriving DecidableEq

namespace JobsConstraint

def Holds : JobsConstraint → Job → Prop
  | .finishedShape, job => job.state ∈ finishedStates ↔ job.finishedAt.isSome
  | .leaseShape, job =>
    job.state ∈ leasedStates ↔
      job.leaseTokenHash.isSome ∧ job.leasedAt.isSome ∧ job.leaseExpiresAt.isSome
  | .privilegedBinding, job =>
    (job.riskClass = .observe ↔ job.targetBindingVersion = none) ∧
      (job.offerTokenHash = none ↔ job.offerNonce = none) ∧
      (job.offerTokenHash = none ↔ job.offerExpiresAt = none)
  | .startedShape, job => job.state ≠ .running ∨ job.startedAt.isSome
  | .uncertainOnlyImperative, job => job.state ≠ .uncertain ∨ job.retryClass = .imperative
  | .validAttempts, job => 1 ≤ job.maxAttempts ∧ 0 ≤ job.attempts ∧ job.attempts ≤ job.maxAttempts
  | .validCapability, job =>
    job.capability ≠ "" ∧ 0 < job.capabilityVersion ∧ job.idempotencyKey ≠ some ""
  | .validLimits, job =>
    0 < job.timeoutMs ∧ 0 < job.outputLimitBytes ∧
      (0 ≤ job.outputBytes ∧ job.outputBytes ≤ job.outputLimitBytes) ∧ 0 ≤ job.lastSequence
  | .validRequester, job => job.requestedByType = .user ∨ job.requestedByUserId = none

instance decidableHolds : (c : JobsConstraint) → (job : Job) → Decidable (c.Holds job)
  | .finishedShape, job =>
    inferInstanceAs (Decidable (job.state ∈ finishedStates ↔ job.finishedAt.isSome))
  | .leaseShape, job =>
    inferInstanceAs (Decidable (job.state ∈ leasedStates ↔
      job.leaseTokenHash.isSome ∧ job.leasedAt.isSome ∧ job.leaseExpiresAt.isSome))
  | .privilegedBinding, job =>
    inferInstanceAs (Decidable ((job.riskClass = .observe ↔ job.targetBindingVersion = none) ∧
      (job.offerTokenHash = none ↔ job.offerNonce = none) ∧
      (job.offerTokenHash = none ↔ job.offerExpiresAt = none)))
  | .startedShape, job => inferInstanceAs (Decidable (job.state ≠ .running ∨ job.startedAt.isSome))
  | .uncertainOnlyImperative, job =>
    inferInstanceAs (Decidable (job.state ≠ .uncertain ∨ job.retryClass = .imperative))
  | .validAttempts, job =>
    inferInstanceAs (Decidable (1 ≤ job.maxAttempts ∧ 0 ≤ job.attempts ∧
      job.attempts ≤ job.maxAttempts))
  | .validCapability, job =>
    inferInstanceAs (Decidable (job.capability ≠ "" ∧ 0 < job.capabilityVersion ∧
      job.idempotencyKey ≠ some ""))
  | .validLimits, job =>
    inferInstanceAs (Decidable (0 < job.timeoutMs ∧ 0 < job.outputLimitBytes ∧
      (0 ≤ job.outputBytes ∧ job.outputBytes ≤ job.outputLimitBytes) ∧ 0 ≤ job.lastSequence))
  | .validRequester, job =>
    inferInstanceAs (Decidable (job.requestedByType = .user ∨ job.requestedByUserId = none))

def all : List JobsConstraint :=
  [.finishedShape, .leaseShape, .privilegedBinding, .startedShape, .uncertainOnlyImperative,
    .validAttempts, .validCapability, .validLimits, .validRequester]

theorem mem_all (c : JobsConstraint) : c ∈ all := by
  cases c <;> decide

end JobsConstraint

namespace Job

def violation (job : Job) : Option JobsConstraint :=
  JobsConstraint.all.find? fun c => decide ¬ c.Holds job

def Checked (job : Job) : Prop := ∀ c : JobsConstraint, c.Holds job

theorem violation_eq_none_iff (job : Job) : job.violation = none ↔ job.Checked := by
  simp only [violation, List.find?_eq_none, decide_eq_true_eq, not_not]
  exact ⟨fun h c => h c c.mem_all, fun h c _ => h c⟩

instance (job : Job) : Decidable job.Checked :=
  decidable_of_iff _ (violation_eq_none_iff job)

/-! ### The trigger on imported jobs -/

/-- The update `reject_imported_job_update` lets through: nothing changes but
`resource_id`, `target_binding_id` and `requested_by_user_id`, and those only to
null. -/
def importedUpdateAllowed (old new : Job) : Bool :=
  decide ({ new with
      resourceId := old.resourceId
      targetBindingId := old.targetBindingId
      requestedByUserId := old.requestedByUserId } = old) &&
    decide (new.resourceId = none ∨ new.resourceId = old.resourceId) &&
    decide (new.targetBindingId = none ∨ new.targetBindingId = old.targetBindingId) &&
    decide (new.requestedByUserId = none ∨ new.requestedByUserId = old.requestedByUserId)

/-- `jobs_reject_imported_update`: the trigger raises on this update. -/
def rejectImportedJobUpdate (old new : Job) : Bool :=
  old.importedAt.isSome && !importedUpdateAllowed old new

end Job

/-! ### Job events -/

inductive EventType where
  | created
  | leased
  | started
  | progress
  | output
  | succeeded
  | failed
  | cancelRequested
  | cancelled
  | leaseLost
  | expired
  | uncertain
  | resolved
  deriving DecidableEq

/-- The report types an agent may post, `@agent_report_types`. -/
inductive ReportType where
  | started
  | progress
  | output
  | succeeded
  | failed
  | cancelled
  deriving DecidableEq

def ReportType.eventType : ReportType → EventType
  | .started => .started
  | .progress => .progress
  | .output => .output
  | .succeeded => .succeeded
  | .failed => .failed
  | .cancelled => .cancelled

def ReportType.isWork : ReportType → Bool
  | .started | .progress | .output => true
  | .succeeded | .failed | .cancelled => false

/-- Who made a change.  `actor_columns/1` spreads this over two columns, which
`job_events_valid_actor` ties together again. -/
inductive Actor where
  | user (id : Uuid)
  | agent (id : Uuid)
  | system
  deriving DecidableEq

structure JobEvent where
  organizationId : Uuid
  jobId : Uuid
  sequence : ℤ
  attempt : ℤ
  type : EventType
  actor : Actor
  payload : Payload := []
  reportSequence : Option ℤ := none
  insertedAt : Time
  deriving DecidableEq

/-- What `apply!/4` is told about an event: `{type, actor, payload}` with the
optional report sequence. -/
structure EventParts where
  type : EventType
  actor : Actor
  payload : Payload := []
  reportSequence : Option ℤ := none

/-- `@max_event_payload_bytes`, also the bound of `job_events_payload_size`. -/
def maxEventPayloadBytes : ℕ := 64 * 1024

def payloadBytes (payload : Payload) : ℕ := Json.octetLength (.object payload)

def JobEvent.valid (event : JobEvent) : Bool :=
  decide (payloadBytes event.payload ≤ maxEventPayloadBytes) &&
    decide (0 < event.sequence) && decide (0 ≤ event.attempt) &&
    (match event.reportSequence, event.actor with
      | none, _ => true
      | some n, .agent _ => decide (0 < n)
      | some _, _ => false)

/-- The unique indexes of `job_events` reject the pair: one job numbers its
events once, and one attempt its reports once. -/
def JobEvent.clashes (event other : JobEvent) : Bool :=
  decide (event.jobId = other.jobId) &&
    (decide (event.sequence = other.sequence) ||
      (event.reportSequence.isSome && decide (event.reportSequence = other.reportSequence) &&
        decide (event.attempt = other.attempt)))

end Renga.Jobs
