import Renga.Jobs.Db

/-!
# Cancelling, leasing, sweeping and resolving jobs

The transitions of `Renga.Jobs` that are not an agent's report.  `SKIP LOCKED` leaves out
the rows another transaction holds; the operations that use it take that set as the argument
`skipped`.  Fresh lease tokens are an argument `newToken` that gives the token drawn for
each job.
-/

namespace Renga.Jobs

def leaseExpiry (now : Time) : Time := now + seconds 60

/-- `Enum.each`, `Enum.map` and `Enum.flat_map` over locked rows, inside one
transaction. -/
def forEachJob {α : Type} (f : Db → Job → Except Error (Db × α)) :
    Db → List Job → Except Error (Db × List α)
  | db, [] => .ok (db, [])
  | db, job :: jobs => do
      let (db, a) ← f db job
      let (db, rest) ← forEachJob f db jobs
      return (db, a :: rest)

variable (env : Env) (db : Db) (organizationId : Uuid) (scope : Scope) (job : Job)

def requestingUser : Except Error Actor :=
  match scope.userId, scope.membershipId with
  | some userId, some _ => .ok (.user userId)
  | _, _ => .error (.rollback .forbidden)

/-- `authorize_for_job!/2`: cancelling or resolving a job needs what requesting it
needed. -/
def authorizeForJob! (jobId : Uuid) : Except Error PUnit :=
  let permissions :=
    match db.jobs.get? jobId with
    | some job =>
      if job.organizationId = scope.organizationId then
        ((env.fetch job.capabilityKey).map (·.requiredPermissions)).getD ["jobs.request"]
      else ["jobs.request"]
    | none => ["jobs.request"]
  db.authorizeAll! scope permissions

/-! ### Cancelling -/

def cancel! (actor : Actor) (now : Time) : Except Error (Db × Job) :=
  match job.state, job.cancelRequestedAt with
  | .queued, _ =>
    apply! db job { state := some .cancelled, finishedAt := some (some now) }
      [{ type := .cancelled, actor }] now
  | _, none =>
    if job.state ∈ leasedStates then
      apply! db job { cancelRequestedAt := some (some now) }
        [{ type := .cancelRequested, actor }] now
    else .error (.rollback .notCancellable)
  -- Already requested: asking again records nothing new.
  | _, some _ =>
    if job.state ∈ leasedStates then .ok (db, job) else .error (.rollback .notCancellable)

def cancelJob (jobId : Uuid) (now : Time) : Except Error (Db × Job) := do
  let actor ← requestingUser scope
  authorizeForJob! env db scope jobId
  let job ← db.lockJob! scope.organizationId jobId
  cancel! db job actor now

/-- The rows `suspend_organization!/1` locks: the organization's queued, leased and
running jobs, in the order of their ids. -/
def suspendedJobs : List Job :=
  (db.jobs.rows.filter fun job =>
    decide (job.organizationId = organizationId) &&
      (decide (job.state = .queued) || decide (job.state ∈ leasedStates))).insertionSort
    fun a b => a.id ≤ b.id

def suspendJob! (now : Time) (db : Db) (job : Job) : Except Error (Db × Job) :=
  if job.state = .queued then cancel! db job .system now
  else
    apply! db job
      { cancelRequestedAt := some (some (job.cancelRequestedAt.getD now))
        leaseExpiresAt := some (some now) }
      [{ type := .cancelRequested
         actor := .system
         payload := [("reason", .string "organization_suspended")] }] now

def suspendOrganization! (now : Time) : Except Error (Db × List Job) :=
  forEachJob (suspendJob! now) db (suspendedJobs db organizationId)

/-! ### Leasing -/

/-- `leasable_jobs/5` before its limit: the agent's queued jobs among `keys`, oldest
first. -/
def leasableJobs (agent : Agent) (keys : List String) (now : Time) : List Job :=
  (db.jobs.rows.filter fun job =>
    decide (job.organizationId = organizationId) && decide (job.agentId = agent.id) &&
      (decide (job.state = .queued) && decide (now < job.notAfter)) &&
      job.importedAt.isNone && decide (job.capabilityKey ∈ keys)).insertionSort
    fun a b => a.insertedAt < b.insertedAt ∨ (a.insertedAt = b.insertedAt ∧ a.id ≤ b.id)

def refuse! (reason : String) (now : Time) : Except Error (Db × Job) :=
  apply! db job
    { state := some .failed, failureReason := some (some reason), finishedAt := some (some now) }
    [{ type := .failed, actor := .system, payload := [("reason", .string reason)] }] now

def leaseChanges (token : Token) (now : Time) : Changes :=
  { state := some .leased
    attempts := some (job.attempts + 1)
    leaseTokenHash := some (some (env.hashToken token))
    reportTokenHash := some (some (env.hashToken token))
    leasedAt := some (some now)
    leaseExpiresAt := some (some (leaseExpiry now))
    startedAt := some none }

def leaseWithToken! (agent : Agent) (token : Token) (now : Time) :
    Except Error (Db × Job × Token) := do
  let (db, job) ← apply! db job (leaseChanges env job token now)
    [{ type := .leased, actor := .agent agent.id }] now
  return (db, job, token)

def leaseOrRefuse! (agent : Agent) (allowed : List String) (newToken : Uuid → Token) (now : Time)
    (db : Db) (job : Job) : Except Error (Db × Option (Job × Token)) :=
  if job.capabilityKey ∈ allowed then do
    let (db, leased) ← leaseWithToken! env db job agent (newToken job.id) now
    return (db, some leased)
  else do
    let (db, _) ← refuse! db job "capability_not_allowed" now
    return (db, none)

def leaseJobs (agent : Agent) (keys : List String) (limit : ℕ) (newToken : Uuid → Token)
    (skipped : Uuid → Bool) (now : Time) : Except Error (Db × List (Option (Job × Token))) := do
  ensure (decide (agent.organizationId = organizationId)) .forbidden
  let organization ← db.lockActiveOrganization! organizationId
  let allowed := allowedCapabilities env organization
  let jobs := ((leasableJobs db organizationId agent keys now).filter fun job =>
    decide (job.riskClass = .observe) && !skipped job.id).take limit
  forEachJob (leaseOrRefuse! env agent allowed newToken now) db jobs

def queuedForBinding (bindingId : Uuid) : List Job :=
  db.jobs.rows.filter fun job =>
    decide (job.organizationId = organizationId) &&
      (decide (job.targetBindingId = some bindingId) && decide (job.state = .queued)) &&
      job.importedAt.isNone

def failQueuedForBinding! (bindingId : Uuid) (reason : String) (now : Time) :
    Except Error (Db × List Job) :=
  forEachJob (fun db job => refuse! db job reason now) db
    (queuedForBinding db organizationId bindingId)

/-! ### Sweeping -/

/-- What a sweep looks for: a lapsed lease or a passed deadline. -/
inductive SweepKind where
  | lease
  | deadline
  deriving DecidableEq

/-- `sweep_condition/3`; the queries of `sweep/1` ask for the same. -/
def sweepCondition (kind : SweepKind) (now : Time) (job : Job) : Bool :=
  (match kind with
    | .lease =>
      decide (job.state ∈ leasedStates) && job.leaseExpiresAt.any fun t => decide (t ≤ now)
    | .deadline => decide (job.state = .queued) && decide (job.notAfter ≤ now)) &&
    job.importedAt.isNone

def expire! (now : Time) : Except Error (Db × Job) :=
  apply! db job { state := some .expired, finishedAt := some (some now) }
    [{ type := .expired
       actor := .system
       payload := [("reason", .string "not_leased_before_deadline")] }] now

def lapseNext (now : Time) : JobState :=
  if job.state = .running ∧ job.retryClass = .imperative then .uncertain
  else if job.cancelRequestedAt.isSome then .cancelled
  else if job.attempts < job.maxAttempts ∧ now < job.notAfter then .queued
  else .expired

def JobState.text : JobState → String
  | .queued => "queued"
  | .leased => "leased"
  | .running => "running"
  | .succeeded => "succeeded"
  | .failed => "failed"
  | .cancelled => "cancelled"
  | .expired => "expired"
  | .uncertain => "uncertain"

/-- The events that follow `lease_lost`, by the state `lapse_lease/2` moves to. -/
def lapseFinalEvents : JobState → List EventParts
  | .uncertain => [{ type := .uncertain, actor := .system }]
  | .cancelled => [{ type := .cancelled, actor := .system }]
  | .expired =>
    [{ type := .expired, actor := .system, payload := [("reason", .string "lease_lost")] }]
  | _ => []

def lapseChanges (next : JobState) (now : Time) : Changes :=
  { state := some next
    leaseTokenHash := some none
    reportTokenHash := some none
    leasedAt := some none
    leaseExpiresAt := some none
    startedAt := if next = .queued then some none else none
    finishedAt := if next ∈ finishedStates then some (some now) else none }

def lapseEvents (next : JobState) : List EventParts :=
  { type := .leaseLost, actor := .system, payload := [("next_state", .string next.text)] } ::
    lapseFinalEvents next

def lapseLease (now : Time) : Except Error (Db × Job) :=
  let next := lapseNext job now
  apply! db job (lapseChanges next now) (lapseEvents next) now

def move! (kind : SweepKind) (now : Time) : Except Error (Db × Job) :=
  match kind with
  | .lease => lapseLease db job now
  | .deadline => expire! db job now

/-- The transaction of `sweep_one/3`.  The row is read again under its lock; a job
that no longer meets the condition, or that another transaction holds, is left. -/
def sweepOne (jobId : Uuid) (now : Time) (kind : SweepKind) (skipped : Uuid → Bool) :
    Except Error (Db × Option Job) :=
  match db.jobs.get? jobId with
  | none => .ok (db, none)
  | some job =>
    if job.organizationId = organizationId ∧ sweepCondition kind now job = true ∧
        skipped jobId = false then do
      let (db, job) ← move! db job kind now
      return (db, some job)
    else .ok (db, none)

def sweepIds (kind : SweepKind) (now : Time) : List (Uuid × Uuid) :=
  (((db.jobs.rows.filter (sweepCondition kind now)).insertionSort fun a b => a.id ≤ b.id).take
    500).map fun job => (job.organizationId, job.id)

/-! ### Resolving -/

inductive Outcome where
  | succeeded
  | failed
  deriving DecidableEq

def Outcome.state : Outcome → JobState
  | .succeeded => .succeeded
  | .failed => .failed

def putField (payload : Payload) (key : String) (value : Json) : Payload :=
  payload.filter (fun field => decide (field.1 ≠ key)) ++ [(key, value)]

theorem get?_putField {payload : Payload} {key : String} {value : Json} :
    Json.get? (putField payload key value) key = some value := by
  have none_ : (payload.filter fun field => decide (field.1 ≠ key)).find?
      (fun field => field.1 == key) = none := by
    rw [List.find?_eq_none]
    intro _ member
    simpa using (List.mem_filter.1 member).2
  rw [Json.get?, putField, List.find?_append, none_]
  simp

def resolveChanges (outcome : Outcome) (now : Time) : Changes :=
  { state := some outcome.state
    finishedAt := some (some now)
    failureReason :=
      match outcome with
      | .failed => some (some "resolved_failed")
      | .succeeded => none }

def resolve! (jobId : Uuid) (actor : Actor) (outcome : Outcome) (payload : Payload) (now : Time) :
    Except Error (Db × Job) := do
  let job ← db.lockJob! organizationId jobId
  ensure (decide (job.state = .uncertain)) .notUncertain
  let payload := putField payload "outcome" (.string outcome.state.text)
  ensure (decide (payloadBytes payload ≤ maxEventPayloadBytes)) .eventPayloadTooLarge
  apply! db job (resolveChanges outcome now) [{ type := .resolved, actor, payload }] now

/-- `note_payload/1`, with `@max_note_length` graphemes of the note. -/
def notePayload : Option String → Payload
  | some note => if note = "" then [] else [("note", .string (env.slice note 1000))]
  | none => []

def resolveJob (jobId : Uuid) (outcome : Outcome) (note : Option String) (now : Time) :
    Except Error (Db × Job) := do
  let actor ← requestingUser scope
  authorizeForJob! env db scope jobId
  resolve! db scope.organizationId jobId actor outcome (notePayload env note) now

def reconcileJob (jobId : Uuid) (outcome : Outcome) (details : Payload) (now : Time) :
    Except Error (Db × Job) := do
  let _ ← db.lockActiveOrganization! organizationId
  resolve! db organizationId jobId .system outcome (env.stringify details) now

end Renga.Jobs
