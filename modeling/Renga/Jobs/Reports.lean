import Renga.Jobs.Lifecycle

/-!
# Agent reports

`Renga.Jobs.report/7`: an agent reports on a job it holds, proven by the lease token.  A
report may carry the agent's own number for it within the attempt; a report that was
recorded before is answered as a replay, and one numbered at or below a recorded report is
stale.
-/

namespace Renga.Jobs

def terminalReportReserveBytes : ℤ := 1024

def maxReportSequence : ℤ := 2147483647

def maxFailureReasonLength : ℕ := 255

structure Report where
  jobId : Uuid
  token : Token
  type : ReportType
  payload : Payload := []
  sequence : Option ℤ := none

def validReportSequence? : Option ℤ → Bool
  | none => true
  | some sequence => decide (1 ≤ sequence) && decide (sequence ≤ maxReportSequence)

variable (env : Env) (db : Db) (job : Job) (payload : Payload) (agent : Agent)

/-- `delivered_report/3`: the event an earlier delivery of this report produced. -/
def deliveredReport : Option ℤ → Option JobEvent
  | none => none
  | some sequence =>
    (db.eventsOf job.id).find? fun event =>
      decide (event.attempt = job.attempts) && decide (event.actor = .agent agent.id) &&
        decide (event.reportSequence = some sequence)

def staleSequence? : Option ℤ → Bool
  | none => false
  | some sequence =>
    (db.eventsOf job.id).any fun event =>
      decide (event.attempt = job.attempts) &&
        event.reportSequence.any fun recorded => decide (sequence ≤ recorded)

def leaseHeld? (token : Token) (now : Time) : Bool :=
  decide (job.state ∈ leasedStates) && decide (job.agentId = agent.id) &&
    (job.leaseExpiresAt.any fun t => decide (now < t)) &&
    decide (job.leaseTokenHash = some (env.hashToken token))

def reportTokenMatches? (token : Token) : Bool :=
  decide (job.agentId = agent.id) && decide (job.reportTokenHash = some (env.hashToken token))

def finish (changes : Changes) (now : Time) : Changes :=
  { changes with
    finishedAt := some (some now)
    leaseTokenHash := some none
    leasedAt := some none
    leaseExpiresAt := some none }

/-- The result a `succeeded` report carries: a map, empty when it is left out. -/
def resultField! : Except Error Payload :=
  match (Json.get? payload "result").getD (.object []) with
  | .object result => .ok result
  | _ => .error (.rollback .invalidResult)

def succeededChanges! (now : Time) : Except Error (Changes × Payload) := do
  let capability ← Except.ofOption (env.fetch job.capabilityKey) .matchError
  let result ← resultField! payload
  match capability.resultChangeset result with
  | .error errors => .error (.rollback (.resultErrors errors))
  | .ok result =>
    let result := env.stringify result
    .ok (finish { state := some .succeeded, result := some (some result) } now,
      [("result", .object result)])

def failedChanges! (now : Time) : Except Error (Changes × Payload) :=
  match Json.get? payload "reason" with
  | some (.string reason) =>
    if reason = "" then .error (.rollback .invalidFailure)
    else
      let reason := env.slice reason maxFailureReasonLength
      .ok (finish { state := some .failed, failureReason := some (some reason) } now,
        [("reason", .string reason)])
  | _ => .error (.rollback .invalidFailure)

/-- `report_changes!/4`: the row changes of a report and the payload to record. -/
def reportChanges! (type : ReportType) (payload : Payload) (now : Time) :
    Except Error (Changes × Payload) :=
  match type with
  | .started =>
    if job.state = .leased then
      .ok ({ state := some .running, startedAt := some (some now) }, payload)
    else .error (.rollback .invalidTransition)
  | .progress | .output =>
    if job.state = .running then .ok ({}, payload) else .error (.rollback .invalidTransition)
  | .succeeded => succeededChanges! env job payload now
  | .failed => failedChanges! env payload now
  | .cancelled =>
    if job.cancelRequestedAt.isSome then .ok (finish { state := some .cancelled } now, [])
    else .error (.rollback .invalidTransition)

def reportOutputLimit (type : ReportType) : ℤ :=
  if type.isWork then
    job.outputLimitBytes - min terminalReportReserveBytes (job.outputLimitBytes.tdiv 2)
  else job.outputLimitBytes

/-- The output total and the lease extension `record_report!/6` adds to the changes;
`Map.put_new` keeps the expiry a finishing report cleared. -/
def reportedChanges (changes : Changes) (outputBytes : ℤ) (now : Time) : Changes :=
  { changes with
    outputBytes := some outputBytes
    leaseExpiresAt := some (changes.leaseExpiresAt.getD (some (leaseExpiry now))) }

def recordReport! (report : Report) (now : Time) : Except Error (Db × Job) := do
  ensure (leaseHeld? env job agent report.token now) .leaseNotHeld
  ensure (!staleSequence? db job report.sequence) .staleSequence
  let (changes, payload) ← reportChanges! env job report.type (env.stringify report.payload) now
  ensure (decide (payloadBytes payload ≤ maxEventPayloadBytes)) .outputLimitExceeded
  let outputBytes := job.outputBytes + payloadBytes payload
  ensure (decide (outputBytes ≤ reportOutputLimit job report.type)) .outputLimitExceeded
  apply! db job (reportedChanges changes outputBytes now)
    [{ type := report.type.eventType
       actor := .agent agent.id
       payload
       reportSequence := report.sequence }] now

def replayReport! (report : Report) (event : JobEvent) : Except Error (Db × Job) := do
  ensure (reportTokenMatches? env job agent report.token) .leaseNotHeld
  ensure (decide (event.type = report.type.eventType)) .sequenceConflict
  return (db, job)

def report! (report : Report) (now : Time) : Except Error (Db × Job) :=
  match deliveredReport db job agent report.sequence with
  | none => recordReport! env db job agent report now
  | some event => replayReport! env db job agent report event

def reportJob (organizationId : Uuid) (agent : Agent) (report : Report) (now : Time) :
    Except Error (Db × Job) := do
  ensure (validReportSequence? report.sequence) .invalidReport
  let _ ← db.lockActiveOrganization! organizationId
  let job ← db.lockJob! organizationId report.jobId
  report! env db job agent report now

/-! ### What a report changes -/

/-- The report types that end a job, with the state each one ends it in. -/
def finalReports : List (ReportType × JobState) :=
  [(.succeeded, .succeeded), (.failed, .failed), (.cancelled, .cancelled)]

theorem finalReports_cases {type : ReportType} {next : JobState}
    (final : (type, next) ∈ finalReports) : type = .succeeded ∧ next = .succeeded ∨
      type = .failed ∧ next = .failed ∨ type = .cancelled ∧ next = .cancelled := by
  simpa [finalReports] using final

inductive ReportEffect (job : Job) (now : Time) : ReportType → Changes → Prop
  | started (leased : job.state = .leased) :
      ReportEffect job now .started { state := some .running, startedAt := some (some now) }
  | working {type : ReportType} (working : type = .progress ∨ type = .output)
      (running : job.state = .running) : ReportEffect job now type {}
  | ended {type : ReportType} {next : JobState} {result : Option (Option Payload)}
      {failureReason : Option (Option String)} (final : (type, next) ∈ finalReports)
      (consent : type = .cancelled → job.cancelRequestedAt.isSome) :
      ReportEffect job now type (finish { state := some next, result, failureReason } now)

theorem reportChanges!_effect {env : Env} {job : Job} {type : ReportType}
    {payload payload' : Payload} {now : Time} {changes : Changes}
    (h : reportChanges! env job type payload now = .ok (changes, payload')) :
    ReportEffect job now type changes := by
  cases type with
  | started =>
    simp only [reportChanges!] at h
    split at h
    · rename_i leased
      cases h
      exact .started leased
    · cases h
  | progress | output =>
    simp only [reportChanges!] at h
    split at h
    · rename_i running
      cases h
      exact .working (by simp) running
    · cases h
  | succeeded =>
    simp only [reportChanges!, succeededChanges!, Except.bind_eq_ok_iff] at h
    obtain ⟨_, _, _, _, h⟩ := h
    split at h
    · cases h
    cases h
    exact .ended (by simp [finalReports]) (nofun)
  | failed =>
    simp only [reportChanges!, failedChanges!] at h
    split at h
    · split at h
      · cases h
      cases h
      exact .ended (by simp [finalReports]) (nofun)
    · cases h
  | cancelled =>
    simp only [reportChanges!] at h
    split at h
    · rename_i requested
      cases h
      exact .ended (by simp [finalReports]) fun _ => requested
    · cases h

end Renga.Jobs
