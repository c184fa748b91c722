import Renga.Agent.Record
import Renga.Jobs.Reports

/-!
# The agent's job worker

`agent/src/jobs/worker.rs`.  `handle` takes one leased job from its lease to its final
report.  It is cut where it blocks: a `Session` is a call of `handle` that waits for an
answer or supervises a running capability, each function below is the code between two such
points, and a `Move` is what such a piece of code does.  What the code reads from outside is
an argument.
-/

namespace Renga.Agent

open Renga.Jobs (ReportType RetryClass Report Token)

structure LeasedJob where
  id : Uuid
  capability : String
  leaseToken : Token
  leaseExpiresAt : Time
  timeoutMs : ℕ

structure Capability where
  retryClass : RetryClass
  timeout : Time

inductive JobFailure where
  | cancelled
  | failed (reason : String)

/-- What the supervisor hears from the capability's thread: the result of
`capability.run` with the time it was sent, or that the thread is gone. -/
inductive Completion where
  | returned (completedAt : Time) (result : Except JobFailure Json)
  | disconnected

def heartbeat : Time := seconds 20

def failure (reason : String) : Payload := [("reason", .string reason)]

def cancelled : Outcome := { kind := .cancelled, payload := [] }

def timeoutFailure (timeout : Time) : Except JobFailure Json :=
  .error (.failed ("timed out after " ++ toString (timeout / 1000) ++ " seconds"))

/-! ### Reporting -/

/-- Numbers one lease's reports and notices when Renga says to stop. -/
structure Reporter where
  jobId : Uuid
  leaseToken : Token
  sequence : ℕ := 0
  leaseDeadline : Time
  lost : Bool := false

/-- The answer to a report: an acknowledgement, or an HTTP status or none. -/
inductive Answer where
  | ack (cancelRequested : Bool)
  | failed (status : Option ℕ)

namespace Reporter

def new (job : LeasedJob) (now : Time) : Reporter :=
  { jobId := job.id
    leaseToken := job.leaseToken
    leaseDeadline := now + max 0 (job.leaseExpiresAt - now) }

def send (self : Reporter) (kind : ReportType) (payload : Payload) (now : Time) :
    Reporter × Option Report :=
  if self.lost ∨ self.leaseDeadline ≤ now then ({ self with lost := true }, none)
  else
    let sequence := self.sequence + 1
    ({ self with sequence },
      some { jobId := self.jobId, token := self.leaseToken, type := kind, payload
             sequence := some sequence })

/-- `send/2` after the request: an accepted report renews the lease from the time it was
sent. -/
def answered (self : Reporter) (sentAt : Time) : Answer → Reporter × Option Bool
  | .ack cancelRequested =>
    ({ self with leaseDeadline := sentAt + seconds 60 }, some cancelRequested)
  | .failed status =>
    ({ self with lost := self.lost || status ∈ [some 401, some 403, some 409] }, none)

end Reporter

/-! ### Sessions -/

structure Supervision where
  timeout : Time
  deadline : Time
  nextHeartbeat : Time
  cancelRequested : Bool := false
  /-- The capability was told to stop. -/
  stopping : Bool := false

inductive Phase where
  /-- Waits for the answer to a failure report, after which it is done. -/
  | refusing
  /-- Waits for the answer to a recorded outcome it sent again. -/
  | resending
  /-- Waits for the answer to `started`. -/
  | starting (capability : Capability)
  /-- Supervises the capability's thread. -/
  | running (supervision : Supervision)
  /-- Waits for the answer to a heartbeat of a running job. -/
  | beating (supervision : Supervision)
  /-- Waits for the answer to the outcome. -/
  | finishing

structure Session where
  job : LeasedJob
  reporter : Reporter
  sentAt : Time
  phase : Phase

structure Move where
  records : JobRecords
  session : Option Session := none
  sends : Option Report := none
  invokes : Bool := false

namespace Worker

variable (records : JobRecords) (session : Session) (supervision : Supervision)

/-- Sends a report and waits in `phase`; without a lease to send it under, the call
returns. -/
def report (job : LeasedJob) (reporter : Reporter) (phase : Phase) (kind : ReportType)
    (payload : Payload) (now : Time) : Move :=
  match reporter.send kind payload now with
  | (_, none) => { records }
  | (reporter, some sent) =>
    { records, session := some { job, reporter, sentAt := now, phase }, sends := some sent }

def finish (records : JobRecords) (job : LeasedJob) (reporter : Reporter) (outcome : Outcome)
    (now : Time) (disk : Persist) : Move :=
  let (records, _) := records.finish job.id outcome now disk
  if reporter.lost then { records }
  else report records job reporter .finishing outcome.kind outcome.payload now

def handle (enabled : String → Option Capability) (records : JobRecords) (job : LeasedJob)
    (now : Time) (disk : Persist) (current stillCurrent : Bool) : Move :=
  if !current then { records }
  else
    let reporter := Reporter.new job now
    match enabled job.capability with
    | none =>
      report records job reporter .refusing .failed
        (failure "capability is not enabled by the agent's local policy") now
    | some capability =>
      match records.get job.id, (records.get job.id).bind JobRecord.outcome with
      | _, some outcome =>
        report records job reporter .resending outcome.kind outcome.payload now
      | recorded, none =>
        if recorded.isSome ∧ capability.retryClass = .imperative then
          finish records job reporter
            { kind := .failed
              payload := failure
                "the agent stopped while running this job, so it may have partly run" }
            now disk
        else
          match records.start job.id job.capability capability.retryClass now disk with
          | (records, .error _) =>
            report records job reporter .refusing .failed
              (failure "the agent cannot record jobs in its state directory") now
          | (records, .ok _) =>
            if !stillCurrent then { records }
            else report records job reporter (.starting capability) .started [] now

/-- The end of `run` and of `handle`: the outcome of the job, or none when it stopped
unfinished. -/
def conclude (result : Except JobFailure Json) (now : Time) (disk : Persist) : Move :=
  match result with
  | .ok result =>
    finish records session.job session.reporter
      { kind := .succeeded, payload := [("result", result)] } now disk
  | .error .cancelled =>
    if supervision.cancelRequested then
      finish records session.job session.reporter cancelled now disk
    else { records }
  | .error (.failed reason) =>
    finish records session.job session.reporter
      { kind := .failed, payload := failure reason } now disk

/-- Waiting for the capability's thread at the end of a pass of the loop. -/
def await (completion : Option Completion) (now : Time) (disk : Persist) : Move :=
  match completion with
  | some (.returned completedAt result) =>
    if completedAt ≤ supervision.deadline then
      conclude records session supervision result now disk
    else conclude records session supervision (timeoutFailure supervision.timeout) now disk
  | some .disconnected =>
    conclude records session supervision
      (.error (.failed "the capability stopped unexpectedly")) now disk
  | none => { records, session := some { session with phase := .running supervision } }

def afterHeartbeat (ack : Option Bool) (stopped : Bool) (completion : Option Completion)
    (now : Time) (disk : Persist) : Move :=
  let asked := ack.getD false
  let supervision :=
    { supervision with
      cancelRequested := supervision.cancelRequested || asked
      stopping := supervision.stopping || asked || session.reporter.lost }
  if stopped then { records }
  else if completion.isNone ∧ supervision.deadline ≤ now then
    conclude records session supervision (timeoutFailure supervision.timeout) now disk
  else
    await records session { supervision with nextHeartbeat := now + heartbeat } completion now disk

/-- One pass of the loop in `run`, up to the answer of a heartbeat if it sends one. -/
def supervise (stopped : Bool) (completion : Option Completion) (now : Time) (disk : Persist) :
    Move :=
  if stopped then { records }
  else
    let expired := decide (session.reporter.leaseDeadline ≤ now)
    let session := { session with
      reporter := { session.reporter with lost := session.reporter.lost || expired } }
    let supervision := { supervision with stopping := supervision.stopping || expired }
    if supervision.deadline ≤ now then
      conclude records session supervision (timeoutFailure supervision.timeout) now disk
    else if supervision.nextHeartbeat ≤ now then
      match session.reporter.send .progress [] now with
      -- Nothing is sent under a lost lease.
      | (reporter, none) =>
        afterHeartbeat records { session with reporter } supervision none false completion now
          disk
      | (reporter, some sent) =>
        { records
          session := some { session with reporter, sentAt := now, phase := .beating supervision }
          sends := some sent }
    else await records session supervision completion now disk

/-- `run/3` up to its loop: the capability starts on its own thread. -/
def run (capability : Capability) (now : Time) : Move :=
  let timeout := min capability.timeout (max session.job.timeoutMs 1)
  { records
    session := some { session with
      phase := .running
        { timeout, deadline := now + timeout, nextHeartbeat := now + heartbeat } }
    invokes := true }

def answer (records : JobRecords) (session : Session) (answer : Answer)
    (current stillCurrent stopped : Bool) (completion : Option Completion) (now : Time)
    (disk : Persist) : Move :=
  let (reporter, ack) := session.reporter.answered session.sentAt answer
  let session := { session with reporter }
  match session.phase, ack with
  | .refusing, _ => { records }
  | .resending, some _ | .finishing, some _ =>
    { records := (records.confirm session.job.id now disk).1 }
  | .resending, none | .finishing, none => { records }
  -- Without a confirmed lease the job is not run.
  | .starting _, none => { records }
  | .starting capability, some cancelRequested =>
    if !current then { records }
    else if cancelRequested then finish records session.job session.reporter cancelled now disk
    else if !stillCurrent then { records }
    else run records session capability now
  | .beating supervision, ack =>
    afterHeartbeat records session supervision ack stopped completion now disk
  | .running supervision, _ =>
    { records, session := some { session with phase := .running supervision } }

end Worker

/-! ### Where a capability is started -/

def Session.Starting (session : Session) : Prop :=
  ∃ capability, session.phase = .starting capability

/-- The code neither starts a capability nor is about to. -/
structure Move.Quiet (move : Move) : Prop where
  silent : move.invokes = false
  settled : ∀ session, move.session = some session → ¬ session.Starting

/-- The code is about to start the capability of `job`: it has recorded the job and sends
`started` under the token of its lease. -/
structure Move.Announces (move : Move) (job : LeasedJob) : Prop where
  silent : move.invokes = false
  own : ∀ session, move.session = some session → session.job = job
  sends : ∃ report, move.sends = some report ∧ report.type = .started ∧ report.jobId = job.id ∧
    report.token = job.leaseToken
  recorded : ∃ record ∈ move.records.file, record.jobId = job.id ∧ record.outcome = none

namespace Worker

variable {records : JobRecords} {job : LeasedJob} {reporter : Reporter} {session : Session}
  {supervision : Supervision} {now : Time} {disk : Persist}

theorem quiet_done : Move.Quiet { records } where
  silent := rfl
  settled := fun _ none_ => by cases none_

theorem quiet_waiting {sends : Option Report} {phase : Phase}
    (waits : session.phase = phase) (other : ∀ capability, phase ≠ .starting capability) :
    Move.Quiet { records, session := some session, sends } where
  silent := rfl
  settled := by
    intro _ same starting
    cases same
    obtain ⟨capability, starting⟩ := starting
    exact other capability (waits.symm.trans starting)

variable {kind : Jobs.ReportType} {payload : Payload}

theorem report_quiet {phase : Phase} (other : ∀ capability, phase ≠ .starting capability) :
    (report records job reporter phase kind payload now).Quiet := by
  unfold report
  split
  · exact quiet_done
  · exact quiet_waiting rfl other

theorem finish_quiet {outcome : Outcome} :
    (finish records job reporter outcome now disk).Quiet := by
  rw [finish]
  dsimp only
  split
  · exact quiet_done
  · exact report_quiet (fun _ h => by cases h)

theorem conclude_quiet {result : Except JobFailure Json} :
    (conclude records session supervision result now disk).Quiet := by
  rw [conclude.eq_def]
  split
  · exact finish_quiet
  · split
    · exact finish_quiet
    · exact quiet_done
  · exact finish_quiet

variable {completion : Option Completion}

theorem await_quiet : (await records session supervision completion now disk).Quiet := by
  rw [await.eq_def]
  split
  · split
    · exact conclude_quiet
    · exact conclude_quiet
  · exact conclude_quiet
  · exact quiet_waiting rfl fun _ h => by cases h

theorem afterHeartbeat_quiet {ack : Option Bool} {stopped : Bool} :
    (afterHeartbeat records session supervision ack stopped completion now disk).Quiet := by
  rw [afterHeartbeat]
  split
  · exact quiet_done
  split
  · exact conclude_quiet
  · exact await_quiet

theorem supervise_quiet (stopped : Bool) (completion : Option Completion) :
    (supervise records session supervision stopped completion now disk).Quiet := by
  rw [supervise]
  split
  · exact quiet_done
  dsimp only
  split
  · exact conclude_quiet
  split
  · split
    · exact afterHeartbeat_quiet
    · exact quiet_waiting rfl fun _ h => by cases h
  · exact await_quiet

theorem send_eq_some {self self' : Reporter} {sent : Report}
    (h : self.send kind payload now = (self', some sent)) :
    sent.type = kind ∧ sent.jobId = self.jobId ∧ sent.token = self.leaseToken := by
  rw [Reporter.send] at h
  split at h
  · cases h
  cases h
  exact ⟨rfl, rfl, rfl⟩

theorem report_announces {capability : Capability}
    (recorded : ∃ record ∈ records.file, record.jobId = job.id ∧ record.outcome = none) :
    (report records job (Reporter.new job now) (.starting capability) .started [] now).Quiet ∨
      (report records job (Reporter.new job now) (.starting capability) .started []
        now).Announces job := by
  unfold report
  split
  · exact .inl quiet_done
  rename_i sent
  refine .inr ⟨rfl, fun _ same => ?_, ⟨_, rfl, send_eq_some sent⟩, recorded⟩
  cases same
  rfl

theorem handle_announces (enabled : String → Option Capability) (records : JobRecords)
    (job : LeasedJob) (now : Time) (disk : Persist) (current stillCurrent : Bool) :
    (handle enabled records job now disk current stillCurrent).Quiet ∨
      (handle enabled records job now disk current stillCurrent).Announces job := by
  rw [handle]
  split
  · exact .inl quiet_done
  split
  · exact .inl (report_quiet (fun _ h => by cases h))
  split
  · exact .inl (report_quiet (fun _ h => by cases h))
  split
  · exact .inl finish_quiet
  split
  · exact .inl (report_quiet (fun _ h => by cases h))
  rename_i started
  split
  · exact .inl quiet_done
  · exact report_announces (JobRecords.start_recorded started)

theorem answer_starts (records : JobRecords) (session : Session) (reply : Answer)
    (current stillCurrent stopped : Bool) (completion : Option Completion) (now : Time)
    (disk : Persist) :
    (answer records session reply current stillCurrent stopped completion now disk).Quiet ∨
      (session.Starting ∧ (∃ cancelRequested, reply = .ack cancelRequested) ∧
        ∀ after, (answer records session reply current stillCurrent stopped completion now
          disk).session = some after → ¬ after.Starting) := by
  rw [answer]
  dsimp only
  split
  · exact .inl quiet_done
  · exact .inl quiet_done
  · exact .inl quiet_done
  · exact .inl quiet_done
  · exact .inl quiet_done
  · exact .inl quiet_done
  · rename_i capability cancelRequested starting acknowledged
    split
    · exact .inl quiet_done
    split
    · exact .inl finish_quiet
    split
    · exact .inl quiet_done
    -- The one place where the capability is started.
    refine .inr ⟨⟨capability, starting⟩, ?_, ?_⟩
    · cases reply with
      | ack cancelRequested => exact ⟨cancelRequested, rfl⟩
      | failed => cases acknowledged
    rintro _ same ⟨_, again⟩
    cases same
    cases again
  · exact .inl afterHeartbeat_quiet
  · exact .inl (quiet_waiting rfl fun _ h => by cases h)

end Worker

end Renga.Agent
