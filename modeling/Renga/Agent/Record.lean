import Renga.Jobs.Schema

/-!
# The agent's record of the jobs it started

`agent/src/jobs/record.rs`: the agent writes a job's id to a file before it runs the job and
the outcome once it ends, so that a job delivered again is answered from the record.  A
write replaces the file by renaming a finished temporary one, so the file holds the old
records or the new ones; `Persist` says which, and whether the caller was told of a failure.
The records in memory change even when the write fails.
-/

namespace Renga.Agent

open Renga.Jobs (ReportType RetryClass)

/-- The terminal report a job ended with, re-sent verbatim on redelivery. -/
structure Outcome where
  kind : ReportType
  payload : Payload
  deriving DecidableEq

structure JobRecord where
  jobId : Uuid
  capability : String
  retryClass : RetryClass
  startedAt : Time
  /-- None while running, or when the agent stopped mid-run. -/
  outcome : Option Outcome := none
  /-- Renga acknowledged the terminal report. -/
  confirmed : Bool := false
  deriving DecidableEq

def maxRecords : ℕ := 128

def retention : Time := seconds (8 * 24 * 3600)

inductive RecordError where
  | full
  | overfull
  | neverStarted (jobId : Uuid)
  | noOutcome (jobId : Uuid)
  | io
  deriving DecidableEq

/-- How a write of the file ends: it succeeds, it fails before the rename and leaves the
old file, or it fails to sync the directory with the new file in place. -/
inductive Persist where
  | written
  | unwritten
  | unsynced
  deriving DecidableEq

/-- The records in memory and the file in the state directory. -/
structure JobRecords where
  records : List JobRecord := []
  file : List JobRecord := []

namespace JobRecords

variable (self : JobRecords) (jobId : Uuid) (now : Time) (disk : Persist)

def reopen : JobRecords := { self with records := self.file }

def get : Option JobRecord :=
  self.records.find? fun record => record.jobId = jobId

def removeExpired (records : List JobRecord) (now : Time) : List JobRecord :=
  records.filter fun record => now - record.startedAt < retention

/-- The loop of `persist/1`: confirmed records make room, the first one first. -/
def makeRoom : ℕ → List JobRecord → Except (List JobRecord) (List JobRecord)
  | 0, records => if maxRecords < records.length then .error records else .ok records
  | n + 1, records =>
    if maxRecords < records.length then
      if records.any (·.confirmed) then makeRoom n (records.eraseP (·.confirmed))
      else .error records
    else .ok records

def persist : JobRecords × Except RecordError Unit :=
  let records := removeExpired self.records now
  match makeRoom records.length records with
  | .error records => ({ self with records }, .error .overfull)
  | .ok records =>
    match disk with
    | .written => ({ records, file := records }, .ok ())
    | .unwritten => ({ self with records }, .error .io)
    | .unsynced => ({ records, file := records }, .error .io)

def start (capability : String) (retryClass : RetryClass) (now : Time) (disk : Persist) :
    JobRecords × Except RecordError Unit :=
  let records := removeExpired self.records now
  let replacing := records.any fun record => record.jobId = jobId
  let crowded := !replacing && maxRecords ≤ records.length
  if crowded && !records.any (·.confirmed) then ({ self with records }, .error .full)
  else
    let records := if crowded then records.eraseP (·.confirmed) else records
    let records := records.filter fun record => record.jobId ≠ jobId
    persist { self with
      records := records ++ [{ jobId, capability, retryClass, startedAt := now }] } now disk

/-- Changes the job's first record, as `iter_mut().find` does. -/
def updateFirst (jobId : Uuid) (change : JobRecord → JobRecord) :
    List JobRecord → List JobRecord
  | [] => []
  | record :: records =>
    if record.jobId = jobId then change record :: records
    else record :: updateFirst jobId change records

def finish (outcome : Outcome) (now : Time) (disk : Persist) :
    JobRecords × Except RecordError Unit :=
  match self.get jobId with
  | none => (self, .error (.neverStarted jobId))
  | some _ =>
    persist { self with records := updateFirst jobId (fun record =>
      { record with outcome := some outcome, confirmed := false }) self.records } now disk

def confirm : JobRecords × Except RecordError Unit :=
  match self.get jobId with
  | none => (self, .error (.neverStarted jobId))
  | some record =>
    if record.outcome.isSome then
      persist { self with records := updateFirst jobId (fun record =>
        { record with confirmed := true }) self.records } now disk
    else (self, .error (.noOutcome jobId))

/-! ### A started job is on disk -/

theorem mem_makeRoom {record : JobRecord} (unconfirmed : record.confirmed = false) {n : ℕ}
    {records records' : List JobRecord} (room : makeRoom n records = .ok records')
    (member : record ∈ records) : record ∈ records' := by
  induction n generalizing records with
  | zero =>
    rw [makeRoom] at room
    split at room
    · cases room
    cases room
    exact member
  | succ _ ih =>
    rw [makeRoom] at room
    split at room
    · split at room
      · refine ih room ?_
        rw [List.mem_eraseP_of_neg (by simp [unconfirmed])]
        exact member
      · cases room
    cases room
    exact member

variable {self' : JobRecords}

theorem persist_eq_ok {self : JobRecords} {now : Time} {disk : Persist}
    (h : persist self now disk = (self', .ok ())) :
    self'.file = self'.records ∧ ∀ record ∈ self.records, record.confirmed = false →
      now - record.startedAt < retention → record ∈ self'.records := by
  unfold persist at h
  simp only at h
  split at h
  · cases h
  rename_i records room
  cases disk with
  | written =>
    cases h
    refine ⟨rfl, fun _ member unconfirmed recent => ?_⟩
    exact mem_makeRoom unconfirmed room (List.mem_filter.2 ⟨member, by simpa using recent⟩)
  | unwritten | unsynced => cases h

theorem start_recorded {self : JobRecords} {jobId : Uuid} {capability : String}
    {retryClass : RetryClass} {now : Time} {disk : Persist}
    (h : self.start jobId capability retryClass now disk = (self', .ok ())) :
    ∃ record ∈ self'.file, record.jobId = jobId ∧ record.outcome = none := by
  unfold start at h
  simp only at h
  split at h
  · cases h
  obtain ⟨same, kept⟩ := persist_eq_ok h
  rw [same]
  have member := kept { jobId, capability, retryClass, startedAt := now } (by simp) rfl
  exact ⟨_, member (by simp [retention, seconds]), rfl, rfl⟩

end JobRecords

end Renga.Agent
