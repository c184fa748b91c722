import Renga.Jobs.History

/-!
# Reports are recorded at most once

An agent sends a report again until it is acknowledged, and the network may deliver old
copies at any time.  `reportJob_eq_ok` says what an acknowledged report did: it was recorded
now, or it had been recorded before and nothing happened.  Leaving out of a run every report
that was not recorded therefore changes nothing (`Run.run_survivors`), and within an attempt
the recorded sequences strictly increase (`ReportsOrdered`).
-/

namespace Renga.Jobs

open List KeyTable Except

variable {env : Env} {op : Op} {db : Db}

/-! ### What a report does -/

def reportEvent (agent : Agent) (report : Report) (payload : Payload) : EventParts :=
  { type := report.type.eventType
    actor := .agent agent.id
    payload
    reportSequence := report.sequence }

structure Recording (env : Env) (db : Db) (job : Job) (agent : Agent) (report : Report)
    (now : Time) (changes : Changes) (payload : Payload) : Prop where
  native : job.importedAt = none
  valid : validReportSequence? report.sequence = true
  undelivered : deliveredReport db job agent report.sequence = none
  held : leaseHeld? env job agent report.token now = true
  newest : staleSequence? db job report.sequence = false
  changed : reportChanges! env job report.type (env.stringify report.payload) now
    = .ok (changes, payload)
  small : payloadBytes payload ≤ maxEventPayloadBytes
  room : job.outputBytes + payloadBytes payload ≤ reportOutputLimit job report.type

structure Replaying (env : Env) (db : Db) (job : Job) (agent : Agent) (report : Report)
    (event : JobEvent) : Prop where
  delivered : deliveredReport db job agent report.sequence = some event
  matches_ : reportTokenMatches? env job agent report.token = true
  type : event.type = report.type.eventType

def recordedChanges (job : Job) (changes : Changes) (payload : Payload) (now : Time) : Changes :=
  reportedChanges changes (job.outputBytes + payloadBytes payload) now

variable {job job' : Job} {agent : Agent} {report : Report} {now : Time} {db' : Db}

/-- What recording a report leaves. -/
def Recorded (env : Env) (db : Db) (job : Job) (agent : Agent) (report : Report) (now : Time)
    (db' : Db) (job' : Job) : Prop :=
  ∃ changes payload, Recording env db job agent report now changes payload ∧
    job' = written job (recordedChanges job changes payload now)
      [reportEvent agent report payload] ∧
    db' = db.afterWrite job (recordedChanges job changes payload now)
      [reportEvent agent report payload] now

theorem recordReport!_eq_ok (native : job.importedAt = none)
    (valid : validReportSequence? report.sequence = true)
    (undelivered : deliveredReport db job agent report.sequence = none)
    (h : recordReport! env db job agent report now = .ok (db', job')) :
    Recorded env db job agent report now db' job' := by
  simp only [recordReport!, bind_eq_ok_iff, require_eq_ok_iff,
    decide_eq_true_eq] at h
  obtain ⟨_, held, _, newest, ⟨changes, payload⟩, changed, _, small, _, room, applied⟩ := h
  obtain ⟨rfl, _, _, rfl⟩ := apply!_eq_ok applied
  refine ⟨changes, payload, ⟨native, valid, undelivered, held, ?_, changed, small, room⟩, rfl, rfl⟩
  simpa using newest

variable {event : JobEvent}

theorem replayReport!_eq_ok (delivered : deliveredReport db job agent report.sequence = some event)
    (h : replayReport! env db job agent report event = .ok (db', job')) :
    Replaying env db job agent report event ∧ job' = job ∧ db' = db := by
  simp only [replayReport!, bind_eq_ok_iff, require_eq_ok_iff,
    pure_eq_ok_iff, Prod.mk.injEq, decide_eq_true_eq] at h
  obtain ⟨_, token, _, type, rfl, rfl⟩ := h
  exact ⟨⟨delivered, token, type⟩, rfl, rfl⟩

variable {organizationId : Uuid}

theorem reportJob_eq_ok (h : reportJob env db organizationId agent report now = .ok (db', job')) :
    ∃ job, db.jobs.get? report.jobId = some job ∧ job.importedAt = none ∧
      (Recorded env db job agent report now db' job' ∨
        ∃ event, Replaying env db job agent report event ∧ job' = job ∧ db' = db) := by
  simp only [reportJob, bind_eq_ok_iff, require_eq_ok_iff] at h
  obtain ⟨_, valid, _, _, job, locked, h⟩ := h
  obtain ⟨found, _, native⟩ := Db.lockJob!_eq_ok_iff.1 locked
  refine ⟨job, found, native, ?_⟩
  unfold report! at h
  split at h
  · rename_i undelivered
    exact .inl (recordReport!_eq_ok native valid undelivered h)
  rename_i event delivered
  exact .inr ⟨event, replayReport!_eq_ok delivered h⟩

variable {installationId : String}

theorem perform_report_eq_ok {reply : Reply}
    (h : perform env db (.report organizationId installationId report now) = .ok (db', reply)) :
    ∃ agent job', db.intakeAgent! organizationId installationId = .ok agent ∧
      reportJob env db organizationId agent report now = .ok (db', job') ∧ reply = .job job' := by
  obtain ⟨agent, authenticated, h⟩ := bind_eq_ok_iff.1 h
  cases result : reportJob env db organizationId agent report now with
  | error => simp [replying, result, Except.map] at h
  | ok p =>
    simp only [replying, result, Except.map, ok.injEq, Prod.mk.injEq] at h
    obtain ⟨rfl, rfl⟩ := h
    exact ⟨agent, p.2, authenticated, result, rfl⟩

/-! ### Reports that change nothing -/

theorem appended_recorded (job : Job) (changes : Changes) (agent : Agent) (report : Report)
    (payload : Payload) (now : Time) :
    ∃ event, appended job changes [reportEvent agent report payload] now = [event] ∧
      event.jobId = job.id ∧ event.attempt = changes.attempts.getD job.attempts ∧
      event.type = report.type.eventType ∧ event.reportSequence = report.sequence :=
  ⟨_, rfl, rfl, rfl, rfl, rfl⟩

variable {changes : Changes}

theorem Recording.write {payload : Payload}
    (recording : Recording env db job agent report now changes payload)
    (found : db.jobs.get? report.jobId = some job) :
    Write env (.report organizationId installationId report now) db job now
      (recordedChanges job changes payload now) [reportEvent agent report payload] :=
  .reported rfl (key_of_get? found).symm agent recording.valid recording.undelivered
    recording.held recording.newest recording.changed recording.small recording.room

theorem step_report (organizationId : Uuid) (installationId : String) (report : Report)
    (now : Time) :
    step env db (.report organizationId installationId report now) = db ∨
      ∃ agent job changes payload, db.jobs.get? report.jobId = some job ∧
        Recording env db job agent report now changes payload ∧
        step env db (.report organizationId installationId report now)
          = db.afterWrite job (recordedChanges job changes payload now)
            [reportEvent agent report payload] now := by
  cases result : perform env db (.report organizationId installationId report now) with
  | error => exact .inl (step_of_error result)
  | ok p =>
    obtain ⟨_, _⟩ := p
    rw [step_of_ok result]
    obtain ⟨agent, _, _, reported, _⟩ := perform_report_eq_ok result
    obtain ⟨job, found, _, ⟨changes, payload, recording, _, rfl⟩ | ⟨_, _, _, rfl⟩⟩ :=
      reportJob_eq_ok reported
    · exact .inr ⟨agent, job, changes, payload, found, recording, rfl⟩
    · exact .inl rfl

/-- The operation is a report that is not recorded: a replay, or one that is refused. -/
def unrecorded (env : Env) (db : Db) : Op → Bool
  | .report organizationId installationId report now =>
    decide ((step env db (.report organizationId installationId report now)).jobEvents.length
      = db.jobEvents.length)
  | _ => false

theorem step_unrecorded (db : Db) (op : Op) (h : unrecorded env db op = true) :
    step env db op = db := by
  cases op with
  | report organizationId installationId report now =>
    rcases step_report organizationId installationId report now with
      same | ⟨agent, job, changes, payload, _, _, recorded⟩
    · exact same
    simp only [unrecorded, recorded, decide_eq_true_eq, Db.afterWrite] at h
    obtain ⟨_, one, _⟩ := appended_recorded job (recordedChanges job changes payload now)
      agent report payload now
    rw [one] at h
    simp at h
  | _ => cases h

/-! ### Recorded sequences increase -/

def ReportsOrdered (events : List JobEvent) : Prop :=
  events.Pairwise fun a b => a.attempt = b.attempt →
    ∀ m n, a.reportSequence = some m → b.reportSequence = some n → m < n

variable {sequence : ℤ}

theorem staleSequence?_eq_false_iff : staleSequence? db job (some sequence) = false ↔
      ∀ event ∈ db.eventsOf job.id, event.attempt = job.attempts →
        ∀ m, event.reportSequence = some m → m < sequence := by
  simp only [staleSequence?, any_eq_false, Bool.and_eq_true, decide_eq_true_eq,
    Option.any_eq_true, not_and, not_exists, not_le]

variable {events : List EventParts}

/-- The events of a write carry no report sequence, or it is a report newer than any
recorded in the attempt. -/
theorem Write.sequenced (w : Write env op db job now changes events) :
    (∀ parts ∈ events, parts.reportSequence = none) ∨
      ∃ parts, events = [parts] ∧ changes.attempts = none ∧
        staleSequence? db job parts.reportSequence = false := by
  cases w with
  | reported _ _ _ _ _ _ newest changed =>
    refine .inr ⟨_, rfl, ?_, newest⟩
    have effect := reportChanges!_effect changed
    generalize Report.type _ = type at effect
    cases effect <;> rfl
  | lapsed =>
    left
    rcases lapseNext_cases job now with ⟨next, _⟩ | ⟨next, _⟩ | ⟨next, _⟩ | ⟨next, _⟩ <;>
      simp [next, lapseEvents, lapseFinalEvents]
  | created | cancelled | cancelRequested | suspended | leased
  | claimed | refused | expired | resolved | offered
  | offerTaken => exact .inl (by simp)

theorem Write.reportsOrdered (w : Write env op db job now changes events)
    (ordered : ReportsOrdered (db.eventsOf job.id)) :
    ReportsOrdered (db.eventsOf job.id ++ appended job changes events now) := by
  rcases w.sequenced with plain | ⟨parts, rfl, attempts, newest⟩
  · have none_ : ∀ event ∈ appended job changes events now, event.reportSequence = none := by
      intro _ member
      obtain ⟨_, _, _, parts, found, _, _, _, same⟩ := mem_entries member
      rw [same, plain parts found]
    refine pairwise_append.2 ⟨ordered, pairwise_of_forall_mem_list ?_, ?_⟩
    · intro a first b _ _ m n h
      rw [none_ a first] at h
      cases h
    intro a _ b second _ m n _ h
    rw [none_ b second] at h
    cases h
  refine pairwise_append.2 ⟨ordered, pairwise_singleton _ _, ?_⟩
  intro a first _ second same m _ recorded sequence
  obtain ⟨_, attempt, _, _, found, _, _, _, number⟩ := mem_entries second
  rw [mem_singleton.1 found, sequence] at number
  rw [← number] at newest
  rw [attempt, attempts] at same
  exact staleSequence?_eq_false_iff.1 newest a first same m recorded

/-- The invariant of this file, beside the histories. -/
structure Db.Ordered (db : Db) : Prop where
  recorded : db.Recorded
  rows : ∀ job ∈ db.jobs, job.importedAt = none → ReportsOrdered (db.eventsOf job.id)

theorem Act.ordered (ordered : db.Ordered) (act : Act env op db (.ok db')) : db'.Ordered where
  recorded := act.recorded ordered.recorded
  rows := act.histories (P := fun _ events => ReportsOrdered events) ordered.recorded.owned
    (fun _ => List.Pairwise.nil) (fun w => w.reportsOrdered) ordered.rows

theorem step_ordered (ordered : db.Ordered) : (step env db op).Ordered :=
  step_invariant op (fun h act => act.ordered h) ordered

theorem run_ordered {ops : List Op} : (run env {} ops).Ordered :=
  Run.run_invariant (fun _ _ ordered => step_ordered ordered)
    ⟨recorded_empty, fun _ member => absurd member (not_mem_empty _)⟩ ops

/-! ### Delivery -/

def recordedAs (events : List JobEvent) (attempt sequence : ℤ) : List JobEvent :=
  events.filter fun event =>
    decide (event.attempt = attempt) && decide (event.reportSequence = some sequence)

theorem recordedAs_unique {events : List JobEvent} (ordered : ReportsOrdered events) {attempt : ℤ}
    (member : event ∈ events) (same : event.attempt = attempt)
    (recorded : event.reportSequence = some sequence) :
    recordedAs events attempt sequence = [event] := by
  have chosen : event ∈ recordedAs events attempt sequence := by
    simp [recordedAs, member, same, recorded]
  have pairwise : (recordedAs events attempt sequence).Pairwise fun a b => a.attempt = b.attempt →
      ∀ m n, a.reportSequence = some m → b.reportSequence = some n → m < n :=
    List.Pairwise.filter _ ordered
  have facts : ∀ e ∈ recordedAs events attempt sequence,
      e.attempt = attempt ∧ e.reportSequence = some sequence := by
    intro _ found
    simpa [recordedAs] using (mem_filter.1 found).2
  -- Two of them would have one sequence, which cannot be below itself.
  match h : recordedAs events attempt sequence with
  | [] => simp [h] at chosen
  | [only] =>
    rw [h, mem_singleton] at chosen
    rw [chosen]
  | first :: second :: rest =>
    rw [h] at pairwise facts
    have one := facts first mem_cons_self
    have two := facts second (mem_cons_of_mem _ mem_cons_self)
    have below := (pairwise_cons.1 pairwise).1 second mem_cons_self
      (one.1.trans two.1.symm) sequence sequence one.2 two.2
    exact absurd below (lt_irrefl _)

theorem report!_not_newer (stale : staleSequence? db job report.sequence = true) :
    report! env db job agent report now = .ok (db, job) ∨
      report! env db job agent report now = .error (.rollback .sequenceConflict) ∨
      report! env db job agent report now = .error (.rollback .staleSequence) ∨
      report! env db job agent report now = .error (.rollback .leaseNotHeld) := by
  unfold report!
  split
  · cases held : leaseHeld? env job agent report.token now with
    | false =>
      right; right; right
      simp [recordReport!, held, require, bind, Except.bind]
    | true =>
      right; right; left
      simp [recordReport!, held, stale, require, bind, Except.bind]
  rename_i event _
  cases token : reportTokenMatches? env job agent report.token with
  | false =>
    right; right; right
    simp [replayReport!, token, require, bind, Except.bind]
  | true =>
    by_cases type : event.type = report.type.eventType
    · left
      simp [replayReport!, token, type, require, bind, Except.bind, pure, Except.pure]
    right; left
    simp [replayReport!, token, type, require, bind, Except.bind]

theorem staleSequence?_of_recorded (member : event ∈ db.eventsOf job.id)
    (same : event.attempt = job.attempts) {m : ℤ} (recorded : event.reportSequence = some m)
    (below : sequence ≤ m) :
    staleSequence? db job (some sequence) = true := by
  by_contra fresh
  have newest := staleSequence?_eq_false_iff.1 (Bool.not_eq_true _ ▸ fresh) event member same m
    recorded
  omega

theorem step_report_of_not_recording (found : db.jobs.get? report.jobId = some job)
    (refused : ∀ agent changes payload, ¬ Recording env db job agent report now changes payload) :
    step env db (.report organizationId installationId report now) = db := by
  rcases step_report organizationId installationId report now with
    same | ⟨agent, job', changes, payload, found', recording, _⟩
  · exact same
  rw [found] at found'
  cases found'
  exact absurd recording (refused agent changes payload)

theorem deliveredReport_eq_some (h : deliveredReport db job agent (some sequence) = some event) :
    event ∈ db.eventsOf job.id ∧ event.attempt = job.attempts ∧
      event.reportSequence = some sequence := by
  have chosen := find?_some h
  simp only [Bool.and_eq_true, decide_eq_true_eq] at chosen
  exact ⟨mem_of_find?_eq_some h, chosen.1.1, chosen.2⟩

theorem acknowledged_recorded (ordered : db.Ordered) (sequenced : report.sequence = some sequence)
    (h : perform env db (.report organizationId installationId report now) = .ok (db', .job job')) :
    (recordedAs (db'.eventsOf report.jobId) job'.attempts sequence).map JobEvent.type
      = [report.type.eventType] := by
  have after : db'.Ordered := step_of_ok h ▸ step_ordered ordered
  obtain ⟨agent, _, _, reported, reply⟩ := perform_report_eq_ok h
  cases reply
  obtain ⟨job, found, native, recorded⟩ := reportJob_eq_ok reported
  have target : job.id = report.jobId := key_of_get? found
  have stored : db.jobs.get? job.id = some job := target ▸ found
  rw [← target]
  rcases recorded with ⟨changes, payload, _, rfl, rfl⟩ | ⟨event, replaying, rfl, rfl⟩
  · obtain ⟨event, one, _, attempt, type, number⟩ := appended_recorded job
      (recordedChanges job changes payload now) agent report payload now
    have kept : ReportsOrdered ((db.afterWrite job (recordedChanges job changes payload now)
        [reportEvent agent report payload] now).eventsOf job.id) :=
      after.rows (written job (recordedChanges job changes payload now)
        [reportEvent agent report payload])
        (mem_of_get? (Db.get?_afterWrite_self stored)) native
    have grown := Db.eventsOf_afterWrite_self db job (recordedChanges job changes payload now)
      [reportEvent agent report payload] now
    rw [one] at grown
    have member : event ∈ (db.afterWrite job (recordedChanges job changes payload now)
        [reportEvent agent report payload] now).eventsOf job.id := by
      rw [grown]
      exact mem_append_right _ mem_cons_self
    have current : event.attempt = (written job (recordedChanges job changes payload now)
        [reportEvent agent report payload]).attempts := attempt
    rw [recordedAs_unique kept member current (number.trans sequenced)]
    simp [type]
  have delivered := replaying.delivered
  rw [sequenced] at delivered
  obtain ⟨member, attempt, number⟩ := deliveredReport_eq_some delivered
  rw [recordedAs_unique (ordered.rows job' (mem_of_get? stored) native) member attempt number]
  simp [replaying.type]

/-- Whatever reports are delivered, in whatever order and however often, along every
run of leases, lapses, cancellations and other operations: leaving out the reports
that were not recorded gives the same database, and of the rest each one is recorded;
the recorded sequences of an attempt strictly increase.  A report numbered at or below
a recorded one, and a report whose token is not the one the job is leased under,
change nothing.  An acknowledged sequenced report is recorded exactly once in the
current attempt, under its own type. -/
theorem run_delivers_reports_once (env : Env) (ops : List Op) :
    let db := run env {} ops
    let kept := Run.survivors (step env) (unrecorded env) {} ops
    (run env {} kept = db ∧ Run.survivors (step env) (unrecorded env) {} kept = kept) ∧
    (∀ job ∈ db.jobs, job.importedAt = none → ReportsOrdered (db.eventsOf job.id)) ∧
    (∀ job ∈ db.jobs, ∀ event ∈ db.eventsOf job.id, ∀ recorded,
      event.attempt = job.attempts → event.reportSequence = some recorded →
      ∀ (report : Report) sequence, report.jobId = job.id → report.sequence = some sequence →
        sequence ≤ recorded →
        (∀ agent now, report! env db job agent report now = .ok (db, job) ∨
          report! env db job agent report now = .error (.rollback .sequenceConflict) ∨
          report! env db job agent report now = .error (.rollback .staleSequence) ∨
          report! env db job agent report now = .error (.rollback .leaseNotHeld)) ∧
        ∀ organizationId installationId now,
          step env db (.report organizationId installationId report now) = db) ∧
    (∀ job ∈ db.jobs, ∀ report : Report, report.jobId = job.id →
      job.leaseTokenHash ≠ some (env.hashToken report.token) →
      ∀ organizationId installationId now,
        step env db (.report organizationId installationId report now) = db) ∧
    (∀ organizationId installationId (report : Report) now sequence db' job',
      report.sequence = some sequence →
      perform env db (.report organizationId installationId report now) = .ok (db', .job job') →
      (recordedAs (db'.eventsOf report.jobId) job'.attempts sequence).map JobEvent.type
        = [report.type.eventType]) := by
  intro db _
  have ordered : db.Ordered := run_ordered
  refine ⟨⟨Run.run_survivors step_unrecorded, Run.survivors_survivors step_unrecorded⟩,
    ordered.rows, ?_, ?_, ?_⟩
  · intro job stored _ member _ same number report sequence target sequenced below
    have stale : staleSequence? db job report.sequence = true := by
      rw [sequenced]
      exact staleSequence?_of_recorded member same number below
    refine ⟨fun agent now => report!_not_newer stale, fun organizationId installationId now => ?_⟩
    refine step_report_of_not_recording (target ▸ get?_of_mem stored)
      fun agent changes payload recording => ?_
    rw [recording.newest] at stale
    cases stale
  · intro _ stored report target other organizationId installationId now
    refine step_report_of_not_recording (target ▸ get?_of_mem stored)
      fun _ _ _ recording => other ?_
    have held := recording.held
    simp only [leaseHeld?, Bool.and_eq_true, decide_eq_true_eq] at held
    exact held.2
  intro _ _ _ _ _ _ _ sequenced h
  exact acknowledged_recorded ordered sequenced h

end Renga.Jobs
