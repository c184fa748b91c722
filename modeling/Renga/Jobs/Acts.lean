import Renga.Jobs.Operations

/-!
# What a transaction can do to the job tables

The operations differ in what they check and share how they write.  `Write` lists those writes,
each with the guards the code has checked when it writes and, where a result needs it, with the
operation it belongs to.
-/

namespace Renga.Jobs

open KeyTable

open SignedLeases (OfferSecret offered withoutOffer currentOffer? verified?)

/-! ### Writes of a job row -/

/-- The lease of a claimed offer, in one write: the offer is taken off the row. -/
def claimChanges (env : Env) (job : Job) (token : Token) (now : Time) : Changes :=
  { leaseChanges env job token now with
    offerTokenHash := some none, offerNonce := some none, offerExpiresAt := some none }

def offerChanges (env : Env) (secret : OfferSecret) (now : Time) : Changes :=
  { offerTokenHash := some (some (env.hashToken secret.token))
    offerNonce := some (some secret.nonce)
    offerExpiresAt := some (some (now + seconds SignedLeases.offerSeconds)) }

structure Job.Requested (job : Job) : Prop where
  queued : job.state = .queued
  unleased : job.attempts = 0
  unnumbered : job.lastSequence = 0
  unwanted : job.cancelRequestedAt = none
  silent : job.outputBytes = 0

def Op.Resolves (jobId : Uuid) : Op → Prop
  | .resolveJob _ id _ _ _ => id = jobId
  | .reconcileJob _ id _ _ _ => id = jobId
  | _ => False

/-- The changes and events an operation writes to a job at `now`, with what it has
checked before. -/
inductive Write (env : Env) (op : Op) (db : Db) (job : Job) (now : Time) :
    Changes → List EventParts → Prop
  | created (actor : Actor) (payload : Payload) (requested : job.Requested) :
      Write env op db job now {} [{ type := .created, actor, payload }]
  | cancelled (actor : Actor) (person : ∀ id, actor ≠ .agent id) (queued : job.state = .queued) :
      Write env op db job now { state := some .cancelled, finishedAt := some (some now) }
        [{ type := .cancelled, actor }]
  | cancelRequested (actor : Actor) (held : job.state ∈ leasedStates) :
      Write env op db job now { cancelRequestedAt := some (some now) }
        [{ type := .cancelRequested, actor }]
  | suspended (held : job.state ∈ leasedStates) :
      Write env op db job now
        { cancelRequestedAt := some (some (job.cancelRequestedAt.getD now))
          leaseExpiresAt := some (some now) }
        [{ type := .cancelRequested
           actor := .system
           payload := [("reason", .string "organization_suspended")] }]
  | leased {organizationId installationId keys limit newToken skipped}
      (asked : op = .leaseJobs organizationId installationId keys limit newToken skipped now)
      (agent : Agent) (queued : job.state = .queued) (own : job.agentId = agent.id)
      (observe : job.riskClass = .observe) :
      Write env op db job now (leaseChanges env job (newToken job.id) now)
        [{ type := .leased, actor := .agent agent.id }]
  | claimed {organizationId installationId request}
      (asked : op = .claim organizationId installationId request now)
      (target : request.jobId = job.id)
      {agent : Agent} (authenticated : db.intakeAgent! organizationId installationId = .ok agent)
      (own : job.agentId = agent.id)
      (current : currentOffer? env job request.token request.nonce now = true)
      {binding : TargetBinding} {key : InstallationKey}
      (bound : TargetBindings.check db job = .ok (binding, key))
      (signed : verified? env job agent request.token request.nonce request.signature key = true) :
      Write env op db job now (claimChanges env job request.token now)
        [{ type := .leased, actor := .agent agent.id }]
  | refused (reason : String) (queued : job.state = .queued) :
      Write env op db job now
        { state := some .failed, failureReason := some (some reason)
          finishedAt := some (some now) }
        [{ type := .failed, actor := .system, payload := [("reason", .string reason)] }]
  | reported {organizationId installationId report}
      (asked : op = .report organizationId installationId report now)
      (target : report.jobId = job.id) (agent : Agent)
      (valid : validReportSequence? report.sequence = true)
      (undelivered : deliveredReport db job agent report.sequence = none)
      (held : leaseHeld? env job agent report.token now = true)
      (newest : staleSequence? db job report.sequence = false) {changes : Changes}
      {payload : Payload}
      (changed : reportChanges! env job report.type (env.stringify report.payload) now
        = .ok (changes, payload))
      (small : payloadBytes payload ≤ maxEventPayloadBytes)
      (room : job.outputBytes + payloadBytes payload ≤ reportOutputLimit job report.type) :
      Write env op db job now
        (reportedChanges changes (job.outputBytes + payloadBytes payload) now)
        [{ type := report.type.eventType
           actor := .agent agent.id
           payload
           reportSequence := report.sequence }]
  | lapsed (due : sweepCondition .lease now job = true) :
      Write env op db job now (lapseChanges (lapseNext job now) now)
        (lapseEvents (lapseNext job now))
  | expired (due : sweepCondition .deadline now job = true) :
      Write env op db job now { state := some .expired, finishedAt := some (some now) }
        [{ type := .expired
           actor := .system
           payload := [("reason", .string "not_leased_before_deadline")] }]
  | resolved (asked : op.Resolves job.id) (outcome : Outcome) (actor : Actor) (details : Payload)
      (uncertain : job.state = .uncertain) :
      Write env op db job now (resolveChanges outcome now)
        [{ type := .resolved
           actor
           payload := putField details "outcome" (.string outcome.state.text) }]
  | offered {organizationId installationId keys limit newSecret skipped}
      (asked : op = .offer organizationId installationId keys limit newSecret skipped now)
      (queued : job.state = .queued) (privileged : job.riskClass ≠ .observe)
      {binding : TargetBinding} {key : InstallationKey}
      (bound : TargetBindings.check db job = .ok (binding, key)) :
      Write env op db job now (offerChanges env (newSecret job.id) now) []
  -- The first of the two updates of a claim, where it fails before it leases.
  | offerTaken (queued : job.state = .queued) (privileged : job.offerTokenHash.isSome) :
      Write env op db job now
        { offerTokenHash := some none, offerNonce := some none, offerExpiresAt := some none } []

def written (job : Job) (changes : Changes) (events : List EventParts) : Job :=
  job.change (numbered job changes events)

def appended (job : Job) (changes : Changes) (events : List EventParts) (now : Time) :
    List JobEvent :=
  entries job (changes.attempts.getD job.attempts) now (job.lastSequence + 1) events

def Db.afterWrite (db : Db) (job : Job) (changes : Changes) (events : List EventParts)
    (now : Time) : Db :=
  { db with
    jobs := db.jobs.put (written job changes events)
    jobEvents := db.jobEvents ++ appended job changes events now }

variable {job : Job} {db : Db} {changes : Changes} {events : List EventParts} {now : Time}

theorem Db.get?_afterWrite_self (found : db.jobs.get? job.id = some job) :
    (db.afterWrite job changes events now).jobs.get? job.id = some (written job changes events) :=
  get?_put_self (show db.jobs.get? (written job changes events).id = some job from found)

theorem Db.get?_afterWrite_other (db : Db) {id : Uuid} (other : id ≠ job.id) :
    (db.afterWrite job changes events now).jobs.get? id = db.jobs.get? id :=
  get?_put_of_ne db.jobs (show id ≠ (written job changes events).id from other)

variable {changes : Changes} {events : List EventParts} {now : Time}

theorem Db.mem_afterWrite {row : Job} (stored : row ∈ (db.afterWrite job changes events now).jobs) :
    row = written job changes events ∨ (row ∈ db.jobs ∧ row.id ≠ job.id) :=
  mem_put stored

/-! ### Acts of a transaction -/

/-- How the tables a job refers to may change: a target binding stays as it is, or an
active one is ended. -/
structure ContextStep (db db' : Db) : Prop where
  jobs : db'.jobs = db.jobs
  jobEvents : db'.jobEvents = db.jobEvents
  bindings : ∀ id binding, db.targetBindings.get? id = some binding →
    ∃ binding', db'.targetBindings.get? id = some binding' ∧
      (binding' = binding ∨ (binding.status = .active ∧
        ∃ reason now, binding' = TargetBindings.ended binding reason now))

structure TargetBinding.Captures (binding : TargetBinding) (job : Job) : Prop where
  organization : job.organizationId = binding.organizationId
  agent : job.agentId = binding.agentId
  resource : job.resourceId = some binding.resourceId
  version : job.targetBindingVersion = some binding.version

/-- The job refers to the binding it was requested under, or to none. -/
structure Db.Captured (db : Db) (job : Job) : Prop where
  bound : ∀ id, job.targetBindingId = some id →
    ∃ binding, db.targetBindings.get? id = some binding ∧ binding.Captures job
  unbound : job.targetBindingId = none → job.targetBindingVersion = none

def Op.IsLifecycle (op : Op) : Prop :=
  ∃ organizationId action now, op = .changeOrganization organizationId action now

def Op.Inserts : Op → Prop
  | .createJob .. | .createSystemJob .. | .createBatch .. | .importJob .. => True
  | _ => False

inductive Act (env : Env) (op : Op) : Db → Except Error Db → Prop
  | context {db db' : Db} (changed : ContextStep db db') : Act env op db (.ok db')
  | insert {db : Db} {row : Job} (fresh : db.jobs.get? row.id = none) (checked : row.Checked)
      (inserts : op.Inserts)
      (new : row.Requested ∧ row.importedAt = none ∨ row.importedAt.isSome)
      (fits : Db.reasonFits row = true)
      (captured : row.importedAt = none → db.Captured row) :
      Act env op db (.ok { db with jobs := db.jobs.add row fresh })
  | importEvents {db : Db} {events : List JobEvent}
      (imported : ∀ event ∈ events, ∃ job, db.jobs.get? event.jobId = some job ∧
        job.importedAt.isSome) :
      Act env op db (.ok { db with jobEvents := db.jobEvents ++ events })
  | write {db : Db} {job : Job} {changes : Changes} {events : List EventParts} {now : Time}
      (found : db.jobs.get? job.id = some job) (write : Write env op db job now changes events)
      (native : job.importedAt = none)
      (checked : (written job changes events).Checked)
      (fits : Db.reasonFits (written job changes events) = true) :
      Act env op db (.ok (db.afterWrite job changes events now))
  | rolledBack {db : Db} (reason : Reason) : Act env op db (.error (.rollback reason))
  | raised {db : Db} {e : Error}
      (plain : e = .matchError ∨ e = .uniqueViolation ∨ e = .valueTooLong ∨ e = .eventViolation) :
      Act env op db (.error e)
  | insertRefused {db : Db} {row : Job} {c : JobsConstraint} (inserts : op.Inserts)
      (violated : ¬ c.Holds row) : Act env op db (.error (.checkViolation c))
  | checkRefused {db : Db} {job : Job} {changes : Changes} {events : List EventParts}
      {now : Time} {c : JobsConstraint} (found : db.jobs.get? job.id = some job)
      (write : Write env op db job now changes events) (native : job.importedAt = none)
      (violated : ¬ c.Holds (written job changes events)) :
      Act env op db (.error (.checkViolation c))
  | importedRefused {db : Db} {job : Job} (found : db.jobs.get? job.id = some job)
      (imported : job.importedAt.isSome) (lifecycle : op.IsLifecycle) :
      Act env op db (.error .importedImmutable)

variable {env : Env} {op : Op} {db : Db}

/-- The trigger rejects every write that changes what `apply!` changes: an imported
row keeps its sequence number and its offer. -/
theorem rejectImportedJobUpdate_native {job' : Job} (native : job.importedAt = none) :
    Job.rejectImportedJobUpdate job job' = false := by
  simp [Job.rejectImportedJobUpdate, native]

theorem rejectImportedJobUpdate_imported (imported : job.importedAt.isSome) (some_ : events ≠ []) :
    Job.rejectImportedJobUpdate job (written job changes events) = true := by
  have grows : (written job changes events).lastSequence ≠ job.lastSequence := by
    have : 0 < events.length := List.length_pos_iff.2 some_
    simp only [written, numbered, Job.change_lastSequence, Option.getD_some]
    omega
  simp only [Job.rejectImportedJobUpdate, imported, Bool.true_and, Bool.not_eq_true']
  refine Bool.eq_false_iff.2 fun allowed => grows ?_
  simp only [Job.importedUpdateAllowed, Bool.and_eq_true, decide_eq_true_eq] at allowed
  exact congrArg Job.lastSequence allowed.1.1.1

theorem native_of_passed (native : job.importedAt = none ∨ (op.IsLifecycle ∧ events ≠ []))
    (passed : Job.rejectImportedJobUpdate job (written job changes events) = false) :
    job.importedAt = none := by
  rcases native with own | ⟨_, some_⟩
  · exact own
  cases imported : job.importedAt with
  | none => rfl
  | some =>
    have raises : Job.rejectImportedJobUpdate job (written job changes events) = true :=
      rejectImportedJobUpdate_imported (by simp [imported]) some_
    exact absurd (passed.symm.trans raises) Bool.false_ne_true

theorem act_apply! (found : db.jobs.get? job.id = some job)
    (w : Write env op db job now changes events)
    (native : job.importedAt = none ∨ (op.IsLifecycle ∧ events ≠ [])) :
    Act env op db ((apply! db job changes events now).map Prod.fst) := by
  cases result : apply! db job changes events now with
  | ok p =>
    obtain ⟨_, _⟩ := p
    obtain ⟨rfl, checked, passed, rfl⟩ := apply!_eq_ok result
    exact .write found w (native_of_passed native passed) checked (apply!_fits result)
  | error =>
    rcases apply!_eq_error result with rfl | rfl | rfl | ⟨rfl, rejected⟩ |
      ⟨c, rfl, passed, violated⟩
    · exact .raised (by simp)
    · exact .raised (by simp)
    · exact .raised (by simp)
    · have imported : job.importedAt.isSome := by
        simp only [Job.rejectImportedJobUpdate, Bool.and_eq_true] at rejected
        exact rejected.1
      rcases native with own | ⟨lifecycle, _⟩
      · simp [own] at imported
      exact .importedRefused found imported lifecycle
    · exact .checkRefused found w (native_of_passed native passed) violated

theorem act_updateJob (found : db.jobs.get? job.id = some job)
    (w : Write env op db job now changes []) (native : job.importedAt = none) :
    Act env op db (db.updateJob job (written job changes [])) := by
  cases result : db.updateJob job (written job changes []) with
  | ok =>
    obtain ⟨fits, _, checked, rfl⟩ := Db.updateJob_eq_ok_iff.1 result
    have act := Act.write found w native checked fits
    simpa only [Db.afterWrite, appended, entries, List.append_nil] using act
  | error =>
    rcases Db.updateJob_eq_error result with rfl | ⟨rfl, rejected⟩ | ⟨_, rfl, _, violated⟩
    · exact .raised (by simp)
    · simp [rejectImportedJobUpdate_native native] at rejected
    exact .checkRefused found w native violated

/-! ### Acts on rows -/

def RowsRelated (R : Job → Job → Prop) (db db' : Db) : Prop :=
  ∀ id job, db.jobs.get? id = some job → ∃ job', db'.jobs.get? id = some job' ∧ R job job'

variable {R : Job → Job → Prop}

theorem RowsRelated.refl (refl : ∀ job, R job job) (db : Db) : RowsRelated R db db :=
  fun _ job found => ⟨job, found, refl job⟩

theorem RowsRelated.trans (trans : ∀ a b c, R a b → R b c → R a c) {db₁ db₂ db₃ : Db}
    (first : RowsRelated R db₁ db₂) (second : RowsRelated R db₂ db₃) :
    RowsRelated R db₁ db₃ := by
  intro id job found
  obtain ⟨job', found', related⟩ := first id job found
  obtain ⟨job'', found'', related'⟩ := second id job' found'
  exact ⟨job'', found'', trans _ _ _ related related'⟩

theorem Act.rowsRelated {db' : Db} (refl : ∀ job, R job job)
    (write : ∀ {job changes events now}, db.jobs.get? job.id = some job →
      Write env op db job now changes events → job.importedAt = none →
      R job (written job changes events)) (act : Act env op db (.ok db')) :
    RowsRelated R db db' := by
  intro id job found
  cases act with
  | context changed => exact ⟨job, changed.jobs ▸ found, refl job⟩
  | @insert row fresh =>
    refine ⟨job, ?_, refl job⟩
    have known : id ≠ row.id := by
      rintro rfl
      rw [fresh] at found
      cases found
    simp only [get?_add, if_neg known, found]
  | importEvents => exact ⟨job, found, refl job⟩
  | @write old _ _ _ stored w native =>
    by_cases same : id = old.id
    · subst same
      rw [stored] at found
      cases found
      exact ⟨_, Db.get?_afterWrite_self stored, write stored w native⟩
    · exact ⟨job, (db.get?_afterWrite_other same).trans found, refl job⟩

theorem Act.allRows {db' : Db} {P : Job → Prop} (insert : ∀ {row : Job}, row.Checked →
      row.Requested ∧ row.importedAt = none ∨ row.importedAt.isSome →
      Db.reasonFits row = true → P row)
    (write : ∀ {job changes events now}, P job → Write env op db job now changes events →
      job.importedAt = none → (written job changes events).Checked →
      Db.reasonFits (written job changes events) = true → P (written job changes events))
    (all : ∀ job ∈ db.jobs, P job) (act : Act env op db (.ok db')) : ∀ job ∈ db'.jobs, P job := by
  intro job member
  cases act with
  | context changed => exact all job (changed.jobs ▸ member)
  | @insert row fresh checked _ new fits =>
    have either : job ∈ db.jobs ∨ job = row := (mem_add fresh).1 member
    rcases either with old | rfl
    · exact all job old
    · exact insert checked new fits
  | importEvents => exact all job member
  | write stored w native checked fits =>
    rcases Db.mem_afterWrite member with rfl | ⟨old, _⟩
    · exact write (all _ (mem_of_get? stored)) w native checked fits
    · exact all job old

end Renga.Jobs
