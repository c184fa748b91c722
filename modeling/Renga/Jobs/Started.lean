import Renga.Jobs.Delivery

/-!
# A job that was started

An `imperative` job may have acted on its host once it was started, so it is never run
again: from `running` it goes to a final state or, when its lease lapses, to `uncertain`
(`Job.StartedForGood`).
-/

namespace Renga.Jobs

open List KeyTable

variable {env : Env} {op : Op} {db : Db} {accepted : List (Uuid × Digest)}

/-! ### Started for good -/

def Started (events : List JobEvent) : Prop := ∃ event ∈ events, event.type = .started

def JobState.Waiting (state : JobState) : Prop := state = .queued ∨ state = .leased

variable {job : Job} {now : Time} {changes : Changes} {events : List EventParts}

/-- A write that leaves an imperative job waiting found it waiting, and does not say
that it was started. -/
theorem Write.waiting (w : Write env op db job now changes events)
    (imperative : job.retryClass = .imperative)
    (waiting : (written job changes events).state.Waiting) :
    job.state.Waiting ∧ ∀ parts ∈ events, parts.type ≠ .started := by
  cases w with
  | created => exact ⟨waiting, by simp⟩
  | cancelled => rcases waiting with h | h <;> cases h
  | cancelRequested | suspended => exact ⟨waiting, by simp⟩
  | leased _ _ queued => exact ⟨.inl queued, by simp⟩
  | claimed _ _ _ _ current =>
    simp only [SignedLeases.currentOffer?, Bool.and_eq_true, decide_eq_true_eq] at current
    exact ⟨.inl current.1.1.1.1, by simp⟩
  | refused => rcases waiting with h | h <;> cases h
  | reported _ _ _ _ _ _ _ changed =>
    have effect := reportChanges!_effect changed
    generalize Report.type _ = type at effect
    cases effect with
    | started => rcases waiting with h | h <;> cases h
    | working _ running =>
      have still : job.state.Waiting := waiting
      rw [running] at still
      rcases still with h | h <;> cases h
    | ended final =>
      rcases finalReports_cases final with ⟨_, rfl⟩ | ⟨_, rfl⟩ | ⟨_, rfl⟩ <;>
        rcases waiting with h | h <;> cases h
  | lapsed due =>
    have held := held_of_sweepCondition due
    have next : (lapseNext job now).Waiting := waiting
    -- A running imperative job becomes uncertain, so the job was only leased.
    have unstarted : job.state ≠ .running := by
      intro running
      rw [lapseNext, if_pos ⟨running, imperative⟩] at next
      rcases next with h | h <;> cases h
    refine ⟨.inr ?_, ?_⟩
    · simpa [leasedStates, unstarted] using held
    rcases lapseNext_cases job now with ⟨h, _⟩ | ⟨h, _⟩ | ⟨h, _⟩ | ⟨h, _⟩ <;>
      simp [h, lapseEvents, lapseFinalEvents]
  | expired => rcases waiting with h | h <;> cases h
  | resolved _ outcome => cases outcome <;> rcases waiting with h | h <;> cases h
  | offered | offerTaken => exact ⟨waiting, by simp⟩

theorem started_append {first second : List JobEvent} :
    Started (first ++ second) ↔ Started first ∨ Started second := by
  simp only [Started, mem_append, or_and_right, exists_or]

theorem started_appended (started : Started (appended job changes events now)) :
    ∃ parts ∈ events, parts.type = .started := by
  obtain ⟨_, member, type⟩ := started
  obtain ⟨_, _, _, parts, found, same, _⟩ := mem_entries member
  exact ⟨parts, found, same ▸ type⟩

def Job.StartedForGood (job : Job) (events : List JobEvent) : Prop :=
  job.retryClass = .imperative → Started events → ¬ job.state.Waiting

variable {history : List JobEvent}

theorem Write.startedForGood (w : Write env op db job now changes events)
    (good : job.StartedForGood history) :
    (written job changes events).StartedForGood (history ++ appended job changes events now) := by
  intro imperative started waiting
  obtain ⟨before, unstarted⟩ := w.waiting imperative waiting
  rcases started_append.1 started with past | now_
  · exact good imperative past before
  obtain ⟨parts, member, type⟩ := started_appended now_
  exact unstarted parts member type

theorem requested_startedForGood {row : Job} : row.StartedForGood [] := by
  rintro _ ⟨_, member, _⟩
  cases member

/-! ### Tokens and attempts -/

/-- While a job is leased, reports and replays go under the same token; no event belongs
to a later attempt. -/
structure Job.TokensKept (job : Job) (events : List JobEvent) : Prop where
  held : job.state ∈ leasedStates → job.reportTokenHash = job.leaseTokenHash
  attempts : ∀ event ∈ events, event.attempt ≤ job.attempts

/-- Whoever may replay the `started` report of the current attempt is on the list. -/
def Job.Answerable (accepted : List (Uuid × Digest)) (job : Job) (events : List JobEvent) : Prop :=
  ∀ event ∈ events, event.type = .started → event.attempt = job.attempts →
    ∀ digest, job.reportTokenHash = some digest → (job.id, digest) ∈ accepted

variable (w : Write env op db job now changes events)
include w

/-- A write leases the job for its next attempt, or it stays in the attempt and the
report token is kept or cleared. -/
theorem Write.attempt :
    changes.attempts = some (job.attempts + 1) ∨ (changes.attempts = none ∧
        (changes.reportTokenHash = none ∨ changes.reportTokenHash = some none)) := by
  cases w with
  | leased | claimed => exact .inl rfl
  | reported _ _ _ _ _ _ _ changed =>
    have effect := reportChanges!_effect changed
    generalize Report.type _ = type at effect
    cases effect <;> exact .inr ⟨rfl, .inl rfl⟩
  | lapsed => exact .inr ⟨rfl, .inr rfl⟩
  | resolved _ outcome => cases outcome <;> exact .inr ⟨rfl, .inl rfl⟩
  | created | cancelled | cancelRequested | suspended | refused
  | expired | offered | offerTaken => exact .inr ⟨rfl, .inl rfl⟩

theorem Write.held (held : job.state ∈ leasedStates → job.reportTokenHash = job.leaseTokenHash)
    (leased : (written job changes events).state ∈ leasedStates) :
    (written job changes events).reportTokenHash = (written job changes events).leaseTokenHash := by
  cases w with
  | leased | claimed => rfl
  | reported _ _ _ _ _ held_ _ changed =>
    have before : job.state ∈ leasedStates := by
      simp only [leaseHeld?, Bool.and_eq_true, decide_eq_true_eq] at held_
      exact held_.1.1.1
    have effect := reportChanges!_effect changed
    generalize Report.type _ = type at effect
    cases effect with
    | started | working => exact held before
    | ended final =>
      rcases finalReports_cases final with ⟨_, rfl⟩ | ⟨_, rfl⟩ | ⟨_, rfl⟩ <;>
        simp [written, numbered, reportedChanges, finish, leasedStates] at leased
  | lapsed => rfl
  | cancelled | refused | expired =>
    simp [written, numbered, leasedStates] at leased
  | resolved _ outcome =>
    cases outcome <;>
      simp [written, numbered, leasedStates, resolveChanges, Outcome.state] at leased
  | created | cancelRequested | suspended | offered | offerTaken =>
    exact held leased

theorem Write.attempts_le : job.attempts ≤ (written job changes events).attempts := by
  rcases w.attempt with next | ⟨same, _⟩
  · simp only [written, numbered, Job.change_attempts, next, Option.getD_some]
    omega
  · simp [written, numbered, same]

theorem Write.tokensKept (kept : job.TokensKept history) :
    (written job changes events).TokensKept (history ++ appended job changes events now) where
  held := w.held kept.held
  attempts := by
    intro event member
    rcases mem_append.1 member with old | new
    · exact (kept.attempts event old).trans w.attempts_le
    obtain ⟨_, attempt, _⟩ := mem_entries new
    exact attempt.le

theorem Write.answerable (listed : (∃ parts ∈ events, parts.type = .started) → ∀ digest,
      (written job changes events).reportTokenHash = some digest → (job.id, digest) ∈ accepted)
    (kept : job.TokensKept history) (answerable : job.Answerable accepted history) :
    (written job changes events).Answerable accepted
      (history ++ appended job changes events now) := by
  intro event member type attempt digest token
  rcases mem_append.1 member with old | new
  · rcases w.attempt with next | ⟨same, token_⟩
    -- The event is of an attempt before the one that starts now.
    · have now_ : event.attempt = job.attempts + 1 := by
        rw [attempt]
        simp [written, numbered, next]
      have before := kept.attempts event old
      omega
    have current : event.attempt = job.attempts := by
      rw [attempt]
      simp [written, numbered, same]
    rcases token_ with kept_ | cleared
    · have unchanged : job.reportTokenHash = some digest := by
        rw [← token]
        simp [written, numbered, kept_]
      exact answerable event old type current digest unchanged
    · simp [written, numbered, cleared] at token
  · exact listed (started_appended ⟨event, new, type⟩) digest token

omit w

/-! ### Accepted starts -/

/-- The `started` report an operation is accepted with: it moves the job from `leased`
to `running`. -/
def acceptance (env : Env) (db : Db) : Op → List (Uuid × Digest)
  | .report organizationId installationId report now =>
    let moved := step env db (.report organizationId installationId report now)
    if (db.jobs.get? report.jobId).map Job.state = some .leased ∧
        (moved.jobs.get? report.jobId).map Job.state = some .running then
      [(report.jobId, env.hashToken report.token)]
    else []
  | _ => []

theorem eventType_eq_started {type : ReportType} (h : type.eventType = .started) :
    type = .started := by
  cases type <;> first | rfl | cases h

def Op.IsReport : Op → Prop
  | .report .. => True
  | _ => False

theorem acceptance_eq_nil (env : Env) (db : Db) (silent : ¬ op.IsReport) :
    acceptance env db op = [] := by
  cases op with
  | report => exact absurd trivial silent
  | _ => rfl

theorem Write.unstarted (w : Write env op db job now changes events) (silent : ¬ op.IsReport) :
    ∀ parts ∈ events, parts.type ≠ .started := by
  cases w with
  | reported asked =>
    subst asked
    exact absurd trivial silent
  | lapsed =>
    rcases lapseNext_cases job now with ⟨h, _⟩ | ⟨h, _⟩ | ⟨h, _⟩ | ⟨h, _⟩ <;>
      simp [h, lapseEvents, lapseFinalEvents]
  | created | cancelled | cancelRequested | suspended | leased
  | claimed | refused | expired | resolved | offered
  | offerTaken => simp

/-- What a row, its history and the starts accepted so far have to do with each other. -/
structure Job.Accounted (accepted : List (Uuid × Digest)) (job : Job) (events : List JobEvent) :
    Prop where
  good : job.StartedForGood events
  kept : job.TokensKept events
  answerable : job.Answerable accepted events

theorem requested_accounted {row : Job}
    (requested : row.Requested) : row.Accounted accepted [] where
  good := requested_startedForGood
  kept := ⟨fun leased => by simp [requested.queued, leasedStates] at leased,
    fun _ member => by cases member⟩
  answerable := fun _ member => by cases member

theorem Job.Accounted.mono {accepted' : List (Uuid × Digest)}
    (sub : ∀ entry ∈ accepted, entry ∈ accepted') {events : List JobEvent}
    (accounted : job.Accounted accepted events) : job.Accounted accepted' events :=
  { accounted with
    answerable := fun event member type attempt digest token =>
      sub _ (accounted.answerable event member type attempt digest token) }

theorem Write.accounted (w : Write env op db job now changes events)
    (listed : (∃ parts ∈ events, parts.type = .started) → ∀ digest,
      (written job changes events).reportTokenHash = some digest → (job.id, digest) ∈ accepted)
    (accounted : job.Accounted accepted history) :
    (written job changes events).Accounted accepted
      (history ++ appended job changes events now) where
  good := w.startedForGood accounted.good
  kept := w.tokensKept accounted.kept
  answerable := w.answerable listed accounted.kept accounted.answerable

variable {organizationId : Uuid} {installationId : String} {report : Report}

/-- A report that is recorded as a start was sent under the token both digests belong to,
and is an acceptance. -/
theorem Recording.started {agent : Agent} {payload : Payload}
    (recording : Recording env db job agent report now changes payload)
    (found : db.jobs.get? report.jobId = some job)
    (stepped : step env db (.report organizationId installationId report now)
      = db.afterWrite job (recordedChanges job changes payload now)
        [reportEvent agent report payload] now) (type : report.type = .started) :
    acceptance env db (.report organizationId installationId report now)
        = [(job.id, env.hashToken report.token)] ∧
      job.state = .leased ∧ job.leaseTokenHash = some (env.hashToken report.token) ∧
      (written job (recordedChanges job changes payload now)
        [reportEvent agent report payload]).reportTokenHash = job.reportTokenHash := by
  have target : job.id = report.jobId := key_of_get? found
  have held := recording.held
  simp only [leaseHeld?, Bool.and_eq_true, decide_eq_true_eq] at held
  have effect := reportChanges!_effect recording.changed
  rw [type] at effect
  cases effect with
  | started leased =>
    refine ⟨?_, leased, held.2, rfl⟩
    rw [← target] at found
    rw [acceptance, stepped, ← target, found, Db.get?_afterWrite_self found]
    exact if_pos ⟨congrArg some leased, rfl⟩
  | working working => rcases working with h | h <;> cases h
  | ended final => simp [finalReports] at final

/-- A `started` report the server records for `job`, under `digest`. -/
inductive Starts (env : Env) (db : Db) (job : Job) (digest : Digest) : Op → Prop
  | intro {organizationId : Uuid} {installationId : String} {report : Report} {now : Time}
      {agent : Agent} {changes : Changes} {payload : Payload}
      (found : db.jobs.get? report.jobId = some job) (type : report.type = .started)
      (recording : Recording env db job agent report now changes payload)
      (stepped : step env db (.report organizationId installationId report now)
        = db.afterWrite job (recordedChanges job changes payload now)
          [reportEvent agent report payload] now)
      (same : digest = env.hashToken report.token) :
      Starts env db job digest (.report organizationId installationId report now)

variable {digest : Digest}

theorem starts_of_mem_acceptance {id : Uuid} (member : (id, digest) ∈ acceptance env db op) :
    ∃ job, job.id = id ∧ Starts env db job digest op := by
  cases op with
  | report organizationId installationId report now =>
    rw [acceptance] at member
    split at member
    · rename_i moved
      obtain ⟨rfl, rfl⟩ := Prod.mk.inj (mem_singleton.1 member)
      obtain ⟨before, after⟩ := moved
      rcases step_report organizationId installationId report now with
        same | ⟨agent, job, changes, payload, found, recording, stepped⟩
      · rw [same, before] at after
        cases after
      have target : job.id = report.jobId := key_of_get? found
      refine ⟨job, target, .intro found ?_ recording stepped rfl⟩
      rw [found] at before
      rw [stepped, ← target, Db.get?_afterWrite_self (target ▸ found)] at after
      have effect := reportChanges!_effect recording.changed
      generalize report.type = type at effect
      cases effect with
      | started => rfl
      | working _ running =>
        rw [Option.map_some, running] at before
        cases before
      | ended final =>
        rcases finalReports_cases final with ⟨_, rfl⟩ | ⟨_, rfl⟩ | ⟨_, rfl⟩ <;> cases after
    · cases member
  | _ => cases member

theorem Starts.started (starts : Starts env db job digest op) :
    db.jobs.get? job.id = some job ∧ job.importedAt = none ∧ job.state = .leased ∧
      job.leaseTokenHash = some digest ∧ acceptance env db op = [(job.id, digest)] ∧
      Started ((step env db op).eventsOf job.id) := by
  obtain ⟨found, type, recording, stepped, rfl⟩ := starts
  have target := key_of_get? found
  obtain ⟨accepts, leased, held, _⟩ := recording.started found stepped type
  refine ⟨target ▸ found, recording.native, leased, held, accepts, ?_⟩
  rw [stepped, Db.eventsOf_afterWrite_self]
  refine started_append.2 (.inr ⟨_, mem_cons_self, ?_⟩)
  exact congrArg ReportType.eventType type

/-! ### Tables and acceptances -/

def startsOf (id : Uuid) (accepted : List (Uuid × Digest)) : ℕ :=
  (accepted.filter fun entry => entry.1 = id).length

theorem startsOf_append {id : Uuid} {first second : List (Uuid × Digest)} :
    startsOf id (first ++ second) = startsOf id first + startsOf id second := by
  rw [startsOf, filter_append, length_append]
  rfl

theorem startsOf_eq_zero {id : Uuid} (absent : ∀ digest, (id, digest) ∉ accepted) :
    startsOf id accepted = 0 := by
  rw [startsOf, length_eq_zero_iff, filter_eq_nil_iff]
  intro entry member same
  have here : entry.1 = id := of_decide_eq_true same
  exact absent entry.2 (here ▸ member)

structure Accounted (db : Db) (accepted : List (Uuid × Digest)) : Prop where
  owned : ∀ event ∈ db.jobEvents, ∃ job, db.jobs.get? event.jobId = some job
  rows : db.Histories (Job.Accounted accepted)
  started : ∀ id digest, (id, digest) ∈ accepted →
    ∃ job, db.jobs.get? id = some job ∧ job.importedAt = none ∧ Started (db.eventsOf id)
  once : ∀ id job, db.jobs.get? id = some job → job.retryClass = .imperative →
    startsOf id accepted ≤ 1

theorem accounted_empty : Accounted {} [] where
  owned := fun _ member => by cases member
  rows := fun _ member => absurd member (not_mem_empty _)
  started := fun _ _ member => by cases member
  once := fun _ _ _ _ => Nat.zero_le 1

theorem retryClass_of_get? {id : Uuid} {job' : Job} (found : db.jobs.get? id = some job)
    (found' : (step env db op).jobs.get? id = some job') : job'.retryClass = job.retryClass := by
  obtain ⟨_, stored, same⟩ := step_rowsRelated (R := fun job job' => job'.retryClass
    = job.retryClass) (fun _ => rfl) (fun _ _ _ first second => second.trans first) op
    (fun _ _ => rfl) id job found
  rw [stored] at found'
  cases found'
  exact same

variable (accounted : Accounted db accepted)
include accounted

theorem Accounted.step_owned : ∀ event ∈ (step env db op).jobEvents,
    ∃ job, (step env db op).jobs.get? event.jobId = some job :=
  step_invariant (P := fun db : Db => ∀ event ∈ db.jobEvents, ∃ job,
    db.jobs.get? event.jobId = some job) op (fun owned act => act.owned owned) accounted.owned

theorem Accounted.step_rows :
    (step env db op).Histories (Job.Accounted (accepted ++ acceptance env db op)) := by
  by_cases reports : op.IsReport
  · cases op with
    | report organizationId installationId report now =>
      have old : db.Histories (Job.Accounted (accepted ++
          acceptance env db (.report organizationId installationId report now))) :=
        fun job stored native => (accounted.rows job stored native).mono
          fun _ member => mem_append_left _ member
      rcases step_report organizationId installationId report now with
        same | ⟨agent, job, changes, payload, found, recording, stepped⟩
      · rwa [same]
      rw [stepped]
      have w : Write env (.report organizationId installationId report now) db job now _ _ :=
        recording.write found
      have row := old job (mem_of_get? found) recording.native
      refine old.afterWrite (w.accounted ?_ row)
      -- The report token is the one the start was accepted under.
      rintro ⟨parts, member, type⟩ _ token
      have started : report.type = .started := by
        rw [mem_singleton.1 member] at type
        exact eventType_eq_started type
      obtain ⟨accepts, leased, held, same⟩ := recording.started found stepped started
      have agree := row.kept.held (by simp [leased, leasedStates])
      rw [same, agree, held] at token
      rw [accepts, Option.some.inj token]
      exact mem_append_right _ mem_cons_self
    | _ => cases reports
  rw [acceptance_eq_nil env db reports, append_nil]
  refine (step_invariant (P := fun db : Db => (∀ event ∈ db.jobEvents, ∃ job,
    db.jobs.get? event.jobId = some job) ∧ db.Histories (Job.Accounted accepted)) op
    (fun kept act => ⟨act.owned kept.1, act.histories kept.1 requested_accounted
      (fun w => w.accounted fun started => ?_) kept.2⟩) ⟨accounted.owned, accounted.rows⟩).2
  obtain ⟨parts, member, type⟩ := started
  exact absurd type (w.unstarted reports parts member)

theorem Accounted.step_started :
    ∀ id digest, (id, digest) ∈ accepted ++ acceptance env db op →
      ∃ job, (step env db op).jobs.get? id = some job ∧ job.importedAt = none ∧
        Started ((step env db op).eventsOf id) := by
  intro id digest member
  have persists : ∀ {job : Job}, db.jobs.get? id = some job → job.importedAt = none →
      ∃ job', (step env db op).jobs.get? id = some job' ∧ job'.importedAt = none := by
    intro job found native
    have related : RowsRelated _ db (step env db op) := step_imported
    obtain ⟨job', found', same⟩ := related id job found
    exact ⟨job', found', same.trans native⟩
  rcases mem_append.1 member with old | new
  · obtain ⟨job, found, native, started⟩ := accounted.started id digest old
    obtain ⟨job', found', native'⟩ := persists found native
    obtain ⟨_, grown⟩ : ∃ new, (step env db op).eventsOf id = db.eventsOf id ++ new :=
      step_eventsOf
    refine ⟨job', found', native', ?_⟩
    rw [grown]
    exact started_append.2 (.inl started)
  obtain ⟨_, rfl, starts⟩ := starts_of_mem_acceptance new
  obtain ⟨found, native, _, _, _, started⟩ := starts.started
  obtain ⟨job', found', native'⟩ := persists found native
  exact ⟨job', found', native', started⟩

theorem Accounted.step_once (id : Uuid) (job' : Job)
    (found' : (step env db op).jobs.get? id = some job')
    (imperative : job'.retryClass = .imperative) :
    startsOf id (accepted ++ acceptance env db op) ≤ 1 := by
  rw [startsOf_append]
  by_cases starts : ∃ digest, (id, digest) ∈ acceptance env db op
  · obtain ⟨digest, member⟩ := starts
    obtain ⟨job, rfl, starts⟩ := starts_of_mem_acceptance member
    obtain ⟨found, native, leased, _, one, _⟩ := starts.started
    have same : job'.retryClass = job.retryClass := retryClass_of_get? found found'
    have unstarted : ¬ Started (db.eventsOf job.id) := fun started =>
      (accounted.rows job (mem_of_get? found) native).good (same ▸ imperative) started (.inr leased)
    have none_ : startsOf job.id accepted = 0 := by
      refine startsOf_eq_zero fun digest listed => unstarted ?_
      obtain ⟨_, _, _, started⟩ := accounted.started job.id digest listed
      exact started
    rw [none_, one, Nat.zero_add]
    exact length_filter_le _ _
  rw [startsOf_eq_zero fun digest member => starts ⟨digest, member⟩, Nat.add_zero]
  cases found : db.jobs.get? id with
  | some job =>
    exact accounted.once id job found (retryClass_of_get? found found' ▸ imperative)
  | none =>
    rw [startsOf_eq_zero]
    · exact Nat.zero_le 1
    intro digest listed
    obtain ⟨_, stored, _⟩ := accounted.started id digest listed
    rw [found] at stored
    cases stored

theorem step_accounted :
    Accounted (step env db op) (accepted ++ acceptance env db op) where
  owned := accounted.step_owned
  rows := accounted.step_rows
  started := accounted.step_started
  once := accounted.step_once

theorem Accounted.acknowledged {db' : Db} {reply : Reply} (type : report.type = .started)
    (acknowledged : perform env db (.report organizationId installationId report now)
      = .ok (db', reply)) :
    (report.jobId, env.hashToken report.token) ∈
      accepted ++ acceptance env db (.report organizationId installationId report now) := by
  have stepped := step_of_ok acknowledged
  obtain ⟨_, _, _, reported, _⟩ := perform_report_eq_ok acknowledged
  obtain ⟨job, found, native, recorded⟩ := reportJob_eq_ok reported
  have target : job.id = report.jobId := key_of_get? found
  rw [← target]
  rcases recorded with ⟨_, _, recording, _, rfl⟩ | ⟨event, replaying, _, _⟩
  · obtain ⟨accepts, _⟩ := recording.started found stepped type
    rw [accepts]
    exact mem_append_right _ mem_cons_self
  -- A replay is answered under the token the start was accepted under.
  refine mem_append_left _ ?_
  have token := replaying.matches_
  simp only [reportTokenMatches?, Bool.and_eq_true, decide_eq_true_eq] at token
  cases sequence : report.sequence with
  | none =>
    have delivered := replaying.delivered
    rw [sequence] at delivered
    cases delivered
  | some =>
    obtain ⟨member, attempt, _⟩ := deliveredReport_eq_some (sequence ▸ replaying.delivered)
    have started : event.type = .started := by
      rw [replaying.type, type]
      rfl
    exact (accounted.rows job (mem_of_get? found) native).answerable event member
      started attempt _ token.2

omit accounted

end Renga.Jobs
