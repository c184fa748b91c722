import Renga.Jobs.Constraints

/-!
# The row is a projection of the history

`Renga.Jobs.Job` calls its row a projection of the job's events.  `Projection.record` reads
one event, and folding it over the events of a job gives the job's state, how often it was
leased and whether its cancellation was requested.  `Job.Recorded` ties a row to its events:
they are numbered `1` to `last_sequence`, their fold is the row's projection, and the
payloads of the agent's reports add up to `output_bytes`.
-/

namespace Renga.Jobs

open List KeyTable

variable {env : Env} {op : Op} {db : Db}

/-! ### The projection -/

structure Projection where
  state : JobState
  attempts : ℤ
  cancelRequested : Bool
  deriving DecidableEq

variable {first second : List JobEvent}

namespace Projection

def start : Projection := { state := .queued, attempts := 0, cancelRequested := false }

def outcomeState (payload : Payload) : JobState :=
  if Json.get? payload "outcome" = some (.string "succeeded") then .succeeded else .failed

/-- One event of the history.  A lost lease puts the job back in the queue unless the
event after it says otherwise. -/
def record (p : Projection) (type : EventType) (payload : Payload) : Projection :=
  match type with
  | .created => start
  | .leased => { p with state := .leased, attempts := p.attempts + 1 }
  | .started => { p with state := .running }
  | .progress => p
  | .output => p
  | .succeeded => { p with state := .succeeded }
  | .failed => { p with state := .failed }
  | .cancelRequested => { p with cancelRequested := true }
  | .cancelled => { p with state := .cancelled }
  | .leaseLost => { p with state := .queued }
  | .expired => { p with state := .expired }
  | .uncertain => { p with state := .uncertain }
  | .resolved => { p with state := outcomeState payload }

def fold (p : Projection) (events : List JobEvent) : Projection :=
  events.foldl (fun p event => p.record event.type event.payload) p

theorem fold_append {p : Projection} : p.fold (first ++ second) = (p.fold first).fold second :=
  foldl_append

end Projection

def Job.projection (job : Job) : Projection :=
  { state := job.state, attempts := job.attempts, cancelRequested := job.cancelRequestedAt.isSome }

def JobEvent.isAgentReport (event : JobEvent) : Bool :=
  match event.actor, event.type with
  | .agent _, .started | .agent _, .progress | .agent _, .output | .agent _, .succeeded
  | .agent _, .failed | .agent _, .cancelled => true
  | _, _ => false

def reportedBytes (events : List JobEvent) : ℤ :=
  ((events.filter JobEvent.isAgentReport).map fun event => (payloadBytes event.payload : ℤ)).sum

theorem reportedBytes_append :
    reportedBytes (first ++ second) = reportedBytes first + reportedBytes second := by
  simp [reportedBytes]

def numbers (n : ℕ) : List ℤ := (range n).map fun i : ℕ => (i : ℤ) + 1

theorem numbers_add {n k : ℕ} :
    numbers (n + k) = numbers n ++ (range k).map fun i : ℕ => (n : ℤ) + 1 + i := by
  simp only [numbers, range_add, map_append, map_map, append_cancel_left_eq]
  refine map_congr_left fun _ _ => ?_
  simp only [Function.comp, Nat.cast_add]
  omega

structure Job.Recorded (job : Job) (events : List JobEvent) : Prop where
  last : job.lastSequence = events.length
  sequences : events.map JobEvent.sequence = numbers events.length
  projected : Projection.start.fold events = job.projection
  output : job.outputBytes = reportedBytes events

/-! ### Writes keep row and events together -/

variable {attempt sequence : ℤ}

theorem sequences_entries {job : Job} {now : Time} {events : List EventParts} :
    (entries job attempt now sequence events).map JobEvent.sequence
      = (range events.length).map fun i : ℕ => sequence + i := by
  induction events generalizing sequence with
  | nil => rfl
  | cons _ _ ih =>
    simp only [entries, map_cons, ih, length_cons, range_succ_eq_map,
      map_map, Nat.cast_zero, add_zero, cons.injEq, true_and]
    refine map_congr_left fun _ _ => ?_
    simp only [Function.comp, Nat.succ_eq_add_one, Nat.cast_add, Nat.cast_one]
    omega

theorem fold_entries (p : Projection) (job : Job) (attempt : ℤ) (now : Time) (sequence : ℤ)
    (events : List EventParts) :
    p.fold (entries job attempt now sequence events)
      = events.foldl (fun p parts => p.record parts.type parts.payload) p := by
  induction events generalizing p sequence with
  | nil => rfl
  | cons _ _ ih => exact ih _ _

variable {job : Job} {now : Time} {changes : Changes} {events : List EventParts}

theorem Write.projected (w : Write env op db job now changes events) :
    events.foldl (fun p parts => p.record parts.type parts.payload) job.projection
      = (written job changes events).projection := by
  cases w with
  | created _ _ requested =>
    simp [Projection.record, Projection.start, Job.projection, written, Job.change, numbered,
      requested.queued, requested.unleased, requested.unwanted]
  | cancelled | cancelRequested | suspended | leased | claimed | refused => rfl
  | @reported _ _ report _ _ _ _ _ _ _ _ _ changed =>
    have effect := reportChanges!_effect changed
    generalize report.type = type at effect
    cases effect with
    | started => rfl
    | working working => rcases working with rfl | rfl <;> rfl
    | ended final =>
      rcases finalReports_cases final with ⟨rfl, rfl⟩ | ⟨rfl, rfl⟩ | ⟨rfl, rfl⟩ <;> rfl
  | lapsed =>
    rcases lapseNext_cases job now with ⟨next, _⟩ | ⟨next, _⟩ | ⟨next, _⟩ | ⟨next, _⟩ <;>
      rw [next] <;> rfl
  | expired => rfl
  | resolved _ outcome _ details =>
    have named : Json.get? (putField details "outcome" (.string outcome.state.text)) "outcome"
        = some (.string outcome.state.text) := get?_putField
    have read : Projection.outcomeState
        (putField details "outcome" (.string outcome.state.text)) = outcome.state := by
      rw [Projection.outcomeState, named]
      cases outcome <;> decide
    simp only [foldl_cons, foldl_nil, Projection.record, read]
    rfl
  | offered | offerTaken => rfl

theorem reportedBytes_report {type : ReportType} {agentId : Uuid} {payload : Payload}
    {reportSequence : Option ℤ} :
    reportedBytes (entries job attempt now sequence
      [{ type := type.eventType, actor := .agent agentId, payload, reportSequence }])
      = payloadBytes payload := by
  cases type <;>
    simp [entries, reportedBytes, filter_cons, JobEvent.isAgentReport, ReportType.eventType]

theorem Write.output (w : Write env op db job now changes events) :
    (written job changes events).outputBytes
      = job.outputBytes + reportedBytes (appended job changes events now) := by
  have silent : changes.outputBytes = none → reportedBytes (appended job changes events now) = 0 →
      (written job changes events).outputBytes
        = job.outputBytes + reportedBytes (appended job changes events now) := by
    intro same none_
    rw [none_, add_zero]
    simp [written, Job.change, numbered, same]
  cases w with
  | created =>
    exact silent rfl (by simp [appended, entries, reportedBytes, JobEvent.isAgentReport])
  | cancelled actor person =>
    refine silent rfl ?_
    cases actor with
    | agent id => exact absurd rfl (person id)
    | user | system => rfl
  | cancelRequested =>
    exact silent rfl (by simp [appended, entries, reportedBytes, JobEvent.isAgentReport])
  | suspended | leased | claimed | refused => exact silent rfl rfl
  | reported =>
    rw [appended, reportedBytes_report]
    rfl
  | lapsed =>
    refine silent rfl ?_
    rcases lapseNext_cases job now with ⟨next, _⟩ | ⟨next, _⟩ | ⟨next, _⟩ | ⟨next, _⟩ <;>
      rw [next] <;> rfl
  | expired => exact silent rfl rfl
  | resolved =>
    exact silent rfl (by simp [appended, entries, reportedBytes, JobEvent.isAgentReport])
  | offered | offerTaken => exact silent rfl rfl

theorem Write.recorded (w : Write env op db job now changes events) {history : List JobEvent}
    (recorded : job.Recorded history) :
    (written job changes events).Recorded (history ++ appended job changes events now) where
  last := by
    have counted : (written job changes events).lastSequence
        = job.lastSequence + events.length := rfl
    rw [counted, recorded.last]
    simp [appended]
  sequences := by
    rw [map_append, recorded.sequences, appended, sequences_entries, recorded.last,
      length_append, length_entries, numbers_add]
  projected := by
    rw [Projection.fold_append, recorded.projected, appended, fold_entries, w.projected]
  output := by
    rw [w.output, recorded.output, reportedBytes_append]

/-! ### Histories over a run -/

theorem Db.eventsOf_append {events : List JobEvent} {id : Uuid} :
    ({ db with jobEvents := db.jobEvents ++ events } : Db).eventsOf id
      = db.eventsOf id ++ events.filter fun event => decide (event.jobId = id) := by
  simp [Db.eventsOf]

theorem Db.eventsOf_afterWrite_self (db : Db) (job : Job) (changes : Changes)
    (events : List EventParts) (now : Time) :
    (db.afterWrite job changes events now).eventsOf job.id
      = db.eventsOf job.id ++ appended job changes events now := by
  have own : (appended job changes events now).filter (fun event => decide (event.jobId = job.id))
      = appended job changes events now := by
    refine filter_eq_self.2 fun _ member => ?_
    simpa using (mem_entries member).1
  rw [Db.eventsOf, Db.afterWrite, filter_append, own]
  rfl

theorem Db.eventsOf_afterWrite_other {id : Uuid} (other : id ≠ job.id) :
    (db.afterWrite job changes events now).eventsOf id = db.eventsOf id := by
  have none_ : (appended job changes events now).filter (fun event => decide (event.jobId = id))
      = [] := by
    refine filter_eq_nil_iff.2 fun _ member => ?_
    simpa [(mem_entries member).1] using Ne.symm other
  rw [Db.eventsOf, Db.afterWrite, filter_append, none_, append_nil]
  rfl

/-- Every event belongs to a stored job, and the rows of this installation are
recorded by their events. -/
structure Db.Recorded (db : Db) : Prop where
  owned : ∀ event ∈ db.jobEvents, ∃ job, db.jobs.get? event.jobId = some job
  rows : ∀ job ∈ db.jobs, job.importedAt = none → job.Recorded (db.eventsOf job.id)

theorem requested_recorded {row : Job} (requested : row.Requested) : row.Recorded [] where
  last := requested.unnumbered
  sequences := rfl
  projected := by
    simp [Projection.fold, Projection.start, Job.projection, requested.queued,
      requested.unleased, requested.unwanted]
  output := requested.silent

variable (owns : ∀ event ∈ db.jobEvents, ∃ job, db.jobs.get? event.jobId = some job)

include owns in
theorem eventsOf_fresh {id : Uuid} (fresh : db.jobs.get? id = none) : db.eventsOf id = [] := by
  refine filter_eq_nil_iff.2 fun event member => ?_
  obtain ⟨_, found⟩ := owns event member
  have other : event.jobId ≠ id := by
    rintro rfl
    rw [fresh] at found
    cases found
  simpa using other

variable {db' : Db}

theorem Act.jobs_persist (act : Act env op db (.ok db')) {id : Uuid}
    (found : db.jobs.get? id = some job) : ∃ job', db'.jobs.get? id = some job' := by
  obtain ⟨job', found', _⟩ := act.rowsRelated (R := fun _ _ => True) (fun _ => trivial)
    (fun _ _ _ => trivial) id job found
  exact ⟨job', found'⟩

theorem imported_foreign {events : List JobEvent}
    (imported : ∀ event ∈ events, ∃ job, db.jobs.get? event.jobId = some job ∧
      job.importedAt.isSome) {row : Job} (stored : row ∈ db.jobs) (native : row.importedAt = none) :
    events.filter (fun event => decide (event.jobId = row.id)) = [] := by
  refine filter_eq_nil_iff.2 fun event member => ?_
  obtain ⟨_, found, foreign⟩ := imported event member
  have apart : event.jobId ≠ row.id := by
    intro same
    rw [same, get?_of_mem stored] at found
    cases found
    simp [native] at foreign
  simpa using apart

/-- The property holds of every row of this installation together with its events. -/
def Db.Histories (P : Job → List JobEvent → Prop) (db : Db) : Prop :=
  ∀ job ∈ db.jobs, job.importedAt = none → P job (db.eventsOf job.id)

variable {P : Job → List JobEvent → Prop}

theorem Db.Histories.afterWrite (histories : db.Histories P)
    (write : P (written job changes events)
      (db.eventsOf job.id ++ appended job changes events now)) :
    (db.afterWrite job changes events now).Histories P := by
  intro row stored native
  rcases Db.mem_afterWrite stored with rfl | ⟨old, other⟩
  · change P (written job changes events) ((db.afterWrite job changes events now).eventsOf job.id)
    rw [Db.eventsOf_afterWrite_self]
    exact write
  rw [Db.eventsOf_afterWrite_other other]
  exact histories row old native

include owns in
/-- An act keeps a property of rows with their events when a requested job has it
without events and a write keeps it with the events it appends. -/
theorem Act.histories (insert : ∀ {row : Job}, row.Requested → P row [])
    (write : ∀ {job changes events now}, Write env op db job now changes events →
      P job (db.eventsOf job.id) →
      P (written job changes events) (db.eventsOf job.id ++ appended job changes events now))
    (histories : db.Histories P) (act : Act env op db (.ok db')) : db'.Histories P := by
  cases act with
  | context changed =>
    intro row stored native
    rw [Db.eventsOf, changed.jobEvents]
    exact histories row (changed.jobs ▸ stored) native
  | @insert new fresh _ _ requested =>
    intro row stored native
    have either : row ∈ db.jobs ∨ row = new := (mem_add fresh).1 stored
    rcases either with old | rfl
    · exact histories row old native
    have none_ : db.eventsOf row.id = [] := eventsOf_fresh owns fresh
    change P row (db.eventsOf row.id)
    rw [none_]
    rcases requested with ⟨requested, _⟩ | imported
    · exact insert requested
    · simp [native] at imported
  | importEvents imported =>
    intro row stored native
    rw [Db.eventsOf_append, imported_foreign imported stored native, append_nil]
    exact histories row stored native
  | @write job _ _ _ found w own =>
    exact histories.afterWrite (write w (histories job (mem_of_get? found) own))

include owns in
theorem Act.owned (act : Act env op db (.ok db')) :
    ∀ event ∈ db'.jobEvents, ∃ job, db'.jobs.get? event.jobId = some job := by
  have persists : ∀ event ∈ db.jobEvents, ∃ job, db'.jobs.get? event.jobId = some job := by
    intro event member
    obtain ⟨job, found⟩ := owns event member
    exact act.jobs_persist found
  intro event member
  cases act with
  | context changed => exact persists event (changed.jobEvents ▸ member)
  | insert => exact persists event member
  | importEvents imported =>
    rcases mem_append.1 member with old | new
    · exact owns event old
    obtain ⟨job, found, _⟩ := imported event new
    exact ⟨job, found⟩
  | @write _ _ _ _ found =>
    rcases mem_append.1 member with old | new
    · exact persists event old
    rw [(mem_entries new).1]
    exact ⟨_, Db.get?_afterWrite_self found⟩

theorem Act.recorded (recorded : db.Recorded) (act : Act env op db (.ok db')) : db'.Recorded where
  owned := act.owned recorded.owned
  rows := act.histories recorded.owned requested_recorded (fun w => w.recorded) recorded.rows

theorem step_recorded (recorded : db.Recorded) : (step env db op).Recorded :=
  step_invariant op (fun h act => act.recorded h) recorded

theorem recorded_empty : Db.Recorded {} where
  owned := fun _ member => absurd member not_mem_nil
  rows := fun _ member => absurd member (not_mem_empty _)

theorem run_recorded {ops : List Op} : (run env {} ops).Recorded :=
  Run.run_invariant (fun _ _ recorded => step_recorded recorded) recorded_empty ops

theorem step_eventsOf {id : Uuid} :
    ∃ new, (step env db op).eventsOf id = db.eventsOf id ++ new := by
  refine step_relates (P := fun _ => True)
    (R := fun db db' => ∃ new, db'.eventsOf id = db.eventsOf id ++ new) op (fun _ _ => trivial)
    (fun _ => ⟨[], (append_nil _).symm⟩) (fun _ _ _ first second => ?_)
    (fun _ act => ?_) trivial
  · obtain ⟨new, first⟩ := first
    obtain ⟨new', second⟩ := second
    exact ⟨new ++ new', by rw [second, first, append_assoc]⟩
  cases act with
  | context changed => exact ⟨[], by rw [Db.eventsOf, changed.jobEvents, append_nil]; rfl⟩
  | insert => exact ⟨[], (append_nil _).symm⟩
  | importEvents | write => exact ⟨_, Db.eventsOf_append⟩

theorem step_imported : RowsRelated (fun job job' => job'.importedAt = job.importedAt)
    db (step env db op) :=
  step_rowsRelated (R := fun job job' => job'.importedAt = job.importedAt) (fun _ => rfl)
    (fun _ _ _ first second => second.trans first) op fun _ _ => rfl

/-- Along every run the history explains the row: the events of a job are numbered
exactly `1` to `last_sequence`, their fold is the row's state, attempts and requested
cancellation, and the payloads of the agent's reports add up to `output_bytes`.  The
next operation appends events to the history and counts them in the row; it changes
the state only where it appends one. -/
theorem run_history_explains_row (env : Env) (ops : List Op) :
    let db := run env {} ops
    ∀ job ∈ db.jobs, job.importedAt = none → job.lastSequence = (db.eventsOf job.id).length ∧
      (db.eventsOf job.id).map JobEvent.sequence = numbers (db.eventsOf job.id).length ∧
      Projection.start.fold (db.eventsOf job.id) = job.projection ∧
      job.outputBytes = reportedBytes (db.eventsOf job.id) ∧
      ∀ op, ∃ job' new, (step env db op).jobs.get? job.id = some job' ∧
        (step env db op).eventsOf job.id = db.eventsOf job.id ++ new ∧
        job'.lastSequence = job.lastSequence + new.length ∧
        (job'.state ≠ job.state → new ≠ []) := by
  intro db job stored native
  have recorded : db.Recorded := run_recorded
  have row := recorded.rows job stored native
  refine ⟨row.last, row.sequences, row.projected, row.output, fun op => ?_⟩
  have next : (step env db op).Recorded := step_recorded recorded
  obtain ⟨new, grown⟩ : ∃ new, (step env db op).eventsOf job.id = db.eventsOf job.id ++ new :=
    step_eventsOf
  obtain ⟨job', found, same⟩ : ∃ job', (step env db op).jobs.get? job.id = some job' ∧
      job'.importedAt = job.importedAt := step_imported job.id job (get?_of_mem stored)
  have target : job'.id = job.id := key_of_get? found
  have row' := next.rows job' (mem_of_get? found) (same.trans native)
  rw [target, grown] at row'
  refine ⟨job', new, found, grown, ?_, fun moved empty => moved ?_⟩
  · rw [row'.last, row.last]
    simp
  have projected := row'.projected
  rw [empty, append_nil, row.projected] at projected
  exact (congrArg Projection.state projected).symm

end Renga.Jobs
