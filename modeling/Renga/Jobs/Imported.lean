import Renga.Jobs.History

/-!
# Imported jobs and the suspension of an organization

An imported job is history from another installation.
-/

namespace Renga.Jobs

open List KeyTable

variable {env : Env} {op : Op} {db : Db}

/-! ### What a suspension meets -/

def Db.Fits (db : Db) : Prop := ∀ job ∈ db.jobs, Db.reasonFits job = true

/-- The invariants under which a write of a suspension gets through. -/
structure Db.Writable (db : Db) : Prop where
  sound : db.Sound
  recorded : db.Recorded
  fits : db.Fits

theorem Act.writable {db' : Db} (writable : db.Writable) (act : Act env op db (.ok db')) :
    db'.Writable where
  sound := act.sound writable.sound
  recorded := act.recorded writable.recorded
  fits := act.allRows (fun _ _ fits => fits) (fun _ _ _ _ fits => fits) writable.fits

theorem run_writable (env : Env) (ops : List Op) : (run env {} ops).Writable := by
  refine Run.run_invariant (P := Db.Writable)
    (fun _ op writable => step_invariant op (fun writable act => act.writable writable) writable)
    ⟨?_, recorded_empty, ?_⟩ ops
  · exact fun _ stored => absurd stored (not_mem_empty _)
  · exact fun _ stored => absurd stored (not_mem_empty _)

variable {job : Job} {changes : Changes} {event : JobEvent}

theorem Job.Recorded.next_free (recorded : job.Recorded (db.eventsOf job.id))
    (own : event.jobId = job.id) (next : event.sequence = job.lastSequence + 1)
    (unrepeated : ∀ other ∈ db.eventsOf job.id, event.reportSequence = other.reportSequence →
      event.attempt = other.attempt → event.reportSequence = none) :
    db.jobEvents.any event.clashes = false := by
  refine any_eq_false.2 fun other stored => ?_
  simp only [JobEvent.clashes, Bool.or_eq_true, Bool.and_eq_true, decide_eq_true_eq, not_and]
  intro same clash
  have member : other ∈ db.eventsOf job.id :=
    mem_filter.2 ⟨stored, by simpa using same.symm.trans own⟩
  rcases clash with _ | ⟨⟨sequenced, report⟩, attempt⟩
  · have numbered : other.sequence ∈ numbers (db.eventsOf job.id).length :=
      recorded.sequences ▸ mem_map_of_mem member
    obtain ⟨_, bound, _⟩ := mem_map.1 numbered
    have below := mem_range.1 bound
    have last := recorded.last
    omega
  rw [unrepeated other member report attempt] at sequenced
  cases sequenced

theorem Db.insertEvents_one (valid : event.valid = true)
    (free : db.jobEvents.any event.clashes = false) :
    db.insertEvents [event] = .ok { db with jobEvents := db.jobEvents ++ [event] } := by
  rw [Db.insertEvents, if_neg (by simp [valid]), if_neg (by simp [free]), Db.insertEvents]

variable {parts : EventParts} {now : Time}

/-- `apply!` with one event of a small payload gets through on a job of this installation, when
the CHECK constraints accept the row and the event's own number, if it has one, is new to the
attempt. -/
theorem apply!_accepted (writable : db.Writable) (found : db.jobs.get? job.id = some job)
    (native : job.importedAt = none) (checked : (written job changes [parts]).Checked)
    (fits : Db.reasonFits (written job changes [parts]) = true)
    (small : payloadBytes parts.payload ≤ maxEventPayloadBytes)
    (numbered : ∀ n, parts.reportSequence = some n → 0 < n ∧ ∃ id, parts.actor = .agent id)
    (unrepeated : ∀ other ∈ db.eventsOf job.id, parts.reportSequence = other.reportSequence →
      changes.attempts.getD job.attempts = other.attempt → parts.reportSequence = none) :
    apply! db job changes [parts] now
      = .ok (db.afterWrite job changes [parts] now, written job changes [parts]) := by
  have stored := mem_of_get? found
  have recorded := writable.recorded.rows job stored native
  have started : 0 ≤ changes.attempts.getD job.attempts := (checked .validAttempts).2.1
  have counted : 0 ≤ job.lastSequence := ((writable.sound job stored).checked .validLimits).2.2.2
  have updated : db.updateJob job (written job changes [parts])
      = .ok { db with jobs := db.jobs.put (written job changes [parts]) } :=
    Db.updateJob_eq_ok_iff.2 ⟨fits, rejectImportedJobUpdate_native native, checked, rfl⟩
  have inserted : ({ db with jobs := db.jobs.put (written job changes [parts]) } : Db).insertEvents
      (appended job changes [parts] now) = .ok (db.afterWrite job changes [parts] now) := by
    refine Db.insertEvents_one ?_ (recorded.next_free rfl rfl unrepeated)
    have position : 0 < job.lastSequence + 1 := by omega
    cases sequence : parts.reportSequence with
    | none => simp [JobEvent.valid, small, started, position]
    | some n =>
      obtain ⟨positive, _, agent⟩ := numbered n sequence
      simp [JobEvent.valid, agent, small, started, position, positive]
  change (db.updateJob job (written job changes [parts]) >>= _) = _
  rw [updated]
  change (Db.insertEvents _ (appended job changes [parts] now) >>= _) = _
  rw [inserted]
  rfl

theorem apply!_writable (writable : db.Writable) (found : db.jobs.get? job.id = some job)
    (native : job.importedAt = none) (checked : (written job changes [parts]).Checked)
    (reason : changes.failureReason = none)
    (small : payloadBytes parts.payload ≤ maxEventPayloadBytes)
    (unsequenced : parts.reportSequence = none) :
    apply! db job changes [parts] now
      = .ok (db.afterWrite job changes [parts] now, written job changes [parts]) := by
  refine apply!_accepted writable found native checked ?_ small ?_ fun _ _ _ _ => unsequenced
  · have same : (written job changes [parts]).failureReason = job.failureReason := by
      simp [written, Job.change, Jobs.numbered, reason]
    rw [Db.reasonFits, same]
    exact writable.fits job (mem_of_get? found)
  intro _ sequence
  rw [unsequenced] at sequence
  cases sequence

theorem suspendJob!_native (writable : db.Writable) (now : Time)
    (found : db.jobs.get? job.id = some job) (native : job.importedAt = none)
    (open_ : job.state = .queued ∨ job.state ∈ leasedStates) :
    ∃ db' job', suspendJob! now db job = .ok (db', job') := by
  have sound := writable.sound job (mem_of_get? found)
  unfold suspendJob!
  by_cases queued : job.state = .queued
  · have unleased : job.state ∉ leasedStates := by simp [queued, leasedStates]
    simp only [cancel!, queued]
    exact ⟨_, _, apply!_writable writable found native
      (finished_checked sound.checked unleased (by decide)) rfl (by decide) rfl⟩
  have held := open_.resolve_left queued
  rw [if_neg queued]
  exact ⟨_, _, apply!_writable writable found native
    (held_checked (some now) sound.checked held) rfl (by decide) rfl⟩

theorem apply!_imported (fits : db.Fits) {events : List EventParts} (stored : job ∈ db.jobs)
    (imported : job.importedAt.isSome) (reason : changes.failureReason = none)
    (some_ : events ≠ []) : apply! db job changes events now = .error .importedImmutable := by
  have fits' : Db.reasonFits (job.change (numbered job changes events)) = true := by
    have same : (job.change (numbered job changes events)).failureReason = job.failureReason := by
      simp [numbered, reason]
    rw [Db.reasonFits, same]
    exact fits job stored
  have raises : Job.rejectImportedJobUpdate job (job.change (numbered job changes events)) = true :=
    rejectImportedJobUpdate_imported imported some_
  have refused : db.updateJob job (job.change (numbered job changes events))
      = .error .importedImmutable := by
    simp [Db.updateJob, Except.require, fits', raises, bind, Except.bind]
  simp only [apply!, refused]
  rfl

theorem suspendJob!_imported (fits : db.Fits) (stored : job ∈ db.jobs)
    (imported : job.importedAt.isSome) : suspendJob! now db job = .error .importedImmutable := by
  unfold suspendJob!
  split
  · rename_i queued
    simp only [cancel!, queued]
    exact apply!_imported fits stored imported rfl (by simp)
  · exact apply!_imported fits stored imported rfl (by simp)

/-- A loop over selected rows returns, or stops with `e` at the first row `stops` holds
of, when each pass does one or the other and keeps `P`. -/
theorem forEachJob_outcome {α : Type} {f : Db → Job → Except Error (Db × α)} {P : Db → Prop}
    (stops : Job → Prop) {e : Error} (own : OwnRowOnly f) {jobs : List Job}
    (selected : db.jobs.Selected jobs)
    (pass : ∀ db, ∀ job ∈ jobs, P db → db.jobs.get? job.id = some job → ¬ stops job →
      ∃ db' a, f db job = .ok (db', a) ∧ P db')
    (stop : ∀ db, ∀ job ∈ jobs, P db → db.jobs.get? job.id = some job → stops job →
      f db job = .error e) (start : P db) :
    ((∃ db' as, forEachJob f db jobs = .ok (db', as)) ∧ ∀ job ∈ jobs, ¬ stops job) ∨
      (forEachJob f db jobs = .error e ∧ ∃ job ∈ jobs, stops job) := by
  induction jobs generalizing db with
  | nil => exact .inl ⟨⟨db, [], rfl⟩, fun _ member => by cases member⟩
  | cons job _ ih =>
    have found := selected.stored job mem_cons_self
    by_cases stopped : stops job
    · refine .inr ⟨?_, job, mem_cons_self, stopped⟩
      simp only [forEachJob, stop db job mem_cons_self start found stopped]
      rfl
    obtain ⟨_, a, passed, kept⟩ := pass db job mem_cons_self start found stopped
    rcases ih (selected.tail (own _ _ _ _ passed))
      (fun db later member => pass db later (mem_cons_of_mem _ member))
      (fun db later member => stop db later (mem_cons_of_mem _ member)) kept with
      ⟨⟨db'', as, looped⟩, none_⟩ | ⟨raised, later, member, stops_⟩
    · refine .inl ⟨⟨db'', a :: as, ?_⟩, ?_⟩
      · simp only [forEachJob, passed, bind, Except.bind, looped]
        rfl
      intro later member
      rcases mem_cons.1 member with rfl | member
      · exact stopped
      · exact none_ later member
    refine .inr ⟨?_, later, mem_cons_of_mem _ member, stops_⟩
    simp only [forEachJob, passed, bind, Except.bind, raised]

/-! ### Suspending an organization -/

def Db.HoldsImported (db : Db) (organizationId : Uuid) : Prop :=
  ∃ job ∈ db.jobs, job.organizationId = organizationId ∧ job.importedAt.isSome ∧
    (job.state = .queued ∨ job.state ∈ leasedStates)

theorem suspendOrganization!_outcome (env : Env) (writable : db.Writable)
    (organizationId : Uuid) (now : Time) :
    ((∃ db' jobs, suspendOrganization! db organizationId now = .ok (db', jobs)) ∧
      ¬ db.HoldsImported organizationId) ∨
    (suspendOrganization! db organizationId now = .error .importedImmutable ∧
      db.HoldsImported organizationId) := by
  have selected : db.jobs.Selected (suspendedJobs db organizationId) := selected_suspendedJobs
  have outcome := forEachJob_outcome (P := Db.Writable) (e := .importedImmutable)
    (fun job => job.importedAt.isSome = true) (suspendJob!_ownRowOnly now) selected ?_ ?_ writable
  · refine outcome.imp (And.imp_right ?_) (And.imp_right ?_)
    · rintro none_ ⟨job, stored, own, imported, open_⟩
      exact none_ job (mem_suspendedJobs.2 ⟨stored, own, open_⟩) imported
    rintro ⟨job, member, imported⟩
    obtain ⟨stored, own, open_⟩ := mem_suspendedJobs.1 member
    exact ⟨job, stored, own, imported, open_⟩
  · intro db' job member writable found native
    have open_ := (mem_suspendedJobs.1 member).2.2
    have own : job.importedAt = none := by simpa using native
    obtain ⟨db'', job', passed⟩ := suspendJob!_native writable now found own open_
    refine ⟨db'', job', passed, ?_⟩
    have trace : Trace (Act env (.changeOrganization organizationId .suspend now)) db'
        (suspendJob! now db' job) := suspendJob!_trace ⟨_, _, _, rfl⟩ found open_
    exact trace.invariant (fun _ _ writable act => act.writable writable) writable passed
  intro _ _ _ writable found imported
  exact suspendJob!_imported writable.fits (mem_of_get? found) imported

theorem suspends_outcome (writable : db.Writable) {organizationId : Uuid}
    (suspends : op.Suspends db organizationId) :
    ((∃ db' reply, perform env db op = .ok (db', reply)) ∧ ¬ db.HoldsImported organizationId) ∨
    (perform env db op = .error .importedImmutable ∧ db.HoldsImported organizationId) := by
  obtain ⟨now, organizations, same⟩ := perform_suspends suspends
  have untouched : Db.Writable { db with organizations } :=
    ⟨writable.sound, ⟨writable.recorded.owned, writable.recorded.rows⟩, writable.fits⟩
  rw [same]
  rcases suspendOrganization!_outcome env untouched organizationId now with
    ⟨⟨db', jobs, performed⟩, none_⟩ | ⟨raised, holds⟩
  · exact .inl ⟨⟨db', .done, by simp [performed, Except.map]⟩, none_⟩
  · exact .inr ⟨by simp [raised, Except.map], holds⟩

theorem perform_not_suspending (lifecycle : op.IsLifecycle)
    (spares : ∀ organizationId, ¬ op.Suspends db organizationId) :
    perform env db op ≠ .error .importedImmutable := by
  obtain ⟨organizationId, action, now, rfl⟩ := lifecycle
  intro raised
  cases stored : db.organizations.get? organizationId with
  | none => simp [perform, replying, changeOrganization, stored, Except.ofOption, bind,
      Except.bind, Except.map] at raised
  | some organization =>
    simp only [perform, replying, changeOrganization, stored, Except.ofOption, bind,
      Except.bind] at raised
    split at raised
    · simp [Except.map] at raised
    · simp [Except.map] at raised
    rename_i attrs moved
    by_cases inactive : attrs.status ≠ .active
    · exact spares organizationId ⟨action, now, organization, attrs, rfl, stored, moved, inactive⟩
    · simp [not_not.1 inactive, Except.map] at raised

/-! ### Operations and imported jobs -/

/-- The operation leaves the imported jobs as they are and does not fail because of
them: the trigger does not raise, and a suspension gets through. -/
structure LeavesImported (env : Env) (db : Db) (op : Op) : Prop where
  unraised : perform env db op ≠ .error .importedImmutable
  unchanged : ∀ job ∈ db.jobs, job.importedAt.isSome →
    (step env db op).jobs.get? job.id = some job
  suspends : ∀ organizationId, op.Suspends db organizationId →
    ∃ db' reply, perform env db op = .ok (db', reply)

/-- The operation does not suspend an organization with an unfinished imported job. -/
def SparesImported (db : Db) (op : Op) : Prop :=
  ∀ organizationId, op.Suspends db organizationId → ¬ db.HoldsImported organizationId

theorem step_imported_row (op : Op) (stored : job ∈ db.jobs) (imported : job.importedAt.isSome) :
    (step env db op).jobs.get? job.id = some job :=
  step_fixed (F := fun job => job.importedAt.isSome) op stored imported fun _ native imported => by
    simp [native] at imported

theorem perform_imported_lifecycle (raised : perform env db op = .error .importedImmutable) :
    op.IsLifecycle := by
  refine Trace.error (P := fun _ => True) (E := fun e => e = .importedImmutable → op.IsLifecycle)
    (fun _ _ _ _ => trivial) (fun _ _ _ act same => ?_) trivial perform_trace raised rfl
  subst same
  cases act with
  | raised plain => simp at plain
  | importedRefused _ _ lifecycle => exact lifecycle

/-- After every run, an operation leaves the imported jobs as they are and is not
stopped by one exactly when it does not suspend an organization that holds an
unfinished imported job. -/
theorem leavesImported_iff_sparesImported (env : Env) (ops : List Op) (op : Op) :
    LeavesImported env (run env {} ops) op ↔ SparesImported (run env {} ops) op := by
  have writable := run_writable env ops
  constructor
  · intro leaves organizationId suspends holds
    rcases suspends_outcome writable suspends with ⟨_, none_⟩ | ⟨raised, _⟩
    · exact none_ holds
    · exact leaves.unraised raised
  intro spares
  have returns : ∀ organizationId, op.Suspends (run env {} ops) organizationId →
      ∃ db' reply, perform env (run env {} ops) op = .ok (db', reply) := by
    intro organizationId suspends
    rcases suspends_outcome writable suspends with ⟨returned, _⟩ | ⟨_, holds⟩
    · exact returned
    · exact absurd holds (spares organizationId suspends)
  refine ⟨fun raised => ?_, fun _ stored => step_imported_row op stored, returns⟩
  refine perform_not_suspending (perform_imported_lifecycle raised) (fun organizationId suspends =>
    ?_) raised
  obtain ⟨_, _, returned⟩ := returns organizationId suspends
  rw [raised] at returned
  cases returned

def bareEnv : Env where
  registry := []
  hashToken := id
  slice := fun note _ => note
  sliced := sliced_whole
  stringify := id
  verify := fun _ _ _ => false
  fingerprint := fun _ => ""

/-- A job another installation had not delivered yet when it was exported. -/
def undeliveredJob : Job where
  id := 7
  organizationId := 1
  agentId := 3
  capability := "inventory.collect"
  capabilityVersion := 1
  riskClass := .observe
  retryClass := .idempotent
  requestedByType := .system
  state := .queued
  maxAttempts := 3
  notAfter := 0
  outputLimitBytes := 65536
  timeoutMs := 1000
  insertedAt := 0

/-- The organization holds one imported job, and cannot be suspended: the transaction
raises, and the organization stays active. -/
theorem suspension_stopped_by_imported_job :
    let db := run bareEnv {} [.createOrganization 1 60, .importJob undeliveredJob [] "" 0]
    perform bareEnv db (.changeOrganization 1 .suspend 0) = .error .importedImmutable ∧
      ¬ LeavesImported bareEnv db (.changeOrganization 1 .suspend 0) := by
  have raised : perform bareEnv
      (run bareEnv {} [.createOrganization 1 60, .importJob undeliveredJob [] "" 0])
      (.changeOrganization 1 .suspend 0) = .error .importedImmutable := by rfl
  exact ⟨raised, fun leaves => leaves.unraised raised⟩

end Renga.Jobs
