import Renga.Jobs.Traces

/-!
# No write violates a CHECK constraint

PostgreSQL would refuse a row that violates a CHECK constraint of `jobs`, and with it the whole
transaction.  The writes never get there: a row that is sound (`Job.Sound`) is sound after every
write.
-/

namespace Renga.Jobs

open List KeyTable

variable {env : Env} {op : Op} {db : Db}

/-! ### Sound rows -/

structure Job.Sound (job : Job) : Prop where
  checked : job.Checked
  waiting : job.importedAt = none → job.state = .queued →
    job.attempts < job.maxAttempts ∧ job.cancelRequestedAt = none

variable {job : Job} {changes : Changes} {events : List EventParts}

/-- A written row satisfies the constraints when it satisfies those that speak of
the columns a write changes. -/
theorem written_checked (checked : job.Checked)
    (finished : JobsConstraint.finishedShape.Holds (written job changes events))
    (lease : JobsConstraint.leaseShape.Holds (written job changes events))
    (offers : JobsConstraint.privilegedBinding.Holds (written job changes events))
    (started : JobsConstraint.startedShape.Holds (written job changes events))
    (uncertain : JobsConstraint.uncertainOnlyImperative.Holds (written job changes events))
    (attempts : JobsConstraint.validAttempts.Holds (written job changes events))
    (output : 0 ≤ (written job changes events).outputBytes ∧
      (written job changes events).outputBytes ≤ job.outputLimitBytes) :
    (written job changes events).Checked := by
  intro c
  cases c with
  | finishedShape => exact finished
  | leaseShape => exact lease
  | privilegedBinding => exact offers
  | startedShape => exact started
  | uncertainOnlyImperative => exact uncertain
  | validAttempts => exact attempts
  | validCapability => exact checked .validCapability
  | validRequester => exact checked .validRequester
  | validLimits =>
    have limits := checked .validLimits
    have numbered : (written job changes events).lastSequence
        = job.lastSequence + events.length := rfl
    refine ⟨limits.1, limits.2.1, output, ?_⟩
    have := limits.2.2.2
    omega

variable {now : Time}

theorem finished_checked {next : JobState} {reason : Option (Option String)} (checked : job.Checked)
    (unleased : job.state ∉ leasedStates) (final : next ∈ finishedStates) :
    (written job { state := some next, failureReason := reason, finishedAt := some (some now) }
      events).Checked := by
  have lease := checked .leaseShape
  have ended : next ∉ leasedStates ∧ next ≠ .running ∧ next ≠ .uncertain := by
    revert final
    cases next <;> decide
  refine written_checked checked ?_ ?_ (checked .privilegedBinding) ?_ ?_
    (checked .validAttempts) (checked .validLimits).2.2.1
  · simp [JobsConstraint.Holds, written, Job.change, numbered, final]
  · simp only [JobsConstraint.Holds, unleased, false_iff] at lease
    simpa [JobsConstraint.Holds, written, Job.change, numbered, ended.1] using lease
  · exact .inl ended.2.1
  · exact .inl ended.2.2

variable {token : Token}

theorem leased_checked (sound : job.Sound) (native : job.importedAt = none)
    (queued : job.state = .queued) :
    (written job (leaseChanges env job token now) events).Checked := by
  have checked := sound.checked
  have finished := checked .finishedShape
  have attempts := checked .validAttempts
  have left := (sound.waiting native queued).1
  refine written_checked checked ?_ ?_ (checked .privilegedBinding) ?_ ?_ ?_
    (checked .validLimits).2.2.1
  · simpa [JobsConstraint.Holds, written, Job.change, numbered, leaseChanges, queued,
      finishedStates] using finished
  · simp [JobsConstraint.Holds, written, Job.change, numbered, leaseChanges, leasedStates]
  · exact .inl (by simp [written, Job.change, numbered, leaseChanges])
  · exact .inl (by simp [written, Job.change, numbered, leaseChanges])
  simp only [JobsConstraint.Holds] at attempts
  simp only [JobsConstraint.Holds, written, Job.change, numbered, leaseChanges, Option.getD_some]
  omega

theorem claimed_checked (sound : job.Sound) (native : job.importedAt = none)
    (queued : job.state = .queued) :
    (written job (claimChanges env job token now) events).Checked := by
  have leased : (written job (leaseChanges env job token now) events).Checked :=
    leased_checked sound native queued
  intro c
  cases c with
  | privilegedBinding =>
    exact ⟨(sound.checked .privilegedBinding).1,
      by simp [written, Job.change, numbered, claimChanges],
      by simp [written, Job.change, numbered, claimChanges]⟩
  | finishedShape => exact leased .finishedShape
  | leaseShape => exact leased .leaseShape
  | startedShape => exact leased .startedShape
  | uncertainOnlyImperative => exact leased .uncertainOnlyImperative
  | validAttempts => exact leased .validAttempts
  | validCapability => exact leased .validCapability
  | validLimits => exact leased .validLimits
  | validRequester => exact leased .validRequester

theorem held_checked {requested : Option (Option Time)} (expires : Option Time)
    (checked : job.Checked) (held : job.state ∈ leasedStates) :
    (written job { cancelRequestedAt := requested, leaseExpiresAt := expires.map some }
      events).Checked := by
  have lease := (checked .leaseShape).1 held
  refine written_checked checked (checked .finishedShape) ?_ (checked .privilegedBinding)
    (checked .startedShape) (checked .uncertainOnlyImperative) (checked .validAttempts)
    (checked .validLimits).2.2.1
  refine ⟨fun _ => ⟨lease.1, lease.2.1, ?_⟩, fun _ => held⟩
  cases expires with
  | none => exact lease.2.2
  | some => rfl

theorem reportOutputLimit_le (checked : job.Checked) (type : ReportType) :
    reportOutputLimit job type ≤ job.outputLimitBytes := by
  have positive := (checked .validLimits).2.1
  unfold reportOutputLimit
  split
  · have half : 0 ≤ job.outputLimitBytes.tdiv 2 := Int.tdiv_nonneg positive.le (by norm_num)
    have reserve : 0 ≤ min terminalReportReserveBytes (job.outputLimitBytes.tdiv 2) :=
      le_min (by decide) half
    omega
  · exact le_rfl

theorem reported_checked {type : ReportType} {bytes : ℕ} (checked : job.Checked)
    (held : job.state ∈ leasedStates) (effect : ReportEffect job now type changes)
    (room : job.outputBytes + bytes ≤ reportOutputLimit job type) :
    (written job (reportedChanges changes (job.outputBytes + bytes) now) events).Checked := by
  have lease := (checked .leaseShape).1 held
  have output : 0 ≤ job.outputBytes + bytes ∧ job.outputBytes + bytes ≤ job.outputLimitBytes := by
    have nonneg := (checked .validLimits).2.2.1.1
    have limit := reportOutputLimit_le checked type
    omega
  cases effect with
  | started leased =>
    have finished := checked .finishedShape
    refine written_checked checked ?_ ?_ (checked .privilegedBinding) (.inr rfl)
      (.inl (by simp [written, Job.change, numbered, reportedChanges]))
      (checked .validAttempts) output
    · simpa [JobsConstraint.Holds, written, Job.change, numbered, reportedChanges, leased,
        finishedStates] using finished
    simp [JobsConstraint.Holds, written, Job.change, numbered, reportedChanges,
      leasedStates, lease.1, lease.2.1]
  | working =>
    refine written_checked checked (checked .finishedShape) ?_ (checked .privilegedBinding)
      (checked .startedShape) (checked .uncertainOnlyImperative) (checked .validAttempts) output
    exact ⟨fun _ => ⟨lease.1, lease.2.1, rfl⟩, fun _ => held⟩
  | @ended _ next _ _ final =>
    have ended : next ∈ finishedStates ∧ next ∉ leasedStates ∧ next ≠ .running ∧
        next ≠ .uncertain := by
      rcases finalReports_cases final with ⟨_, rfl⟩ | ⟨_, rfl⟩ | ⟨_, rfl⟩ <;> decide
    refine written_checked checked ?_ ?_ (checked .privilegedBinding) (.inl ended.2.2.1)
      (.inl ended.2.2.2) (checked .validAttempts) output
    · simp [JobsConstraint.Holds, written, Job.change, numbered, reportedChanges, finish, ended.1]
    simp [JobsConstraint.Holds, written, Job.change, numbered, reportedChanges, finish, ended.2.1]

theorem lapseNext_cases (job : Job) (now : Time) :
    (lapseNext job now = .uncertain ∧ job.retryClass = .imperative ∧ job.state = .running) ∨
      (lapseNext job now = .cancelled ∧ job.cancelRequestedAt.isSome ∧
        ¬ (job.state = .running ∧ job.retryClass = .imperative)) ∨
      (lapseNext job now = .queued ∧ job.cancelRequestedAt = none ∧ job.attempts < job.maxAttempts ∧
        ¬ (job.state = .running ∧ job.retryClass = .imperative)) ∨
      (lapseNext job now = .expired ∧ job.cancelRequestedAt = none ∧
        ¬ (job.state = .running ∧ job.retryClass = .imperative)) := by
  unfold lapseNext
  by_cases gone : job.state = .running ∧ job.retryClass = .imperative
  · exact .inl ⟨if_pos gone, gone.2, gone.1⟩
  rw [if_neg gone]
  cases requested : job.cancelRequestedAt with
  | some => exact .inr (.inl ⟨rfl, rfl, gone⟩)
  | none =>
    by_cases retry : job.attempts < job.maxAttempts ∧ now < job.notAfter
    · exact .inr (.inr (.inl ⟨by simp [retry], rfl, retry.1, gone⟩))
    · exact .inr (.inr (.inr ⟨by simp [retry], rfl, gone⟩))

theorem lapsed_checked (checked : job.Checked) (held : job.state ∈ leasedStates) :
    (written job (lapseChanges (lapseNext job now) now) events).Checked := by
  have unfinished : job.finishedAt = none := by
    have finished := checked .finishedShape
    have open_ : job.state ∉ finishedStates := by
      revert held
      cases job.state <;> decide
    simpa [JobsConstraint.Holds, open_] using finished
  refine written_checked checked ?_ ?_ (checked .privilegedBinding) ?_ ?_
    (checked .validAttempts) (checked .validLimits).2.2.1
  all_goals
    rcases lapseNext_cases job now with ⟨next, _, _⟩ | ⟨next, _⟩ | ⟨next, _⟩ | ⟨_, _⟩ <;>
      simp_all [JobsConstraint.Holds, written, Job.change, numbered, lapseChanges, finishedStates,
        leasedStates]

theorem held_of_sweepCondition (due : sweepCondition .lease now job = true) :
    job.state ∈ leasedStates := by
  simp only [sweepCondition, Bool.and_eq_true, decide_eq_true_eq] at due
  exact due.1.1

theorem queued_of_sweepCondition (due : sweepCondition .deadline now job = true) :
    job.state = .queued := by
  simp only [sweepCondition, Bool.and_eq_true, decide_eq_true_eq] at due
  exact due.1.1

theorem held_of_leaseHeld? {agent : Agent} (held : leaseHeld? env job agent token now = true) :
    job.state ∈ leasedStates := by
  simp only [leaseHeld?, Bool.and_eq_true, decide_eq_true_eq] at held
  exact held.1.1.1

theorem queued_of_currentOffer? {nonce : Token}
    (current : SignedLeases.currentOffer? env job token nonce now = true) :
    job.state = .queued := by
  simp only [SignedLeases.currentOffer?, Bool.and_eq_true, decide_eq_true_eq] at current
  exact current.1.1.1.1

variable (w : Write env op db job now changes events)
include w

theorem Write.checked (sound : job.Sound) (native : job.importedAt = none) :
    (written job changes events).Checked := by
  have checked := sound.checked
  cases w with
  | created =>
    exact written_checked checked (checked .finishedShape) (checked .leaseShape)
      (checked .privilegedBinding) (checked .startedShape) (checked .uncertainOnlyImperative)
      (checked .validAttempts) (checked .validLimits).2.2.1
  | cancelled _ _ queued =>
    exact finished_checked checked (by simp [queued, leasedStates]) (by simp [finishedStates])
  | cancelRequested _ held => exact held_checked none checked held
  | suspended held => exact held_checked (some now) checked held
  | leased _ _ queued => exact leased_checked sound native queued
  | claimed _ _ _ _ current =>
    exact claimed_checked sound native (queued_of_currentOffer? current)
  | refused _ queued =>
    exact finished_checked checked (by simp [queued, leasedStates]) (by simp [finishedStates])
  | reported _ _ _ _ _ held _ changed _ room =>
    exact reported_checked checked (held_of_leaseHeld? held) (reportChanges!_effect changed) room
  | lapsed due => exact lapsed_checked checked (held_of_sweepCondition due)
  | expired due =>
    exact finished_checked checked (by simp [queued_of_sweepCondition due, leasedStates])
      (by simp [finishedStates])
  | resolved _ outcome _ _ uncertain =>
    exact finished_checked checked (by simp [uncertain, leasedStates])
      (by cases outcome <;> simp [Outcome.state, finishedStates])
  | offered | offerTaken =>
    exact written_checked checked (checked .finishedShape) (checked .leaseShape)
      ⟨(checked .privilegedBinding).1, by simp [written, Job.change, numbered, offerChanges],
        by simp [written, Job.change, numbered, offerChanges]⟩
      (checked .startedShape) (checked .uncertainOnlyImperative) (checked .validAttempts)
      (checked .validLimits).2.2.1

/-- The states a write leaves: where it leaves the job queued, the job was queued
before or its lease lapsed. -/
theorem Write.queued (queued : (written job changes events).state = .queued) :
    (job.state = .queued ∧ changes.attempts = none ∧ changes.cancelRequestedAt = none) ∨
      (lapseNext job now = .queued ∧ job.state ∈ leasedStates ∧
        changes = lapseChanges .queued now) := by
  cases w with
  | created _ _ requested => exact .inl ⟨requested.queued, rfl, rfl⟩
  | cancelled => cases queued
  | cancelRequested _ held =>
    have same : job.state = .queued := queued
    simp [same, leasedStates] at held
  | suspended held =>
    have same : job.state = .queued := queued
    simp [same, leasedStates] at held
  | leased | claimed | refused => cases queued
  | reported _ _ _ _ _ _ _ changed =>
    have effect := reportChanges!_effect changed
    generalize Report.type _ = type at effect
    cases effect with
    | started => cases queued
    | working _ running =>
      have same : job.state = .queued := queued
      rw [running] at same
      cases same
    | @ended _ next _ _ final =>
      have same : next = .queued := queued
      subst same
      simp [finalReports] at final
  | lapsed due =>
    have next : lapseNext job now = .queued := queued
    exact .inr ⟨next, held_of_sweepCondition due, by rw [next]⟩
  | expired => cases queued
  | resolved _ outcome => cases outcome <;> cases queued
  | offered _ waiting => exact .inl ⟨waiting, rfl, rfl⟩
  | offerTaken waiting => exact .inl ⟨waiting, rfl, rfl⟩

theorem Write.sound (sound : job.Sound) (native : job.importedAt = none) :
    (written job changes events).Sound := by
  refine ⟨w.checked sound native, fun _ queued => ?_⟩
  rcases w.queued queued with ⟨before, attempts, requested⟩ | ⟨next, _, rfl⟩
  · have waiting := sound.waiting native before
    simp only [written, Job.change, numbered, attempts, requested, Option.getD_none]
    exact waiting
  rcases lapseNext_cases job now with ⟨h, _⟩ | ⟨h, _⟩ | ⟨_, unwanted, left, _⟩ | ⟨h, _⟩
  · rw [next] at h
    cases h
  · rw [next] at h
    cases h
  · exact ⟨left, unwanted⟩
  rw [next] at h
  cases h

omit w

variable {row : Job}

theorem inserted_sound (checked : row.Checked)
    (new : row.Requested ∧ row.importedAt = none ∨ row.importedAt.isSome) : row.Sound := by
  refine ⟨checked, fun native _ => ?_⟩
  rcases new with ⟨requested, _⟩ | imported
  · have attempts := (checked .validAttempts).1
    have none_ := requested.unleased
    exact ⟨by omega, requested.unwanted⟩
  · simp [native] at imported

def Db.Sound (db : Db) : Prop := ∀ job ∈ db.jobs, job.Sound

variable {db' : Db}

theorem Act.sound (sound : db.Sound) (act : Act env op db (.ok db')) : db'.Sound :=
  act.allRows (fun checked new _ => inserted_sound checked new)
    (fun before w native _ _ => w.sound before native) sound

theorem step_sound (op : Op) (sound : db.Sound) : (step env db op).Sound :=
  step_invariant op (fun h act => act.sound h) sound

theorem run_sound (ops : List Op) : (run env {} ops).Sound :=
  Run.run_invariant (fun _ op sound => step_sound op sound) (fun _ member => by cases member) ops

/-! ### Rows over a run -/

theorem Write.unfinished (w : Write env op db job now changes events) :
    job.state ∉ finishedStates ∧ (job.state = .uncertain → op.Resolves job.id) := by
  have ofHeld : job.state ∈ leasedStates →
      job.state ∉ finishedStates ∧ (job.state = .uncertain → op.Resolves job.id) := by
    intro held
    simp only [leasedStates, mem_cons, not_mem_nil, or_false] at held
    rcases held with h | h <;> simp [h, finishedStates]
  cases w with
  | created _ _ requested => simp [requested.queued, finishedStates]
  | cancelled _ _ queued => simp [queued, finishedStates]
  | cancelRequested _ held => exact ofHeld held
  | suspended held => exact ofHeld held
  | leased _ _ queued => simp [queued, finishedStates]
  | claimed _ _ _ _ current => simp [queued_of_currentOffer? current, finishedStates]
  | refused _ queued => simp [queued, finishedStates]
  | reported _ _ _ _ _ held => exact ofHeld (held_of_leaseHeld? held)
  | lapsed due => exact ofHeld (held_of_sweepCondition due)
  | expired due => simp [queued_of_sweepCondition due, finishedStates]
  | resolved asked _ _ _ uncertain => exact ⟨by simp [uncertain, finishedStates], fun _ => asked⟩
  | offered _ queued => simp [queued, finishedStates]
  | offerTaken queued => simp [queued, finishedStates]

/-- A job that can no longer be leased: it is not queued, and where it is leased its
cancellation is requested.  An imported job is not leased here at all. -/
def Job.Contained (job : Job) : Prop :=
  job.importedAt = none →
    job.state ≠ .queued ∧ (job.state ∈ leasedStates → job.cancelRequestedAt.isSome)

/-- A row whose lease is not renewed: the attempts stay, and it does not become
leased. -/
structure Job.NotLeasedInto (job job' : Job) : Prop where
  attempts : job'.attempts = job.attempts
  state : job'.state = .leased → job.state = .leased

theorem Write.contained (w : Write env op db job now changes events)
    (native : job.importedAt = none) (contained : job.Contained) :
    (written job changes events).Contained ∧ job.NotLeasedInto (written job changes events) := by
  obtain ⟨waiting, requested⟩ := contained native
  cases w with
  | created _ _ fresh => exact absurd fresh.queued waiting
  | cancelled _ _ queued => exact absurd queued waiting
  | cancelRequested =>
    exact ⟨fun _ => ⟨waiting, fun _ => rfl⟩, ⟨rfl, fun h => h⟩⟩
  | suspended => exact ⟨fun _ => ⟨waiting, fun _ => rfl⟩, ⟨rfl, fun h => h⟩⟩
  | leased _ _ queued => exact absurd queued waiting
  | claimed _ _ _ _ current => exact absurd (queued_of_currentOffer? current) waiting
  | refused _ queued => exact absurd queued waiting
  | reported _ _ _ _ _ held _ changed =>
    have wanted := requested (held_of_leaseHeld? held)
    have effect := reportChanges!_effect changed
    generalize Report.type _ = type at effect
    cases effect with
    | started =>
      exact ⟨fun _ => ⟨by simp [written, Job.change, numbered, reportedChanges],
        fun _ => wanted⟩, ⟨rfl, fun h => by cases h⟩⟩
    | working => exact ⟨fun _ => ⟨waiting, fun _ => wanted⟩, ⟨rfl, fun h => h⟩⟩
    | ended final =>
      rcases finalReports_cases final with ⟨_, rfl⟩ | ⟨_, rfl⟩ | ⟨_, rfl⟩ <;>
        exact ⟨fun _ => ⟨by simp [written, Job.change, numbered, reportedChanges, finish],
          fun _ => wanted⟩, ⟨rfl, fun h => by cases h⟩⟩
  | lapsed due =>
    have wanted := requested (held_of_sweepCondition due)
    rcases lapseNext_cases job now with ⟨next, _⟩ | ⟨next, _⟩ | ⟨_, unwanted, _⟩ | ⟨_, unwanted, _⟩
    · rw [next]
      exact ⟨fun _ => ⟨by simp [written, Job.change, numbered, lapseChanges], fun _ => wanted⟩,
        ⟨rfl, fun h => by cases h⟩⟩
    · rw [next]
      exact ⟨fun _ => ⟨by simp [written, Job.change, numbered, lapseChanges], fun _ => wanted⟩,
        ⟨rfl, fun h => by cases h⟩⟩
    · simp [unwanted] at wanted
    simp [unwanted] at wanted
  | expired due => exact absurd (queued_of_sweepCondition due) waiting
  | resolved _ outcome =>
    cases outcome <;>
      exact ⟨fun _ => ⟨by simp [written, Job.change, numbered, resolveChanges, Outcome.state],
        fun h => by simp [written, Job.change, numbered, resolveChanges, Outcome.state,
          leasedStates] at h⟩, ⟨rfl, fun h => by cases h⟩⟩
  | offered _ queued => exact absurd queued waiting
  | offerTaken queued => exact absurd queued waiting

theorem run_finished (stored : job ∈ db.jobs) (finished : job.state ∈ finishedStates)
    {ops : List Op} : (run env db ops).jobs.get? job.id = some job := by
  obtain ⟨job', found, kept⟩ := run_rowsRelated
    (R := fun job job' => job.state ∈ finishedStates → job' = job) (fun _ _ => rfl)
    (fun _ _ _ first second finished => by
      have same := first finished
      rw [same] at second
      exact second finished)
    (fun w _ finished => absurd finished w.unfinished.1) db ops job.id job
    (get?_of_mem stored)
  rw [found, kept finished]

theorem step_uncertain (stored : job ∈ db.jobs) (uncertain : job.state = .uncertain)
    (unresolved : ¬ op.Resolves job.id) : (step env db op).jobs.get? job.id = some job :=
  step_fixed (F := fun job => job.state = .uncertain ∧ ¬ op.Resolves job.id) op stored
    ⟨uncertain, unresolved⟩ fun w _ fixed => fixed.2 (w.unfinished.2 fixed.1)

theorem run_contained {id : Uuid} (stored : db.jobs.get? id = some job) (contained : job.Contained)
    (ops : List Op) :
    ∃ job', (run env db ops).jobs.get? id = some job' ∧ job'.Contained ∧
      job.NotLeasedInto job' := by
  obtain ⟨job', found, kept⟩ := run_rowsRelated
    (R := fun job job' => job.Contained → job'.Contained ∧ job.NotLeasedInto job')
    (fun _ h => ⟨h, rfl, fun h => h⟩)
    (fun _ _ _ first second h => by
      obtain ⟨contained, before⟩ := first h
      obtain ⟨contained', after⟩ := second contained
      exact ⟨contained', after.attempts.trans before.attempts,
        fun leased => before.state (after.state leased)⟩)
    (fun w native h => w.contained native h) db ops id job stored
  exact ⟨job', found, kept contained⟩

/-! ### Suspension -/

theorem suspendJob!_contained {job' : Job} (found : db.jobs.get? job.id = some job)
    (h : suspendJob! now db job = .ok (db', job')) :
    ∃ row, db'.jobs.get? job.id = some row ∧ row.Contained := by
  unfold suspendJob! at h
  split at h
  · rename_i queued
    simp only [cancel!, queued] at h
    obtain ⟨rfl, _, _, rfl⟩ := apply!_eq_ok h
    exact ⟨_, get?_put_self found,
      fun _ => ⟨by simp [numbered], by simp [numbered, leasedStates]⟩⟩
  rename_i waiting
  obtain ⟨rfl, _, _, rfl⟩ := apply!_eq_ok h
  exact ⟨_, get?_put_self found, fun _ => ⟨waiting, fun _ => rfl⟩⟩

variable {organizationId : Uuid}

theorem suspendOrganization!_contained {jobs : List Job}
    (h : suspendOrganization! db organizationId now = .ok (db', jobs)) {id : Uuid}
    (found : db'.jobs.get? id = some row) (own : row.organizationId = organizationId) :
    row.Contained := by
  obtain ⟨others, passes⟩ := forEachJob_rows (suspendJob!_ownRowOnly now)
    selected_suspendedJobs h
  by_cases selected : id ∈ (suspendedJobs db organizationId).map Job.id
  · obtain ⟨job, member, rfl⟩ := mem_map.1 selected
    obtain ⟨_, _, _, stored, passed, last⟩ := passes job member
    obtain ⟨_, found', contained⟩ :=
      suspendJob!_contained stored passed
    rw [last, found'] at found
    cases found
    exact contained
  rw [others id selected] at found
  have closed : ¬ (row.state = .queued ∨ row.state ∈ leasedStates) := fun open_ =>
    selected (mem_map.2 ⟨row, mem_suspendedJobs.2
      ⟨mem_of_get? found, own, open_⟩, key_of_get? found⟩)
  exact fun _ => ⟨fun queued => closed (.inl queued), fun held => absurd (.inr held) closed⟩

/-- The operation takes the organization out of service: it is suspended, or its
deletion is scheduled. -/
def Op.Suspends (db : Db) (organizationId : Uuid) (op : Op) : Prop :=
  ∃ action now organization attrs, op = .changeOrganization organizationId action now ∧
    db.organizations.get? organizationId = some organization ∧
    OrganizationLifecycle.transition organization action now = some (some attrs) ∧
    attrs.status ≠ .active

/-- The transaction of a suspension is `suspend_organization!/1` on the tables with the
organization's row changed. -/
theorem perform_suspends (suspends : op.Suspends db organizationId) :
    ∃ now organizations, perform env db op
      = (suspendOrganization! { db with organizations } organizationId now).map
          fun p => (p.1, .done) := by
  obtain ⟨_, now, organization, attrs, rfl, stored, moved, inactive⟩ := suspends
  have same : organization.id = organizationId := key_of_get? stored
  refine ⟨now, db.organizations.put (OrganizationLifecycle.change organization attrs), ?_⟩
  simp only [perform, replying, changeOrganization, stored, Except.ofOption, bind, Except.bind,
    moved, OrganizationLifecycle.change_status, OrganizationLifecycle.change_id, same]
  rw [if_pos inactive]
  cases suspendOrganization! _ organizationId now with
  | error | ok => rfl

theorem suspends_contained (suspends : op.Suspends db organizationId) {reply : Reply}
    (h : perform env db op = .ok (db', reply)) {id : Uuid} (found : db'.jobs.get? id = some row)
    (own : row.organizationId = organizationId) :
    row.Contained := by
  obtain ⟨now, organizations, same⟩ := perform_suspends suspends
  rw [same] at h
  cases performed : suspendOrganization! { db with organizations } organizationId now with
  | error => simp [performed, Except.map] at h
  | ok p =>
    simp only [performed, Except.map, Except.ok.injEq, Prod.mk.injEq] at h
    obtain ⟨rfl, _⟩ := h
    exact suspendOrganization!_contained performed found own

/-! ### The constraints over every run -/

/-- The operation takes the job from another state into `leased`. -/
def Leases (env : Env) (db : Db) (op : Op) (jobId : Uuid) : Prop :=
  ∃ job job', db.jobs.get? jobId = some job ∧ (step env db op).jobs.get? jobId = some job' ∧
    job.state ≠ .leased ∧ job'.state = .leased

theorem not_leases_of_contained {id : Uuid} (stored : db.jobs.get? id = some job)
    (contained : job.Contained) {later : List Op} : ¬ Leases env (run env db later) op id := by
  obtain ⟨row, found, still, _⟩ := run_contained stored contained later
  rintro ⟨_, after, found', last, unleased, leased⟩
  rw [found] at found'
  cases found'
  obtain ⟨row', found'', _, kept⟩ : ∃ job', (run env (run env db later) [op]).jobs.get? id
      = some job' ∧ job'.Contained ∧ row.NotLeasedInto job' := run_contained found still [op]
  have same : some after = some row' := last.symm.trans found''
  cases same
  exact unleased (kept.state leased)

theorem Job.Sound.contained (sound : job.Sound) (requested : job.cancelRequestedAt.isSome) :
    job.Contained := by
  refine fun native => ⟨fun queued => ?_, fun _ => requested⟩
  rw [(sound.waiting native queued).2] at requested
  cases requested

theorem perform_not_refused (sound : db.Sound) (inserts : ¬ op.Inserts) {c : JobsConstraint} :
    perform env db op ≠ .error (.checkViolation c) := by
  intro refused
  refine Trace.error (P := Db.Sound) (E := fun e => e ≠ .checkViolation c)
    (fun _ _ sound act => act.sound sound) (fun _ _ sound act same => ?_) sound
    perform_trace refused rfl
  subst same
  cases act with
  | raised plain => simp at plain
  | insertRefused asked => exact inserts asked
  | checkRefused found w native violated =>
    exact violated (w.checked (sound _ (mem_of_get? found)) native c)

/-- Over every run from an empty database, at whatever times: no CHECK constraint
refuses the next operation on existing jobs, a queued job has no cancellation request,
a finished job stays as it is and an uncertain one until it is resolved, and a job
whose cancellation was requested, or whose organization was suspended, is never leased
afterwards. -/
theorem run_respects_constraints (env : Env) (ops : List Op) :
    let db := run env {} ops
    (∀ op : Op, ¬ op.Inserts → ∀ c, perform env db op ≠ .error (.checkViolation c)) ∧
    (∀ op, ∀ job ∈ (step env db op).jobs, job.Checked) ∧
    (∀ job ∈ db.jobs, job.importedAt = none → job.state = .queued → job.cancelRequestedAt = none) ∧
    (∀ job ∈ db.jobs, job.state ∈ finishedStates →
      ∀ later, (run env db later).jobs.get? job.id = some job) ∧
    (∀ job ∈ db.jobs, job.state = .uncertain → ∀ op : Op, ¬ op.Resolves job.id →
      (step env db op).jobs.get? job.id = some job) ∧
    (∀ job ∈ db.jobs, job.cancelRequestedAt.isSome →
      ∀ later op, ¬ Leases env (run env db later) op job.id) ∧
    (∀ (op : Op) organizationId, op.Suspends db organizationId →
      ∀ db' reply, perform env db op = .ok (db', reply) →
        ∀ job ∈ db'.jobs, job.organizationId = organizationId →
          ∀ later op', ¬ Leases env (run env db' later) op' job.id) := by
  intro db
  have sound : db.Sound := run_sound ops
  refine ⟨fun op inserts _ => perform_not_refused sound inserts,
    fun op job stored => (step_sound op sound job stored).checked,
    fun job stored native queued => ((sound job stored).waiting native queued).2,
    fun job stored finished later => run_finished stored finished,
    fun job stored uncertain op unresolved => step_uncertain stored uncertain unresolved,
    fun job stored requested later op => ?_, fun op organizationId suspends db' reply h job stored
      own later op' => ?_⟩
  · exact not_leases_of_contained (get?_of_mem stored)
      ((sound job stored).contained requested)
  have found := get?_of_mem stored
  exact not_leases_of_contained found (suspends_contained suspends h found own)

end Renga.Jobs
