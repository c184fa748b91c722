import Renga.Jobs.Acts

/-!
# Every transaction is a sequence of acts

One lemma for each function of the context, following its calls, up to `perform_trace`.  A
function that only reads fails with a rollback or a failed match (`Reads`); a loop over
locked rows is a sequence of acts because its rows are distinct and each pass leaves the
others alone (`forEachJob_trace`).
-/

namespace Renga.Jobs

open List KeyTable Option Except Trace TargetBindings

open SignedLeases (OfferSecret offered withoutOffer currentOffer? verified?)

variable {env : Env} {op : Op} {db : Db}

/-! ### Reads -/

/-- A computation that fails only with a rollback or a failed match. -/
def Reads {α : Type} (x : Except Error α) : Prop :=
  ∀ e, x = .error e → (∃ reason, e = .rollback reason) ∨ e = .matchError

namespace Reads

variable {α β : Type}

theorem ok {a : α} : Reads (.ok a : Except Error α) := by
  intro _ h
  cases h

variable {reason : Reason}

theorem rollback : Reads (.error (.rollback reason) : Except Error α) := by
  intro _ h
  exact .inl ⟨reason, (error.inj h).symm⟩

theorem ensure {b : Bool} : Reads (ensure b reason) := by
  intro _ h
  exact .inl ⟨reason, (require_eq_error_iff.1 h).2.symm⟩

theorem ofOption {x : Option α} :
    Reads (Except.ofOption x (.rollback reason) : Except Error α) := by
  intro _ h
  exact .inl ⟨reason, (ofOption_eq_error_iff.1 h).2.symm⟩

theorem ofOption_match {x : Option α} : Reads (Except.ofOption x .matchError : Except Error α) := by
  intro _ h
  exact .inr (ofOption_eq_error_iff.1 h).2.symm

variable {x : Except Error α}

theorem bind {f : α → Except Error β} (first : Reads x) (next : ∀ a, x = .ok a → Reads (f a)) :
    Reads (x >>= f) := by
  intro e h
  rcases bind_eq_error_iff.1 h with h | ⟨a, found, h⟩
  · exact first e h
  · exact next a found e h

theorem trace {f : α → Except Error (Db × β)} (reads : Reads x)
    (tail : ∀ a, x = .ok a → Trace (Act env op) db (f a)) : Trace (Act env op) db (x >>= f) := by
  refine read (fun e h => ?_) tail
  rcases reads e h with ⟨reason, rfl⟩ | rfl
  · exact .rolledBack reason
  · exact .raised (.inl rfl)

end Reads

variable {organizationId : Uuid}

theorem reads_lockActiveOrganization! : Reads (db.lockActiveOrganization! organizationId) :=
  Reads.ofOption.bind fun _ _ => Reads.ensure.bind fun _ _ => Reads.ok

variable {jobId : Uuid}

theorem reads_lockJob! : Reads (db.lockJob! organizationId jobId) :=
  Reads.ofOption.bind fun _ _ => Reads.ensure.bind fun _ _ => Reads.ok

theorem reads_intakeAgent! {installationId : String} :
    Reads (db.intakeAgent! organizationId installationId) :=
  Reads.ofOption_match.bind fun _ _ => Reads.ensure.bind fun _ _ =>
    Reads.ofOption.bind fun _ _ => Reads.ensure.bind fun _ _ => Reads.ok

variable {scope : Scope}

theorem reads_authorizeMember! {permission : String} :
    Reads (db.authorizeMember! scope permission) :=
  reads_lockActiveOrganization!.bind fun _ _ => Reads.ensure

theorem reads_authorizeAll! (scope : Scope) {permissions : List String} :
    Reads (db.authorizeAll! scope permissions) := by
  induction permissions with
  | nil => exact Reads.ok
  | cons _ _ ih => exact reads_authorizeMember!.bind fun _ _ => ih

theorem reads_requestingUser (scope : Scope) : Reads (requestingUser scope) := by
  unfold requestingUser
  split
  · exact Reads.ok
  · exact Reads.rollback

variable {actor : Actor}

theorem requestingUser_person (h : requestingUser scope = .ok actor) (id : Uuid) :
    actor ≠ .agent id := by
  unfold requestingUser at h
  split at h
  · cases h
    simp
  · cases h

/-! ### Loops over locked rows -/

/-- Each pass of a loop leaves the other rows alone. -/
def OwnRowOnly {α : Type} (f : Db → Job → Except Error (Db × α)) : Prop :=
  ∀ db job db' a, f db job = .ok (db', a) → ∀ id, id ≠ job.id →
    db'.jobs.get? id = db.jobs.get? id

variable {job job' : Job} {events : List EventParts} {now : Time} {db' : Db} {changes : Changes}

theorem apply!_ownRowOnly (h : apply! db job changes events now = .ok (db', job')) {id : Uuid}
    (other : id ≠ job.id) : db'.jobs.get? id = db.jobs.get? id := by
  obtain ⟨rfl, _, _, rfl⟩ := apply!_eq_ok h
  exact get?_put_of_ne db.jobs other

variable {jobs : List Job}

variable {α : Type} {f : Db → Job → Except Error (Db × α)}

theorem forEachJob_trace (own : OwnRowOnly f) (selected : db.jobs.Selected jobs)
    (one : ∀ db job, job ∈ jobs → db.jobs.get? job.id = some job →
      Trace (Act env op) db (f db job)) :
    Trace (Act env op) db (forEachJob f db jobs) := by
  induction jobs generalizing db with
  | nil => exact .done _ _
  | cons job _ ih =>
    have first := one db job mem_cons_self (selected.stored job mem_cons_self)
    refine first.bind fun _ _ passed => ?_
    exact (ih (selected.tail (own _ _ _ _ passed)) fun db job member =>
      one db job (mem_cons_of_mem _ member)).bind fun _ _ _ => .done _ _

/-- What a committed loop did: a pass for each row as it was stored, and nothing to
the rows it did not select. -/
theorem forEachJob_rows (own : OwnRowOnly f) (selected : db.jobs.Selected jobs) {as : List α}
    (h : forEachJob f db jobs = .ok (db', as)) :
    (∀ id, id ∉ jobs.map Job.id → db'.jobs.get? id = db.jobs.get? id) ∧
      ∀ job ∈ jobs, ∃ db₁ db₂ a, db₁.jobs.get? job.id = some job ∧ f db₁ job = .ok (db₂, a) ∧
        db'.jobs.get? job.id = db₂.jobs.get? job.id := by
  induction jobs generalizing db as with
  | nil =>
    cases h
    exact ⟨fun _ _ => rfl, fun _ member => by cases member⟩
  | cons job jobs ih =>
    obtain ⟨⟨db₁, a⟩, passed, h⟩ := bind_eq_ok_iff.1 h
    obtain ⟨⟨_, _⟩, looped, h⟩ := bind_eq_ok_iff.1 h
    cases h
    obtain ⟨others, passes⟩ := ih (selected.tail (own _ _ _ _ passed)) looped
    refine ⟨fun id unselected => ?_, fun later member => ?_⟩
    · rw [map_cons, mem_cons, not_or] at unselected
      rw [others id unselected.2, own db job db₁ a passed id unselected.1]
    rcases mem_cons.1 member with rfl | member
    · exact ⟨db, db₁, a, selected.stored _ mem_cons_self, passed,
        others _ (nodup_cons.1 selected.distinct).1⟩
    · exact passes later member

/-! ### Cancelling -/

theorem cancel!_trace (found : db.jobs.get? job.id = some job) (person : ∀ id, actor ≠ .agent id)
    (native : job.importedAt = none ∨ op.IsLifecycle) :
    Trace (Act env op) db (cancel! db job actor now) := by
  unfold cancel!
  split
  · rename_i queued
    exact .of_act (act_apply! found (.cancelled actor person queued)
      (native.imp_right (⟨·, by simp⟩)))
  · split
    · rename_i held
      exact .of_act (act_apply! found (.cancelRequested actor held)
        (native.imp_right (⟨·, by simp⟩)))
    · exact .fail (.rolledBack _)
  split
  · exact .done _ _
  exact .fail (.rolledBack _)

theorem cancelJob_trace : Trace (Act env op) db (cancelJob env db scope jobId now) := by
  refine (reads_requestingUser scope).trace fun _ user => ?_
  refine (reads_authorizeAll! scope).trace fun _ _ => ?_
  refine reads_lockJob!.trace fun _ locked => ?_
  obtain ⟨found, _, native⟩ := Db.lockJob!_eq_ok_iff.1 locked
  exact cancel!_trace (key_of_get? found ▸ found) (requestingUser_person user) (.inl native)

theorem cancel!_ownRowOnly (h : cancel! db job actor now = .ok (db', job')) {id : Uuid}
    (other : id ≠ job.id) :
    db'.jobs.get? id = db.jobs.get? id := by
  unfold cancel! at h
  split at h
  · exact apply!_ownRowOnly h other
  · split at h
    · exact apply!_ownRowOnly h other
    · cases h
  split at h
  · cases h
    rfl
  · cases h

theorem suspendJob!_ownRowOnly (now : Time) : OwnRowOnly (suspendJob! now) := by
  intro _ _ _ _ h _ other
  unfold suspendJob! at h
  split at h
  · exact cancel!_ownRowOnly h other
  · exact apply!_ownRowOnly h other

theorem selected_suspendedJobs : db.jobs.Selected (suspendedJobs db organizationId) :=
  (Selected.rows db.jobs).filter.insertionSort

variable {organizationId : Uuid}

theorem mem_suspendedJobs : job ∈ suspendedJobs db organizationId ↔
      job ∈ db.jobs ∧ job.organizationId = organizationId ∧
        (job.state = .queued ∨ job.state ∈ leasedStates) := by
  simp [suspendedJobs, (perm_insertionSort _ _).mem_iff, KeyTable.mem_def]

theorem suspendJob!_trace (lifecycle : op.IsLifecycle) (found : db.jobs.get? job.id = some job)
    (open_ : job.state = .queued ∨ job.state ∈ leasedStates) :
    Trace (Act env op) db (suspendJob! now db job) := by
  unfold suspendJob!
  split
  · exact cancel!_trace found (by simp) (.inr lifecycle)
  rename_i queued
  exact .of_act (act_apply! found (.suspended (open_.resolve_left queued))
    (.inr ⟨lifecycle, by simp⟩))

theorem suspendOrganization!_trace (lifecycle : op.IsLifecycle) :
    Trace (Act env op) db (suspendOrganization! db organizationId now) :=
  forEachJob_trace (suspendJob!_ownRowOnly now) selected_suspendedJobs
    fun _ _ member found => suspendJob!_trace lifecycle found (mem_suspendedJobs.1 member).2.2

/-! ### Leasing and refusing -/

variable (found : db.jobs.get? job.id = some job) (native : job.importedAt = none)

include found native in
theorem refuse!_trace {reason : String} (queued : job.state = .queued) :
    Trace (Act env op) db (refuse! db job reason now) :=
  .of_act (act_apply! found (.refused reason queued) (.inl native))

theorem selected_leasableJobs {agent : Agent} {keys : List String} :
    db.jobs.Selected (leasableJobs db organizationId agent keys now) :=
  (Selected.rows db.jobs).filter.insertionSort

variable {agent : Agent} {keys : List String}

theorem mem_leasableJobs (member : job ∈ leasableJobs db organizationId agent keys now) :
    job ∈ db.jobs ∧ job.organizationId = organizationId ∧ job.agentId = agent.id ∧
      job.state = .queued ∧ now < job.notAfter ∧ job.importedAt = none := by
  simp only [leasableJobs, (perm_insertionSort _ _).mem_iff, List.mem_filter,
    Bool.and_eq_true, decide_eq_true_eq, isNone_iff_eq_none] at member
  obtain ⟨stored, ⟨⟨⟨own, same⟩, queued, due⟩, native⟩, _⟩ := member
  exact ⟨stored, own, same, queued, due, native⟩

variable {allowed : List String} {newToken : Uuid → Token}

theorem leaseOrRefuse!_ownRowOnly : OwnRowOnly (leaseOrRefuse! env agent allowed newToken now) := by
  intro _ _ _ _ h _ other
  unfold leaseOrRefuse! at h
  split at h
  · obtain ⟨⟨db₁, _⟩, written, h⟩ := bind_eq_ok_iff.1 h
    obtain ⟨⟨_, _⟩, applied, h₂⟩ := bind_eq_ok_iff.1 written
    cases h₂
    cases h
    exact apply!_ownRowOnly applied other
  obtain ⟨⟨_, _⟩, applied, h⟩ := bind_eq_ok_iff.1 h
  cases h
  exact apply!_ownRowOnly applied other

variable {installationId : String} {limit : ℕ} {skipped : Uuid → Bool}

theorem leaseJobs_trace
    (asked : op = .leaseJobs organizationId installationId keys limit newToken skipped now) :
    Trace (Act env op) db
      (leaseJobs env db organizationId agent keys limit newToken skipped now) := by
  refine Reads.ensure.trace fun _ _ => ?_
  refine reads_lockActiveOrganization!.trace fun _ _ => ?_
  refine forEachJob_trace leaseOrRefuse!_ownRowOnly
    selected_leasableJobs.filter.take ?_
  intro _ _ member found
  obtain ⟨leasable, chosen⟩ := mem_filter.1 (mem_of_mem_take member)
  obtain ⟨_, _, own, queued, _, native⟩ := mem_leasableJobs leasable
  simp only [Bool.and_eq_true, decide_eq_true_eq] at chosen
  unfold leaseOrRefuse!
  split
  · refine bind ?_ fun _ _ _ => .done _ _
    refine bind ?_ fun _ _ _ => .done _ _
    exact .of_act (act_apply! found (.leased asked agent queued own chosen.1) (.inl native))
  · exact (refuse!_trace found native queued).bind fun _ _ _ => .done _ _

variable {bindingId : Uuid}

theorem failQueuedForBinding!_trace {reason : String} :
    Trace (Act env op) db (failQueuedForBinding! db organizationId bindingId reason now) := by
  refine forEachJob_trace (fun db _ _ _ h _ other => apply!_ownRowOnly h other)
    (Selected.rows db.jobs).filter ?_
  intro _ _ member found
  have chosen := (List.mem_filter.1 member).2
  simp only [Bool.and_eq_true, decide_eq_true_eq, isNone_iff_eq_none] at chosen
  exact refuse!_trace found chosen.2 chosen.1.2.2

/-! ### Sweeping and resolving -/

variable {kind : SweepKind}

theorem sweepCondition_native (due : sweepCondition kind now job = true) :
    job.importedAt = none := by
  simp only [sweepCondition, Bool.and_eq_true, isNone_iff_eq_none] at due
  exact due.2

theorem sweepOne_trace :
    Trace (Act env op) db (sweepOne db organizationId jobId now kind skipped) := by
  unfold sweepOne
  split
  · exact .done _ _
  rename_i job found
  split
  · rename_i chosen
    have stored : db.jobs.get? job.id = some job := key_of_get? found ▸ found
    have native := sweepCondition_native chosen.2.1
    refine bind ?_ fun _ _ _ => .done _ _
    cases kind with
    | lease => exact .of_act (act_apply! stored (.lapsed chosen.2.1) (.inl native))
    | deadline => exact .of_act (act_apply! stored (.expired chosen.2.1) (.inl native))
  · exact .done _ _

variable {jobId : Uuid} {outcome : Outcome} {payload : Payload}

theorem resolve!_trace (asked : op.Resolves jobId) :
    Trace (Act env op) db (resolve! db organizationId jobId actor outcome payload now) := by
  refine reads_lockJob!.trace fun job locked => ?_
  obtain ⟨found, _, native⟩ := Db.lockJob!_eq_ok_iff.1 locked
  refine Reads.ensure.trace fun _ uncertain => ?_
  refine Reads.ensure.trace fun _ _ => ?_
  simp only [require_eq_ok_iff, decide_eq_true_eq] at uncertain
  have target : job.id = jobId := key_of_get? found
  subst target
  exact .of_act (act_apply! found (.resolved asked outcome actor _ uncertain) (.inl native))

theorem resolveJob_trace (asked : op.Resolves jobId) {note : Option String} :
    Trace (Act env op) db (resolveJob env db scope jobId outcome note now) := by
  refine (reads_requestingUser scope).trace fun _ _ => ?_
  refine (reads_authorizeAll! scope).trace fun _ _ => ?_
  exact resolve!_trace asked

theorem reconcileJob_trace (asked : op.Resolves jobId) {details : Payload} :
    Trace (Act env op) db (reconcileJob env db organizationId jobId outcome details now) :=
  reads_lockActiveOrganization!.trace fun _ _ => resolve!_trace asked

/-! ### Reports -/

theorem reads_succeededChanges! : Reads (succeededChanges! env job payload now) := by
  refine Reads.ofOption_match.bind fun _ _ => ?_
  refine Reads.bind ?_ fun _ _ => ?_
  · unfold resultField!
    split
    · exact Reads.ok
    · exact Reads.rollback
  split
  · exact Reads.rollback
  · exact Reads.ok

theorem reads_failedChanges! : Reads (failedChanges! env payload now) := by
  unfold failedChanges!
  split
  · split
    · exact Reads.rollback
    · exact Reads.ok
  · exact Reads.rollback

theorem reads_reportChanges! {type : ReportType} :
    Reads (reportChanges! env job type payload now) := by
  cases type with
  | succeeded => exact reads_succeededChanges!
  | failed => exact reads_failedChanges!
  | started | progress | output | cancelled =>
    simp only [reportChanges!]
    split
    · exact Reads.ok
    · exact Reads.rollback

variable {report : Report}

theorem recordReport!_trace (asked : op = .report organizationId installationId report now)
    (target : report.jobId = job.id) (valid : validReportSequence? report.sequence = true)
    (found : db.jobs.get? job.id = some job) (native : job.importedAt = none)
    (undelivered : deliveredReport db job agent report.sequence = none) :
    Trace (Act env op) db (recordReport! env db job agent report now) := by
  refine Reads.ensure.trace fun _ held => ?_
  refine Reads.ensure.trace fun _ newest => ?_
  refine reads_reportChanges!.trace fun ⟨changes, payload⟩ changed => ?_
  refine Reads.ensure.trace fun _ small => ?_
  refine Reads.ensure.trace fun _ room => ?_
  simp only [require_eq_ok_iff, decide_eq_true_eq, Bool.not_eq_true'] at held newest small room
  exact .of_act (act_apply! found
    (.reported asked target agent valid undelivered held newest changed small room) (.inl native))

theorem reportJob_trace (asked : op = .report organizationId installationId report now) :
    Trace (Act env op) db (reportJob env db organizationId agent report now) := by
  refine Reads.ensure.trace fun _ valid => ?_
  refine reads_lockActiveOrganization!.trace fun _ _ => ?_
  refine reads_lockJob!.trace fun _ locked => ?_
  obtain ⟨found, _, native⟩ := Db.lockJob!_eq_ok_iff.1 locked
  have target := key_of_get? found
  unfold report!
  split
  · rename_i undelivered
    exact recordReport!_trace asked target.symm (require_eq_ok_iff.1 valid)
      (target ▸ found) native undelivered
  refine Reads.ensure.trace fun _ _ => ?_
  exact Reads.ensure.trace fun _ _ => .done _ _

/-! ### Keys and bindings -/

theorem contextStep_of_eq (jobs : db'.jobs = db.jobs) (jobEvents : db'.jobEvents = db.jobEvents)
    (targetBindings : db'.targetBindings = db.targetBindings) : ContextStep db db' :=
  ⟨jobs, jobEvents, fun _ binding found => ⟨binding, targetBindings ▸ found, .inl rfl⟩⟩

variable {binding : TargetBinding} {reason : RevokedReason}

theorem contextStep_ended (found : db.targetBindings.get? binding.id = some binding)
    (active : binding.status = .active) :
    ContextStep db { db with
      targetBindings := db.targetBindings.put (ended binding reason now) } := by
  refine ⟨rfl, rfl, fun id other stored => ?_⟩
  by_cases h : id = binding.id
  · subst h
    rw [found] at stored
    cases stored
    exact ⟨ended binding reason now, get?_put_self found,
      .inr ⟨active, reason, now, rfl⟩⟩
  have other_ : id ≠ (ended binding reason now).id := h
  exact ⟨other, (get?_put_of_ne _ other_).trans stored, .inl rfl⟩

theorem contextStep_add (fresh : db.targetBindings.get? binding.id = none) :
    ContextStep db { db with targetBindings := db.targetBindings.add binding fresh } := by
  refine ⟨rfl, rfl, fun id other stored => ⟨other, ?_, .inl rfl⟩⟩
  have known : id ≠ binding.id := by
    rintro rfl
    rw [fresh] at stored
    cases stored
  rw [get?_add, if_neg known]
  exact stored

theorem forEachJob_targetBindings
    (keeps : ∀ db job db' a, f db job = .ok (db', a) → db'.targetBindings = db.targetBindings)
    {as : List α} (h : forEachJob f db jobs = .ok (db', as)) :
    db'.targetBindings = db.targetBindings := by
  induction jobs generalizing db as with
  | nil =>
    cases h
    rfl
  | cons _ _ ih =>
    obtain ⟨⟨_, _⟩, first, h⟩ := bind_eq_ok_iff.1 h
    obtain ⟨⟨_, _⟩, rest, h⟩ := bind_eq_ok_iff.1 h
    cases h
    exact (ih rest).trans (keeps _ _ _ _ first)

theorem apply!_targetBindings (h : apply! db job changes events now = .ok (db', job')) :
    db'.targetBindings = db.targetBindings := by
  obtain ⟨_, _, _, rfl⟩ := apply!_eq_ok h
  rfl

theorem endBindings!_trace {bindings : List TargetBinding}
    (selected : db.targetBindings.Selected bindings)
    (active : ∀ binding ∈ bindings, binding.status = .active) :
    Trace (Act env op) db (endBindings! reason now db bindings) := by
  induction bindings generalizing db with
  | nil => exact .done _ _
  | cons binding _ ih =>
    have ending : ContextStep db { db with
        targetBindings := db.targetBindings.put (ended binding reason now) } :=
      contextStep_ended (selected.stored binding mem_cons_self) (active binding mem_cons_self)
    refine bind (.act (.context ending) failQueuedForBinding!_trace)
      fun _ _ failed => ?_
    refine ih ?_ fun later member => active later (mem_cons_of_mem _ member)
    rw [forEachJob_targetBindings (fun _ _ _ _ h => apply!_targetBindings h) failed]
    exact selected.tail fun _ other => get?_put_of_ne _ other

theorem endBinding!_trace (found : db.targetBindings.get? binding.id = some binding)
    (active : binding.status = .active) :
    Trace (Act env op) db (endBindings! reason now db [binding]) :=
  endBindings!_trace (.one found) fun _ member => by rwa [mem_singleton.1 member]

theorem revokeForKey!_trace {keyId : Uuid} :
    Trace (Act env op) db (revokeForKey! db organizationId keyId now) := by
  refine endBindings!_trace (Selected.rows db.targetBindings).filter fun _ member => ?_
  have chosen := (List.mem_filter.1 member).2
  simp only [Bool.and_eq_true, decide_eq_true_eq] at chosen
  exact chosen.2.2

variable {algorithm : String} {publicKey : Binary} {newId : Uuid}

theorem insertPending!_trace :
    Trace (Act env op) db
      (InstallationKeys.insertPending! env db agent algorithm publicKey newId) := by
  simp only [InstallationKeys.insertPending!]
  split
  · exact .of_act (.context (contextStep_of_eq rfl rfl rfl))
  · exact .fail (.raised (by simp))

theorem present!_trace :
    Trace (Act env op) db
      (InstallationKeys.present! env db agent algorithm publicKey newId now) := by
  unfold InstallationKeys.present!
  split
  · exact insertPending!_trace
  split
  · exact .done _ _
  rename_i current _ _
  have replaced : ContextStep db { db with
      installationKeys := db.installationKeys.put (InstallationKeys.replaced current) } :=
    contextStep_of_eq rfl rfl rfl
  refine .act (.context replaced) (bind revokeForKey!_trace fun _ _ _ => ?_)
  exact insertPending!_trace

variable {fingerprint : String}

theorem approve_trace {keyId : Uuid} :
    Trace (Act env op) db (InstallationKeys.approve db scope keyId fingerprint) := by
  refine reads_authorizeMember!.trace fun _ _ => ?_
  refine Reads.ofOption.trace fun _ _ => ?_
  refine Reads.ensure.trace fun _ _ => ?_
  exact .of_act (.context (contextStep_of_eq rfl rfl rfl))

variable {resourceId : Uuid}

theorem endActive!_trace : Trace (Act env op) db (endBindings! reason now db
    (TargetBindings.active db organizationId resourceId).toList) := by
  cases found : active db organizationId resourceId with
  | none => exact .done _ _
  | some =>
    have chosen := find?_some found
    simp only [Bool.and_eq_true, decide_eq_true_eq] at chosen
    exact endBinding!_trace (get?_of_mem (mem_of_find?_eq_some found)) chosen.2.2

theorem bind_trace {agentId : Uuid} :
    Trace (Act env op) db
      (TargetBindings.bind db scope resourceId agentId fingerprint newId now) := by
  refine reads_authorizeMember!.trace fun _ _ => ?_
  refine Reads.ensure.trace fun _ _ => ?_
  refine Reads.ofOption.trace fun _ _ => ?_
  refine Reads.ensure.trace fun _ _ => ?_
  refine Reads.ofOption.trace fun _ _ => ?_
  refine endActive!_trace.bind fun _ _ _ => ?_
  simp only [insertBinding!]
  split
  · split
    · exact .fail (.raised (by simp))
    · exact .of_act (.context (contextStep_add _))
  · exact .fail (.raised (by simp))

theorem revoke_trace : Trace (Act env op) db (TargetBindings.revoke db scope bindingId now) := by
  refine reads_authorizeMember!.trace fun _ _ => ?_
  refine Reads.ofOption.trace fun _ found => ?_
  obtain ⟨stored, chosen⟩ := filter_eq_some_iff.1 (ofOption_eq_ok_iff.1 found)
  simp only [Bool.and_eq_true, decide_eq_true_eq] at chosen
  exact endBinding!_trace (key_of_get? stored ▸ stored) chosen.2

/-! ### Signed leases -/

variable {newSecret : Uuid → OfferSecret}

theorem offerJob!_ownRowOnly : OwnRowOnly (SignedLeases.offerJob! env allowed newSecret now) := by
  intro db _ _ _ h _ other
  unfold SignedLeases.offerJob! at h
  split at h
  · split at h
    · obtain ⟨db₁, updated, h⟩ := bind_eq_ok_iff.1 h
      obtain ⟨_, _, _, rfl⟩ := Db.updateJob_eq_ok_iff.1 updated
      cases h
      exact get?_put_of_ne db.jobs other
    · obtain ⟨⟨db₁, job₁⟩, applied, h⟩ := bind_eq_ok_iff.1 h
      cases h
      exact apply!_ownRowOnly applied other
    · cases h
      rfl
    · cases h
  obtain ⟨⟨_, _⟩, applied, h⟩ := bind_eq_ok_iff.1 h
  cases h
  exact apply!_ownRowOnly applied other

theorem offered_eq_written {secret : OfferSecret} :
    offered env job secret now = written job (offerChanges env secret now) [] := by
  simp [offered, written, Job.change, numbered, offerChanges]

theorem offerJob!_trace
    (asked : op = .offer organizationId installationId keys limit newSecret skipped now)
    (found : db.jobs.get? job.id = some job) (native : job.importedAt = none)
    (queued : job.state = .queued) (privileged : job.riskClass ≠ .observe) :
    Trace (Act env op) db (SignedLeases.offerJob! env allowed newSecret now db job) := by
  unfold SignedLeases.offerJob!
  split
  · split
    · rename_i bound
      have act : Act env op db (db.updateJob job (offered env job (newSecret job.id) now)) := by
        rw [offered_eq_written]
        exact act_updateJob found (.offered asked queued privileged bound) native
      exact update act fun _ _ => .done _ _
    · exact (refuse!_trace found native queued).bind fun _ _ _ => .done _ _
    · exact .done _ _
    exact .fail (.raised (by simp))
  · exact (refuse!_trace found native queued).bind fun _ _ _ => .done _ _

theorem offer_trace
    (asked : op = .offer organizationId installationId keys limit newSecret skipped now) :
    Trace (Act env op) db
      (SignedLeases.offer env db organizationId agent keys limit newSecret skipped now) := by
  refine Reads.ensure.trace fun _ _ => ?_
  refine reads_lockActiveOrganization!.trace fun _ _ => ?_
  split
  · exact .done _ _
  refine forEachJob_trace offerJob!_ownRowOnly
    selected_leasableJobs.filter.take ?_
  intro _ _ member found
  obtain ⟨leasable, chosen⟩ := mem_filter.1 (mem_of_mem_take member)
  obtain ⟨_, _, _, queued, _, native⟩ := mem_leasableJobs leasable
  simp only [Bool.and_eq_true, decide_eq_true_eq] at chosen
  exact offerJob!_trace asked found native queued chosen.1

theorem entries_withoutOffer {attempt : ℤ} {sequence : ℤ} :
    entries (withoutOffer job) attempt now sequence events
      = entries job attempt now sequence events := by
  induction events generalizing sequence with
  | nil => rfl
  | cons _ _ ih =>
    rw [entries, entries, ih]
    rfl

include found native in
/-- The lease that follows is one act from the row with the offer: the row in
between differs only by the offer it lost. -/
theorem act_leaseWithoutOffer {token : Token}
    (w : Write env op db job now (claimChanges env job token now) events) :
    Act env op db ((apply! { db with jobs := db.jobs.put (withoutOffer job) } (withoutOffer job)
      (leaseChanges env (withoutOffer job) token now) events now).map Prod.fst) := by
  cases applied : apply! { db with jobs := db.jobs.put (withoutOffer job) } (withoutOffer job)
      (leaseChanges env (withoutOffer job) token now) events now with
  | ok p =>
    obtain ⟨_, _⟩ := p
    obtain ⟨rfl, checked, _, rfl⟩ := apply!_eq_ok applied
    have last : (db.jobs.put (withoutOffer job)).put
        (written (withoutOffer job) (leaseChanges env (withoutOffer job) token now) events)
        = db.jobs.put (written job (claimChanges env job token now) events) :=
      put_put rfl
    have act := Act.write found w native checked (apply!_fits applied)
    rw [Db.afterWrite, ← last, appended, ← entries_withoutOffer] at act
    exact act
  | error =>
    rcases apply!_eq_error applied with rfl | rfl | rfl | ⟨rfl, rejected⟩ |
      ⟨c, rfl, _, violated⟩
    · exact .raised (by simp)
    · exact .raised (by simp)
    · exact .raised (by simp)
    · rw [rejectImportedJobUpdate_native (show (withoutOffer job).importedAt = none from native)]
        at rejected
      cases rejected
    · exact .checkRefused found w native violated

include found native in
theorem leaseOffered_trace {token : Token} (queued : job.state = .queued)
    (carries : job.offerTokenHash.isSome)
    (w : Write env op db job now (claimChanges env job token now)
      [{ type := .leased, actor := .agent agent.id }]) :
    Trace (Act env op) db (do
      let db ← db.updateJob job (withoutOffer job)
      let (db, leased, token) ← leaseWithToken! env db (withoutOffer job) agent token now
      return (db, SignedLeases.ClaimResult.leased leased token)) := by
  cases taken : db.updateJob job (withoutOffer job) with
  | error =>
    have same : withoutOffer job = written job
        { offerTokenHash := some none, offerNonce := some none, offerExpiresAt := some none }
        [] := by
      simp [withoutOffer, written, Job.change, numbered]
    have w₀ : Write env op db job now
        { offerTokenHash := some none, offerNonce := some none, offerExpiresAt := some none }
        [] := .offerTaken queued carries
    have taking := act_updateJob found w₀ native
    rw [← same, taken] at taking
    exact .fail taking
  | ok =>
    obtain ⟨_, _, _, rfl⟩ := Db.updateJob_eq_ok_iff.1 taken
    refine bind ?_ fun _ _ _ => .done _ _
    exact bind (.of_act (act_leaseWithoutOffer found native w)) fun _ _ _ => .done _ _

theorem reads_check (job : Job) : Reads (TargetBindings.check db job) :=
  Reads.ofOption.bind fun _ _ => Reads.ofOption.bind fun _ _ =>
    Reads.ensure.bind fun _ _ => Reads.ensure.bind fun _ _ =>
    Reads.ensure.bind fun _ _ => Reads.ensure.bind fun _ _ =>
    Reads.ofOption_match.bind fun _ _ => Reads.ensure.bind fun _ _ => Reads.ok

theorem claim_trace (authenticated : db.intakeAgent! organizationId installationId = .ok agent)
    {request : SignedLeases.Claim} (asked : op = .claim organizationId installationId request now) :
    Trace (Act env op) db (SignedLeases.claim env db organizationId agent request now) := by
  refine reads_lockActiveOrganization!.trace fun _ _ => ?_
  refine Reads.ofOption.trace fun job locked => ?_
  refine Reads.ensure.trace fun _ current => ?_
  obtain ⟨found, chosen⟩ := filter_eq_some_iff.1 (ofOption_eq_ok_iff.1 locked)
  simp only [Bool.and_eq_true, decide_eq_true_eq, isNone_iff_eq_none] at chosen
  obtain ⟨⟨_, own⟩, native⟩ := chosen
  have target := key_of_get? found
  have stored : db.jobs.get? job.id = some job := target ▸ found
  have offering := require_eq_ok_iff.1 current
  simp only [currentOffer?, Bool.and_eq_true, decide_eq_true_eq] at offering
  obtain ⟨⟨⟨⟨queued, _⟩, _⟩, carries⟩, _⟩ := offering
  split
  · split
    · rename_i binding key bound
      refine Reads.ensure.trace fun _ signed => ?_
      exact leaseOffered_trace stored native queued (by simp [carries])
        (.claimed asked target.symm authenticated own (require_eq_ok_iff.1 current) bound
          (require_eq_ok_iff.1 signed))
    · exact (refuse!_trace stored native queued).bind fun _ _ _ => .done _ _
    rename_i e _ failed
    rcases reads_check job e failed with ⟨reason, rfl⟩ | rfl
    · exact .fail (.rolledBack reason)
    · exact .fail (.raised (by simp))
  · exact (refuse!_trace stored native queued).bind fun _ _ _ => .done _ _

/-! ### Requests and imports -/

theorem insertJob_fails (inserts : op.Inserts) {e : Error}
    (failed : db.insertJob job = .error e) : Act env op db (.error e) := by
  rcases Db.insertJob_eq_error failed with rfl | rfl | ⟨_, rfl, violated⟩
  · exact .raised (by simp)
  · exact .raised (by simp)
  · exact .insertRefused inserts violated

theorem insertRequested!_trace (inserts : op.Inserts) (requested : job.Requested)
    (native : job.importedAt = none) (captured : db.Captured job) {key : String} :
    Trace (Act env op) db (insertRequested! db job actor key now) := by
  unfold insertRequested!
  cases inserted : db.insertJob job with
  | error => exact .fail (insertJob_fails inserts inserted)
  | ok =>
    obtain ⟨fresh, checked, fits, rfl⟩ := Db.insertJob_eq_ok inserted
    refine .act (.insert fresh checked inserts (.inl ⟨requested, native⟩) fits fun _ => captured) ?_
    have found : (db.jobs.add job fresh).get? job.id = some job := by
      rw [get?_add, if_pos rfl]
    exact .of_act (act_apply! found (.created actor _ requested) (.inl native))

theorem newJob_requested (organizationId : Uuid) (actor : Actor) (agent : Agent)
    (capability : Capability) (parameters : Payload) (resourceId : Option Uuid) (notAfter : Time)
    (binding : Option TargetBinding) (opts : CreateOpts) (newId : Uuid) (now : Time) :
    (newJob organizationId actor agent capability parameters resourceId notAfter binding opts
      newId now).Requested :=
  ⟨rfl, rfl, rfl, rfl, rfl⟩

theorem reads_fetchRequestableAgent! {agentId : Uuid} {key : String} :
    Reads (fetchRequestableAgent! db organizationId agentId key) :=
  Reads.ofOption.bind fun _ _ => Reads.ensure.bind fun _ _ =>
    Reads.ensure.bind fun _ _ => Reads.ok

variable {resourceId : Option Uuid}

theorem reads_fetchReportedResourceId! :
    Reads (fetchReportedResourceId! db organizationId agent resourceId) := by
  cases resourceId with
  | none => exact Reads.ok
  | some =>
    exact Reads.ensure.bind fun _ _ => Reads.ensure.bind fun _ _ => Reads.ok

variable {capability : Capability} {parameters : Payload}

theorem reads_castParameters! : Reads (castParameters! env capability parameters) := by
  unfold castParameters!
  split
  · exact Reads.ok
  · exact Reads.rollback

theorem reads_deadline! {notAfter : Option Time} : Reads (deadline! notAfter now) := by
  cases notAfter with
  | none => exact Reads.ok
  | some =>
    simp only [deadline!]
    split
    · exact Reads.ok
    · exact Reads.rollback

theorem reads_authorizeCapability! :
    Reads (authorizeCapability! capability scope agent parameters) := by
  unfold authorizeCapability!
  split
  · exact Reads.ok
  · exact Reads.rollback

theorem reads_capture! : Reads (capture! db organizationId agent resourceId) := by
  unfold capture!
  split
  · exact Reads.rollback
  split
  · exact Reads.ensure.bind fun _ _ => Reads.ok
  · exact Reads.rollback

theorem reads_captureBinding! :
    Reads (captureBinding! db organizationId agent resourceId capability) := by
  unfold captureBinding!
  split
  · exact reads_capture!.bind fun _ _ => Reads.ok
  · exact Reads.ok

theorem capture!_eq_ok
    (h : capture! db organizationId agent resourceId = .ok binding) :
    db.targetBindings.get? binding.id = some binding ∧ organizationId = binding.organizationId ∧
      agent.id = binding.agentId ∧ resourceId = some binding.resourceId := by
  unfold capture! at h
  split at h
  · cases h
  rename_i found
  split at h
  · rename_i same
    obtain ⟨_, _, h⟩ := bind_eq_ok_iff.1 h
    cases h
    obtain ⟨_, rfl, found⟩ := bind_eq_some_iff.1 found
    have chosen := find?_some found
    simp only [Bool.and_eq_true, decide_eq_true_eq] at chosen
    exact ⟨get?_of_mem (mem_of_find?_eq_some found), chosen.1.symm, same.symm,
      congrArg some chosen.2.1.symm⟩
  · cases h

theorem newJob_captured {notAfter : Time} {binding : Option TargetBinding} {opts : CreateOpts}
    (h : captureBinding! db organizationId agent resourceId capability = .ok binding) :
    db.Captured (newJob organizationId actor agent capability parameters resourceId notAfter
      binding opts newId now) := by
  unfold captureBinding! at h
  split at h
  · obtain ⟨binding, captured, h⟩ := bind_eq_ok_iff.1 h
    cases h
    obtain ⟨stored, own, same, resource⟩ := capture!_eq_ok captured
    refine ⟨fun id named => ?_, nofun⟩
    cases named
    exact ⟨binding, stored, own, same, resource, rfl⟩
  cases h
  exact ⟨nofun, fun _ => rfl⟩

theorem reads_findIdempotent! {key : Option String} :
    Reads (findIdempotent! db organizationId key) := by
  cases key with
  | none => exact Reads.ok
  | some =>
    simp only [findIdempotent!]
    split
    · exact Reads.rollback
    · exact Reads.ok

theorem reads_ensureSingleOpenResourceCollection! :
    Reads (ensureSingleOpenResourceCollection! db organizationId resourceId capability) := by
  unfold ensureSingleOpenResourceCollection!
  split
  · exact Reads.ok
  split
  · exact Reads.ensure
  · exact Reads.ok

theorem doCreate!_trace (inserts : op.Inserts) (organizationId : Uuid) (actor : Actor)
    (agentId : Uuid) (capability : Capability) (parameters : Payload) (opts : CreateOpts)
    (scope : Scope) (newId : Uuid) (now : Time) :
    Trace (Act env op) db (doCreate! env db organizationId actor agentId capability parameters
      opts scope newId now) := by
  refine Reads.ofOption_match.trace fun _ _ => ?_
  refine Reads.ensure.trace fun _ _ => ?_
  refine reads_fetchRequestableAgent!.trace fun _ _ => ?_
  refine reads_fetchReportedResourceId!.trace fun _ _ => ?_
  refine reads_castParameters!.trace fun _ _ => ?_
  refine reads_deadline!.trace fun _ _ => ?_
  refine reads_authorizeCapability!.trace fun _ _ => ?_
  refine reads_captureBinding!.trace fun _ captured => ?_
  refine reads_findIdempotent!.trace fun existing _ => ?_
  cases existing with
  | none =>
    refine reads_ensureSingleOpenResourceCollection!.trace fun _ _ => ?_
    refine Reads.ensure.trace fun _ _ => ?_
    exact insertRequested!_trace inserts (newJob_requested ..) rfl (newJob_captured captured)
  | some =>
    simp only
    split
    · exact .done _ _
    exact .fail (.rolledBack _)

theorem reads_authorizeRequest! : Reads (authorizeRequest! db scope capability) := by
  unfold authorizeRequest!
  split
  · exact reads_authorizeAll! _
  · exact Reads.rollback

theorem createEach!_trace (inserts : op.Inserts) (scope : Scope) (actor : Actor)
    (capability : Capability) (parameters : Payload) (opts : CreateOpts) (newId : Uuid → Uuid)
    (now : Time) (targets : List (Uuid × Agent)) :
    Trace (Act env op) db
      (createEach! env scope actor capability parameters opts newId now db targets) := by
  induction targets generalizing db with
  | nil => exact .done _ _
  | cons _ _ ih =>
    refine bind (doCreate!_trace inserts ..) fun _ _ _ => ?_
    exact bind ih fun _ _ _ => .done _ _

theorem importJob_trace (inserts : op.Inserts) {record : Job} {events : List JobEvent}
    {lease : Digest} : Trace (Act env op) db (importJob db record events lease now) := by
  unfold importJob
  cases inserted : db.insertJob (secureJob record lease now) with
  | error => exact .fail (insertJob_fails inserts inserted)
  | ok =>
    obtain ⟨fresh, checked, fits, rfl⟩ := Db.insertJob_eq_ok inserted
    refine .act (.insert fresh checked inserts (.inr rfl) fits (by simp [secureJob])) ?_
    change Trace (Act env op) _
      (Db.insertEvents { db with jobs := db.jobs.add _ fresh } _ >>= fun db => .ok (db, PUnit.unit))
    refine update ?_ fun _ _ => .done _ _
    cases stored : Db.insertEvents { db with jobs := db.jobs.add _ fresh } (events.map fun event =>
        { event with jobId := record.id, organizationId := record.organizationId }) with
    | error =>
      rcases Db.insertEvents_eq_error stored with rfl | rfl
      · exact .raised (by simp)
      · exact .raised (by simp)
    | ok =>
      rw [Db.insertEvents_eq_ok stored]
      refine .importEvents fun _ member => ⟨secureJob record lease now, ?_, rfl⟩
      obtain ⟨_, _, rfl⟩ := mem_map.1 member
      rw [get?_add]
      exact if_pos rfl

/-! ### Every operation -/

theorem changeOrganization_trace {action : OrganizationLifecycle.Action}
    (asked : op = .changeOrganization organizationId action now) :
    Trace (Act env op) db (changeOrganization db organizationId action now) := by
  refine Reads.ofOption.trace fun organization _ => ?_
  split
  · exact .fail (.rolledBack _)
  · exact .done _ _
  rename_i attrs _
  have moved : ContextStep db { db with
      organizations := db.organizations.put (OrganizationLifecycle.change organization attrs) } :=
    contextStep_of_eq rfl rfl rfl
  refine .act (.context moved) ?_
  simp only
  split
  · exact (suspendOrganization!_trace ⟨_, _, _, asked⟩).bind fun _ _ _ => .done _ _
  · exact .done _ _

theorem allowCapabilities_trace : Trace (Act env op) db (allowCapabilities env db scope keys) := by
  refine reads_lockActiveOrganization!.trace fun _ _ => ?_
  refine reads_authorizeMember!.trace fun _ _ => ?_
  refine Reads.ensure.trace fun _ _ => ?_
  exact .of_act (.context (contextStep_of_eq rfl rfl rfl))

theorem trace_replying {r : Except Error (Db × α)} (reply : α → Reply)
    (trace : Trace (Act env op) db r) : Trace (Act env op) db (replying reply r) :=
  trace.map

theorem perform_trace : Trace (Act env op) db (perform env db op) := by
  cases op with
  | createOrganization =>
    simp only [perform]
    split
    · exact .of_act (.context (contextStep_of_eq rfl rfl rfl))
    · exact .fail (.raised (by simp))
  | changeOrganization => exact trace_replying (fun _ => .done) (changeOrganization_trace rfl)
  | allowCapabilities => exact trace_replying (fun _ => .done) allowCapabilities_trace
  | inventory =>
    exact .of_act (.context (contextStep_of_eq rfl rfl rfl))
  | createJob =>
    refine trace_replying _ ?_
    refine Reads.ofOption.trace fun capability _ => ?_
    refine (reads_requestingUser _).trace fun actor _ => ?_
    refine reads_authorizeRequest!.trace fun _ _ => ?_
    exact doCreate!_trace (by trivial) ..
  | createSystemJob =>
    refine trace_replying _ ?_
    refine Reads.ofOption.trace fun capability _ => ?_
    refine reads_lockActiveOrganization!.trace fun _ _ => ?_
    exact doCreate!_trace (by trivial) ..
  | createBatch =>
    refine trace_replying _ ?_
    refine Reads.ensure.trace fun _ _ => ?_
    refine Reads.ensure.trace fun _ _ => ?_
    refine Reads.ofOption.trace fun _ _ => ?_
    refine (reads_requestingUser _).trace fun _ _ => ?_
    refine reads_authorizeRequest!.trace fun _ _ => ?_
    refine Reads.ensure.trace fun _ _ => ?_
    exact createEach!_trace (by trivial) ..
  | importJob => exact trace_replying (fun _ => .done) (importJob_trace (by trivial))
  | cancelJob => exact trace_replying _ cancelJob_trace
  | leaseJobs =>
    exact reads_intakeAgent!.trace fun agent _ => trace_replying _ (leaseJobs_trace rfl)
  | report =>
    exact reads_intakeAgent!.trace fun agent _ => trace_replying _ (reportJob_trace rfl)
  | sweepOne =>
    exact trace_replying (fun _ => .done) sweepOne_trace
  | resolveJob =>
    exact trace_replying _ (resolveJob_trace (by rfl))
  | reconcileJob =>
    exact trace_replying _ (reconcileJob_trace (by rfl))
  | presentKey =>
    exact reads_intakeAgent!.trace fun agent _ =>
      trace_replying (fun _ => .done) present!_trace
  | approveKey => exact trace_replying (fun _ => .done) approve_trace
  | bind =>
    exact trace_replying (fun _ => .done) bind_trace
  | revoke => exact trace_replying (fun _ => .done) revoke_trace
  | offer =>
    exact reads_intakeAgent!.trace fun agent _ => trace_replying _ (offer_trace rfl)
  | claim =>
    exact reads_intakeAgent!.trace fun _ authenticated =>
      trace_replying _ (claim_trace authenticated rfl)

/-! ### From acts to steps and runs -/

variable {P : Db → Prop}

theorem step_invariant (op : Op) (keep : ∀ {db db'}, P db → Act env op db (.ok db') → P db')
    (start : P db) : P (step env db op) := by
  cases result : perform env db op with
  | error => rwa [step_of_error result]
  | ok p =>
    rw [step_of_ok (show perform env db op = .ok (p.1, p.2) from result)]
    exact invariant (fun _ _ h act => keep h act) start perform_trace result

theorem step_relates {R : Db → Db → Prop} (op : Op)
    (keep : ∀ {db db'}, P db → Act env op db (.ok db') → P db') (refl : ∀ db, R db db)
    (trans : ∀ db₁ db₂ db₃, R db₁ db₂ → R db₂ db₃ → R db₁ db₃)
    (one : ∀ {db db'}, P db → Act env op db (.ok db') → R db db') (start : P db) :
    R db (step env db op) := by
  cases result : perform env db op with
  | error =>
    rw [step_of_error result]
    exact refl db
  | ok p =>
    rw [step_of_ok (show perform env db op = .ok (p.1, p.2) from result)]
    exact relates (fun _ _ h act => keep h act) refl trans (fun _ _ h act => one h act)
      start perform_trace result

variable {R : Job → Job → Prop}

theorem step_rowsRelated (refl : ∀ job, R job job) (trans : ∀ a b c, R a b → R b c → R a c)
    (op : Op) (write : ∀ {db job changes events now}, Write env op db job now changes events →
      job.importedAt = none → R job (written job changes events)) :
    RowsRelated R db (step env db op) :=
  step_relates (P := fun _ => True) op (fun _ _ => trivial) (RowsRelated.refl refl)
    (fun _ _ _ => RowsRelated.trans trans)
    (fun _ act => act.rowsRelated refl fun _ w native => write w native) trivial

/-- A row that no write of the operation is about stays as it is. -/
theorem step_fixed {F : Job → Prop} (op : Op) (stored : job ∈ db.jobs) (fixed : F job)
    (untouched : ∀ {db job changes events now}, Write env op db job now changes events →
      job.importedAt = none → ¬ F job) : (step env db op).jobs.get? job.id = some job := by
  obtain ⟨job', found, kept⟩ := step_rowsRelated (R := fun job job' => F job → job' = job)
    (fun _ _ => rfl) (fun _ _ _ first second fixed => (second (first fixed ▸ fixed)).trans
      (first fixed)) op (fun w native fixed => absurd fixed (untouched w native)) job.id job
    (get?_of_mem stored)
  rw [found, kept fixed]

theorem run_rowsRelated (refl : ∀ job, R job job) (trans : ∀ a b c, R a b → R b c → R a c)
    (write : ∀ {op db job changes events now}, Write env op db job now changes events →
      job.importedAt = none → R job (written job changes events)) (db : Db) (ops : List Op) :
    RowsRelated R db (run env db ops) :=
  Run.run_mono (P := fun _ => True) (fun _ _ _ => trivial) (RowsRelated.refl refl)
    (fun _ _ _ => RowsRelated.trans trans)
    (fun _ op _ => step_rowsRelated refl trans op fun w native => write w native) trivial ops

end Renga.Jobs
