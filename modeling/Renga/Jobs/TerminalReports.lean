import Renga.Jobs.Delivery
import Renga.Jobs.Imported

/-!
# Reports that end a job

A job has a limit on what its agent reports, and work reports leave a reserve of it for the
report that ends the job, "so exhausting output cannot prevent the agent from recording a
failure or cancellation".  In every state a run reaches, a job that is not finished has its
reserve (`run_reserved`).
-/

namespace Renga.Jobs

open List KeyTable Except String

variable {env : Env} {op : Op} {db : Db}

/-! ### The reserve -/

/-- The job still has the reserve for the report that ends it. -/
def Job.Reserved (job : Job) : Prop :=
  job.importedAt = none → job.state ∉ finishedStates →
    job.outputBytes ≤
      job.outputLimitBytes - min terminalReportReserveBytes (job.outputLimitBytes.tdiv 2)

variable {job : Job}

theorem reportOutputLimit_work {type : ReportType} (work : type.isWork = true) :
    reportOutputLimit job type =
      job.outputLimitBytes - min terminalReportReserveBytes (job.outputLimitBytes.tdiv 2) :=
  if_pos work

variable {now : Time} {changes : Changes} {events : List EventParts}

/-- A write keeps the reserve: only a report adds output, and one that does not end the job is held
to it. -/
theorem Write.reserved (w : Write env op db job now changes events) (reserved : job.Reserved) :
    (written job changes events).Reserved := by
  intro native unfinished
  have before := reserved native w.unfinished.1
  cases w with
  | reported _ _ _ _ _ _ _ changed _ room =>
    have effect := reportChanges!_effect changed
    generalize Report.type _ = type at effect room
    cases effect with
    | started => exact room
    | working working =>
      have work : type.isWork = true := by
        rcases working with rfl | rfl <;> rfl
      rw [reportOutputLimit_work work] at room
      exact room
    | @ended _ next _ _ final =>
      have finished : next ∈ finishedStates := by
        rcases finalReports_cases final with ⟨_, rfl⟩ | ⟨_, rfl⟩ | ⟨_, rfl⟩ <;> decide
      exact absurd finished unfinished
  | _ => exact before

theorem inserted_reserved {row : Job} (checked : row.Checked)
    (new : row.Requested ∧ row.importedAt = none ∨ row.importedAt.isSome) : row.Reserved := by
  intro native _
  rcases new with ⟨requested, -⟩ | imported
  · have positive := (checked .validLimits).2.1
    have half : row.outputLimitBytes.tdiv 2 ≤ row.outputLimitBytes :=
      Int.tdiv_le_self _ positive.le
    rw [requested.silent]
    omega
  rw [native] at imported
  cases imported

/-- **Every job of a run keeps its reserve** until it is finished. -/
theorem run_reserved {ops : List Op} : ∀ job ∈ (run env {} ops).jobs, job.Reserved :=
  Run.run_invariant (P := fun db : Db => ∀ job ∈ db.jobs, job.Reserved)
    (fun _ op kept => step_invariant op (fun kept act => act.allRows
      (fun checked new _ => inserted_reserved checked new) (fun before w _ _ _ => w.reserved before)
      kept) kept)
    (fun _ member => absurd member (not_mem_empty _)) ops

/-! ### Reports under a held lease -/

theorem ReportEffect.attempts {type : ReportType} (effect : ReportEffect job now type changes) :
    changes.attempts = none := by
  cases effect <;> rfl

/-- An agent reports on a job whose lease it holds, with a number that is in order. -/
structure HeldReport (env : Env) (db : Db) (organizationId : Uuid) (installationId : String)
    (report : Report) (now : Time) (agent : Agent) (job : Job) : Prop where
  authenticated : db.intakeAgent! organizationId installationId = .ok agent
  found : db.jobs.get? report.jobId = some job
  own : job.organizationId = organizationId
  native : job.importedAt = none
  held : leaseHeld? env job agent report.token now = true
  valid : validReportSequence? report.sequence = true
  newest : staleSequence? db job report.sequence = false

section Held

variable {organizationId : Uuid} {installationId : String} {report : Report} {now : Time}
  {agent : Agent} {job : Job} {changes : Changes} {payload : Payload}
  (reports : HeldReport env db organizationId installationId report now agent job)
include reports

theorem HeldReport.undelivered : deliveredReport db job agent report.sequence = none := by
  have newest := reports.newest
  cases sequence : report.sequence with
  | none => rfl
  | some n =>
    rw [sequence] at newest
    cases delivered : deliveredReport db job agent (some n) with
    | none => rfl
    | some =>
      obtain ⟨member, attempt, number⟩ := deliveredReport_eq_some delivered
      rw [staleSequence?_of_recorded member attempt number le_rfl] at newest
      cases newest

theorem HeldReport.id_eq :
    job.id = report.jobId := key_of_get? reports.found

theorem HeldReport.unfinished : job.state ∉ finishedStates := by
  have held := held_of_leaseHeld? reports.held
  simp only [leasedStates, mem_cons, not_mem_nil, or_false] at held
  rcases held with state | state <;> simp [state, finishedStates]

theorem HeldReport.perform_eq :
    perform env db (.report organizationId installationId report now) =
      replying .job (recordReport! env db job agent report now) := by
  have authenticated := reports.authenticated
  simp only [Db.intakeAgent!, bind_eq_ok_iff, ofOption_eq_ok_iff,
    require_eq_ok_iff, decide_eq_true_eq] at authenticated
  obtain ⟨_, found, _, active, -⟩ := authenticated
  have opened := Db.lockActiveOrganization!_eq_ok_iff.2 ⟨found, active⟩
  have locked := Db.lockJob!_eq_ok_iff.2 ⟨reports.found, reports.own, reports.native⟩
  simp only [perform, reports.authenticated, reportJob, reports.valid, opened, locked, report!,
    reports.undelivered, require, bind, Except.bind, if_true]

/-- A report whose changes are known is recorded, when its payload is within the limits and its
reason within the column. -/
theorem HeldReport.recorded (writable : db.Writable)
    (changed : reportChanges! env job report.type (env.stringify report.payload) now
      = .ok (changes, payload))
    (small : payloadBytes payload ≤ maxEventPayloadBytes)
    (room : job.outputBytes + payloadBytes payload ≤ reportOutputLimit job report.type)
    (fits : Db.reasonFits (written job (recordedChanges job changes payload now)
      [reportEvent agent report payload]) = true) :
    perform env db (.report organizationId installationId report now) =
      .ok (db.afterWrite job (recordedChanges job changes payload now)
        [reportEvent agent report payload] now,
        .job (written job (recordedChanges job changes payload now)
          [reportEvent agent report payload])) := by
  have recording : Recording env db job agent report now changes payload :=
    ⟨reports.native, reports.valid, reports.undelivered, reports.held, reports.newest, changed,
      small, room⟩
  have found : db.jobs.get? job.id = some job := by rw [reports.id_eq, reports.found]
  have sound := writable.sound job (mem_of_get? found)
  have w : Write env (.report organizationId installationId report now) db job now _ _ :=
    recording.write reports.found
  have same := (reportChanges!_effect changed).attempts
  have numbered : ∀ n, (reportEvent agent report payload).reportSequence = some n →
      0 < n ∧ ∃ id, (reportEvent agent report payload).actor = .agent id := by
    intro n sequence
    have valid := reports.valid
    rw [show report.sequence = some n from sequence] at valid
    simp only [validReportSequence?, Bool.and_eq_true, decide_eq_true_eq] at valid
    exact ⟨by omega, agent.id, rfl⟩
  -- A report of the attempt with the same number would make this one stale.
  have unrepeated : ∀ other ∈ db.eventsOf job.id,
      (reportEvent agent report payload).reportSequence = other.reportSequence →
      (recordedChanges job changes payload now).attempts.getD job.attempts = other.attempt →
      (reportEvent agent report payload).reportSequence = none := by
    intro other member repeated attempt
    cases sequence : report.sequence with
    | none => exact sequence
    | some =>
      have current : other.attempt = job.attempts := by
        rw [← attempt]
        exact congrArg (Option.getD · job.attempts) same
      have newest := reports.newest
      rw [sequence, staleSequence?_of_recorded member current
        (repeated.symm.trans sequence) le_rfl] at newest
      cases newest
  have applied : apply! db job (recordedChanges job changes payload now)
      [reportEvent agent report payload] now = _ :=
    apply!_accepted writable found reports.native (w.checked sound reports.native) fits small
      numbered unrepeated
  rw [reports.perform_eq]
  simp only [recordReport!, reports.held, reports.newest, changed, small, room, require,
    bind, Except.bind, decide_true, Bool.not_false, if_true]
  exact congrArg (replying .job) applied

/-- The report is accepted and stored: the row is in its last state, with the reason, and its
history has one more event, with the payload. -/
def StoredReport (env : Env) (db : Db) (organizationId : Uuid) (installationId : String)
    (report : Report) (now : Time) (job : Job) (state : JobState) (reason : Option String)
    (payload : Payload) : Prop :=
  ∃ db' job' event,
    perform env db (.report organizationId installationId report now) = .ok (db', .job job') ∧
    db'.jobs.get? job.id = some job' ∧ job'.state = state ∧ job'.failureReason = reason ∧
    db'.eventsOf job.id = db.eventsOf job.id ++ [event] ∧ event.type = report.type.eventType ∧
    event.payload = payload ∧ event.reportSequence = report.sequence

theorem HeldReport.stored (writable : db.Writable)
    {state : JobState} {reason : Option (Option String)}
    (changed : reportChanges! env job report.type (env.stringify report.payload) now
      = .ok (finish { state := some state, failureReason := reason } now, payload))
    (small : payloadBytes payload ≤ maxEventPayloadBytes)
    (room : job.outputBytes + payloadBytes payload ≤ reportOutputLimit job report.type)
    (fits : ∀ text, reason.getD job.failureReason = some text → text.length ≤ 255) :
    StoredReport env db organizationId installationId report now job state
      (reason.getD job.failureReason) payload := by
  have found : db.jobs.get? job.id = some job := by rw [reports.id_eq, reports.found]
  refine ⟨_, _, _, reports.recorded writable changed small room ?_,
    Db.get?_afterWrite_self found, rfl, rfl, Db.eventsOf_afterWrite_self .., rfl, rfl, rfl⟩
  refine (Option.all_eq_true ..).2 fun text is => decide_eq_true (fits text is)

omit reports

end Held

/-! ### The failure reason -/

def reasonBytes (reason : String) : ℕ :=
  ((reason.toList.flatMap Json.escapeChar).map Char.utf8Size).sum

theorem payloadBytes_reason {reason : String} :
    payloadBytes [("reason", .string reason)] = 14 + reasonBytes reason := by
  have opening : ((Char.ofNat 123 :: Json.stringText "reason" ++ [':', ' ', '"']).map
      Char.utf8Size).sum = 12 := by decide
  have closing : (['"', Char.ofNat 125].map Char.utf8Size).sum = 2 := by decide
  have text : Json.jsonbText (.object [("reason", .string reason)]) =
      (Char.ofNat 123 :: Json.stringText "reason" ++ [':', ' ', '"']) ++
        (reason.toList.flatMap Json.escapeChar ++ ['"', Char.ofNat 125]) := by
    simp [Json.jsonbText, Json.fieldsText, Json.stringText]
  rw [payloadBytes, Json.octetLength, text, map_append, sum_append, opening,
    map_append, sum_append, closing, reasonBytes]
  omega

/-- What a failure reason has to meet to be recorded: its first 255 graphemes are at most 255
characters, and with what is reported so far their JSON text is within the output limit. -/
structure ReasonFits (env : Env) (job : Job) (reason : String) : Prop where
  width : (env.slice reason maxFailureReasonLength).length ≤ 255
  room : job.outputBytes + (14 + reasonBytes (env.slice reason maxFailureReasonLength)) ≤
    job.outputLimitBytes

theorem utf8Size_escapeChar_le (c : Char) : ((Json.escapeChar c).map Char.utf8Size).sum ≤ 6 := by
  have hex : ∀ n < 16, (Json.hexDigit n).utf8Size = 1 := by decide
  unfold Json.escapeChar
  repeat' split
  all_goals first | decide | skip
  · rename_i control
    have high := hex (c.toNat / 16) (by omega)
    have low := hex (c.toNat % 16) (by omega)
    simp only [map_cons, map_nil, sum_cons, sum_nil, high, low]
    decide
  have one := c.utf8Size_le_four
  simp only [map_cons, map_nil, sum_cons, sum_nil]
  omega

theorem reasonBytes_le (reason : String) : reasonBytes reason ≤ 6 * reason.length := by
  rw [reasonBytes, ← length_toList]
  induction reason.toList with
  | nil => rfl
  | cons c =>
    have one := utf8Size_escapeChar_le c
    rw [flatMap_cons, map_append, sum_append, length_cons]
    omega

section Terminal

variable {organizationId : Uuid} {installationId : String} {report : Report} {now : Time}
  {agent : Agent} {job : Job} {reason : String}

theorem reportChanges!_failed (env : Env) (job : Job) {payload : Payload} (now : Time)
    (given : Json.get? payload "reason" = some (.string reason)) (some_ : reason ≠ "") :
    reportChanges! env job .failed payload now =
      .ok (finish { state := some .failed
                    failureReason := some (some (env.slice reason maxFailureReasonLength)) } now,
        [("reason", .string (env.slice reason maxFailureReasonLength))]) := by
  simp only [reportChanges!, failedChanges!, given, if_neg some_]

theorem apply!_wide {text : String} (is : changes.failureReason = some (some text))
    (wide : 255 < text.length) : apply! db job changes events now = .error .valueTooLong := by
  have stored : (job.change (numbered job changes events)).failureReason = some text :=
    congrArg (Option.getD · job.failureReason) is
  have unfit : Db.reasonFits (job.change (numbered job changes events)) = false := by
    rw [Db.reasonFits, stored]
    exact decide_eq_false (not_le.2 wide)
  simp only [apply!, Db.updateJob, unfit, require, bind, Except.bind]
  rfl

variable (reports : HeldReport env db organizationId installationId report now agent job)
  (type : report.type = .failed)
  (given : Json.get? (env.stringify report.payload) "reason" = some (.string reason))
  (some_ : reason ≠ "")
include reports type given some_

theorem HeldReport.stored_of_reasonFits (writable : db.Writable)
    (fits : ReasonFits env job reason) :
    StoredReport env db organizationId installationId report now job .failed
      (some (env.slice reason maxFailureReasonLength))
      [("reason", .string (env.slice reason maxFailureReasonLength))] := by
  have changed := reportChanges!_failed env job now given some_
  rw [← type] at changed
  refine reports.stored writable changed ?_ ?_ ?_
  · rw [payloadBytes_reason, maxEventPayloadBytes]
    have bytes := reasonBytes_le (env.slice reason maxFailureReasonLength)
    have width := fits.width
    omega
  · rw [payloadBytes_reason, type]
    have room := fits.room
    exact_mod_cast room
  rintro _ is
  rw [← Option.some.inj is]
  exact fits.width

theorem HeldReport.reasonFits (writable : db.Writable) {db' : Db} {reply : Reply}
    (accepted : perform env db (.report organizationId installationId report now)
      = .ok (db', reply)) : ReasonFits env job reason := by
  have after : db'.Writable := by
    rw [← step_of_ok accepted]
    exact step_invariant _ (fun writable act => act.writable writable) writable
  obtain ⟨other, _, authenticated, reported, -⟩ := perform_report_eq_ok accepted
  obtain rfl : agent = other := ok.inj (reports.authenticated.symm.trans authenticated)
  obtain ⟨same, found, -, recorded⟩ := reportJob_eq_ok reported
  obtain rfl : job = same := Option.some.inj (reports.found.symm.trans found)
  rcases recorded with ⟨_, _, recording, _, rfl⟩ | ⟨_, replaying, -⟩
  · have changed := reportChanges!_failed env job now given some_
    have is := recording.changed
    rw [type, changed] at is
    obtain ⟨rfl, rfl⟩ := Prod.mk.inj (ok.inj is)
    have stored : db.jobs.get? job.id = some job := by rw [reports.id_eq, reports.found]
    have fits := after.fits _ (mem_of_get? (Db.get?_afterWrite_self stored))
    have room := recording.room
    rw [payloadBytes_reason, type] at room
    exact ⟨of_decide_eq_true fits, by exact_mod_cast room⟩
  have delivered := replaying.delivered
  rw [reports.undelivered] at delivered
  cases delivered

theorem HeldReport.refused_of_room
    (full : job.outputLimitBytes <
      job.outputBytes + (14 + reasonBytes (env.slice reason maxFailureReasonLength))) :
    perform env db (.report organizationId installationId report now)
      = .error (.rollback .outputLimitExceeded) := by
  have changed := reportChanges!_failed env job now given some_
  have tooLong : ¬ job.outputBytes + payloadBytes
      [("reason", .string (env.slice reason maxFailureReasonLength))] ≤
        reportOutputLimit job .failed := by
    rw [payloadBytes_reason]
    exact not_le.2 full
  rw [reports.perform_eq]
  simp only [recordReport!, reports.held, reports.newest, type, changed, tooLong, require,
    bind, Except.bind, decide_false, Bool.not_false, if_true]
  split
  · rename_i one
    split at one
    · cases one
    cases one
    rfl
  · rfl

theorem HeldReport.refused_of_width
    (wide : 255 < (env.slice reason maxFailureReasonLength).length)
    (small : 14 + reasonBytes (env.slice reason maxFailureReasonLength) ≤ maxEventPayloadBytes)
    (room : job.outputBytes + (14 + reasonBytes (env.slice reason maxFailureReasonLength)) ≤
      job.outputLimitBytes) :
    perform env db (.report organizationId installationId report now) = .error .valueTooLong := by
  have changed := reportChanges!_failed env job now given some_
  rw [← payloadBytes_reason] at small
  have within : job.outputBytes + payloadBytes
      [("reason", .string (env.slice reason maxFailureReasonLength))] ≤
        reportOutputLimit job .failed := by
    rw [payloadBytes_reason]
    exact_mod_cast room
  rw [reports.perform_eq]
  simp only [recordReport!, reports.held, reports.newest, type, changed, within, small,
    require, bind, Except.bind, decide_true, Bool.not_false, if_true]
  exact congrArg (replying .job) (apply!_wide rfl wide)

omit reports type given some_

theorem Job.Reserved.room (reserved : job.Reserved) (native : job.importedAt = none)
    (unfinished : job.state ∉ finishedStates) (limit : 2048 ≤ job.outputLimitBytes) :
    job.outputBytes + 1024 ≤ job.outputLimitBytes := by
  have before := reserved native unfinished
  have half : 1024 ≤ job.outputLimitBytes.tdiv 2 := by
    rw [Int.tdiv_eq_ediv_of_nonneg (by omega)]
    omega
  rw [terminalReportReserveBytes, min_eq_left half] at before
  omega

theorem reasonFits_of_reserved (reserved : job.Reserved) (native : job.importedAt = none)
    (unfinished : job.state ∉ finishedStates) (limit : 2048 ≤ job.outputLimitBytes)
    (width : (env.slice reason maxFailureReasonLength).length ≤ 255)
    (bytes : 14 + (reasonBytes (env.slice reason maxFailureReasonLength) : ℤ) ≤
      terminalReportReserveBytes) : ReasonFits env job reason := by
  have room := reserved.room native unfinished limit
  rw [terminalReportReserveBytes] at bytes
  exact ⟨width, by omega⟩

theorem HeldReport.stored_of_cancelled (writable : db.Writable)
    (reports : HeldReport env db organizationId installationId report now agent job)
    (type : report.type = .cancelled) (requested : job.cancelRequestedAt.isSome)
    (reserved : job.Reserved) (limit : 2048 ≤ job.outputLimitBytes) :
    StoredReport env db organizationId installationId report now job .cancelled
      job.failureReason [] := by
  have changed : reportChanges! env job report.type (env.stringify report.payload) now
      = .ok (finish { state := some .cancelled } now, []) := by
    simp only [type, reportChanges!, requested, if_true]
  have room := reserved.room reports.native reports.unfinished limit
  have bytes : payloadBytes [] = 2 := by decide
  refine reports.stored writable changed (by decide) ?_ fun text is => ?_
  · rw [type, bytes]
    show job.outputBytes + 2 ≤ job.outputLimitBytes
    omega
  have fits := writable.fits job (mem_of_get? reports.found)
  exact of_decide_eq_true ((Option.all_eq_true ..).1 fits text is)

end Terminal

/-- **A report that ends a job is recorded, unless its reason does not fit.**  After every run, a
cancellation that was asked for is accepted and stored, and a failure exactly when its reason fits;
a reason whose JSON text is within the reserve, and whose characters are within the column, does so
whatever was reported before. -/
theorem terminal_report_stored_iff (env : Env) (ops : List Op) :
    let db := run env {} ops
    ∀ organizationId installationId (report : Report) now agent job,
      HeldReport env db organizationId installationId report now agent job →
      2048 ≤ job.outputLimitBytes →
      (report.type = .failed → ∀ reason,
        Json.get? (env.stringify report.payload) "reason" = some (.string reason) →
        reason ≠ "" → '\x00' ∉ reason.toList →
        (StoredReport env db organizationId installationId report now job .failed
          (some (env.slice reason maxFailureReasonLength))
          [("reason", .string (env.slice reason maxFailureReasonLength))] ↔
            ReasonFits env job reason) ∧
        ((env.slice reason maxFailureReasonLength).length ≤ 255 →
          14 + (reasonBytes (env.slice reason maxFailureReasonLength) : ℤ) ≤
            terminalReportReserveBytes → ReasonFits env job reason)) ∧
      (report.type = .cancelled → job.cancelRequestedAt.isSome →
        StoredReport env db organizationId installationId report now job .cancelled
          job.failureReason []) := by
  intro db _ _ _ _ _ job reports limit
  have writable : db.Writable := run_writable env ops
  have reserved : job.Reserved := run_reserved job (mem_of_get? reports.found)
  refine ⟨fun type _ given some_ _ => ⟨⟨?_, ?_⟩, ?_⟩, fun type requested => ?_⟩
  · rintro ⟨_, _, _, accepted, -⟩
    exact reports.reasonFits type given some_ writable accepted
  · exact reports.stored_of_reasonFits type given some_ writable
  · exact reasonFits_of_reserved reserved reports.native reports.unfinished limit
  · exact reports.stored_of_cancelled writable type requested reserved limit

/-! ### Reasons that do not fit -/

def isMark (c : Char) : Bool := 0x300 ≤ c.toNat ∧ c.toNat ≤ 0x36f

/-- The first graphemes of a text, after the one that is being read. -/
def takeGraphemes : ℕ → List Char → List Char
  | _, [] => []
  | n, c :: text =>
    if isMark c then c :: takeGraphemes n text
    else
      match n with
      | 0 => []
      | n + 1 => c :: takeGraphemes n text

/-- The first graphemes of a text in which only these marks are joined to the character before. -/
def graphemes : ℕ → List Char → List Char
  | n + 1, c :: text => c :: takeGraphemes n text
  | _, _ => []

theorem takeGraphemes_spec (n : ℕ) (text : List Char) :
    takeGraphemes n text <+: text ∧ (text.length ≤ n → takeGraphemes n text = text) := by
  fun_induction takeGraphemes n text with
  | case1 => exact ⟨prefix_rfl, fun _ => rfl⟩
  | case2 n c text mark ih =>
    refine ⟨cons_prefix_cons.2 ⟨rfl, ih.1⟩, fun few => ?_⟩
    rw [ih.2 (Nat.le_of_succ_le few)]
  | case3 => exact .intro nil_prefix fun few => absurd few (by simp)
  | case4 c text mark n ih =>
    refine ⟨cons_prefix_cons.2 ⟨rfl, ih.1⟩, fun few => ?_⟩
    rw [ih.2 (Nat.le_of_succ_le_succ few)]

theorem graphemes_spec (n : ℕ) (text : List Char) :
    graphemes n text <+: text ∧ (text.length ≤ n → graphemes n text = text) := by
  unfold graphemes
  split
  next n c text =>
    obtain ⟨front, whole⟩ := takeGraphemes_spec n text
    refine ⟨cons_prefix_cons.2 ⟨rfl, front⟩, fun few => ?_⟩
    rw [whole (Nat.le_of_succ_le_succ few)]
  next other =>
    refine .intro nil_prefix fun few => ?_
    cases text with
    | nil => rfl
    | cons => cases n with
      | zero => cases few
      | succ => exact absurd rfl (other _ _ _ rfl)

def probe : Capability where
  name := "host.probe"
  version := 1
  riskClass := .observe
  retryClass := .idempotent
  timeoutMs := 1000
  outputLimitBytes := 2048
  parametersChangeset := .ok
  resultChangeset := .ok

def probeEnv : Env where
  registry := [probe]
  hashToken := id
  slice := fun text length => String.ofList (graphemes length text.toList)
  sliced := fun text length => by
    obtain ⟨front, whole⟩ := graphemes_spec length text.toList
    rw [toList_ofList]
    exact ⟨front, fun few => by rw [whole few, ofList_toList]⟩
  stringify := id
  verify := fun _ _ _ => false
  fingerprint := fun _ => ""

def probeHost : Agent where
  id := 2
  organizationId := 1
  installationId := "a"
  sourceId := some 3
  capabilities := ["host.probe@1"]

def probeStarted : List Op :=
  [.createOrganization 1 60,
    .inventory (empty.add probeHost rfl) [] [],
    .createSystemJob 1 2 "host.probe@1" [] {} 8 0,
    .leaseJobs 1 "a" ["host.probe@1"] 1 (fun _ => "t") (fun _ => false) 0,
    .report 1 "a" ⟨8, "t", .started, [], some 1⟩ 0]

def probeOutput : Op :=
  .report 1 "a"
    ⟨8, "t", .output, [("a", .array (.bool false :: replicate 168 .null))], some 2⟩ 0

def probeFailure (reason : List Char) : Report :=
  ⟨8, "t", .failed, [("reason", .string (String.ofList reason))], some 3⟩

theorem slice_probeEnv {text : List Char} :
    probeEnv.slice (String.ofList text) maxFailureReasonLength
      = String.ofList (graphemes maxFailureReasonLength text) := by
  show String.ofList (graphemes _ (String.ofList text).toList) = _
  rw [toList_ofList]

theorem ofList_ne_empty (c : Char) (text : List Char) : String.ofList (c :: text) ≠ "" := by
  intro is
  have none := congrArg toList is
  rw [toList_ofList] at none
  cases none

theorem exists_probeFailure (ops : List Op) (bytes : ℤ) (reason : List Char)
    (authenticated : ((run probeEnv {} ops).intakeAgent! 1 "a").toOption = some probeHost)
    (leased : ((run probeEnv {} ops).jobs.get? 8).any (fun job => job.organizationId = 1 ∧
      job.importedAt = none ∧ leaseHeld? probeEnv job probeHost "t" 0 = true ∧
      staleSequence? (run probeEnv {} ops) job (some 3) = false ∧ job.outputBytes = bytes ∧
      job.outputLimitBytes = 2048) = true) :
    ∃ job, HeldReport probeEnv (run probeEnv {} ops) 1 "a" (probeFailure reason) 0 probeHost job ∧
      job.outputBytes = bytes ∧ job.outputLimitBytes = 2048 := by
  obtain ⟨job, found, facts⟩ := (Option.any_eq_true ..).1 leased
  obtain ⟨own, native, held, newest, output, limit⟩ := of_decide_eq_true facts
  refine ⟨job, ⟨?_, found, own, native, held, rfl, newest⟩, output, limit⟩
  cases is : (run probeEnv {} ops).intakeAgent! 1 "a" with
  | error =>
    rw [is] at authenticated
    cases authenticated
  | ok =>
    rw [is] at authenticated
    exact congrArg ok (Option.some.inj authenticated)

/-- **Reasons that are not recorded.**  One is 255 characters of four bytes each, after the job has
used its output but for the reserve.  The other is one letter with 255 marks, on a job that has
reported two bytes: one grapheme, and more characters than the column holds. -/
theorem probeFailure_refused :
    perform probeEnv (run probeEnv {} (probeStarted ++ [probeOutput]))
        (.report 1 "a" (probeFailure (replicate 255 (Char.ofNat 0x1f600))) 0)
      = .error (.rollback .outputLimitExceeded) ∧
    perform probeEnv (run probeEnv {} probeStarted)
        (.report 1 "a" (probeFailure ('e' :: replicate 255 (Char.ofNat 0x301))) 0)
      = .error .valueTooLong := by
  constructor
  · obtain ⟨job, reports, output, limit⟩ := exists_probeFailure (probeStarted ++ [probeOutput]) 1024
      (replicate 255 (Char.ofNat 0x1f600)) (by decide +kernel) (by decide +kernel)
    refine reports.refused_of_room rfl rfl (ofList_ne_empty _ _) ?_
    rw [slice_probeEnv, reasonBytes, toList_ofList, output, limit]
    decide +kernel
  obtain ⟨_, reports, output, limit⟩ := exists_probeFailure probeStarted 2
    ('e' :: replicate 255 (Char.ofNat 0x301)) (by decide +kernel) (by decide +kernel)
  refine reports.refused_of_width rfl rfl (ofList_ne_empty _ _) ?_ ?_ ?_
  · rw [slice_probeEnv, length_ofList]
    decide +kernel
  · rw [slice_probeEnv, reasonBytes, toList_ofList]
    decide +kernel
  rw [slice_probeEnv, reasonBytes, toList_ofList, output, limit]
  decide +kernel

/-- A short reason is recorded, with the output used up. -/
theorem probeFailure_stored : ∃ job, job.outputBytes = 1024 ∧
    StoredReport probeEnv (run probeEnv {} (probeStarted ++ [probeOutput])) 1 "a"
      (probeFailure ['x']) 0 job .failed
      (some (probeEnv.slice (String.ofList ['x']) maxFailureReasonLength))
      [("reason", .string (probeEnv.slice (String.ofList ['x']) maxFailureReasonLength))] := by
  obtain ⟨job, reports, output, limit⟩ := exists_probeFailure (probeStarted ++ [probeOutput]) 1024
    ['x'] (by decide +kernel) (by decide +kernel)
  have plain : '\x00' ∉ (String.ofList ['x']).toList := by
    decide
  obtain ⟨stored, fits⟩ := (terminal_report_stored_iff probeEnv (probeStarted ++ [probeOutput]) 1
    "a" (probeFailure ['x']) 0 probeHost job reports limit.ge).1 rfl (String.ofList ['x']) rfl
    (ofList_ne_empty _ _) plain
  refine ⟨job, output, stored.2 (fits ?_ ?_)⟩
  · rw [slice_probeEnv, length_ofList]
    decide +kernel
  decide +kernel

end Renga.Jobs
