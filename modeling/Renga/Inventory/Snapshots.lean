import Renga.Inventory.Presence

/-!
# Snapshots that arrive late

Three writers compare times: a member is recorded (`putMember`), a snapshot withdraws
(`View.withdraw`), and a late report is checked against the latest snapshot (`absentFromSnapshot`,
and `Db.supersededBySnapshot` before it is projected).
-/

namespace Renga.Inventory

open List Option

/-! ### Times of a member -/

theorem Member.present_eq_false_iff (member : Member) : member.present = false ↔
    ∃ time, member.withdrawnAt = some time ∧ member.lastReportedAt ≤ time := by
  unfold Member.present
  cases member.withdrawnAt with
  | none | some => simp

theorem Member.changeDomain_times {member previous : Member} (domain : Option DomainState)
    (observedAt : Time) :
    (member.changeDomain previous domain observedAt).lastReportedAt = member.lastReportedAt ∧
      (member.changeDomain previous domain observedAt).withdrawnAt = member.withdrawnAt := by
  unfold Member.changeDomain
  split
  · exact ⟨rfl, rfl⟩
  · split <;> exact ⟨rfl, rfl⟩

theorem latest_some {first second : Time} : latest (some first) (some second)
    = some (max first second) := by
  show (if first < second then some second else some first) = _
  split
  · next less => rw [max_eq_right less.le]
  · next less => rw [max_eq_left (not_lt.1 less)]

variable {second : Option Time}

theorem latest_cases (first : Option Time) : latest first second = first ∨
    latest first second = second := by
  cases first with
  | none => exact .inr rfl
  | some a =>
    cases second with
    | none => exact .inl rfl
    | some b =>
      rw [latest_some]
      exact (max_choice a b).imp (congrArg some) (congrArg some)

theorem le_latest {first : Option Time} {time : Time}
    (is : first = some time ∨ second = some time) :
    ∃ last, latest first second = some last ∧ time ≤ last := by
  rcases is with rfl | rfl
  · cases second with
    | none => exact ⟨time, rfl, le_rfl⟩
    | some => exact ⟨_, latest_some, le_max_left ..⟩
  cases first with
  | none => exact ⟨time, rfl, le_rfl⟩
  | some => exact ⟨_, latest_some, le_max_right ..⟩

variable {target : CollectorTarget} {member : Option Member}

/-- `absent_from_snapshot?/3` holds of a report that is not later than the latest snapshot, if no
report since then contained the resource. -/
theorem absentFromSnapshot_iff {observedAt : Time} :
    absentFromSnapshot target member observedAt = true ↔
      ∃ snapshotAt, target.lastCompleteAt = some snapshotAt ∧ observedAt ≤ snapshotAt ∧
        ∀ row, member = some row → row.lastReportedAt < snapshotAt := by
  unfold absentFromSnapshot
  cases target.lastCompleteAt with
  | none => simp
  | some => cases member <;> simp

theorem exists_row_of_not_absent {observedAt snapshotAt : Time}
    (absent : absentFromSnapshot target member observedAt = false)
    (complete : target.lastCompleteAt = some snapshotAt) (before : observedAt ≤ snapshotAt) :
    ∃ row, member = some row ∧ snapshotAt ≤ row.lastReportedAt := by
  by_contra none
  refine Bool.false_ne_true (absent.symm.trans (absentFromSnapshot_iff.2
    ⟨snapshotAt, complete, before, fun row its => ?_⟩))
  exact not_le.1 fun late => none ⟨row, its, late⟩

/-- The times of a member that is recorded. -/
theorem putMember_times (target : CollectorTarget) (member : Option Member) (resourceId : Uuid)
    (domain : Option DomainState) (observedAt : Time) :
    let new := putMember target member resourceId domain observedAt
    let withdrawnAt :=
      if absentFromSnapshot target member observedAt then target.lastCompleteAt else none
    (member = none ∧ new.lastReportedAt = observedAt ∧ new.withdrawnAt = withdrawnAt) ∨
      ∃ row, member = some row ∧ new.lastReportedAt = max row.lastReportedAt observedAt ∧
        new.withdrawnAt = latest row.withdrawnAt withdrawnAt := by
  cases member with
  | none =>
    obtain ⟨last, withdrawn⟩ := Member.changeDomain_times domain observedAt
    exact .inl ⟨rfl, last, withdrawn⟩
  | some row =>
    obtain ⟨last, withdrawn⟩ := Member.changeDomain_times domain observedAt
    exact .inr ⟨row, rfl, last, withdrawn⟩

/-- What writing a member does to its times: none of them is lost, and there is a withdrawal that
was not there before only if the report comes too late. -/
structure Wrote (target : CollectorTarget) (member : Option Member) (observedAt : Time)
    (new : Member) : Prop where
  own : observedAt ≤ new.lastReportedAt
  later : ∀ row, member = some row → row.lastReportedAt ≤ new.lastReportedAt
  last : new.lastReportedAt = observedAt ∨
    ∃ row, member = some row ∧ new.lastReportedAt = row.lastReportedAt
  kept : ∀ row, member = some row → ∀ time, row.withdrawnAt = some time →
    ∃ withdrawnAt, new.withdrawnAt = some withdrawnAt ∧ time ≤ withdrawnAt
  late : absentFromSnapshot target member observedAt = true →
    ∀ time, target.lastCompleteAt = some time →
      ∃ withdrawnAt, new.withdrawnAt = some withdrawnAt ∧ time ≤ withdrawnAt
  withdrawn : ∀ time, new.withdrawnAt = some time →
    (∃ row, member = some row ∧ row.withdrawnAt = some time) ∨
      (absentFromSnapshot target member observedAt = true ∧ target.lastCompleteAt = some time)

theorem putMember_wrote (target : CollectorTarget) (member : Option Member) (resourceId : Uuid)
    (domain : Option DomainState) (observedAt : Time) :
    Wrote target member observedAt (putMember target member resourceId domain observedAt) := by
  have times := putMember_times target member resourceId domain observedAt
  generalize putMember target member resourceId domain observedAt = new at times ⊢
  have unlate : ∀ time, (if absentFromSnapshot target member observedAt then
      target.lastCompleteAt else none) = some time →
        absentFromSnapshot target member observedAt = true ∧ target.lastCompleteAt = some time := by
    intro time
    split
    · next absent => exact fun is => ⟨absent, is⟩
    · nofun
  rcases times with ⟨rfl, last, withdrawn⟩ | ⟨row, rfl, last, withdrawn⟩
  · refine ⟨last.ge, fun _ is => (by cases is), .inl last, fun _ is => (by cases is), ?_, ?_⟩
    · intro absent time is
      rw [withdrawn, if_pos absent]
      exact ⟨time, is, le_rfl⟩
    intro time is
    exact .inr (unlate time (withdrawn.symm.trans is))
  refine ⟨last.ge.trans' (le_max_right ..), ?_, ?_, ?_, ?_, ?_⟩
  · rintro _ ⟨⟩
    exact last.ge.trans' (le_max_left ..)
  · rcases max_choice row.lastReportedAt observedAt with is | is
    · exact .inr ⟨row, rfl, last.trans is⟩
    · exact .inl (last.trans is)
  · rintro _ ⟨⟩ time is
    rw [withdrawn]
    exact le_latest (.inl is)
  · intro absent time is
    rw [withdrawn, if_pos absent]
    exact le_latest (.inr is)
  intro time is
  rcases latest_cases row.withdrawnAt with old | old
  · exact .inl ⟨row, rfl, (withdrawn.trans old).symm.trans is⟩
  · exact .inr (unlate time ((withdrawn.trans old).symm.trans is))

/-! ### Two sets of times -/

/-- The row of a member, and its latest snapshot, against the times it was reported and missed. -/
structure Remembers (reported missed : Set Time) (complete : Option Time)
    (member : Option Member) : Prop where
  heard : ∀ row, member = some row → row.lastReportedAt ∈ reported
  last : ∀ time ∈ reported, ∃ row, member = some row ∧ time ≤ row.lastReportedAt
  withdrawn : ∀ row, member = some row → ∀ time, row.withdrawnAt = some time → time ∈ missed
  absent : ∀ time ∈ missed, ∀ row, member = some row → row.lastReportedAt ≤ time →
    row.present = false
  taken : ∀ time, complete = some time → time ∈ missed ∨ time ∈ reported
  covered : ∀ time ∈ missed, ∃ latest, complete = some latest ∧ time ≤ latest

/-- The times with one more, if `p` holds. -/
def joined (observedAt : Time) (p : Prop) (times : Set Time) : Set Time :=
  {time | (time = observedAt ∧ p) ∨ time ∈ times}

section

variable {observedAt : Time} {p : Prop} {times : Set Time}

theorem joined_of (holds : p) : joined observedAt p times = insert observedAt times := by
  ext time
  simp [joined, holds]

theorem joined_of_not (not : ¬p) : joined observedAt p times = times := by
  ext time
  simp [joined, not]

end

/-- A snapshot withdraws a member that it does not contain, unless a later report did. -/
def Member.sweep (contained : Bool) (observedAt : Time) (member : Member) : Member :=
  if !contained && decide (member.lastReportedAt ≤ observedAt) && member.present then
    { member with withdrawnAt := some observedAt }
  else member

variable {outcomes : List Outcome} {complete : Option Time} {resourceId : Uuid}

namespace Remembers

variable {reported missed : Set Time} {target : CollectorTarget} {member : Option Member}

theorem nothing : Remembers ∅ ∅ none none where
  heard _ is := by cases is
  last := nofun
  withdrawn _ is := by cases is
  absent := nofun
  taken := nofun
  covered := nofun

variable (holds : Remembers reported missed target.lastCompleteAt member)
include holds

/-- **A report that contains the resource.**  Whenever it arrives, recording it adds its time to
the times the resource was reported, and none to the snapshots that missed it. -/
theorem put (resourceId : Uuid) (domain : Option DomainState) (observedAt : Time) :
    Remembers (insert observedAt reported) missed target.lastCompleteAt
      (some (putMember target member resourceId domain observedAt)) := by
  have wrote := putMember_wrote target member resourceId domain observedAt
  generalize putMember target member resourceId domain observedAt = new at wrote
  refine ⟨?_, ?_, ?_, ?_, ?_, holds.covered⟩
  · rintro _ ⟨⟩
    rcases wrote.last with is | ⟨row, is, same⟩
    · exact .inl is
    · exact .inr (same ▸ holds.heard row is)
  · rintro time (rfl | before)
    · exact ⟨new, rfl, wrote.own⟩
    obtain ⟨row, is, le⟩ := holds.last time before
    exact ⟨new, rfl, le.trans (wrote.later row is)⟩
  · rintro _ ⟨⟩ time is
    rcases wrote.withdrawn time is with ⟨row, old, its⟩ | ⟨absent, complete⟩
    · exact holds.withdrawn row old time its
    -- The latest snapshot missed the resource, or a report at its time would have contained it.
    obtain ⟨_, same, -, earlier⟩ := absentFromSnapshot_iff.1 absent
    cases same.symm.trans complete
    rcases holds.taken time complete with missed | heard
    · exact missed
    obtain ⟨row, its, le⟩ := holds.last time heard
    exact absurd (earlier row its) le.not_gt
  · rintro time mem _ ⟨⟩ le
    obtain ⟨snapshotAt, complete, before⟩ := holds.covered time mem
    refine new.present_eq_false_iff.2 ?_
    cases absent : absentFromSnapshot target member observedAt with
    | true =>
      obtain ⟨withdrawnAt, its, after⟩ := wrote.late absent snapshotAt complete
      exact ⟨withdrawnAt, its, (le.trans before).trans after⟩
    | false =>
      -- The report is not later than the snapshot, so the row it found is.
      obtain ⟨row, its, late⟩ := exists_row_of_not_absent absent complete
        ((wrote.own.trans le).trans before)
      obtain ⟨withdrawnAt, old, after⟩ := row.present_eq_false_iff.1
        (holds.absent time mem row its ((wrote.later row its).trans le))
      obtain ⟨withdrawnAt', new', after'⟩ := wrote.kept row its withdrawnAt old
      exact ⟨withdrawnAt', new', (((le.trans before).trans late).trans after).trans after'⟩
  intro time complete
  exact (holds.taken time complete).imp id .inr

theorem putAll_again {observedAt : Time} (mem : observedAt ∈ reported) :
    Remembers reported missed target.lastCompleteAt
      (putAll target resourceId observedAt outcomes member) := by
  induction outcomes generalizing member with
  | nil => exact holds
  | cons outcome _ ih =>
    rw [putAll, foldl_cons]
    split
    · refine ih ?_
      have next := holds.put resourceId outcome.domain observedAt
      rwa [Set.insert_eq_of_mem mem] at next
    · exact ih holds

theorem putAll (resourceId : Uuid) (observedAt : Time) (outcomes : List Outcome) :
    Remembers (joined observedAt (∃ outcome ∈ outcomes, outcome.resource = some resourceId)
        reported) missed target.lastCompleteAt
      (putAll target resourceId observedAt outcomes member) := by
  induction outcomes with
  | nil =>
    rw [joined_of_not (by simp)]
    exact holds
  | cons first _ ih =>
    rw [Inventory.putAll, foldl_cons]
    by_cases hit : first.resource = some resourceId
    · rw [if_pos hit, joined_of ⟨first, mem_cons_self .., hit⟩]
      exact (holds.put resourceId first.domain observedAt).putAll_again
        (Set.mem_insert ..)
    rw [if_neg hit]
    simp only [mem_cons, exists_eq_or_imp, hit, false_or]
    exact ih

/-- **A snapshot.**  It is as late as any report of the resource; if it misses the resource, its
time joins the snapshots that did. -/
theorem withdraw {observedAt : Time} (newest : ∀ time ∈ reported, time ≤ observedAt)
    (covered : ∀ time ∈ missed, time ≤ observedAt) {contained : Bool}
    (its : contained = true → observedAt ∈ reported) :
    Remembers reported (joined observedAt (¬contained = true) missed) (some observedAt)
      (member.map (Member.sweep contained observedAt)) := by
  have last : ∀ row : Member,
      (row.sweep contained observedAt).lastReportedAt = row.lastReportedAt := by
    intro row
    unfold Member.sweep
    split <;> rfl
  refine ⟨?_, ?_, ?_, ?_, ?_, ?_⟩
  · intro _ is
    obtain ⟨row, was, rfl⟩ := map_eq_some_iff.1 is
    rw [last]
    exact holds.heard row was
  · intro time mem
    obtain ⟨row, is, le⟩ := holds.last time mem
    exact ⟨row.sweep contained observedAt, by rw [is]; rfl, by rwa [last]⟩
  · intro _ is time withdrawn
    obtain ⟨row, was, rfl⟩ := map_eq_some_iff.1 is
    unfold Member.sweep at withdrawn
    split at withdrawn
    · rename_i due
      simp only [Bool.and_eq_true, Bool.not_eq_true'] at due
      exact .inl ⟨(some.inj withdrawn).symm, Bool.eq_false_iff.1 due.1.1⟩
    · exact .inr (holds.withdrawn row was time withdrawn)
  · intro time mem _ is le
    obtain ⟨row, was, rfl⟩ := map_eq_some_iff.1 is
    rw [last] at le
    unfold Member.sweep
    split
    · rename_i due
      simp only [Bool.and_eq_true, decide_eq_true_eq] at due
      exact Member.present_eq_false_iff _ |>.2 ⟨observedAt, rfl, due.1.2⟩
    rename_i due
    rcases mem with ⟨rfl, missed⟩ | mem
    · simpa [missed, le] using due
    exact holds.absent time mem row was le
  · rintro _ ⟨⟩
    cases contained with
    | true => exact .inr (its rfl)
    | false => exact .inl (.inl ⟨rfl, Bool.false_ne_true⟩)
  rintro time (⟨rfl, -⟩ | mem)
  · exact ⟨time, rfl, le_rfl⟩
  · exact ⟨observedAt, rfl, covered time mem⟩

omit holds

/-- **A late report is told before it is recorded.**  `superseded_by_snapshot?/3` answers true
for an observation exactly if recording it leaves the resource not present. -/
theorem superseded_iff (holds : Remembers reported missed complete member)
    (is : complete = target.lastCompleteAt) (resourceId : Uuid) (domain : Option DomainState)
    (observedAt : Time) :
    (∃ snapshotAt, complete = some snapshotAt ∧ observedAt ≤ snapshotAt ∧
      ∀ row, member = some row → snapshotAt ≤ row.lastReportedAt → row.present = false) ↔
      (putMember target member resourceId domain observedAt).present = false := by
  subst is
  have wrote := putMember_wrote target member resourceId domain observedAt
  generalize putMember target member resourceId domain observedAt = new at wrote
  rw [new.present_eq_false_iff]
  constructor
  · rintro ⟨snapshotAt, complete, before, gone⟩
    cases absent : absentFromSnapshot target member observedAt with
    | true =>
      obtain ⟨withdrawnAt, its, after⟩ := wrote.late absent snapshotAt complete
      obtain ⟨_, same, -, earlier⟩ := absentFromSnapshot_iff.1 absent
      cases same.symm.trans complete
      refine ⟨withdrawnAt, its, after.trans' ?_⟩
      rcases wrote.last with last | ⟨row, its, last⟩
      · exact last.le.trans before
      · exact last.le.trans (earlier row its).le
    | false =>
      obtain ⟨row, its, late⟩ := exists_row_of_not_absent absent complete before
      obtain ⟨withdrawnAt, old, after⟩ := row.present_eq_false_iff.1 (gone row its late)
      obtain ⟨withdrawnAt', new', after'⟩ := wrote.kept row its withdrawnAt old
      refine ⟨withdrawnAt', new', after'.trans' ?_⟩
      rcases wrote.last with last | ⟨row', its', last⟩
      · exact last.le.trans ((before.trans late).trans after)
      cases its.symm.trans its'
      exact last.le.trans after
  rintro ⟨withdrawnAt, its, le⟩
  -- No withdrawal is later than the latest snapshot.
  obtain ⟨snapshotAt, complete, after⟩ : ∃ snapshotAt,
      target.lastCompleteAt = some snapshotAt ∧ withdrawnAt ≤ snapshotAt := by
    rcases wrote.withdrawn withdrawnAt its with ⟨row, old, was⟩ | ⟨-, complete⟩
    · exact holds.covered withdrawnAt (holds.withdrawn row old withdrawnAt was)
    · exact ⟨withdrawnAt, complete, le_rfl⟩
  refine ⟨snapshotAt, complete, (wrote.own.trans le).trans after, ?_⟩
  intro row old late
  rcases wrote.withdrawn withdrawnAt its with ⟨_, old', was⟩ | ⟨absent, _⟩
  · cases old.symm.trans old'
    exact row.present_eq_false_iff.2 ⟨withdrawnAt, was, (wrote.later row old).trans le⟩
  obtain ⟨_, same, -, earlier⟩ := absentFromSnapshot_iff.1 absent
  cases same.symm.trans complete
  exact absurd (earlier row old) late.not_gt

/-- **Presence**: some report is later than every snapshot that missed the resource. -/
theorem present_iff (holds : Remembers reported missed complete member) :
    (∃ row, member = some row ∧ row.present = true) ↔
      ∃ time ∈ reported, (∀ other ∈ reported, other ≤ time) ∧ ∀ other ∈ missed, other < time := by
  constructor
  · rintro ⟨row, is, present⟩
    refine ⟨row.lastReportedAt, holds.heard row is, ?_, ?_⟩
    · intro other mem
      obtain ⟨_, is', le⟩ := holds.last other mem
      cases is.symm.trans is'
      exact le
    intro other mem
    by_contra late
    exact Bool.false_ne_true ((holds.absent other mem row is (not_lt.1 late)).symm.trans present)
  rintro ⟨time, mem, -, later⟩
  obtain ⟨row, is, le⟩ := holds.last time mem
  refine ⟨row, is, ?_⟩
  by_contra absent
  obtain ⟨withdrawnAt, its, after⟩ :=
    row.present_eq_false_iff.1 (Bool.eq_false_iff.2 absent)
  exact absurd (later withdrawnAt (holds.withdrawn row is withdrawnAt its)) (le.trans after).not_gt

end Remembers

/-! ### What was heard of a target -/

/-- A report with what became of its derived observations. -/
structure Application where
  source : Source
  report : Report
  outcomes : List Outcome

/-- A report of a target as it arrived. -/
structure Heard where
  report : Report
  reported : ReportedTarget
  outcomes : List Outcome

/-- What a report says of a target, if it names it. -/
def Application.heardOf (target : TargetKey) (application : Application) : Option Heard :=
  if application.source.id = target.1 then
    (application.report.targets.get? target.2).map fun reported =>
      ⟨application.report, reported, application.outcomes⟩
  else none

namespace Heard

def observedAt (heard : Heard) : Time := heard.report.observedAt

/-- The report names the resource under the target. -/
def Contains (heard : Heard) (resourceId : Uuid) : Prop :=
  contains heard.outcomes heard.reported.key resourceId = true

/-- A complete report that reached the target, all of whose resources were reconciled. -/
def Snapshot (heard : Heard) : Prop :=
  heard.report.complete = true ∧ heard.reported.status = .reachable ∧
    ∀ outcome ∈ outcomesOf heard.outcomes heard.reported.key, outcome.resource.isSome = true

/-- A snapshot that was not older than a report of the target already applied. -/
def Effective (log : List Heard) (heard : Heard) : Prop :=
  heard.Snapshot ∧ ∃ before after, log = before ++ heard :: after ∧
    ∀ earlier ∈ before, earlier.observedAt ≤ heard.observedAt

variable {log : List Heard}

theorem Effective.mem {heard : Heard} (effective : Effective log heard) : heard ∈ log := by
  obtain ⟨-, _, _, rfl, -⟩ := effective
  exact mem_append_right _ (mem_cons_self ..)

variable {last : Heard}

/-- An effective snapshot was one before, or is the last report and the newest. -/
theorem effective_concat {heard : Heard} : Effective (log ++ [last]) heard ↔ Effective log heard ∨
      (heard = last ∧ last.Snapshot ∧ ∀ earlier ∈ log, earlier.observedAt ≤ last.observedAt) := by
  constructor
  · rintro ⟨snapshot, before, after, split, newest⟩
    rcases eq_nil_or_concat after with rfl | ⟨after, _, rfl⟩
    · obtain ⟨rfl, same⟩ := append_inj' split rfl
      cases same
      exact .inr ⟨rfl, snapshot, newest⟩
    rw [concat_eq_append, ← cons_append, ← append_assoc] at split
    obtain ⟨rfl, -⟩ := append_inj' split rfl
    exact .inl ⟨snapshot, before, after, rfl, newest⟩
  rintro (⟨snapshot, before, after, rfl, newest⟩ | ⟨rfl, snapshot, newest⟩)
  · exact ⟨snapshot, before, after ++ [last], append_assoc .., newest⟩
  · exact ⟨snapshot, log, [], rfl, newest⟩

/-- When the resource was reported. -/
def reportedAt (log : List Heard) (resourceId : Uuid) : Set Time :=
  {time | ∃ heard ∈ log, heard.Contains resourceId ∧ heard.observedAt = time}

/-- When an effective snapshot missed the resource. -/
def missedAt (log : List Heard) (resourceId : Uuid) : Set Time :=
  {time | ∃ heard, Effective log heard ∧ ¬heard.Contains resourceId ∧ heard.observedAt = time}

theorem reportedAt_concat :
    reportedAt (log ++ [last]) resourceId
      = joined last.observedAt (last.Contains resourceId) (reportedAt log resourceId) := by
  ext time
  constructor
  · rintro ⟨heard, mem, contained, rfl⟩
    rcases mem_append.1 mem with mem | mem
    · exact .inr ⟨heard, mem, contained, rfl⟩
    cases mem_singleton.1 mem
    exact .inl ⟨rfl, contained⟩
  rintro (⟨rfl, contained⟩ | ⟨heard, mem, contained, rfl⟩)
  · exact ⟨last, mem_append_right _ (mem_singleton_self _), contained, rfl⟩
  · exact ⟨heard, mem_append_left _ mem, contained, rfl⟩

theorem missedAt_concat_of_not
    (not : ¬(last.Snapshot ∧ ∀ earlier ∈ log, earlier.observedAt ≤ last.observedAt)) :
    missedAt (log ++ [last]) resourceId = missedAt log resourceId := by
  ext time
  exact exists_congr fun _ => and_congr_left fun _ =>
    effective_concat.trans (or_iff_left fun its => not its.2)

theorem missedAt_concat_of_snapshot (snapshot : last.Snapshot)
    (newest : ∀ earlier ∈ log, earlier.observedAt ≤ last.observedAt) :
    missedAt (log ++ [last]) resourceId
      = joined last.observedAt (¬last.Contains resourceId) (missedAt log resourceId) := by
  ext time
  constructor
  · rintro ⟨heard, effective, missed, rfl⟩
    rcases effective_concat.1 effective with before | ⟨rfl, -⟩
    · exact .inr ⟨heard, before, missed, rfl⟩
    · exact .inl ⟨rfl, missed⟩
  rintro (⟨rfl, missed⟩ | ⟨heard, effective, missed, rfl⟩)
  · exact ⟨last, effective_concat.2 (.inr ⟨rfl, snapshot, newest⟩), missed, rfl⟩
  · exact ⟨heard, effective_concat.2 (.inl effective), missed, rfl⟩

/-- The log has the resource under the target: some report of it is later than every effective
snapshot that missed it. -/
def Standing (log : List Heard) (resourceId : Uuid) : Prop :=
  ∃ heard ∈ log, heard.Contains resourceId ∧
    ∀ snapshot, Effective log snapshot → ¬snapshot.Contains resourceId →
      snapshot.observedAt < heard.observedAt

theorem missedAt_concat_of_contains (contained : last.Contains resourceId) :
    missedAt (log ++ [last]) resourceId = missedAt log resourceId := by
  ext time
  refine exists_congr fun _ => and_congr_left ?_
  rintro ⟨missed, -⟩
  refine effective_concat.trans (or_iff_left ?_)
  rintro ⟨rfl, -⟩
  exact missed contained

theorem Standing.concat (standing : Standing log resourceId)
    (contained : last.Contains resourceId) : Standing (log ++ [last]) resourceId := by
  obtain ⟨heard, mem, its, later⟩ := standing
  refine ⟨heard, mem_append_left _ mem, its, fun snapshot effective missed => ?_⟩
  rcases effective_concat.1 effective with before | ⟨rfl, -⟩
  · exact later snapshot before missed
  · exact absurd contained missed

end Heard

/-! ### The rows and the log -/

/-- The row of a target, against the reports of the target that have arrived. -/
structure Newest (log : List Heard) (row : CollectorTarget) : Prop where
  newest : ∀ heard ∈ log, heard.observedAt ≤ row.lastReportedAt
  last : ∃ heard ∈ log, heard.report.id = row.lastObservationId ∧
    heard.observedAt = row.lastReportedAt ∧ heard.reported.status = row.status

/-- The rows of a target and of a resource under it, against the reports of the target that have
arrived. -/
structure Tracks (log : List Heard) (resourceId : Uuid) (view : View) : Prop where
  heard : log ≠ [] → view.target.isSome = true
  target : ∀ row, view.target = some row → Newest log row
  member : Remembers (Heard.reportedAt log resourceId) (Heard.missedAt log resourceId)
    (view.target.bind CollectorTarget.lastCompleteAt) view.member

variable {source : Source} {log : List Heard} {last : Heard} {resourceId : Uuid} {view : View}

theorem putTarget_lastCompleteAt (target : Option CollectorTarget) (source : Source)
    (report : Report) (reported : ReportedTarget) :
    (putTarget target source report reported).lastCompleteAt
      = target.bind CollectorTarget.lastCompleteAt := by
  unfold putTarget
  cases target with
  | none => rfl
  | some =>
    dsimp only
    split <;> rfl

theorem putTarget_cases (target : Option CollectorTarget) (source : Source) (report : Report)
    (reported : ReportedTarget) :
    let new := putTarget target source report reported
    ((∀ row, target = some row → row.lastReportedAt ≤ report.observedAt) ∧
      new.lastReportedAt = report.observedAt ∧ new.lastObservationId = report.id ∧
        new.status = reported.status) ∨
      ∃ row, target = some row ∧ report.observedAt < row.lastReportedAt ∧
        new.lastReportedAt = row.lastReportedAt ∧
          new.lastObservationId = row.lastObservationId ∧ new.status = row.status := by
  unfold putTarget
  cases target with
  | none => exact .inl ⟨nofun, rfl, rfl, rfl⟩
  | some row =>
    dsimp only
    split
    · next older => exact .inr ⟨row, rfl, older, rfl, rfl, rfl⟩
    rename_i older
    refine .inl ⟨?_, rfl, rfl, rfl⟩
    rintro _ ⟨⟩
    exact not_lt.1 older

section

variable {target : Option CollectorTarget} (heard : log ≠ [] → target.isSome = true)
  (before : ∀ row, target = some row → Newest log row)

include heard before

theorem newest_of_row {time : Time} (le : ∀ row, target = some row → row.lastReportedAt ≤ time) :
    ∀ earlier ∈ log, earlier.observedAt ≤ time := by
  intro earlier mem
  obtain ⟨row, is⟩ := isSome_iff_exists.1 (heard (ne_nil_of_mem mem))
  exact ((before row is).newest earlier mem).trans (le row is)

theorem newest_putTarget (source : Source) (last : Heard) :
    Newest (log ++ [last]) (putTarget target source last.report last.reported) := by
  have self : last ∈ log ++ [last] := mem_append_right _ (mem_singleton_self _)
  rcases putTarget_cases target source last.report last.reported with
    ⟨le, time, id, status⟩ | ⟨row, is, older, time, id, status⟩
  · refine ⟨?_, last, self, id.symm, time.symm, status.symm⟩
    intro earlier mem
    rw [time]
    rcases mem_append.1 mem with mem | mem
    · exact newest_of_row heard before le earlier mem
    cases mem_singleton.1 mem
    exact le_rfl
  obtain ⟨newest, from_, mem, id', time', status'⟩ := before row is
  refine ⟨?_, from_, mem_append_left _ mem, id'.trans id.symm, time'.trans time.symm,
    status'.trans status.symm⟩
  intro earlier mem
  rw [time]
  rcases mem_append.1 mem with mem | mem
  · exact newest earlier mem
  cases mem_singleton.1 mem
  exact older.le

/-- A report is the last of its target exactly if it is the newest. -/
theorem lastObservationId_putTarget (byId : ∀ earlier ∈ log, earlier.report.id = last.report.id →
      earlier.observedAt = last.observedAt) (source : Source) :
    (putTarget target source last.report last.reported).lastObservationId = last.report.id ↔
      ∀ earlier ∈ log, earlier.observedAt ≤ last.observedAt := by
  rcases putTarget_cases target source last.report last.reported with
    ⟨le, -, id, -⟩ | ⟨row, is, older, -, id, -⟩
  · exact iff_of_true id (newest_of_row heard before le)
  obtain ⟨-, from_, mem, id', time', -⟩ := before row is
  have late : last.observedAt < from_.observedAt := by
    rw [time']
    exact older
  refine iff_of_false ?_ fun newest => (newest from_ mem).not_gt late
  intro same
  exact late.ne' (byId from_ mem (id'.trans (id.symm.trans same)))

end

variable {heard : Heard}

theorem isSnapshot_iff :
    isSnapshot target heard.report heard.reported heard.outcomes = true ↔
      heard.Snapshot ∧ target.lastObservationId = heard.report.id := by
  unfold isSnapshot Heard.Snapshot
  simp only [Bool.and_eq_true, decide_eq_true_eq, List.all_eq_true]
  tauto

theorem Heard.contains_iff_outcome : heard.Contains resourceId ↔
    ∃ outcome ∈ outcomesOf heard.outcomes heard.reported.key, outcome.resource = some resourceId :=
  contains_iff

/-- **One report.**  The rows keep track of the log when a report of the target is added to it. -/
theorem Tracks.next (holds : Tracks log resourceId view) (last : Heard)
    (byId : ∀ earlier ∈ log, earlier.report.id = last.report.id →
      earlier.observedAt = last.observedAt) :
    Tracks (log ++ [last]) resourceId
      (view.next source last.report last.reported last.outcomes resourceId) := by
  have newest := newest_putTarget holds.heard holds.target source last
  have complete := putTarget_lastCompleteAt view.target source last.report last.reported
  have current := lastObservationId_putTarget holds.heard holds.target byId source
  have recorded : Remembers (Heard.reportedAt (log ++ [last]) resourceId)
      (Heard.missedAt log resourceId)
      (putTarget view.target source last.report last.reported).lastCompleteAt
      (putAll (putTarget view.target source last.report last.reported) resourceId
        last.report.observedAt (outcomesOf last.outcomes last.reported.key) view.member) := by
    rw [Heard.reportedAt_concat]
    simp only [Heard.contains_iff_outcome]
    refine Remembers.putAll ?_ ..
    rw [complete]
    exact holds.member
  unfold View.next View.record
  generalize putTarget view.target source last.report last.reported = row at *
  split
  · rename_i snapshot
    obtain ⟨snapshot, id⟩ := isSnapshot_iff.1 snapshot
    refine ⟨fun _ => rfl, ?_, ?_⟩
    · rintro _ ⟨⟩
      exact ⟨newest.newest, newest.last⟩
    rw [Heard.missedAt_concat_of_snapshot snapshot (current.1 id)]
    refine recorded.withdraw ?_ ?_ fun contained => ?_
    · rintro _ ⟨heard, mem, -, rfl⟩
      rcases mem_append.1 mem with mem | mem
      · exact current.1 id heard mem
      cases mem_singleton.1 mem
      exact le_rfl
    · rintro _ ⟨heard, effective, -, rfl⟩
      exact current.1 id heard effective.mem
    · exact ⟨last, mem_append_right _ (mem_singleton_self _), contained, rfl⟩
  rename_i snapshot
  refine ⟨fun _ => rfl, ?_, ?_⟩
  · rintro _ ⟨⟩
    exact newest
  rw [Heard.missedAt_concat_of_not]
  · exact recorded
  rintro ⟨its, latest⟩
  exact snapshot (isSnapshot_iff.2 ⟨its, current.2 latest⟩)

/-- The same, over the log. -/
theorem Remembers.standing_iff
    (holds : Remembers (Heard.reportedAt log resourceId) (Heard.missedAt log resourceId) complete
      member) :
    (∃ row, member = some row ∧ row.present = true) ↔ Heard.Standing log resourceId := by
  refine holds.present_iff.trans ⟨?_, ?_⟩
  · rintro ⟨_, ⟨heard, mem, contained, rfl⟩, -, later⟩
    exact ⟨heard, mem, contained,
      fun snapshot effective missed => later _ ⟨snapshot, effective, missed, rfl⟩⟩
  rintro ⟨heard, mem, contained, later⟩
  obtain ⟨row, is, le⟩ := holds.last _ ⟨heard, mem, contained, rfl⟩
  refine ⟨row.lastReportedAt, holds.heard row is, ?_, ?_⟩
  · intro other mem'
    obtain ⟨_, is', le'⟩ := holds.last other mem'
    cases is.symm.trans is'
    exact le'
  rintro _ ⟨snapshot, effective, missed, rfl⟩
  exact (later snapshot effective missed).trans_le le

theorem Tracks.putAll_present_iff (holds : Tracks log resourceId view) (source : Source)
    (last : Heard) (contained : last.Contains resourceId)
    (some_ : ∃ outcome ∈ outcomes, outcome.resource = some resourceId) :
    (∃ row, putAll (putTarget view.target source last.report last.reported) resourceId
        last.report.observedAt outcomes view.member = some row ∧ row.present = true) ↔
      Heard.Standing (log ++ [last]) resourceId := by
  have complete := putTarget_lastCompleteAt view.target source last.report last.reported
  have recorded := Remembers.putAll (complete ▸ holds.member) resourceId last.report.observedAt
    outcomes
  have all : insert last.report.observedAt (Heard.reportedAt log resourceId)
      = Heard.reportedAt (log ++ [last]) resourceId := by
    rw [Heard.reportedAt_concat, joined_of contained]
    rfl
  rw [joined_of some_, all, ← Heard.missedAt_concat_of_contains contained] at recorded
  exact recorded.standing_iff

theorem Tracks.nothing : Tracks [] resourceId ⟨none, none⟩ := by
  refine ⟨fun ne => absurd rfl ne, nofun, ?_⟩
  have reported : Heard.reportedAt [] resourceId = ∅ :=
    Set.eq_empty_of_forall_notMem fun _ ⟨_, mem, _⟩ => not_mem_nil mem
  have missed : Heard.missedAt [] resourceId = ∅ :=
    Set.eq_empty_of_forall_notMem fun _ ⟨_, effective, _⟩ => not_mem_nil effective.mem
  rw [reported, missed]
  exact Remembers.nothing

/-! ### Runs of reports -/

/-- The reports that have been applied, in the order of their arrival.  In between anything can
happen that writes neither targets nor members. -/
inductive Reports : List Application → Db → Prop
  | start : Reports [] {}
  | apply {applications : List Application} {db : Db} (application : Application) :
      Reports applications db → Reports (applications ++ [application])
        (db.applyReport application.source application.report application.outcomes)
  | other {applications : List Application} {db db' : Db} : Reports applications db →
      db'.targets = db.targets → db'.members = db.members → Reports applications db'

/-- The tables after some reports alone. -/
def applyAll (applications : List Application) : Db :=
  applications.foldl (fun db application =>
    db.applyReport application.source application.report application.outcomes) {}

variable {applications : List Application}

theorem reports_applyAll : Reports applications (applyAll applications) := by
  induction applications using reverseRecOn with
  | nil => exact Reports.start
  | append_singleton _ application ih =>
    rw [applyAll, foldl_append]
    exact Reports.apply application ih

variable {target : TargetKey} {application : Application}

theorem Application.heardOf_eq_some (is : application.heardOf target = some heard) :
    ∃ reported ∈ application.report.targets, target = (application.source.id, reported.key) ∧
      heard = ⟨application.report, reported, application.outcomes⟩ := by
  unfold Application.heardOf at is
  split at is
  · rename_i same
    obtain ⟨reported, found, rfl⟩ := map_eq_some_iff.1 is
    exact ⟨reported, KeyTable.mem_of_get? found,
      Prod.ext same.symm (KeyTable.key_of_get? found).symm, rfl⟩
  · cases is

theorem Application.heardOf_eq_none (none : application.heardOf target = none) :
    ∀ reported ∈ application.report.targets, target ≠ (application.source.id, reported.key) := by
  rintro _ mem rfl
  unfold Application.heardOf at none
  rw [if_pos rfl, KeyTable.get?_of_mem mem] at none
  cases none

/-- The reports of a target that have arrived, in the order of their arrival. -/
def heardOf (target : TargetKey) (applications : List Application) : List Heard :=
  applications.filterMap (Application.heardOf target)

/-- A report has one time, however often it is applied. -/
def OneTime (applications : List Application) : Prop :=
  ∀ one ∈ applications, ∀ two ∈ applications, one.report.id = two.report.id →
    one.report.observedAt = two.report.observedAt

theorem OneTime.of_append {last : List Application} (byId : OneTime (applications ++ last)) :
    OneTime applications := fun one mem two mem' =>
  byId one (mem_append_left _ mem) two (mem_append_left _ mem')

/-- **Every run.**  For every target and every resource, the two rows keep track of the reports
of the target that have arrived. -/
theorem Reports.tracks {db : Db} (reports : Reports applications db)
    (byId : OneTime applications) (target : TargetKey) (resourceId : Uuid) :
    Tracks (heardOf target applications) resourceId (db.view target resourceId) := by
  unfold heardOf
  induction reports with
  | start => exact Tracks.nothing
  | other _ targets members ih =>
    rw [Db.view, targets, members]
    exact ih byId
  | @apply _ _ application _ ih =>
    have known := ih byId.of_append
    rw [filterMap_append]
    cases heard : application.heardOf target with
    | none =>
      rw [filterMap_cons_none heard, filterMap_nil, append_nil,
        applyReport_view_other (Application.heardOf_eq_none heard)]
      exact known
    | some =>
      obtain ⟨reported, mem, rfl, rfl⟩ := Application.heardOf_eq_some heard
      rw [filterMap_cons_some heard, filterMap_nil, applyReport_view_self mem]
      refine known.next ⟨_, reported, _⟩ ?_
      intro _ mem' same
      obtain ⟨one, known, its⟩ := mem_filterMap.1 mem'
      obtain ⟨_, -, -, rfl⟩ := Application.heardOf_eq_some its
      exact byId one (mem_append_left _ known) application
        (mem_append_right _ (mem_singleton_self _)) same

theorem Tracks.superseded_iff {db : Db}
    (holds : Tracks log resourceId (db.view target resourceId)) {observation : Observation}
    {reported : ReportedTarget} (its : target = (source.id, reported.key))
    (named : observation.target = some reported.key) (report : Report)
    (domain : Option DomainState) :
    db.supersededBySnapshot source observation resourceId = true ↔
      (putMember (putTarget (db.targets.get? target) source report reported)
        (db.members.get? (target, resourceId)) resourceId domain
        observation.observedAt).present = false := by
  subst its
  refine Iff.trans ?_ (holds.member.superseded_iff (putTarget_lastCompleteAt ..).symm resourceId
    domain observation.observedAt)
  unfold Db.supersededBySnapshot Db.view
  rw [named]
  dsimp only
  cases db.targets.get? (source.id, reported.key) with
  | none => simp
  | some row =>
    dsimp only [bind_some]
    cases row.lastCompleteAt with
    | none => simp
    | some =>
      cases db.members.get? ((source.id, reported.key), resourceId) with
      | none => simp
      | some =>
        simp only [any_some, Bool.and_eq_true, decide_eq_true_eq, Bool.not_eq_true',
          Bool.and_eq_false_imp, some.injEq, exists_eq_left', forall_eq']

/-- **Presence does not depend on the order of arrival, up to which snapshots were effective.**
After any run of reports with distinct times of a target, the target has the status of its newest
report; a resource is present under it exactly if its newest report is later than every
effective snapshot that does not contain it; and an observation is superseded exactly if
recording it would leave the resource not present. -/
theorem presence_of_reports {applications : List Application} {db : Db}
    (reports : Reports applications db)
    (byId : ∀ one ∈ applications, ∀ two ∈ applications, one.report.id = two.report.id →
      one.report.observedAt = two.report.observedAt)
    (target : TargetKey)
    (distinct : ((heardOf target applications).map Heard.observedAt).Nodup)
    (resourceId : Uuid) :
    (∀ newest ∈ heardOf target applications,
      (∀ other ∈ heardOf target applications, other.observedAt ≤ newest.observedAt) →
        ∃ row, db.targets.get? target = some row ∧ row.status = newest.reported.status) ∧
    ((∃ row, db.members.get? (target, resourceId) = some row ∧ row.present = true) ↔
      ∃ newest ∈ heardOf target applications, newest.Contains resourceId ∧
        (∀ other ∈ heardOf target applications, other.Contains resourceId →
          other.observedAt ≤ newest.observedAt) ∧
        ∀ snapshot, Heard.Effective (heardOf target applications) snapshot →
          ¬snapshot.Contains resourceId → snapshot.observedAt < newest.observedAt) ∧
    ∀ (source : Source) (observation : Observation) (report : Report) (reported : ReportedTarget)
      (domain : Option DomainState), target = (source.id, reported.key) →
        observation.target = some reported.key →
          (db.supersededBySnapshot source observation resourceId = true ↔
            (putMember (putTarget (db.targets.get? target) source report reported)
              (db.members.get? (target, resourceId)) resourceId domain
              observation.observedAt).present = false) := by
  have tracks := reports.tracks byId target resourceId
  refine ⟨?_, ?_, ?_⟩
  · intro newest mem latest
    obtain ⟨row, is⟩ := isSome_iff_exists.1 (tracks.heard (ne_nil_of_mem mem))
    obtain ⟨after, last, mem', -, time, status⟩ := tracks.target row is
    refine ⟨row, is, ?_⟩
    have same : last.observedAt = newest.observedAt :=
      (latest last mem').antisymm ((after newest mem).trans time.ge)
    rw [← status, inj_on_of_nodup_map distinct mem' mem same]
  · refine tracks.member.present_iff.trans ⟨?_, ?_⟩
    · rintro ⟨_, ⟨newest, mem, contained, rfl⟩, latest, later⟩
      exact ⟨newest, mem, contained, fun other mem' its => latest _ ⟨other, mem', its, rfl⟩,
        fun snapshot effective missed => later _ ⟨snapshot, effective, missed, rfl⟩⟩
    rintro ⟨newest, mem, contained, latest, later⟩
    refine ⟨_, ⟨newest, mem, contained, rfl⟩, ?_, ?_⟩
    · rintro _ ⟨other, mem', its, rfl⟩
      exact latest other mem' its
    rintro _ ⟨snapshot, effective, missed, rfl⟩
    exact later snapshot effective missed
  intro _ _ report _ domain its named
  exact tracks.superseded_iff its named report domain

/-- A complete report of one node with one guest. -/
def nodeReport (id : Uuid) (observedAt : Time) (status : TargetStatus) : Application where
  source := ⟨1, .vmProvider, true⟩
  report :=
    { id := id, observedAt := observedAt, complete := true
      targets := ⟨[⟨"node", status, none⟩], nodup_singleton _⟩
      derived := [], listed := nofun, sameTime := nofun }
  outcomes := [⟨"node", some 7, none⟩]

/-- A report that arrives late leaves the status of the newest. -/
theorem late_report_leaves_status :
    let applications := [nodeReport 5 10 .reachable, nodeReport 6 30 .reachable,
      nodeReport 8 20 .unreachable]
    ∃ row, (applyAll applications).targets.get? (1, "node") = some row ∧ row.status = .reachable :=
  (presence_of_reports reports_applyAll (by decide) (1, "node") (by decide) 7).1
    ⟨(nodeReport 6 30 .reachable).report, ⟨"node", .reachable, none⟩, [⟨"node", some 7, none⟩]⟩
    (by exact mem_cons_of_mem _ (mem_cons_self ..)) (by decide)

end Renga.Inventory
