import Renga.Inventory.Snapshots

/-!
# Whether an inventory is current

The condition `InventoryCurrent` is written in five places, each of which sees its own
change only.  It has to agree with the claims, and does not while a report is being applied:
the observations derived from it have set conditions for resources that are only going to be
recorded (`Db.Settled` has them as `pending`), and the members it has recorded are present
before their condition is kept (`Db.Applying` has them as `kept`).
-/

namespace Renga.Inventory

open List

/-- A claim on a resource stands: it is present under a target, or a host agent reported it. -/
def Db.Claimed (db : Db) (resourceId : Uuid) : Prop :=
  (∃ member ∈ db.members, member.resourceId = resourceId ∧ member.present = true) ∨
    db.hostClaim resourceId = true

/-- Conditions and claims agree, up to resources that are going to be claimed. -/
structure Db.Settled (db : Db) (pending : Uuid → Prop) : Prop where
  current : ∀ resourceId condition, db.conditions resourceId = some condition →
    condition.status = true → db.Claimed resourceId ∨ pending resourceId
  withdrawn : ∀ resourceId condition, db.conditions resourceId = some condition →
    condition.reason = .withdrawn → ¬db.Claimed resourceId

/-- Conditions and claims agree, up to resources whose condition is going to be kept. -/
structure Db.Applying (db : Db) (kept : Uuid → Prop) : Prop where
  current : ∀ resourceId condition, db.conditions resourceId = some condition →
    condition.status = true → db.Claimed resourceId
  withdrawn : ∀ resourceId condition, db.conditions resourceId = some condition →
    condition.reason = .withdrawn → db.Claimed resourceId → kept resourceId

variable {env : Env} {db db' : Db} {source : Source} {observation : Observation}
  {report : Report} {outcomes : List Outcome} {resourceId : Uuid} {pending kept : Uuid → Prop}

/-! ### Attempts -/

theorem hostClaim_concat {log : List Reconciliation} (last : Reconciliation) (resourceId : Uuid)
    (before : db.reconciliations = log) (after : db'.reconciliations = log ++ [last]) :
    db'.hostClaim resourceId = true ↔ db.hostClaim resourceId = true ∨
      (last.matchedResourceId = some resourceId ∧ last.succeeded = true ∧
        last.sourceKind = .hostAgent) := by
  unfold Db.hostClaim
  rw [before, after, any_append, Bool.or_eq_true, any_cons, any_nil, Bool.or_false,
    decide_eq_true_eq]

variable {last : Reconciliation}

theorem Db.Settled.failed (settled : db.Settled pending)
    (conditions : db'.conditions = db.conditions) (members : db'.members = db.members)
    (recorded : db'.reconciliations = db.reconciliations ++ [last])
    (fails : last.matchedResourceId = none) : db'.Settled pending := by
  have same : ∀ resourceId, db'.Claimed resourceId ↔ db.Claimed resourceId := by
    intro resourceId
    unfold Db.Claimed
    rw [members, hostClaim_concat last resourceId rfl recorded, fails]
    simp
  constructor
  · intro resourceId condition
    rw [conditions, same]
    exact settled.current resourceId condition
  intro resourceId condition
  rw [conditions, same]
  exact settled.withdrawn resourceId condition

/-- An observation that was reconciled.  A host agent has a claim on the resource now; another
source is going to have one, if its observation is not superseded. -/
theorem Db.Settled.attaches (settled : db.Settled pending)
    (attaches : Attaches env db db' source observation resourceId) :
    db'.Settled fun other => pending other ∨
      (other = resourceId ∧ db.supersededBySnapshot source observation resourceId = false) := by
  have claimed : ∀ other, db'.Claimed other ↔ db.Claimed other ∨
      (other = resourceId ∧ source.kind = .hostAgent) := by
    intro other
    unfold Db.Claimed
    rw [attaches.members, hostClaim_concat _ other rfl attaches.recorded, or_assoc]
    simp only [Option.some.injEq, eq_comm (a := other), true_and]
  constructor
  · intro other condition is true_
    rw [claimed]
    by_cases own : other = resourceId
    · subst own
      by_cases agent : source.kind = .hostAgent
      · exact .inl (.inr ⟨rfl, agent⟩)
      rcases attaches.advanced agent with same | ⟨fresh, -⟩
      · rw [same] at is
        exact (settled.current other condition is true_).imp .inl .inl
      · exact .inr (.inr ⟨rfl, fresh⟩)
    rw [attaches.others other own] at is
    exact (settled.current other condition is true_).imp .inl .inl
  intro other condition is withdrawn
  rw [claimed]
  by_cases own : other = resourceId
  · subst own
    by_cases agent : source.kind = .hostAgent
    · exact absurd withdrawn (attaches.claimed agent condition is)
    rcases attaches.advanced agent with same | ⟨-, set⟩
    · rw [same] at is
      rintro (claimed | ⟨-, agent'⟩)
      · exact settled.withdrawn other condition is withdrawn claimed
      · exact agent agent'
    cases set.symm.trans is
    cases withdrawn
  rw [attaches.others other own] at is
  rintro (claimed | ⟨same, -⟩)
  · exact settled.withdrawn other condition is withdrawn claimed
  · exact own same

theorem supersededBySnapshot_congr (targets : db'.targets = db.targets)
    (members : db'.members = db.members) :
    db'.supersededBySnapshot source observation resourceId
      = db.supersededBySnapshot source observation resourceId := by
  unfold Db.supersededBySnapshot
  rw [targets, members]

theorem Db.Settled.mono {pending' : Uuid → Prop} (settled : db.Settled pending)
    (more : ∀ resourceId, pending resourceId → pending' resourceId) : db.Settled pending' where
  current := fun resourceId condition is true_ =>
    (settled.current resourceId condition is true_).imp id (more resourceId)
  withdrawn := settled.withdrawn

variable {chance : Chance}

theorem derivedResult_settled {failed : List Uuid} {resource : Option Uuid}
    (done : db.derivedResult env source observation failed chance = some (db', resource))
    (settled : db.Settled pending) :
    db'.targets = db.targets ∧ db'.members = db.members ∧ db'.Settled fun other => pending other ∨
        (resource = some other ∧ db.supersededBySnapshot source observation other = false) := by
  rcases derivedResult_cases done with ⟨_, -, rfl, -⟩ | performed
  · exact ⟨rfl, rfl, settled.mono fun _ => .inl⟩
  rcases performResourceReconciliation_cases performed with ⟨-, rfl⟩ | ⟨_, rfl, attaches⟩
  · refine ⟨rfl, rfl, Db.Settled.mono (?_ : Db.Settled _ pending) fun _ => .inl⟩
    exact settled.failed rfl rfl rfl rfl
  refine ⟨attaches.targets, attaches.members, (settled.attaches attaches).mono ?_⟩
  rintro _ (before | ⟨rfl, fresh⟩)
  · exact .inl before
  · exact .inr ⟨rfl, fresh⟩

/-- A resource of a report that its observation advanced: it is going to be recorded. -/
def Pending (db : Db) (source : Source) (derived : List Observation) (outcomes : List Outcome)
    (resourceId : Uuid) : Prop :=
  ∃ observation ∈ derived, ∃ outcome ∈ outcomes, outcome.target = observation.target.getD "" ∧
    outcome.resource = some resourceId ∧
      db.supersededBySnapshot source observation resourceId = false

/-- **The observations of a report.**  They change neither targets nor members; the conditions
they set are those of resources that are going to be recorded. -/
theorem derivedResults_settled {failed : List Uuid} {derived : List Observation}
    (done : db.derivedResults env source failed chance derived = some (db', outcomes))
    (settled : db.Settled pending) :
    db'.targets = db.targets ∧ db'.members = db.members ∧
      db'.Settled fun other => pending other ∨ Pending db source derived outcomes other := by
  induction derived generalizing db outcomes pending with
  | nil =>
    cases done
    exact ⟨rfl, rfl, settled.mono fun _ => .inl⟩
  | cons observation _ ih =>
    obtain ⟨⟨_, _⟩, first, others⟩ := Option.bind_eq_some_iff.1 done
    obtain ⟨⟨_, _⟩, next, is⟩ := Option.bind_eq_some_iff.1 others
    cases is
    obtain ⟨targets, members, settled⟩ := derivedResult_settled first settled
    obtain ⟨targets', members', settled⟩ := ih next settled
    refine ⟨targets'.trans targets, members'.trans members, settled.mono ?_⟩
    rintro _ ((before | ⟨rfl, fresh⟩) | ⟨its, mem, outcome, mem', target, is, fresh⟩)
    · exact .inl before
    · exact .inr ⟨observation, mem_cons_self .., _, mem_cons_self .., rfl, rfl, fresh⟩
    rw [supersededBySnapshot_congr targets members] at fresh
    exact .inr ⟨its, mem_cons_of_mem _ mem, outcome, mem_cons_of_mem _ mem', target,
      is, fresh⟩

/-! ### Withdrawals -/

theorem claimed_iff : db.Claimed resourceId ↔
    (∃ target row, db.members.get? (target, resourceId) = some row ∧ row.present = true) ∨
      db.hostClaim resourceId = true := by
  refine or_congr ⟨?_, ?_⟩ Iff.rfl
  · rintro ⟨row, mem, rfl, present⟩
    exact ⟨row.target, row, KeyTable.get?_of_mem mem, present⟩
  rintro ⟨_, row, found, present⟩
  exact ⟨row, KeyTable.mem_of_get? found, congrArg Prod.snd (KeyTable.key_of_get? found), present⟩

variable {member : Member}

/-- A member that is not present is written: no claim on its resource is added, and the claims on
others are as before. -/
theorem claimed_writeMember (absent : member.present = false) :
    (db.writeMember member).Claimed resourceId → db.Claimed resourceId := by
  rw [claimed_iff, claimed_iff]
  refine Or.imp ?_ id
  rintro ⟨target, row, found, present⟩
  rw [Db.writeMember, KeyTable.get?_place] at found
  split at found
  · cases found
    exact absurd (absent.symm.trans present) Bool.false_ne_true
  · exact ⟨target, row, found, present⟩

theorem claimed_writeMember_other (ne : resourceId ≠ member.resourceId)
    (claimed : db.Claimed resourceId) : (db.writeMember member).Claimed resourceId := by
  rw [claimed_iff] at claimed ⊢
  refine claimed.imp ?_ id
  rintro ⟨target, row, found, present⟩
  refine ⟨target, row, ?_, present⟩
  rw [Db.writeMember, KeyTable.get?_place, if_neg fun same => ne (congrArg Prod.snd same)]
  exact found

theorem otherCurrentClaim_iff
    (absent : ∀ row, db.members.get? member.key = some row → row.present = false) :
    db.otherCurrentClaim member = true ↔ db.Claimed member.resourceId := by
  unfold Db.otherCurrentClaim Db.Claimed
  rw [Bool.or_eq_true, any_eq_true]
  refine or_congr (exists_congr fun row => and_congr_right fun mem => ?_) Iff.rfl
  rw [decide_eq_true_eq]
  refine and_congr_right fun _ => and_iff_right_of_imp fun present same => ?_
  have gone := absent row (same ▸ KeyTable.get?_of_mem mem)
  exact Bool.false_ne_true (gone.symm.trans present)

variable (applying : db.Applying kept)
include applying

variable {withdrawnAt : Time}

/-- **One withdrawal.**  The condition is withdrawn exactly if that was the last claim. -/
theorem Db.Applying.withdraw (due : member.lastReportedAt ≤ withdrawnAt) :
    (db.withdraw withdrawnAt member).Applying kept := by
  let gone : Member := { member with withdrawnAt := some withdrawnAt }
  have absent : gone.present = false := gone.present_eq_false_iff.2 ⟨withdrawnAt, rfl, due⟩
  have last : (db.writeMember gone).otherCurrentClaim member = true ↔
      (db.writeMember gone).Claimed member.resourceId := by
    refine otherCurrentClaim_iff fun _ found => ?_
    rw [Db.writeMember, KeyTable.get?_place, if_pos (show member.key = gone.key from rfl)] at found
    cases found
    exact absent
  have others : ∀ other, other ≠ member.resourceId → db.Claimed other →
      (db.writeMember gone).Claimed other := fun other ne => claimed_writeMember_other ne
  unfold Db.withdraw
  dsimp only
  split
  · rename_i still
    constructor
    · intro other condition is true_
      by_cases own : other = member.resourceId
      · rw [own]
        exact last.1 still
      · exact others other own (applying.current other condition is true_)
    intro other condition is withdrawn claimed
    exact applying.withdrawn other condition is withdrawn (claimed_writeMember absent claimed)
  rename_i none
  constructor
  · intro other condition is true_
    by_cases own : other = member.resourceId
    · subst own
      cases (Function.update_self ..).symm.trans is
      cases true_
    exact others other own (applying.current other condition
      ((Function.update_of_ne own ..).symm.trans is) true_)
  intro other condition is withdrawn claimed
  by_cases own : other = member.resourceId
  · subst own
    exact absurd (last.2 claimed) none
  exact applying.withdrawn other condition
    ((Function.update_of_ne own ..).symm.trans is) withdrawn
    (claimed_writeMember absent claimed)

theorem Db.Applying.foldl_withdraw {members : List Member}
    (due : ∀ member ∈ members, member.lastReportedAt ≤ withdrawnAt) :
    (members.foldl (Db.withdraw withdrawnAt) db).Applying kept := by
  refine foldlRecOn (motive := (Db.Applying · kept)) members _ applying ?_
  intro _ applying member mem
  exact applying.withdraw (due member mem)

variable {observedAt : Time} {applied : Applied}

theorem Db.Applying.withdrawUnreported :
    (db.withdrawUnreported observedAt applied).Applying kept := by
  unfold Db.withdrawUnreported
  split
  · have written : ∀ target, (db.writeTarget target).Applying kept := fun _ =>
      ⟨applying.current, applying.withdrawn⟩
    refine (written _).foldl_withdraw ?_
    intro _ mem
    have its := (mem_filter.1 mem).2
    rw [decide_eq_true_eq] at its
    exact its.2.2.1
  · exact applying

theorem Db.Applying.foldl_withdrawUnreported (observedAt : Time) (applied : List Applied) :
    (applied.foldl (Db.withdrawUnreported observedAt) db).Applying kept := by
  refine foldlRecOn (motive := (Db.Applying · kept)) applied _ applying ?_
  exact fun _ applying _ _ => applying.withdrawUnreported

/-! ### What is kept -/

theorem Db.Applying.keep {id : Uuid} (claimed : db.Claimed id) :
    (db.keepClaimedInventoryCurrent id).Applying fun other => kept other ∧ other ≠ id := by
  obtain ⟨_, is, others, own⟩ := keepClaimedInventoryCurrent_eq db id
  rw [is]
  constructor
  · intro other condition now true_
    by_cases same : other = id
    · rw [same]
      exact claimed
    · exact applying.current other condition ((others other same).symm.trans now) true_
  intro other condition now withdrawn claimed
  by_cases same : other = id
  · subst same
    rcases own with ⟨before, _, known, reason⟩ | set
    · cases known.symm.trans (before.symm.trans now)
      exact absurd withdrawn reason
    cases set.symm.trans now
    cases withdrawn
  exact ⟨applying.withdrawn other condition ((others other same).symm.trans now) withdrawn
    claimed, same⟩

theorem Db.Applying.settled {ids : List Uuid}
    (claimed : ∀ id ∈ ids, db.Claimed id) (all : ∀ id, kept id → id ∈ ids) :
    (ids.foldl Db.keepClaimedInventoryCurrent db).Settled fun _ => False := by
  induction ids generalizing db kept with
  | nil =>
    refine ⟨fun other condition is true_ => .inl (applying.current other condition is true_),
      fun other condition is withdrawn claimed => ?_⟩
    exact not_mem_nil (all other (applying.withdrawn other condition is withdrawn claimed))
  | cons id _ ih =>
    refine ih (applying.keep (claimed id (mem_cons_self ..))) ?_ ?_
    · intro other mem
      obtain ⟨_, is, -⟩ := keepClaimedInventoryCurrent_eq db id
      rw [is]
      exact claimed other (mem_cons_of_mem _ mem)
    rintro other ⟨its, ne⟩
    exact (mem_cons.1 (all other its)).resolve_left ne

omit applying

/-! ### A report -/

theorem recordMembers_conditions (target : CollectorTarget) (observedAt : Time) (db : Db) :
    (db.recordMembers target observedAt outcomes).1.conditions = db.conditions := by
  induction outcomes generalizing db with
  | nil => rfl
  | cons _ _ ih =>
    unfold Db.recordMembers
    split
    · exact ih db
    · exact ih _

theorem applyTargets_conditions (db : Db) (targets : List ReportedTarget) :
    (db.applyTargets source report outcomes targets).1.conditions = db.conditions := by
  induction targets generalizing db with
  | nil => rfl
  | cons _ _ ih => exact (ih _).trans (recordMembers_conditions ..)

theorem of_mem_applied
    (mem : applied ∈ (db.applyTargets source report outcomes report.targets.rows).2) :
    ∃ reported ∈ report.targets, applied.Of source report outcomes db reported := by
  obtain ⟨reported, listed, key⟩ := key_of_mem_applied mem
  obtain ⟨_, _, _, split, its, notBefore, notAfter⟩ :=
    split_applied source outcomes listed db
  rw [split] at mem
  rcases mem_append.1 mem with mem | mem
  · exact absurd key (notBefore applied mem)
  rcases mem_cons.1 mem with rfl | mem
  · exact ⟨reported, listed, its⟩
  · exact absurd key (notAfter applied mem)

theorem putAll_of_not {target : CollectorTarget}
    (none : ∀ outcome ∈ outcomes, ¬outcome.resource = some resourceId) {member : Option Member} :
    putAll target resourceId observedAt outcomes member = member := by
  induction outcomes with
  | nil => rfl
  | cons outcome _ ih =>
    rw [putAll, foldl_cons, if_neg (none outcome (mem_cons_self ..))]
    exact ih fun other mem => none other (mem_cons_of_mem _ mem)

theorem applyTargets_get?_of_not {target : TargetKey}
    (not : ¬∃ reported ∈ report.targets, target = (source.id, reported.key) ∧
      contains outcomes reported.key resourceId = true) :
    (db.applyTargets source report outcomes report.targets.rows).1.members.get?
        (target, resourceId) = db.members.get? (target, resourceId) := by
  by_cases listed : ∃ reported ∈ report.targets, target = (source.id, reported.key)
  · obtain ⟨reported, mem, rfl⟩ := listed
    have none : ∀ outcome ∈ outcomesOf outcomes reported.key,
        ¬outcome.resource = some resourceId := fun outcome mem' is =>
      not ⟨reported, mem, rfl, contains_iff.2 ⟨outcome, mem', is⟩⟩
    refine (congrArg View.member
      (applyTargets_view_self source outcomes mem db resourceId)).trans ?_
    show putAll _ _ _ (outcomesOf outcomes reported.key) _ = _
    rw [putAll_of_not none]
    rfl
  refine congrArg View.member (applyTargets_view_other ?_ db resourceId)
  exact fun reported mem same => listed ⟨reported, mem, same⟩

section Report

variable {applications : List Application} (reports : Reports applications db)
  (byId : OneTime (applications ++ [⟨source, report, outcomes⟩]))
  {reported : ReportedTarget} (listed : reported ∈ report.targets)

/-- What will have been heard of a target of the report. -/
def heardNext (applications : List Application) (source : Source) (report : Report)
    (outcomes : List Outcome) (reported : ReportedTarget) : List Heard :=
  heardOf (source.id, reported.key) applications ++ [⟨report, reported, outcomes⟩]

include reports byId

theorem Reports.before_tracks (target : TargetKey) (resourceId : Uuid) :
    Tracks (heardOf target applications) resourceId (db.view target resourceId) :=
  reports.tracks byId.of_append target resourceId

theorem Reports.row_present_iff (its : applied.Of source report outcomes db reported)
    (mem : member ∈ applied.members) :
    member.present = true ↔ Heard.Standing
      (heardNext applications source report outcomes reported) member.resourceId := by
  have contained := (its.members member.resourceId).1 (mem_map_of_mem mem)
  obtain ⟨before, outcome, _, -, own, is⟩ := its.rows member mem
  rw [its.target] at is
  rw [heardNext, ← (reports.before_tracks byId (source.id, reported.key)
    member.resourceId).putAll_present_iff source ⟨report, reported, outcomes⟩ contained
      ⟨outcome, mem_append_right before (mem_singleton_self _), own⟩]
  constructor
  · exact fun present => ⟨member, is.symm, present⟩
  rintro ⟨_, found, present⟩
  cases is.trans found
  exact present

include listed

theorem Reports.first_present_iff (contained : contains outcomes reported.key resourceId = true) :
    (∃ row, (db.applyTargets source report outcomes report.targets.rows).1.members.get?
        ((source.id, reported.key), resourceId) = some row ∧ row.present = true) ↔
      Heard.Standing (heardNext applications source report outcomes reported) resourceId := by
  have view := congrArg View.member (applyTargets_view_self source outcomes listed db resourceId)
  refine Iff.trans (Iff.of_eq (congrArg (fun member : Option Member =>
    ∃ row, member = some row ∧ row.present = true) view)) ?_
  exact (reports.before_tracks byId (source.id, reported.key) resourceId).putAll_present_iff source
    ⟨report, reported, outcomes⟩ contained (contains_iff.1 contained)

theorem Reports.final_present_iff : (∃ row, (db.applyReport source report outcomes).members.get?
        ((source.id, reported.key), resourceId) = some row ∧ row.present = true) ↔
      Heard.Standing (heardNext applications source report outcomes reported) resourceId := by
  have tracks := (reports.apply ⟨source, report, outcomes⟩).tracks byId (source.id, reported.key)
    resourceId
  have heard : heardOf (source.id, reported.key) (applications ++ [⟨source, report, outcomes⟩])
      = heardNext applications source report outcomes reported := by
    rw [heardOf, filterMap_append]
    refine congrArg _ (filterMap_cons_some ?_)
    rw [Application.heardOf, if_pos rfl, KeyTable.get?_of_mem listed]
    rfl
  rw [heard] at tracks
  exact tracks.member.standing_iff

omit listed

theorem Reports.first_claimed (claim : db.Claimed resourceId ∨
    Pending db source report.derived outcomes resourceId) :
    (db.applyTargets source report outcomes report.targets.rows).1.Claimed resourceId := by
  rw [claimed_iff]
  rcases claim with claimed | ⟨observation, mem, outcome, mem', target, is, fresh⟩
  · rcases claimed_iff.1 claimed with ⟨target, present⟩ | host
    · refine .inl ⟨target, ?_⟩
      by_cases its : ∃ reported ∈ report.targets, target = (source.id, reported.key) ∧
          contains outcomes reported.key resourceId = true
      · obtain ⟨reported, listed, rfl, contained⟩ := its
        rw [reports.first_present_iff byId listed contained]
        exact ((reports.before_tracks byId _ resourceId).member.standing_iff.1 present).concat
          contained
      rw [applyTargets_get?_of_not its]
      exact present
    refine .inr ?_
    rw [Db.hostClaim, (Db.Beside.applyTargets ..).reconciliations]
    exact host
  obtain ⟨reported, listed, named⟩ := report.listed observation mem
  rw [named, Option.getD_some] at target
  have contained : contains outcomes reported.key resourceId = true :=
    contains_iff.2 ⟨outcome, mem_filter.2 ⟨mem', decide_eq_true target⟩, is⟩
  refine .inl ⟨(source.id, reported.key), ?_⟩
  rw [reports.first_present_iff byId listed contained]
  have tracks := reports.before_tracks byId (source.id, reported.key) resourceId
  refine (tracks.putAll_present_iff source ⟨report, reported, outcomes⟩ contained
    ⟨outcome, mem_singleton_self _, is⟩).1 ?_
  rw [putAll, foldl_cons, foldl_nil, if_pos is]
  refine ⟨_, rfl, ?_⟩
  by_contra absent
  refine Bool.false_ne_true (fresh.symm.trans ((tracks.superseded_iff rfl named
    report outcome.domain).2 ?_))
  rw [report.sameTime observation mem]
  exact Bool.eq_false_iff.2 absent

/-- **A report.**  Conditions and claims agree again when it has been applied. -/
theorem Reports.settled (settled : db.Settled (Pending db source report.derived outcomes)) :
    (db.applyReport source report outcomes).Settled fun _ => False := by
  let first := db.applyTargets source report outcomes report.targets.rows
  let ids := (((first.2.flatMap Applied.members).filter Member.present).map
    Member.resourceId).eraseDups
  have mem_ids : ∀ id, id ∈ ids ↔ ∃ applied ∈ first.2, ∃ member ∈ applied.members,
      member.present = true ∧ member.resourceId = id := by
    intro id
    simp only [ids, mem_eraseDups, mem_map, mem_filter, mem_flatMap]
    constructor
    · rintro ⟨member, ⟨⟨applied, mem, mem'⟩, present⟩, is⟩
      exact ⟨applied, mem, member, mem', present, is⟩
    rintro ⟨applied, mem, member, mem', present, is⟩
    exact ⟨member, ⟨⟨applied, mem, mem'⟩, present⟩, is⟩
  have applying : first.1.Applying (· ∈ ids) := by
    constructor
    · intro id condition is true_
      rw [applyTargets_conditions] at is
      exact reports.first_claimed byId (settled.current id condition is true_)
    intro id condition is withdrawn claimed
    rw [applyTargets_conditions] at is
    have before := settled.withdrawn id condition is withdrawn
    rcases claimed_iff.1 claimed with ⟨target, present⟩ | host
    · -- The row was not present before, so the report contains the resource.
      obtain ⟨reported, listed, rfl, contained⟩ : ∃ reported ∈ report.targets,
          target = (source.id, reported.key) ∧ contains outcomes reported.key id = true := by
        by_contra not
        rw [applyTargets_get?_of_not not] at present
        exact before (claimed_iff.2 (.inl ⟨target, present⟩))
      obtain ⟨_, applied, _, split, its, -⟩ := split_applied source outcomes listed db
      obtain ⟨member, mem, rfl⟩ := mem_map.1 ((its.members id).2 contained)
      refine (mem_ids _).2 ⟨applied, ?_, member, mem, ?_, rfl⟩
      · show applied ∈ first.2
        rw [show first.2 = _ from split]
        exact mem_append_right _ (mem_cons_self ..)
      rw [reports.row_present_iff byId its mem]
      exact (reports.first_present_iff byId listed contained).1 present
    rw [Db.hostClaim, (Db.Beside.applyTargets ..).reconciliations] at host
    exact absurd (.inr host) before
  refine (applying.foldl_withdrawUnreported report.observedAt first.2).settled ?_ fun _ => id
  intro id mem
  obtain ⟨_, there, _, mem', present, rfl⟩ := (mem_ids id).1 mem
  obtain ⟨reported, listed, its⟩ := of_mem_applied there
  have standing := (reports.row_present_iff byId its mem').1 present
  obtain ⟨row, found, present⟩ := (reports.final_present_iff byId listed).2 standing
  refine claimed_iff.2 (.inl ⟨(source.id, reported.key), row, ?_, present⟩)
  exact (congrArg View.member (foldl_keep_view ids)).symm.trans found

end Report

/-! ### Runs -/

/-- What holds of an inventory in a run: what its reports have left behind, and that conditions
and claims agree. -/
structure Db.Orderly (env : Env) (db : Db) : Prop where
  reports : ∃ applications, Reports applications db ∧
    ∀ application ∈ applications,
      ⟨application.source, application.report⟩ ∈ env.observations.reports
  settled : db.Settled fun _ => False

theorem Db.Orderly.failed (orderly : db.Orderly env) (conditions : db'.conditions = db.conditions)
    (targets : db'.targets = db.targets) (members : db'.members = db.members)
    (recorded : db'.reconciliations = db.reconciliations ++ [last])
    (fails : last.matchedResourceId = none) : db'.Orderly env := by
  obtain ⟨⟨applications, reports, from_⟩, settled⟩ := orderly
  exact ⟨⟨applications, reports.other targets members, from_⟩,
    settled.failed conditions members recorded fails⟩

theorem performResourceReconciliation_orderly {newId : Uuid} {resource : Option Uuid}
    (agent : source.kind = .hostAgent) (orderly : db.Orderly env)
    (done : db.performResourceReconciliation env source observation newId = some (db', resource)) :
    db'.Orderly env := by
  rcases performResourceReconciliation_cases done with ⟨-, rfl⟩ | ⟨_, -, attaches⟩
  · exact orderly.failed rfl rfl rfl rfl rfl
  obtain ⟨⟨applications, reports, from_⟩, settled⟩ := orderly
  refine ⟨⟨applications, reports.other attaches.targets attaches.members, from_⟩, ?_⟩
  have after' := settled.attaches attaches
  refine ⟨fun other condition is true_ => ?_, after'.withdrawn⟩
  rcases after'.current other condition is true_ with claimed | pending | ⟨rfl, -⟩
  · exact .inl claimed
  · exact pending.elim
  refine .inl (.inr ((hostClaim_concat _ other rfl attaches.recorded).2 (.inr ?_)))
  exact ⟨rfl, rfl, agent⟩

theorem performReportReconciliation_orderly {stored : StoredReport} {failed : List Uuid}
    (known : stored ∈ env.observations.reports) (orderly : db.Orderly env)
    (done : db.performReportReconciliation env stored failed chance = some db') :
    db'.Orderly env := by
  obtain ⟨⟨between, outcomes⟩, derived, is⟩ := Option.bind_eq_some_iff.1 done
  cases is
  obtain ⟨⟨applications, reports, from_⟩, settled⟩ := orderly
  obtain ⟨targets, members, settled⟩ := derivedResults_settled derived settled
  let last : Application := ⟨stored.source, stored.report, outcomes⟩
  have all : ∀ one ∈ applications ++ [last],
      ⟨one.source, one.report⟩ ∈ env.observations.reports := by
    intro one mem
    rcases mem_append.1 mem with mem | mem
    · exact from_ one mem
    cases mem_singleton.1 mem
    exact known
  have byId : OneTime (applications ++ [last]) := by
    intro one mem two mem' same
    exact congrArg (fun report : StoredReport => report.report.observedAt)
      (env.observations.reportsApart _ (all one mem) _ (all two mem') same)
  have reports := reports.other targets members
  have settled : between.Settled
      (Pending between stored.source stored.report.derived outcomes) := by
    refine settled.mono ?_
    rintro _ (none | ⟨observation, mem, outcome, mem', target, is, fresh⟩)
    · exact none.elim
    rw [← supersededBySnapshot_congr targets members] at fresh
    exact ⟨observation, mem, outcome, mem', target, is, fresh⟩
  exact Db.Orderly.failed ⟨⟨_, reports.apply last, all⟩, reports.settled byId settled⟩
    rfl rfl rfl rfl rfl

/-- The operations of host agents and collectors: an observation that is reconciled by itself is
a host agent's. -/
def Op.OfAgentsAndCollectors (env : Env) : Op → Prop
  | .observation id _ _ => ∀ stored, env.observation? id = some stored →
      stored.source.kind = .hostAgent
  | .report .. => True
  | .failResource .. => True

/-- **One turn.** -/
theorem Turn.orderly {op : Op} (turn : Turn env db op db') (its : op.OfAgentsAndCollectors env)
    (orderly : db.Orderly env) : db'.Orderly env := by
  cases turn with
  | idle => exact orderly
  | failed _ _ unmatched => exact orderly.failed rfl rfl rfl rfl unmatched
  | observed found done => exact performResourceReconciliation_orderly (its _ found) orderly done
  | reported mem done => exact performReportReconciliation_orderly mem orderly done

theorem run_orderly {ops : List Op} (its : ∀ op ∈ ops, op.OfAgentsAndCollectors env) :
    (run env ops).Orderly env := by
  refine Run.run_invariant_of_mem (fun _ op mem => (step_turn ..).orderly (its op mem)) ⟨?_, ?_⟩
  · exact ⟨[], Reports.start, nofun⟩
  · exact ⟨nofun, nofun⟩

/-- **The condition agrees with the claims.**  In every run of host agents and collectors, the
inventory of a resource is never withdrawn while it is present under some target or a host agent
has reported it, and never current when neither is so. -/
theorem inventoryCurrent_agrees (env : Env) (ops : List Op)
    (its : ∀ op ∈ ops, op.OfAgentsAndCollectors env) (resourceId : Uuid) (condition : Condition)
    (is : (run env ops).conditions resourceId = some condition) :
    (condition.reason = .withdrawn → ¬(run env ops).Claimed resourceId) ∧
      (condition.status = true → (run env ops).Claimed resourceId) := by
  have settled := (run_orderly its).settled
  refine ⟨settled.withdrawn resourceId condition is, fun true_ => ?_⟩
  exact (settled.current resourceId condition is true_).resolve_right id

/-- A guest is found on a node, and is gone in the next report. -/
def guestLeaves : Env where
  names := plainNames
  observations :=
    { reports :=
        [⟨⟨1, .vmProvider, true⟩,
          { id := 5, observedAt := 10, complete := true
            targets := ⟨[⟨"node", .reachable, none⟩], nodup_singleton _⟩
            derived := [⟨6, 10, { kind := some .vm }, some "node"⟩]
            listed := by simp [KeyTable.mem_def], sameTime := by simp }⟩,
          ⟨⟨1, .vmProvider, true⟩,
          { id := 7, observedAt := 20, complete := true
            targets := ⟨[⟨"node", .reachable, none⟩], nodup_singleton _⟩
            derived := [], listed := nofun, sameTime := nofun }⟩]
      apart := by simp
      reportsApart := by simp
      reportsElse := by simp }

/-- The guest's inventory is withdrawn, and nothing has a claim on it. -/
theorem guest_is_unclaimed :
    let chance : Chance := ⟨id, fun _ => false, false⟩
    ¬(run guestLeaves [.report 5 false [] chance, .report 7 false [] chance]).Claimed 6 :=
  (inventoryCurrent_agrees guestLeaves _ (by simp [Op.OfAgentsAndCollectors]) 6
    ⟨false, .withdrawn⟩ (by decide +kernel)).1 rfl

end Renga.Inventory
