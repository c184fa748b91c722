import Renga.Inventory.Identity

/-!
# Presence under a target

What a run of reports makes of one resource under one target.  No target looks at another
and no member at another, so `applyReport` is read as a function of the target's row and the
member's row (`View.next`), in two phases as in the code.
-/

namespace Renga.Inventory

open List KeyTable Db

/-! ### Two rows -/

/-- The row of a target and the row of a resource under it. -/
structure View where
  target : Option CollectorTarget
  member : Option Member

def Db.view (db : Db) (target : TargetKey) (resourceId : Uuid) : View :=
  ⟨db.targets.get? target, db.members.get? (target, resourceId)⟩

/-- The member's row after the outcomes under its target. -/
def putAll (target : CollectorTarget) (resourceId : Uuid) (observedAt : Time)
    (outcomes : List Outcome) (member : Option Member) : Option Member :=
  outcomes.foldl
    (fun member outcome =>
      if outcome.resource = some resourceId then
        some (putMember target member resourceId outcome.domain observedAt)
      else member)
    member

/-- The first phase: the target was reported, with these outcomes. -/
def View.record (source : Source) (report : Report) (reported : ReportedTarget)
    (outcomes : List Outcome) (resourceId : Uuid) (view : View) : View :=
  let target := putTarget view.target source report reported
  ⟨some target, putAll target resourceId report.observedAt (outcomesOf outcomes reported.key)
    view.member⟩

/-- The second phase, if the report is a snapshot of the target. -/
def View.withdraw (observedAt : Time) (contained : Bool) (view : View) : View where
  target := view.target.map fun target => { target with lastCompleteAt := some observedAt }
  member := view.member.map fun member =>
    if !contained && decide (member.lastReportedAt ≤ observedAt) && member.present then
      { member with withdrawnAt := some observedAt }
    else member

variable {db : Db} {source : Source} {report : Report} {outcomes : List Outcome}
  {key : TargetKey} {resourceId : Uuid}

/-! ### Recording -/

theorem view_writeTarget_self (db : Db) (target : CollectorTarget) (resourceId : Uuid) :
    (db.writeTarget target).view target.key resourceId
      = ⟨some target, db.members.get? (target.key, resourceId)⟩ := by
  rw [view, writeTarget, get?_place, if_pos rfl]

variable {target : CollectorTarget}

theorem view_writeTarget_other (ne : key ≠ target.key) :
    (db.writeTarget target).view key resourceId = db.view key resourceId := by
  rw [view, writeTarget, get?_place, if_neg ne]
  rfl

variable {member : Member}

theorem view_writeMember_self (its : member.key = (key, resourceId)) :
    (db.writeMember member).view key resourceId = ⟨db.targets.get? key, some member⟩ := by
  rw [view, writeMember, get?_place, if_pos its.symm]

theorem view_writeMember_other (ne : member.key ≠ (key, resourceId)) :
    (db.writeMember member).view key resourceId = db.view key resourceId := by
  rw [view, writeMember, get?_place, if_neg ne.symm]
  rfl

theorem written_key (db : Db) (target : CollectorTarget) (resourceId : Uuid)
    (domain : Option DomainState) (observedAt : Time) :
    (putMember target (db.members.get? (target.key, resourceId)) resourceId domain
      observedAt).key = (target.key, resourceId) :=
  putMember_key target (fun _ found => key_of_get? found) domain observedAt

variable {observedAt : Time}

theorem get?_writeMember_put {other : Uuid} {domain : Option DomainState} :
    (db.writeMember (putMember target (db.members.get? (target.key, other)) other domain
        observedAt)).members.get? (target.key, resourceId)
      = if some other = some resourceId then
          some (putMember target (db.members.get? (target.key, resourceId)) resourceId domain
            observedAt)
        else db.members.get? (target.key, resourceId) := by
  rw [writeMember, get?_place, written_key]
  by_cases same : other = resourceId
  · rw [same, if_pos rfl, if_pos rfl]
  · rw [if_neg fun h => same (congrArg Prod.snd h).symm, if_neg fun h => same (Option.some.inj h)]

theorem recordMembers_view_self :
    (db.recordMembers target observedAt outcomes).1.view target.key resourceId
      = ⟨db.targets.get? target.key, putAll target resourceId observedAt outcomes
        (db.members.get? (target.key, resourceId))⟩ := by
  induction outcomes generalizing db with
  | nil => rfl
  | cons _ _ ih =>
    rw [putAll, foldl_cons]
    unfold recordMembers
    split
    · rename_i none
      rw [ih, none, if_neg nofun]
      rfl
    rename_i other is
    rw [ih, is, get?_writeMember_put]
    rfl

theorem recordMembers_rows (mem : member ∈ (db.recordMembers target observedAt outcomes).2) :
    ∃ before outcome after, outcomes = before ++ outcome :: after ∧
      outcome.resource = some member.resourceId ∧
        some member = putAll target member.resourceId observedAt (before ++ [outcome])
          (db.members.get? (target.key, member.resourceId)) := by
  induction outcomes generalizing db with
  | nil => cases mem
  | cons first rest ih =>
    unfold recordMembers at mem
    split at mem
    · rename_i none
      obtain ⟨before, outcome, after, rfl, its, is⟩ := ih mem
      refine ⟨first :: before, outcome, after, rfl, its, ?_⟩
      rw [is, cons_append, putAll, putAll, foldl_cons, none, if_neg nofun]
    rename_i other own
    rcases mem_cons.1 mem with rfl | mem
    · have its : (putMember target (db.members.get? (target.key, other)) other first.domain
          observedAt).resourceId = other := congrArg Prod.snd (written_key ..)
      refine ⟨[], first, rest, rfl, own.trans (congrArg some its.symm), ?_⟩
      rw [nil_append, putAll, foldl_cons, foldl_nil, its, if_pos own]
    obtain ⟨before, outcome, after, rfl, its, is⟩ := ih mem
    refine ⟨first :: before, outcome, after, rfl, its, ?_⟩
    rw [cons_append, putAll, foldl_cons, own, ← get?_writeMember_put]
    exact is

theorem recordMembers_view_other (ne : key ≠ target.key) (observedAt : Time) (db : Db)
    (resourceId : Uuid) :
    (db.recordMembers target observedAt outcomes).1.view key resourceId
      = db.view key resourceId := by
  induction outcomes generalizing db with
  | nil => rfl
  | cons _ _ ih =>
    unfold recordMembers
    split
    · exact ih db
    rw [ih, view_writeMember_other]
    rw [written_key]
    exact fun h => ne (congrArg Prod.fst h).symm

theorem heard_key (db : Db) (source : Source) (report : Report) (reported : ReportedTarget) :
    (putTarget (db.targets.get? (source.id, reported.key)) source report reported).key
      = (source.id, reported.key) :=
  putTarget_key (fun _ found => key_of_get? found)

theorem view_writeTarget_recordMembers (its : target.key = key) :
    ((db.writeTarget target).recordMembers target observedAt outcomes).1.view key resourceId
      = ⟨some target, putAll target resourceId observedAt outcomes
        (db.members.get? (key, resourceId))⟩ := by
  subst its
  rw [recordMembers_view_self]
  have written := view_writeTarget_self db target resourceId
  exact congrArg₂ View.mk (congrArg View.target written)
    (congrArg (putAll target resourceId observedAt outcomes) (congrArg View.member written))

theorem applyTarget_view_self {reported : ReportedTarget} :
    (db.applyTarget source report outcomes reported).1.view (source.id, reported.key) resourceId
      = (db.view (source.id, reported.key) resourceId).record source report reported outcomes
        resourceId :=
  view_writeTarget_recordMembers (heard_key db source report reported)

variable {reported : ReportedTarget}

theorem applyTarget_view_other (ne : key ≠ (source.id, reported.key)) (db : Db)
    (resourceId : Uuid) :
    (db.applyTarget source report outcomes reported).1.view key resourceId
      = db.view key resourceId := by
  rw [← heard_key db source report reported] at ne
  exact (recordMembers_view_other ne ..).trans (view_writeTarget_other ne)

variable {targets : List ReportedTarget}

theorem applyTargets_view_other (ne : ∀ reported ∈ targets, key ≠ (source.id, reported.key))
    (db : Db) (resourceId : Uuid) :
    (db.applyTargets source report outcomes targets).1.view key resourceId
      = db.view key resourceId := by
  induction targets generalizing db with
  | nil => rfl
  | cons reported _ ih =>
    exact (ih (fun other mem => ne other (mem_cons_of_mem _ mem)) _).trans
      (applyTarget_view_other (ne reported (mem_cons_self ..)) db resourceId)

theorem Report.split_targets (report : Report) (mem : reported ∈ report.targets) :
    ∃ before after, report.targets.rows = before ++ reported :: after ∧
      (∀ other ∈ before, other.key ≠ reported.key) ∧ ∀ other ∈ after, other.key ≠ reported.key := by
  obtain ⟨before, after, split⟩ := append_of_mem mem
  have nodup := report.targets.nodup
  rw [split, map_append, map_cons, nodup_append, nodup_cons] at nodup
  obtain ⟨_, ⟨notAfter, _⟩, apart⟩ := nodup
  refine ⟨before, after, split, fun other mem' => ?_, fun _ mem' same => ?_⟩
  · exact apart _ (mem_map_of_mem mem') _ (mem_cons_self ..)
  · exact notAfter (same ▸ mem_map_of_mem mem')

theorem applyTargets_append {before after : List ReportedTarget} :
    db.applyTargets source report outcomes (before ++ after)
      = let first := db.applyTargets source report outcomes before
        let second := first.1.applyTargets source report outcomes after
        (second.1, first.2 ++ second.2) := by
  induction before generalizing db with
  | nil => rfl
  | cons _ _ ih =>
    simp only [cons_append, applyTargets, ih]

theorem applyTargets_view_self (source : Source) (outcomes : List Outcome)
    (mem : reported ∈ report.targets) (db : Db) (resourceId : Uuid) :
    (db.applyTargets source report outcomes report.targets.rows).1.view (source.id, reported.key)
        resourceId
      = (db.view (source.id, reported.key) resourceId).record source report reported outcomes
        resourceId := by
  obtain ⟨_, _, split, notBefore, notAfter⟩ := report.split_targets mem
  have apart : ∀ {other : ReportedTarget}, other.key ≠ reported.key →
      (source.id, reported.key) ≠ (source.id, other.key) := fun ne same =>
    ne (congrArg Prod.snd same).symm
  rw [split, applyTargets_append]
  dsimp only [applyTargets]
  rw [applyTargets_view_other fun other mem' => apart (notAfter other mem'),
    applyTarget_view_self, applyTargets_view_other fun other mem' => apart (notBefore other mem')]

/-! ### Withdrawing -/

theorem withdraw_view_other (ne : member.key ≠ (key, resourceId)) (observedAt : Time) (db : Db) :
    (db.withdraw observedAt member).view key resourceId = db.view key resourceId := by
  have written : (db.writeMember { member with withdrawnAt := some observedAt }).view key resourceId
      = db.view key resourceId := view_writeMember_other ne
  unfold withdraw
  dsimp only
  split <;> exact written

theorem withdraw_view_self (its : member.key = (key, resourceId)) :
    (db.withdraw observedAt member).view key resourceId
      = ⟨db.targets.get? key, some { member with withdrawnAt := some observedAt }⟩ := by
  have written : (db.writeMember { member with withdrawnAt := some observedAt }).view key resourceId
      = ⟨db.targets.get? key, some { member with withdrawnAt := some observedAt }⟩ :=
    view_writeMember_self its
  unfold withdraw
  dsimp only
  split <;> exact written

variable {members : List Member}

theorem foldl_withdraw_view_other (ne : ∀ member ∈ members, member.key ≠ (key, resourceId))
    (observedAt : Time) :
    (members.foldl (withdraw observedAt) db).view key resourceId = db.view key resourceId := by
  refine foldlRecOn (motive := (view · key resourceId = _)) members _ rfl ?_
  exact fun db same member mem => (withdraw_view_other (ne member mem) observedAt db).trans same

theorem foldl_withdraw_view_self (nodup : (members.map Member.key).Nodup) (mem : member ∈ members)
    (its : member.key = (key, resourceId)) :
    (members.foldl (withdraw observedAt) db).view key resourceId
      = ⟨db.targets.get? key, some { member with withdrawnAt := some observedAt }⟩ := by
  obtain ⟨before, _, rfl⟩ := append_of_mem mem
  rw [map_append, map_cons, nodup_append, nodup_cons] at nodup
  obtain ⟨_, ⟨notAfter, _⟩, apart⟩ := nodup
  rw [foldl_append, foldl_cons, foldl_withdraw_view_other, withdraw_view_self its]
  · congr 1
    have earlier : ∀ other ∈ before, other.key ≠ (key, resourceId) := fun other mem' same =>
      apart _ (mem_map_of_mem mem') _ (mem_cons_self ..) (same.trans its.symm)
    exact congrArg View.target (foldl_withdraw_view_other earlier observedAt)
  · exact fun _ mem' same => notAfter (by rw [its, ← same]; exact mem_map_of_mem mem')

theorem mem_unreported {reported : List Uuid} :
    member ∈ db.unreported target reported observedAt ↔
      member ∈ db.members ∧ member.target = target.key ∧ member.resourceId ∉ reported ∧
        member.lastReportedAt ≤ observedAt ∧ member.present = true := by
  rw [unreported, List.mem_filter, decide_eq_true_iff]
  rfl

variable {applied : Applied}

theorem withdrawUnreported_view_other (ne : key ≠ applied.target.key) (observedAt : Time)
    (db : Db) :
    (db.withdrawUnreported observedAt applied).view key resourceId = db.view key resourceId := by
  unfold withdrawUnreported
  split
  · refine (foldl_withdraw_view_other (fun _ mem same => ne ?_) observedAt).trans
      (view_writeTarget_other ne)
    rw [← (mem_unreported.1 mem).2.1]
    exact (congrArg Prod.fst same).symm
  · rfl

theorem withdrawUnreported_view_self (snapshot : applied.snapshot = true)
    (there : db.targets.get? applied.target.key = some applied.target) :
    (db.withdrawUnreported observedAt applied).view applied.target.key resourceId
      = (db.view applied.target.key resourceId).withdraw observedAt
        (resourceId ∈ applied.members.map Member.resourceId) := by
  rw [withdrawUnreported, if_pos snapshot]
  generalize heard : ({ applied.target with lastCompleteAt := some observedAt } : CollectorTarget)
    = target
  have its : target.key = applied.target.key := by rw [← heard]
  generalize reported : applied.members.map Member.resourceId = contained
  have written := view_writeTarget_self db target resourceId
  rw [its] at written
  have target' : (db.view applied.target.key resourceId).target.map
      (fun target => { target with lastCompleteAt := some observedAt }) = some target := by
    rw [view, there, ← heard]
    rfl
  by_cases due : ∃ member, db.members.get? (applied.target.key, resourceId) = some member ∧
      resourceId ∉ contained ∧ member.lastReportedAt ≤ observedAt ∧ member.present = true
  · obtain ⟨member, found, absent, late, present⟩ := due
    have key' : member.key = (applied.target.key, resourceId) := key_of_get? found
    have mem : member ∈ (db.writeTarget target).unreported applied.target contained observedAt := by
      refine mem_unreported.2 ⟨mem_of_get? found, congrArg Prod.fst key', ?_, late, present⟩
      rw [show member.resourceId = resourceId from congrArg Prod.snd key']
      exact absent
    have nodup : (((db.writeTarget target).unreported applied.target contained observedAt).map
        Member.key).Nodup :=
      (db.writeTarget target).members.nodup.sublist (filter_sublist.map _)
    rw [foldl_withdraw_view_self nodup mem key']
    refine congrArg₂ View.mk ((congrArg View.target written).trans target'.symm) ?_
    rw [view, found, Option.map_some, if_pos (by simp [absent, late, present])]
  rw [foldl_withdraw_view_other, written]
  · refine congrArg₂ View.mk target'.symm ?_
    rw [view]
    cases found : db.members.get? (applied.target.key, resourceId) with
    | none => rfl
    | some member =>
      rw [Option.map_some, if_neg]
      rintro all
      simp only [Bool.and_eq_true, Bool.not_eq_true', decide_eq_true_eq,
        decide_eq_false_iff_not] at all
      exact due ⟨member, found, all.1.1, all.1.2, all.2⟩
  intro member mem same
  obtain ⟨there, _, absent, late, present⟩ := mem_unreported.1 mem
  refine due ⟨member, ?_, ?_, late, present⟩
  · rw [← same]
    exact get?_of_mem there
  rw [← show member.resourceId = resourceId from congrArg Prod.snd same]
  exact absent

/-! ### A whole report -/

/-- The resources a report contains under a target: those that were reconciled. -/
def contains (outcomes : List Outcome) (key : String) (resourceId : Uuid) : Bool :=
  (outcomesOf outcomes key).any fun outcome => outcome.resource = some resourceId

theorem contains_iff {key : String} : contains outcomes key resourceId = true ↔
    ∃ outcome ∈ outcomesOf outcomes key, outcome.resource = some resourceId := by
  simp [contains]

theorem recordMembers_resourceIds :
    (db.recordMembers target observedAt outcomes).2.map Member.resourceId
      = outcomes.filterMap Outcome.resource := by
  induction outcomes generalizing db with
  | nil => rfl
  | cons _ _ ih =>
    unfold recordMembers
    split
    · rename_i none
      rw [ih, filterMap_cons, none]
    rename_i resourceId is
    rw [map_cons, ih, filterMap_cons, is]
    exact congrArg (· :: _) (congrArg Prod.snd (written_key ..))

/-- What has been applied for a target of the report. -/
structure Applied.Of (source : Source) (report : Report) (outcomes : List Outcome) (db : Db)
    (reported : ReportedTarget) (applied : Applied) : Prop where
  target : applied.target
    = putTarget (db.targets.get? (source.id, reported.key)) source report reported
  snapshot : applied.snapshot = isSnapshot applied.target report reported outcomes
  members : ∀ resourceId, resourceId ∈ applied.members.map Member.resourceId ↔
    contains outcomes reported.key resourceId = true
  rows : ∀ member ∈ applied.members, ∃ before outcome after,
    outcomesOf outcomes reported.key = before ++ outcome :: after ∧
      outcome.resource = some member.resourceId ∧
        some member = putAll applied.target member.resourceId report.observedAt
          (before ++ [outcome]) (db.members.get? ((source.id, reported.key), member.resourceId))

theorem applyTarget_of {db' : Db}
    (same : ∀ resourceId, db'.view (source.id, reported.key) resourceId
      = db.view (source.id, reported.key) resourceId) :
    Applied.Of source report outcomes db reported
      (db'.applyTarget source report outcomes reported).2 where
  target := congrArg (putTarget · source report reported) (congrArg View.target (same 0))
  snapshot := rfl
  members resourceId := by
    show resourceId ∈ (recordMembers _ _ _ _).2.eraseDups.map Member.resourceId ↔ _
    rw [mem_map]
    simp only [mem_eraseDups]
    rw [← mem_map, recordMembers_resourceIds, mem_filterMap, contains_iff]
  rows member mem := by
    obtain ⟨before, outcome, after, split, its, is⟩ :=
      recordMembers_rows (mem_eraseDups.1 mem)
    refine ⟨before, outcome, after, split, its, is.trans ?_⟩
    rw [heard_key]
    exact congrArg (putAll _ _ _ _) (congrArg View.member (same member.resourceId))

theorem key_of_mem_applied (mem : applied ∈ (db.applyTargets source report outcomes targets).2) :
    ∃ reported ∈ targets, applied.target.key = (source.id, reported.key) := by
  induction targets generalizing db with
  | nil => cases mem
  | cons reported _ ih =>
    rcases mem_cons.1 mem with rfl | mem
    · exact ⟨reported, mem_cons_self .., heard_key ..⟩
    obtain ⟨other, mem, its⟩ := ih mem
    exact ⟨other, mem_cons_of_mem _ mem, its⟩

theorem split_applied (source : Source) (outcomes : List Outcome) (mem : reported ∈ report.targets)
    (db : Db) :
    ∃ before applied after, (db.applyTargets source report outcomes report.targets.rows).2
          = before ++ applied :: after ∧
        applied.Of source report outcomes db reported ∧
        (∀ other ∈ before, other.target.key ≠ (source.id, reported.key)) ∧
        ∀ other ∈ after, other.target.key ≠ (source.id, reported.key) := by
  obtain ⟨before, after, split, notBefore, notAfter⟩ := report.split_targets mem
  have apart : ∀ {other : ReportedTarget}, other.key ≠ reported.key →
      (source.id, other.key) ≠ (source.id, reported.key) := fun ne same =>
    ne (congrArg Prod.snd same)
  let first := db.applyTargets source report outcomes before
  let own := first.1.applyTarget source report outcomes reported
  refine ⟨first.2, own.2, (own.1.applyTargets source report outcomes after).2, ?_,
    applyTarget_of ?_, ?_, ?_⟩
  · rw [split, applyTargets_append]
    rfl
  · exact applyTargets_view_other (fun other mem' => (apart (notBefore other mem')).symm) db
  · intro other mem'
    obtain ⟨its, mem', same⟩ := key_of_mem_applied mem'
    rw [same]
    exact apart (notBefore its mem')
  intro _ mem'
  obtain ⟨its, mem', same⟩ := key_of_mem_applied mem'
  rw [same]
  exact apart (notAfter its mem')

theorem foldl_withdrawUnreported_view_other {applied : List Applied}
    (ne : ∀ other ∈ applied, other.target.key ≠ key) :
    (applied.foldl (withdrawUnreported observedAt) db).view key resourceId
      = db.view key resourceId := by
  refine foldlRecOn (motive := (view · key resourceId = _)) applied _ rfl ?_
  intro db same first mem
  exact (withdrawUnreported_view_other (ne first mem).symm observedAt db).trans same

theorem foldl_keep_view (ids : List Uuid) :
    (ids.foldl keepClaimedInventoryCurrent db).view key resourceId = db.view key resourceId := by
  induction ids generalizing db with
  | nil => rfl
  | cons id _ ih =>
    obtain ⟨_, is, _⟩ := keepClaimedInventoryCurrent_eq db id
    rw [foldl_cons, ih, is]
    rfl

def View.next (source : Source) (report : Report) (reported : ReportedTarget)
    (outcomes : List Outcome) (resourceId : Uuid) (view : View) : View :=
  let recorded := view.record source report reported outcomes resourceId
  if isSnapshot (putTarget view.target source report reported) report reported outcomes then
    recorded.withdraw report.observedAt (contains outcomes reported.key resourceId)
  else recorded

/-- **A report at one of its targets.**  The rows of a target and of a resource under it change
as a function of the two. -/
theorem applyReport_view_self (mem : reported ∈ report.targets) :
    (db.applyReport source report outcomes).view (source.id, reported.key) resourceId
      = (db.view (source.id, reported.key) resourceId).next source report reported outcomes
        resourceId := by
  obtain ⟨before, applied, _, split, its, notBefore, notAfter⟩ :=
    split_applied source outcomes mem db
  have key' : applied.target.key = (source.id, reported.key) := by
    rw [its.target]
    exact heard_key ..
  have recorded := applyTargets_view_self source outcomes mem db resourceId
  unfold applyReport
  rw [foldl_keep_view, split, foldl_append, foldl_cons,
    foldl_withdrawUnreported_view_other notAfter]
  generalize between : before.foldl (withdrawUnreported report.observedAt)
    (db.applyTargets source report outcomes report.targets.rows).1 = db'
  have same : db'.view (source.id, reported.key) resourceId
      = (db.view (source.id, reported.key) resourceId).record source report reported outcomes
        resourceId := by
    rw [← between, foldl_withdrawUnreported_view_other notBefore, recorded]
  have there : db'.targets.get? applied.target.key = some applied.target := by
    rw [key', its.target]
    exact congrArg View.target same
  unfold View.next
  rw [show putTarget (db.view (source.id, reported.key) resourceId).target source report reported
    = applied.target from its.target.symm, ← its.snapshot]
  cases snapshot : applied.snapshot with
  | false => rw [withdrawUnreported, snapshot, if_neg Bool.false_ne_true,
      if_neg Bool.false_ne_true, same]
  | true =>
    rw [if_pos rfl, ← key', withdrawUnreported_view_self snapshot there, key', same]
    congr 1
    exact Bool.eq_iff_iff.2 (decide_eq_true_iff.trans (its.members resourceId))

theorem applyReport_view_other (ne : ∀ reported ∈ report.targets, key ≠ (source.id, reported.key)) :
    (db.applyReport source report outcomes).view key resourceId = db.view key resourceId := by
  unfold applyReport
  rw [foldl_keep_view, foldl_withdrawUnreported_view_other, applyTargets_view_other ne]
  intro _ mem
  obtain ⟨reported, mem, its⟩ := key_of_mem_applied mem
  rw [its]
  exact (ne reported mem).symm

end Renga.Inventory
