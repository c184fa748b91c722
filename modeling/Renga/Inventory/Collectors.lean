import Renga.Inventory.Schema

/-!
# Targets and what they report

`Renga.Inventory.Collectors`: `apply_report!/4` records for every target of a report when it
was heard of and for every resource when it was reported under it.  A complete report that
reached a target and whose resources were all reconciled is a *snapshot*: what it does not
contain is withdrawn.
-/

namespace Renga.Inventory

/-! ### Conditions -/

variable (db : Db) (target : CollectorTarget) (source : Source) (member : Member)
  (resourceId : Uuid)

def Db.putCondition (condition : Condition) : Db :=
  { db with conditions := Function.update db.conditions resourceId (some condition) }

def Db.markInventoryWithdrawn : Db :=
  db.putCondition resourceId ⟨false, .withdrawn⟩

def Db.keepClaimedInventoryCurrent : Db :=
  match db.conditions resourceId with
  | none => db.putCondition resourceId ⟨true, .stillReported⟩
  | some condition =>
    if condition.reason = .withdrawn then db.putCondition resourceId ⟨true, .stillReported⟩
    else db

/-! ### Members -/

def latest : Option Time → Option Time → Option Time
  | none, time => time
  | time, none => time
  | some first, some second => if first < second then some second else some first

def putTarget (target : Option CollectorTarget) (source : Source) (report : Report)
    (reported : ReportedTarget) : CollectorTarget :=
  let reachableAt := if reported.status = .reachable then some report.observedAt else none
  match target with
  | none =>
    { key := (source.id, reported.key)
      status := reported.status
      error := reported.error
      lastReportedAt := report.observedAt
      lastReachableAt := reachableAt
      lastObservationId := report.id }
  | some target =>
    if report.observedAt < target.lastReportedAt then
      -- A late replay can still show the target was reachable then.
      { target with lastReachableAt := latest target.lastReachableAt reachableAt }
    else
      { target with
        status := reported.status
        error := reported.error
        lastReportedAt := report.observedAt
        lastReachableAt := latest target.lastReachableAt reachableAt
        lastObservationId := report.id }

def absentFromSnapshot (member : Option Member) (observedAt : Time) : Bool :=
  match target.lastCompleteAt with
  | none => false
  | some snapshotAt =>
    observedAt ≤ snapshotAt &&
      match member with
      | none => true
      | some member => member.lastReportedAt < snapshotAt

def Member.domainCurrent : Bool :=
  match member.domainReportedAt, member.withdrawnAt with
  | none, _ => false
  | some _, none => true
  | some reportedAt, some withdrawnAt => withdrawnAt < reportedAt

/-- `domain_changes/3`, from what the member was before the report. -/
def Member.changeDomain (previous : Member) (domain : Option DomainState) (observedAt : Time) :
    Member :=
  match domain with
  | none => member
  | some state =>
    if previous.domainReportedAt.any (observedAt ≤ ·) then member
    else
      { member with
        domain := some state
        domainReportedAt := some observedAt
        activeSince :=
          if state.active then
            if previous.activeSince.isSome && previous.domainCurrent then previous.activeSince
            else some observedAt
          else none }

def putMember (member : Option Member) (resourceId : Uuid) (domain : Option DomainState)
    (observedAt : Time) : Member :=
  let withdrawnAt :=
    if absentFromSnapshot target member observedAt then target.lastCompleteAt else none
  match member with
  | none =>
    let new : Member :=
      { target := target.key, resourceId := resourceId, firstReportedAt := observedAt
        lastReportedAt := observedAt, withdrawnAt := withdrawnAt }
    new.changeDomain { new with withdrawnAt := none } domain observedAt
  | some member =>
    { member with
      firstReportedAt := min member.firstReportedAt observedAt
      lastReportedAt := max member.lastReportedAt observedAt
      withdrawnAt := latest member.withdrawnAt withdrawnAt }.changeDomain member domain observedAt

def Db.supersededBySnapshot (observation : Observation) (resourceId : Uuid) : Bool :=
  match observation.target with
  | none => false
  | some key =>
    match db.targets.get? (source.id, key) with
    | none => false
    | some target =>
      match target.lastCompleteAt with
      | none => false
      | some snapshotAt =>
        observation.observedAt ≤ snapshotAt &&
          !(db.members.get? ((source.id, key), resourceId)).any fun member =>
            snapshotAt ≤ member.lastReportedAt && member.present

/-! ### Reports -/

/-- What became of a derived observation: the resource it was reconciled to, if it was. -/
structure Outcome where
  target : String
  resource : Option Uuid
  domain : Option DomainState := none
  deriving DecidableEq

/-- A target a report has been recorded for, with the members written. -/
structure Applied where
  target : CollectorTarget
  members : List Member
  snapshot : Bool

def Db.writeMember : Db :=
  { db with members := db.members.place member }

def Db.writeTarget : Db :=
  { db with targets := db.targets.place target }

def outcomesOf (outcomes : List Outcome) (key : String) : List Outcome :=
  outcomes.filter fun outcome => outcome.target = key

/-- The reconciled resources are recorded under their target; with the rows as they were
written. -/
def Db.recordMembers (target : CollectorTarget) (observedAt : Time) (db : Db) :
    List Outcome → Db × List Member
  | [] => (db, [])
  | outcome :: rest =>
    match outcome.resource with
    | none => Db.recordMembers target observedAt db rest
    | some resourceId =>
      let member := putMember target (db.members.get? (target.key, resourceId)) resourceId
        outcome.domain observedAt
      let others := Db.recordMembers target observedAt (db.writeMember member) rest
      (others.1, member :: others.2)

/-- Whether a report is a snapshot of a target it has been recorded for. -/
def isSnapshot (report : Report) (reported : ReportedTarget) (outcomes : List Outcome) : Bool :=
  report.complete && decide (reported.status = .reachable) &&
    decide (target.lastObservationId = report.id) &&
      (outcomesOf outcomes reported.key).all fun outcome => outcome.resource.isSome

/-- A target of a report is recorded, with the resources reconciled under it. -/
def Db.applyTarget (report : Report) (outcomes : List Outcome) (db : Db) (reported : ReportedTarget)
    : Db × Applied :=
  let target := putTarget (db.targets.get? (source.id, reported.key)) source report reported
  let recorded := (db.writeTarget target).recordMembers target report.observedAt
    (outcomesOf outcomes reported.key)
  (recorded.1, ⟨target, recorded.2.eraseDups, isSnapshot target report reported outcomes⟩)

def Db.applyTargets (source : Source) (report : Report) (outcomes : List Outcome) (db : Db) :
    List ReportedTarget → Db × List Applied
  | [] => (db, [])
  | reported :: rest =>
    let first := db.applyTarget source report outcomes reported
    let others := Db.applyTargets source report outcomes first.1 rest
    (others.1, first.2 :: others.2)

def Db.hostClaim : Bool :=
  db.reconciliations.any fun reconciliation =>
    reconciliation.matchedResourceId = some resourceId ∧ reconciliation.succeeded ∧
      reconciliation.sourceKind = .hostAgent

def Db.otherCurrentClaim : Bool :=
  (db.members.rows.any fun other =>
    other.resourceId = member.resourceId ∧ other.key ≠ member.key ∧ other.present) ||
    db.hostClaim member.resourceId

def Db.withdraw (withdrawnAt : Time) (db : Db) (member : Member) : Db :=
  let db := db.writeMember { member with withdrawnAt := some withdrawnAt }
  if db.otherCurrentClaim member then db else db.markInventoryWithdrawn member.resourceId

def Db.unreported (reported : List Uuid) (observedAt : Time) : List Member :=
  db.members.rows.filter fun member =>
    member.target = target.key ∧ member.resourceId ∉ reported ∧
      member.lastReportedAt ≤ observedAt ∧ member.present

def Db.withdrawUnreported (observedAt : Time) (db : Db) (applied : Applied) : Db :=
  if applied.snapshot then
    let db := db.writeTarget { applied.target with lastCompleteAt := some observedAt }
    (db.unreported applied.target (applied.members.map Member.resourceId) observedAt).foldl
      (Db.withdraw observedAt) db
  else db

def Db.applyReport (report : Report) (outcomes : List Outcome) : Db :=
  let applied := db.applyTargets source report outcomes report.targets.rows
  let db := applied.2.foldl (Db.withdrawUnreported report.observedAt) applied.1
  let present := (applied.2.flatMap Applied.members).filter Member.present
  (present.map Member.resourceId).eraseDups.foldl Db.keepClaimedInventoryCurrent db

/-! ### What a report leaves alone -/

structure Db.Beside (db db' : Db) : Prop where
  resources : db'.resources = db.resources
  identifiers : db'.identifiers = db.identifiers
  claims : db'.claims = db.claims
  hosts : db'.hosts = db.hosts
  networks : db'.networks = db.networks
  reconciliations : db'.reconciliations = db.reconciliations

namespace Db.Beside

variable {db db' db'' : Db}

theorem refl : db.Beside db := ⟨rfl, rfl, rfl, rfl, rfl, rfl⟩

theorem trans (one : db.Beside db') (two : db'.Beside db'') : db.Beside db'' where
  resources := two.resources.trans one.resources
  identifiers := two.identifiers.trans one.identifiers
  claims := two.claims.trans one.claims
  hosts := two.hosts.trans one.hosts
  networks := two.networks.trans one.networks
  reconciliations := two.reconciliations.trans one.reconciliations

theorem writeMember (db : Db) (member : Member) : db.Beside (db.writeMember member) :=
  ⟨rfl, rfl, rfl, rfl, rfl, rfl⟩

theorem writeTarget (db : Db) (target : CollectorTarget) : db.Beside (db.writeTarget target) :=
  ⟨rfl, rfl, rfl, rfl, rfl, rfl⟩

theorem putCondition (db : Db) (resourceId : Uuid) (condition : Condition) :
    db.Beside (db.putCondition resourceId condition) :=
  ⟨rfl, rfl, rfl, rfl, rfl, rfl⟩

theorem foldl {α : Type*} {f : Db → α → Db} (one : ∀ (db : Db) (a : α), db.Beside (f db a))
    {l : List α} : db.Beside (l.foldl f db) := by
  exact List.foldlRecOn l f refl fun after beside a _ => beside.trans (one after a)

theorem recordMembers (target : CollectorTarget) (observedAt : Time) (outcomes : List Outcome)
    (db : Db) : db.Beside (db.recordMembers target observedAt outcomes).1 := by
  induction outcomes generalizing db with
  | nil => exact refl
  | cons _ _ ih =>
    unfold Db.recordMembers
    split
    · exact ih db
    · exact (writeMember _ _).trans (ih _)

theorem applyTargets (source : Source) (report : Report) (outcomes : List Outcome)
    (targets : List ReportedTarget) (db : Db) :
    db.Beside (db.applyTargets source report outcomes targets).1 := by
  induction targets generalizing db with
  | nil => exact refl
  | cons _ _ ih =>
    exact ((writeTarget _ _).trans (recordMembers ..)).trans (ih _)

theorem withdraw {withdrawnAt : Time} (db : Db) (member : Member) :
    db.Beside (db.withdraw withdrawnAt member) := by
  unfold Db.withdraw
  dsimp only
  split
  · exact writeMember ..
  · exact (writeMember ..).trans (putCondition ..)

theorem withdrawUnreported {observedAt : Time} (db : Db) (applied : Applied) :
    db.Beside (db.withdrawUnreported observedAt applied) := by
  unfold Db.withdrawUnreported
  split
  · exact (writeTarget ..).trans (foldl withdraw)
  · exact refl

theorem keepClaimedInventoryCurrent (db : Db) (resourceId : Uuid) :
    db.Beside (db.keepClaimedInventoryCurrent resourceId) := by
  unfold Db.keepClaimedInventoryCurrent
  split
  · exact putCondition ..
  split
  · exact putCondition ..
  · exact refl

theorem applyReport (db : Db) (source : Source) (report : Report) (outcomes : List Outcome) :
    db.Beside (db.applyReport source report outcomes) :=
  ((applyTargets ..).trans (foldl withdrawUnreported)).trans
    (foldl keepClaimedInventoryCurrent)

end Db.Beside

end Renga.Inventory
