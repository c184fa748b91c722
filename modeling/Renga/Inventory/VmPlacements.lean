import Renga.Inventory.Collectors

/-!
# Where a virtual machine runs

`Renga.Inventory.VmPlacements`.  Every hypervisor that still reports a domain defines it there;
only a fresh report of an active domain claims that it runs there.  The claims of one hypervisor
are views of one *run*, from the earliest start to the latest report, and a run that ended
before another began is superseded by it.
-/

namespace Renga.Inventory

open List Option

/-! ### What the collector maintains -/

def Member.Timed (member : Member) : Prop :=
  ∀ since ∈ member.activeSince, ∃ reportedAt ∈ member.domainReportedAt, since ≤ reportedAt

variable {member : Member} {domain : Option DomainState} {observedAt : Time}

theorem Member.Timed.changeDomain {previous : Member} (timed : member.Timed)
    (before : previous.Timed) : (member.changeDomain previous domain observedAt).Timed := by
  cases domain with
  | none => exact timed
  | some =>
    unfold Member.changeDomain
    cases old : previous.domainReportedAt.any (observedAt ≤ ·) with
    | true => exact timed
    | false =>
      intro since began
      refine ⟨observedAt, rfl, ?_⟩
      simp only [Bool.false_eq_true, if_false] at began
      split at began
      · split at began
        · obtain ⟨_, known, le⟩ := before since began
          rw [mem_def.1 known, any_some, decide_eq_false_iff_not, not_le] at old
          exact le.trans old.le
        · exact (some.inj began).ge
      · cases began

variable {target : CollectorTarget}

theorem putMember_timed {member : Option Member} (timed : ∀ m ∈ member, m.Timed)
    {resourceId : Uuid} : (putMember target member resourceId domain observedAt).Timed := by
  cases member with
  | none => exact .changeDomain (fun _ began => by cases began) (fun _ began => by cases began)
  | some member =>
    refine .changeDomain ?_ (timed member rfl)
    exact timed member rfl

def Db.Timed (db : Db) : Prop := ∀ member ∈ db.members, member.Timed

namespace Db.Timed

variable {db : Db}

theorem writeMember (timed : db.Timed) (its : member.Timed) : (db.writeMember member).Timed := by
  intro other stored
  rcases KeyTable.mem_place.1 stored with ⟨stored, -⟩ | rfl
  · exact timed other stored
  · exact its

variable {outcomes : List Outcome}

theorem recordMembers (timed : db.Timed) :
    (db.recordMembers target observedAt outcomes).1.Timed := by
  induction outcomes generalizing db with
  | nil => exact timed
  | cons _ _ ih =>
    unfold Db.recordMembers
    split
    · exact ih timed
    exact ih (timed.writeMember (putMember_timed (fun m found =>
      timed m (KeyTable.mem_of_get? found))))

variable {source : Source} {report : Report}

theorem applyTargets (timed : db.Timed) {targets : List ReportedTarget} :
    (db.applyTargets source report outcomes targets).1.Timed := by
  induction targets generalizing db with
  | nil => exact timed
  | cons _ _ ih =>
    exact ih (show (db.writeTarget _).Timed from timed).recordMembers

theorem withdrawUnreported (timed : db.Timed) {applied : Applied} :
    (db.withdrawUnreported observedAt applied).Timed := by
  unfold Db.withdrawUnreported
  split
  · refine foldlRecOn _ _ timed fun _ timed' member mem => ?_
    have withdrawn := timed'.writeMember
      (show ({ member with withdrawnAt := some observedAt } : Member).Timed from
        timed member (mem_filter.1 mem).1)
    unfold Db.withdraw
    dsimp only
    split
    · exact withdrawn
    · exact withdrawn
  · exact timed

/-- **A report keeps every run timed.** -/
theorem applyReport (timed : db.Timed) : (db.applyReport source report outcomes).Timed := by
  refine foldlRecOn _ _ (foldlRecOn _ _ timed.applyTargets
    fun _ timed _ _ => timed.withdrawUnreported) ?_
  intro _ timed _ _
  unfold Db.keepClaimedInventoryCurrent
  split
  · exact timed
  · split <;> exact timed

end Db.Timed

/-- The databases collectors lead to: reports are applied one after the other, and whatever else
is written leaves the members alone. -/
inductive Db.Collected : Db → Prop
  | empty {db : Db} (none : db.members = KeyTable.empty) : Db.Collected db
  | report {db : Db} (source : Source) (report : Report) (outcomes : List Outcome) :
      Db.Collected db → Db.Collected (db.applyReport source report outcomes)
  | other {db db' : Db} (same : db'.members = db.members) : Db.Collected db → Db.Collected db'

theorem Db.Collected.timed {db : Db} (collected : db.Collected) : db.Timed := by
  induction collected with
  | empty none =>
    intro member stored
    rw [none] at stored
    cases stored
  | report _ _ _ _ ih => exact ih.applyReport
  | other same _ ih => exact fun member stored => ih member (same ▸ stored)

namespace VmPlacements

/-- What is known of the hosts of streams: the source an installation's agent reports its host
with, and the resources the identifier claims of a source lead to. -/
structure Hosts where
  hostSource : Uuid → Option Uuid
  hostResources : Uuid → List Uuid

/-- What a target says of a domain, and since when it has been active there. -/
structure Claim where
  target : CollectorTarget
  domain : DomainState
  activeSince : Option Time
  lastReportedAt : Option Time
  hostResourceId : Option Uuid
deriving DecidableEq

/-- The host two targets may share, or the target itself when its host is not known. -/
inductive HypervisorKey where
  | target (key : TargetKey)
  | host (id : Uuid)
deriving DecidableEq

def localUri (uri : String) : Bool := uri ∈ ["qemu:///system", "qemu:///session"]

variable (hosts : Hosts) (claims : List Claim) (db : Db) (resourceId : Uuid) (now : Time)

def hostResourceId (target : CollectorTarget) : Option Uuid :=
  if localUri target.key.2 then
    match (hosts.hostSource target.key.1).map hosts.hostResources with
    | some [resourceId] => some resourceId
    | _ => none
  else none

def hypervisorKey (claim : Claim) : HypervisorKey :=
  match claim.hostResourceId with
  | none => .target claim.target.key
  | some id => .host id

/-- The members that define a machine.  Their target's row is there by a foreign key. -/
def listMembers : List Member :=
  (db.members.rows.filter fun member =>
    member.resourceId = resourceId && member.domain.isSome && member.present).insertionSort
      fun a b => a.firstReportedAt ≤ b.firstReportedAt

def claim (member : Member) : Option Claim := do
  let target ← db.targets.get? member.target
  let domain ← member.domain
  return { target, domain
           activeSince := if member.domainCurrent then member.activeSince else none
           lastReportedAt := member.domainReportedAt
           hostResourceId := hostResourceId hosts target }

def oldestFresh : Time := now - seconds (15 * 60)

/-- The target is reachable, and neither its last contact nor the report is over 15 minutes old. -/
def fresh (target : CollectorTarget) (reportedAt : Option Time) (now : Time) : Bool :=
  decide (target.status = .reachable) && target.lastReachableAt.any (oldestFresh now ≤ ·) &&
    reportedAt.any (oldestFresh now ≤ ·)

def freshActive (claim : Claim) : Bool :=
  claim.activeSince.isSome && fresh claim.target claim.lastReportedAt now

/-- A stay on one hypervisor: from the earliest start to the latest report. -/
structure Run where
  key : HypervisorKey
  since : Time
  lastReportedAt : Time
deriving DecidableEq

/-- The run of a hypervisor, from all claims that view it. -/
def run? (key : HypervisorKey) : Option Run :=
  let views := claims.filter (hypervisorKey · = key)
  match (views.filterMap Claim.activeSince).argmin id,
    (views.filterMap Claim.lastReportedAt).argmax id with
  | some since, some last => some ⟨key, since, last⟩
  | _, _ => none

def runs : List Run :=
  (claims.map hypervisorKey).dedup.filterMap (run? claims)

/-- `other` began after `run` was last reported, on another hypervisor. -/
def supersedes (run other : Run) : Bool :=
  decide (other.key ≠ run.key) && decide (run.lastReportedAt < other.since)

/-- The runs no other supersedes. -/
def standing : List Run :=
  (runs claims).filter fun run => !(runs claims).any (supersedes run)

def standingHypervisors : List HypervisorKey := (standing claims).map Run.key

inductive Status where
  | placed
  | ambiguous
  | unknown
deriving DecidableEq

structure Placement where
  status : Status
  hypervisor : Option Claim
  active : List Claim
  definedOn : List Claim

def freshClaims : List Claim :=
  ((listMembers db resourceId).filterMap (claim hosts db)).filter (freshActive now)

def activeClaims (fresh : List Claim) : List Claim :=
  (fresh.filter (hypervisorKey · ∈ standingHypervisors fresh)).insertionSort
    fun a b => b.activeSince.getD 0 ≤ a.activeSince.getD 0

/-- One hypervisor is a place; none is unknown, and several are ambiguous. -/
def verdict : List HypervisorKey → List Claim → Status × Option Claim
  | [], _ => (.unknown, none)
  | [_], claim :: _ => (.placed, some claim)
  | _, _ => (.ambiguous, none)

/-- The placement of a machine. -/
def placement : Placement :=
  let fresh := freshClaims hosts db resourceId now
  let result := verdict (standingHypervisors fresh) (activeClaims fresh)
  { status := result.1
    hypervisor := result.2
    active := activeClaims fresh
    definedOn := (listMembers db resourceId).filterMap (claim hosts db) }

/-! ### Runs -/

section Runs

variable {claims : List Claim} {run : Run} {key : HypervisorKey}

def starts (claims : List Claim) (key : HypervisorKey) : Set Time :=
  {t | ∃ claim ∈ claims, hypervisorKey claim = key ∧ claim.activeSince = some t}

def reports (claims : List Claim) (key : HypervisorKey) : Set Time :=
  {t | ∃ claim ∈ claims, hypervisorKey claim = key ∧ claim.lastReportedAt = some t}

variable {t : Time}

theorem mem_views_iff {time : Claim → Option Time} :
    t ∈ (claims.filter (hypervisorKey · = key)).filterMap time ↔
      ∃ claim ∈ claims, hypervisorKey claim = key ∧ time claim = some t := by
  simp only [mem_filterMap, mem_filter, decide_eq_true_eq, and_assoc]

theorem isLeast_of_argmin {l : List Time} (least : l.argmin id = some t) : IsLeast {t | t ∈ l} t :=
  ⟨argmin_mem least, fun _ mem => le_of_mem_argmin mem least⟩

theorem isGreatest_of_argmax {l : List Time} (greatest : l.argmax id = some t) :
    IsGreatest {t | t ∈ l} t :=
  ⟨argmax_mem greatest, fun _ mem => le_of_mem_argmax mem greatest⟩

/-- **A run is from the earliest start to the latest report of its hypervisor.** -/
theorem run?_eq_some (found : run? claims key = some run) : run.key = key ∧
    IsLeast (starts claims key) run.since ∧ IsGreatest (reports claims key) run.lastReportedAt := by
  unfold run? at found
  simp only at found
  cases first : ((claims.filter (hypervisorKey · = key)).filterMap Claim.activeSince).argmin id with
  | none =>
    rw [first] at found
    cases found
  | some =>
    cases last : ((claims.filter (hypervisorKey · = key)).filterMap
        Claim.lastReportedAt).argmax id with
    | none =>
      rw [first, last] at found
      cases found
    | some =>
      rw [first, last] at found
      cases found
      have least := isLeast_of_argmin first
      have greatest := isGreatest_of_argmax last
      simp only [mem_views_iff] at least greatest
      exact ⟨rfl, least, greatest⟩

/-- Claims of a fresh run: it has begun, and was reported no earlier. -/
def TimedClaims (claims : List Claim) : Prop :=
  ∀ claim ∈ claims, ∃ since ∈ claim.activeSince, ∃ last ∈ claim.lastReportedAt, since ≤ last

theorem exists_run (timed : TimedClaims claims) {claim : Claim} (mem : claim ∈ claims) :
    ∃ run ∈ runs claims, run.key = hypervisorKey claim := by
  obtain ⟨since, began, last, reported, -⟩ := timed claim mem
  have starts : since ∈ (claims.filter (hypervisorKey · = hypervisorKey claim)).filterMap
      Claim.activeSince := mem_views_iff.2 ⟨claim, mem, rfl, began⟩
  have ends : last ∈ (claims.filter (hypervisorKey · = hypervisorKey claim)).filterMap
      Claim.lastReportedAt := mem_views_iff.2 ⟨claim, mem, rfl, reported⟩
  have found : ∃ run, run? claims (hypervisorKey claim) = some run := by
    unfold run?
    simp only
    cases first : ((claims.filter (hypervisorKey · = hypervisorKey claim)).filterMap
        Claim.activeSince).argmin id with
    | none =>
      rw [argmin_eq_none.1 first] at starts
      cases starts
    | some =>
      cases last : ((claims.filter (hypervisorKey · = hypervisorKey claim)).filterMap
          Claim.lastReportedAt).argmax id with
      | none =>
        rw [argmax_eq_none.1 last] at ends
        cases ends
      | some => exact ⟨_, rfl⟩
  obtain ⟨run, found⟩ := found
  refine ⟨run, mem_filterMap.2 ⟨_, ?_, found⟩, (run?_eq_some found).1⟩
  exact mem_dedup.2 (mem_map_of_mem mem)

theorem mem_runs (mem : run ∈ runs claims) : IsLeast (starts claims run.key) run.since ∧
      IsGreatest (reports claims run.key) run.lastReportedAt := by
  obtain ⟨_, -, found⟩ := mem_filterMap.1 mem
  obtain ⟨rfl, described⟩ := run?_eq_some found
  exact described

theorem since_le (timed : TimedClaims claims) (mem : run ∈ runs claims) :
    run.since ≤ run.lastReportedAt := by
  obtain ⟨⟨⟨claim, stored, key, began⟩, -⟩, -, latest⟩ := mem_runs mem
  obtain ⟨_, began', _, reported, le⟩ := timed claim stored
  rw [mem_def.1 began'] at began
  rw [← some.inj began]
  exact le.trans (latest ⟨claim, stored, key, reported⟩)

theorem mem_standing_iff : run ∈ standing claims ↔ run ∈ runs claims ∧
    ∀ other ∈ runs claims, other.key ≠ run.key → other.since ≤ run.lastReportedAt := by
  simp only [standing, mem_filter, Bool.not_eq_true', List.any_eq_false, supersedes,
    Bool.and_eq_true, decide_eq_true_eq, not_and, not_lt]

/-- **Of fresh claims, some run stands**: nothing began behind the end of the run that began
last. -/
theorem exists_standing (timed : TimedClaims claims) (some_ : claims ≠ []) :
    standing claims ≠ [] := by
  obtain ⟨_, mem⟩ := exists_mem_of_ne_nil claims some_
  obtain ⟨_, isRun, -⟩ := exists_run timed mem
  cases last : (runs claims).argmax Run.since with
  | none =>
    rw [argmax_eq_none.1 last] at isRun
    cases isRun
  | some =>
    have isNewest := argmax_mem last
    refine ne_nil_of_mem (mem_standing_iff.2 ⟨isNewest, fun _ isOther _ => ?_⟩)
    exact (le_of_mem_argmax isOther last).trans (since_le timed isNewest)

theorem mem_activeClaims_iff {claim : Claim} : claim ∈ activeClaims claims ↔
    claim ∈ claims ∧ ∃ run ∈ standing claims, run.key = hypervisorKey claim := by
  simp only [activeClaims, mem_insertionSort, mem_filter, decide_eq_true_eq,
    standingHypervisors, List.mem_map]

theorem activeClaims_ne_nil (stands : standing claims ≠ []) : activeClaims claims ≠ [] := by
  obtain ⟨run, stands⟩ := exists_mem_of_ne_nil _ stands
  obtain ⟨⟨⟨_, stored, key, -⟩, -⟩, -⟩ := mem_runs (mem_standing_iff.1 stands).1
  exact ne_nil_of_mem (mem_activeClaims_iff.2 ⟨stored, run, stands, key.symm⟩)

theorem verdict_spec (active : standing claims ≠ [] → activeClaims claims ≠ []) :
    let result := verdict (standingHypervisors claims) (activeClaims claims)
    (result.1 = .unknown ↔ standing claims = []) ∧
    (result.1 = .placed ↔ ∃ run, standing claims = [run]) ∧
    (result.1 = .ambiguous ↔ 2 ≤ (standing claims).length) ∧
    ∀ run, standing claims = [run] → ∃ claim ∈ activeClaims claims, result.2 = some claim := by
  unfold standingHypervisors
  cases stands : standing claims with
  | nil => simp [verdict]
  | cons _ rest =>
    have some_ := active (stands ▸ cons_ne_nil _ _)
    cases views : activeClaims claims with
    | nil => exact absurd views some_
    | cons => cases rest <;> simp [verdict]

end Runs

/-! ### Placements -/

variable {hosts : Hosts} {db : Db} {resourceId : Uuid} {now : Time}

theorem freshClaims_timed (timed : db.Timed) :
    TimedClaims (freshClaims hosts db resourceId now) := by
  intro _ mem
  obtain ⟨mem, active⟩ := mem_filter.1 mem
  obtain ⟨member, listed, made⟩ := mem_filterMap.1 mem
  rw [listMembers, mem_insertionSort] at listed
  obtain ⟨_, -, made⟩ := bind_eq_some_iff.1 made
  obtain ⟨_, -, made⟩ := bind_eq_some_iff.1 made
  cases made
  simp only [freshActive, Bool.and_eq_true] at active
  obtain ⟨since, began⟩ := isSome_iff_exists.1 active.1
  refine ⟨since, began, ?_⟩
  split at began
  · exact timed member (mem_filter.1 listed).1 since began
  · cases began

/-- **Where a machine runs.**  Its placement is unknown when it has no fresh active claim, known
when one run stands, and ambiguous otherwise; two standing runs overlap, and a run that does not
stand ended before another began. -/
theorem placement_spec (collected : db.Collected) (hosts : Hosts) (resourceId : Uuid) (now : Time) :
    let claims := freshClaims hosts db resourceId now
    let answer := placement hosts db resourceId now
    (∀ run ∈ runs claims, IsLeast (starts claims run.key) run.since ∧
      IsGreatest (reports claims run.key) run.lastReportedAt) ∧
    (∀ claim ∈ claims, ∃ run ∈ runs claims, run.key = hypervisorKey claim) ∧
    (answer.status = .unknown ↔ claims = []) ∧
    (answer.status = .placed ↔ ∃ run, standing claims = [run]) ∧
    (∀ run, standing claims = [run] → ∃ claim ∈ claims, answer.hypervisor = some claim ∧
      hypervisorKey claim = run.key) ∧
    (answer.status = .ambiguous ↔ 2 ≤ (standing claims).length) ∧
    (∀ run ∈ standing claims, ∀ other ∈ standing claims, other.since ≤ run.lastReportedAt) ∧
    ∀ run ∈ runs claims, run ∉ standing claims →
      ∃ other ∈ runs claims, other.key ≠ run.key ∧ run.lastReportedAt < other.since := by
  intro claims _
  have timed : TimedClaims claims := freshClaims_timed collected.timed
  have overlap : ∀ run ∈ standing claims, ∀ other ∈ standing claims,
      other.since ≤ run.lastReportedAt := by
    intro run stands other otherStands
    obtain ⟨isRun, later⟩ := mem_standing_iff.1 stands
    by_cases same : other.key = run.key
    · have least := (mem_runs (mem_standing_iff.1 otherStands).1).1
      rw [same] at least
      rw [least.unique (mem_runs isRun).1]
      exact since_le timed isRun
    · exact later other (mem_standing_iff.1 otherStands).1 same
  have dropped : ∀ run ∈ runs claims, run ∉ standing claims →
      ∃ other ∈ runs claims, other.key ≠ run.key ∧ run.lastReportedAt < other.since := by
    intro run isRun falls
    by_contra none
    refine falls (mem_standing_iff.2 ⟨isRun, fun other isOther ne => ?_⟩)
    exact not_lt.1 fun lt => none ⟨other, isOther, ne, lt⟩
  have nothing : standing claims = [] ↔ claims = [] :=
    ⟨fun none => by_contra fun some_ => exists_standing timed some_ none,
      fun none => by rw [none]; rfl⟩
  obtain ⟨unknown, placed, ambiguous, claimed⟩ := verdict_spec
    fun stands : standing claims ≠ [] => activeClaims_ne_nil stands
  refine ⟨fun run => mem_runs, fun claim => exists_run timed, unknown.trans nothing, placed, ?_,
    ambiguous, overlap, dropped⟩
  intro run alone
  obtain ⟨claim, mem, answered⟩ := claimed run alone
  obtain ⟨stored, _, stands, key⟩ := mem_activeClaims_iff.1 mem
  rw [alone, mem_singleton] at stands
  exact ⟨claim, stored, answered, stands ▸ key.symm⟩

/-- A machine moves: one hypervisor reports it running at 0, the other at 10. -/
theorem placement_running :
    let report : Uuid → Time → Report := fun id observedAt =>
      { id, observedAt, complete := true, derived := []
        targets := KeyTable.single ⟨"qemu:///system", .reachable, none⟩
        listed := fun _ mem => (by cases mem), sameTime := fun _ mem => (by cases mem) }
    let running : List Outcome := [⟨"qemu:///system", some 7, some .running⟩]
    let db := (({} : Db).applyReport ⟨1, .hostAgent, true⟩ (report 2 0) running).applyReport
      ⟨3, .hostAgent, true⟩ (report 4 10) running
    let claims := freshClaims ⟨fun _ => none, fun _ => []⟩ db 7 10
    db.Collected ∧ (runs claims).length = 2 ∧
      (placement ⟨fun _ => none, fun _ => []⟩ db 7 10).status = .placed ∧
      ∃ run, standing claims = [run] ∧ run.since = 10 := by
  intro report running db claims
  have collected : db.Collected := .report _ _ running (.report _ _ running (.empty rfl))
  have placed : (placement ⟨fun _ => none, fun _ => []⟩ db 7 10).status = .placed := by
    decide +kernel
  obtain ⟨run, alone⟩ := (placement_spec collected _ 7 10).2.2.2.1.1 placed
  have later : (standing claims).all (·.since = 10) := by decide +kernel
  rw [alone] at later
  exact ⟨collected, by decide +kernel, placed, run, alone, by simpa using later⟩

end VmPlacements

end Renga.Inventory
