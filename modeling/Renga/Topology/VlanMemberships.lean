import Renga.Topology.VlanStaleness

/-!
# Current VLANs

Of the memberships that stand and have a VLAN, the latest of each VLAN prevails, and of the
untagged ones that prevail the latest is current.  Of the modes that stand and are not
withdrawals, the latest counts, unless it contradicts the memberships.
-/

namespace Renga.Topology.Vlans

open List Option

variable {mode : ModeFact} {sourceId : Uuid}

/-! ### What a record says of an interface -/

def Env.modeReading (env : Env) :
    Evidence.Reading ModeFact (Uuid × Uuid) (Option Uuid × Uuid) ObservationOrder where
  identity := fun fact => (fact.sourceId, fact.interfaceId)
  scope := fun fact => (env.interfaces.resourceOf fact.interfaceId, fact.sourceId)
  order := ModeFact.order

variable (env : Env) (record : Record) (interfaceId : Uuid)

structure Candidate (fact : Fact) : Prop where
  mem : fact ∈ record.facts
  its : fact.interfaceId = interfaceId
  stands : env.Stands record fact
  resolved : fact.vlanId ≠ none

structure Prevails (fact : Fact) : Prop where
  candidate : Candidate env record interfaceId fact
  latest : ∀ other, Candidate env record interfaceId other → other.vlanId = fact.vlanId →
    other.membershipOrder ≤ fact.membershipOrder

/-- A current membership: of the untagged ones only the latest is. -/
structure Current (fact : Fact) : Prop where
  prevails : Prevails env record interfaceId fact
  untagged : fact.taggingMode = .untagged → ∀ other, Prevails env record interfaceId other →
    other.taggingMode = .untagged → other.membershipOrder ≤ fact.membershipOrder

structure ModeCandidate (fact : ModeFact) : Prop where
  mem : fact ∈ record.modeFacts
  its : fact.interfaceId = interfaceId
  stands : env.modeReading.Stands record.modeFacts (marks record.events .interfaceVlans) fact
  present : fact.mode ≠ none

structure EffectiveMode (fact : ModeFact) : Prop where
  candidate : ModeCandidate env record interfaceId fact
  latest : ∀ other, ModeCandidate env record interfaceId other → other.order ≤ fact.order

/-- The current mode: the latest, if it does not contradict the memberships. -/
def CurrentModeIs (mode : Mode) (sourceId : Uuid) : Prop :=
  ∃ fact, EffectiveMode env record interfaceId fact ∧ fact.mode = some mode ∧
    fact.sourceId = sourceId ∧ (mode = .access →
      ∀ membership, Current env record interfaceId membership → membership.taggingMode = .untagged)

structure Record.SameFor (one two : Record) : Prop where
  facts : ∀ fact, fact.interfaceId = interfaceId → (fact ∈ one.facts ↔ fact ∈ two.facts)
  modeFacts : ∀ fact, fact.interfaceId = interfaceId →
    (fact ∈ one.modeFacts ↔ fact ∈ two.modeFacts)
  events : ∀ event, env.interfaces.resourceOf interfaceId = some event.resourceId →
    (event ∈ one.events ↔ event ∈ two.events)

variable {env record interfaceId} {one two : Record} {fact : Fact}

theorem Record.Same.sameFor (same : one.Same two) : Record.SameFor env interfaceId one two :=
  ⟨fun fact _ => same.facts fact, fun fact _ => same.modeFacts fact,
    fun event _ => same.events event⟩

variable (same : Record.SameFor env interfaceId one two)
include same

theorem Record.SameFor.symm : Record.SameFor env interfaceId two one where
  facts := fun fact its => (same.facts fact its).symm
  modeFacts := fun fact its => (same.modeFacts fact its).symm
  events := fun event its => (same.events event its).symm

theorem Record.SameFor.mark_mem (sourceId : Uuid)
    {mark : (Option Uuid × Uuid) × ObservationOrder}
    (mem : mark ∈ marks two.events .interfaceVlans) : mark ∈ marks one.events .interfaceVlans ∨
      mark.1 ≠ (env.interfaces.resourceOf interfaceId, sourceId) := by
  obtain ⟨event, memEvent, its, rfl⟩ := mem_marks.1 mem
  by_cases resource : env.interfaces.resourceOf interfaceId = some event.resourceId
  · exact .inl (mem_marks.2 ⟨event, (same.events event resource).2 memEvent, its, rfl⟩)
  · exact .inr fun is => resource (congrArg Prod.fst is).symm

theorem Record.SameFor.stands (its : fact.interfaceId = interfaceId)
    (stands : env.Stands one fact) : env.Stands two fact := by
  refine Evidence.Reading.Stands.beside stands (fun new mem => ?_) fun _ mem => ?_
  · by_cases about : new.interfaceId = interfaceId
    · exact .inl ((same.facts new about).2 mem)
    · exact .inr fun is => about ((congrArg (·.2.1) is : new.interfaceId = _).trans its)
  have either := same.mark_mem fact.sourceId mem
  rw [← its] at either
  exact either

theorem Record.SameFor.modeStands (its : mode.interfaceId = interfaceId)
    (stands : env.modeReading.Stands one.modeFacts (marks one.events .interfaceVlans) mode) :
    env.modeReading.Stands two.modeFacts (marks two.events .interfaceVlans) mode := by
  refine stands.beside (fun new mem => ?_) fun _ mem => ?_
  · by_cases about : new.interfaceId = interfaceId
    · exact .inl ((same.modeFacts new about).2 mem)
    · exact .inr fun is => about ((congrArg (·.2) is : new.interfaceId = _).trans its)
  have either := same.mark_mem mode.sourceId mem
  rw [← its] at either
  exact either

theorem Candidate.of_same (candidate : Candidate env one interfaceId fact) :
    Candidate env two interfaceId fact where
  mem := (same.facts fact candidate.its).1 candidate.mem
  its := candidate.its
  stands := same.stands candidate.its candidate.stands
  resolved := candidate.resolved

theorem Prevails.of_same (prevails : Prevails env one interfaceId fact) :
    Prevails env two interfaceId fact where
  candidate := prevails.candidate.of_same same
  latest := fun other candidate => prevails.latest other (candidate.of_same same.symm)

theorem Current.of_same (current : Current env one interfaceId fact) :
    Current env two interfaceId fact where
  prevails := current.prevails.of_same same
  untagged := fun its other prevails =>
    current.untagged its other (prevails.of_same same.symm)

theorem ModeCandidate.of_same (candidate : ModeCandidate env one interfaceId mode) :
    ModeCandidate env two interfaceId mode where
  mem := (same.modeFacts mode candidate.its).1 candidate.mem
  its := candidate.its
  stands := same.modeStands candidate.its candidate.stands
  present := candidate.present

theorem CurrentModeIs.of_same {mode : Mode}
    (is : CurrentModeIs env one interfaceId mode sourceId) :
    CurrentModeIs env two interfaceId mode sourceId := by
  obtain ⟨fact, ⟨candidate, latest⟩, isMode, source, compatible⟩ := is
  refine ⟨fact, ⟨candidate.of_same same, fun other its => ?_⟩, isMode, source,
    fun access membership current => ?_⟩
  · exact latest other (its.of_same same.symm)
  · exact compatible access membership (current.of_same same.symm)

omit same

/-! ### What is selected -/

variable {arrivals : List Arrival} {db db' : Db} {resourceId : Uuid} {row : Evidence}

theorem Tracks.eq_of_membershipOrder (tracks : Tracks env arrivals db) {other : Evidence}
    (mem : row ∈ db.evidence) (memOther : other ∈ db.evidence)
    (interface : row.fact.interfaceId = other.fact.interfaceId)
    (same : row.fact.membershipOrder = other.fact.membershipOrder) : row = other := by
  obtain ⟨order, key⟩ := Prod.mk.inj (toLex.injective same)
  obtain ⟨-, observation⟩ := Prod.mk.inj (toLex.injective order)
  refine eq_of_link tracks.links mem memOther ?_
  rw [Fact.link, Fact.link, observation, interface, key]

theorem Tracks.stands_iff (tracks : Tracks env arrivals db) (mem : row ∈ db.evidence) :
    row.staleAt = none ↔ env.Stands db.record row.fact :=
  ⟨tracks.stands row mem, fun stands => not_not.1 fun stale => tracks.fallen row mem stale stands⟩

variable (tracks : Tracks env arrivals db) (resource : env.interfaces.resourceOf interfaceId =
  some resourceId)

include tracks resource in
theorem Tracks.mem_candidates :
    row ∈ (latestSourceMembershipEvidence (db.evidence.rows.filter fun row =>
        row.fact.interfaceId = interfaceId ∧ row.staleAt = none)).filter (fun row =>
          db.afterBoundary resourceId row.fact.sourceId row.fact.order ∧ row.fact.vlanId ≠ none) ↔
      row ∈ db.evidence ∧ Candidate env db.record interfaceId row.fact := by
  have active : ∀ {row : Evidence}, row ∈ db.evidence.rows.filter (fun row =>
      row.fact.interfaceId = interfaceId ∧ row.staleAt = none) ↔
        row ∈ db.evidence ∧ row.fact.interfaceId = interfaceId ∧ env.Stands db.record row.fact := by
    intro row
    rw [mem_filter, decide_eq_true_eq]
    exact and_congr_right fun mem => and_congr_right fun _ => tracks.stands_iff mem
  rw [mem_filter, latestSourceMembershipEvidence, Evidence.mem_latestOfGroups, active,
    decide_eq_true_eq]
  · constructor
    · rintro ⟨⟨⟨mem, its, stands⟩, -⟩, -, resolved⟩
      exact ⟨mem, mem_map_of_mem mem, its, stands, resolved⟩
    rintro ⟨mem, -, its, stands, resolved⟩
    refine ⟨⟨⟨mem, its, stands⟩, fun other memOther same => ?_⟩, ?_, resolved⟩
    · obtain ⟨memOther, itsOther, -⟩ := active.1 memOther
      obtain ⟨source, key⟩ := Prod.mk.inj same
      have identity : other.fact.identity = row.fact.identity := by
        rw [Fact.identity, Fact.identity, source, key, its, itsOther]
      have notLater : ¬row.fact.order < other.fact.order := fun later =>
        stands.latest ⟨other.fact, mem_map_of_mem memOther, identity, later⟩
      exact Prod.Lex.toLex_mono ⟨not_lt.1 notLater, key.le⟩
    · exact (afterBoundary_iff (its.symm ▸ resource)).2 stands.within
  intro _ mem _ memOther _ same
  obtain ⟨mem, its, -⟩ := active.1 mem
  obtain ⟨memOther, itsOther, -⟩ := active.1 memOther
  exact tracks.eq_of_membershipOrder mem memOther (its.trans itsOther.symm) same

variable {rows : List Evidence}

theorem mem_selectEffectiveUntagged (distinct : ∀ row ∈ rows, ∀ other ∈ rows,
      row.fact.membershipOrder = other.fact.membershipOrder → row = other) :
    row ∈ selectEffectiveUntagged rows ↔ row ∈ rows ∧ (row.fact.taggingMode = .untagged →
      ∀ other ∈ rows, other.fact.taggingMode = .untagged →
        other.fact.membershipOrder ≤ row.fact.membershipOrder) := by
  have untagged : ∀ {row : Evidence}, row ∈ rows.filter (·.fact.taggingMode = .untagged) ↔
      row ∈ rows ∧ row.fact.taggingMode = .untagged := by simp
  have top : row ∈ (rows.filter (·.fact.taggingMode = .untagged)).argmax
      (·.fact.membershipOrder) ↔ (row ∈ rows ∧ row.fact.taggingMode = .untagged) ∧
        ∀ other ∈ rows, other.fact.taggingMode = .untagged →
          other.fact.membershipOrder ≤ row.fact.membershipOrder := by
    rw [Evidence.mem_argmax_iff_of_distinct, untagged]
    · refine and_congr_right fun _ => forall_congr' fun other => ?_
      rw [untagged, and_imp]
    exact fun row mem other memOther =>
      distinct row (untagged.1 mem).1 other (untagged.1 memOther).1
  have members : row ∈ selectEffectiveUntagged rows ↔
      row ∈ (rows.filter (·.fact.taggingMode = .untagged)).argmax (·.fact.membershipOrder) ∨
        row ∈ rows.filter (·.fact.taggingMode ≠ .untagged) := by
    unfold selectEffectiveUntagged
    dsimp only
    split
    · next none => simp [none]
    · next first is => rw [is, mem_some_iff, mem_cons, eq_comm]
  rw [members, top, mem_filter, decide_eq_true_eq]
  by_cases its : row.fact.taggingMode = .untagged <;> simp [its]

include tracks resource in
/-- **What is selected for an interface** are the rows of its current memberships. -/
theorem Tracks.mem_selectedMemberships :
    row ∈ db.selectedMemberships resourceId interfaceId ↔
      row ∈ db.evidence ∧ Current env db.record interfaceId row.fact := by
  have candidates : ∀ row, row ∈ _ ↔ _ := fun row => tracks.mem_candidates resource
  have distinct : ∀ {row other : Evidence}, (row ∈ db.evidence ∧
      Candidate env db.record interfaceId row.fact) → (other ∈ db.evidence ∧
        Candidate env db.record interfaceId other.fact) →
          row.fact.membershipOrder = other.fact.membershipOrder → row = other :=
    fun ⟨mem, candidate⟩ ⟨memOther, candidateOther⟩ same =>
      tracks.eq_of_membershipOrder mem memOther (candidate.its.trans candidateOther.its.symm) same
  have prevailing : ∀ row, row ∈ Evidence.latestOfGroups (·.fact.vlanId) (·.fact.membershipOrder)
      ((latestSourceMembershipEvidence (db.evidence.rows.filter fun row =>
        row.fact.interfaceId = interfaceId ∧ row.staleAt = none)).filter (fun row =>
          db.afterBoundary resourceId row.fact.sourceId row.fact.order ∧ row.fact.vlanId ≠ none)) ↔
      row ∈ db.evidence ∧ Prevails env db.record interfaceId row.fact := by
    intro row
    rw [Evidence.mem_latestOfGroups fun a memA b memB _ =>
      distinct ((candidates a).1 memA) ((candidates b).1 memB), candidates]
    constructor
    · rintro ⟨⟨mem, candidate⟩, latest⟩
      refine ⟨mem, candidate, fun other candidateOther same => ?_⟩
      obtain ⟨otherRow, memOther, rfl⟩ := mem_db_facts.1 candidateOther.mem
      exact latest otherRow ((candidates otherRow).2 ⟨memOther, candidateOther⟩) same
    rintro ⟨mem, candidate, latest⟩
    refine ⟨⟨mem, candidate⟩, fun other memOther => ?_⟩
    exact latest other.fact ((candidates other).1 memOther).2
  rw [Db.selectedMemberships, mem_selectEffectiveUntagged, prevailing]
  · constructor
    · rintro ⟨⟨mem, prevails⟩, untagged⟩
      refine ⟨mem, prevails, fun its other prevailsOther => ?_⟩
      obtain ⟨otherRow, memOther, rfl⟩ := mem_db_facts.1 prevailsOther.candidate.mem
      exact untagged its otherRow ((prevailing otherRow).2 ⟨memOther, prevailsOther⟩)
    rintro ⟨mem, prevails, untagged⟩
    refine ⟨⟨mem, prevails⟩, fun its other memOther => ?_⟩
    exact untagged its other.fact ((prevailing other).1 memOther).2
  intro row mem other memOther
  obtain ⟨mem, prevails⟩ := (prevailing row).1 mem
  obtain ⟨memOther, prevailsOther⟩ := (prevailing other).1 memOther
  exact distinct ⟨mem, prevails.candidate⟩ ⟨memOther, prevailsOther.candidate⟩

theorem mem_db_modeFacts :
    mode ∈ db.modeFacts ↔ ∃ row ∈ db.modeEvidence, row.fact = mode := mem_map

theorem Tracks.eq_of_modeOrder (tracks : Tracks env arrivals db) {row other : ModeEvidence}
    (mem : row ∈ db.modeEvidence) (memOther : other ∈ db.modeEvidence)
    (interface : row.fact.interfaceId = other.fact.interfaceId)
    (same : row.fact.order = other.fact.order) : row = other := by
  obtain ⟨-, observation⟩ := Prod.mk.inj (toLex.injective same)
  have links := tracks.modeLinks
  rw [Db.modeFacts, List.map_map] at links
  refine inj_on_of_nodup_map links mem memOther ?_
  exact Prod.ext observation interface

include tracks resource in
theorem Tracks.mem_modeCandidates {row : ModeEvidence} :
    row ∈ (Evidence.latestOfGroups (·.fact.sourceId) (·.fact.order)
        (db.modeEvidence.rows.filter (·.fact.interfaceId = interfaceId))).filter (fun row =>
          db.afterBoundary resourceId row.fact.sourceId row.fact.order ∧ row.fact.mode ≠ none) ↔
      row ∈ db.modeEvidence ∧ ModeCandidate env db.record interfaceId row.fact := by
  have own : ∀ {row : ModeEvidence},
      row ∈ db.modeEvidence.rows.filter (·.fact.interfaceId = interfaceId) ↔
        row ∈ db.modeEvidence ∧ row.fact.interfaceId = interfaceId := by
    intro row
    rw [mem_filter, decide_eq_true_eq]
    exact Iff.rfl
  rw [mem_filter, Evidence.mem_latestOfGroups, own, decide_eq_true_eq]
  · constructor
    · rintro ⟨⟨⟨mem, its⟩, latest⟩, after, present⟩
      refine ⟨mem, mem_map_of_mem mem, its, ⟨?_, ?_⟩, present⟩
      · rintro ⟨other, memOther, same, later⟩
        obtain ⟨otherRow, memRow, rfl⟩ := mem_db_modeFacts.1 memOther
        obtain ⟨source, interface⟩ := Prod.mk.inj same
        exact (latest otherRow (own.2 ⟨memRow, interface.trans its⟩) source).not_gt later
      · exact (afterBoundary_iff (its.symm ▸ resource)).1 after
    rintro ⟨mem, -, its, stands, present⟩
    refine ⟨⟨⟨mem, its⟩, fun other memOther source => not_lt.1 fun later => ?_⟩, ?_, present⟩
    · obtain ⟨memOther, itsOther⟩ := own.1 memOther
      refine stands.latest ⟨other.fact, mem_map_of_mem memOther, ?_, later⟩
      exact Prod.ext source (itsOther.trans its.symm)
    · exact (afterBoundary_iff (its.symm ▸ resource)).2 stands.within
  intro _ mem _ memOther _ same
  obtain ⟨mem, its⟩ := own.1 mem
  obtain ⟨memOther, itsOther⟩ := own.1 memOther
  exact tracks.eq_of_modeOrder mem memOther (its.trans itsOther.symm) same

include tracks resource in
/-- **The mode that is selected for an interface** is its latest. -/
theorem Tracks.mem_effectiveModeEvidence {row : ModeEvidence} :
    row ∈ db.effectiveModeEvidence resourceId interfaceId ↔
      row ∈ db.modeEvidence ∧ EffectiveMode env db.record interfaceId row.fact := by
  have candidates : ∀ row, row ∈ _ ↔ _ := fun row => tracks.mem_modeCandidates resource
  rw [Db.effectiveModeEvidence, Evidence.mem_argmax_iff_of_distinct, candidates]
  · constructor
    · rintro ⟨⟨mem, candidate⟩, latest⟩
      refine ⟨mem, candidate, fun other candidateOther => ?_⟩
      obtain ⟨otherRow, memOther, rfl⟩ := mem_db_modeFacts.1 candidateOther.mem
      exact latest otherRow ((candidates otherRow).2 ⟨memOther, candidateOther⟩)
    rintro ⟨mem, candidate, latest⟩
    refine ⟨⟨mem, candidate⟩, fun other memOther => ?_⟩
    exact latest other.fact ((candidates other).1 memOther).2
  intro row mem other memOther
  obtain ⟨mem, candidate⟩ := (candidates row).1 mem
  obtain ⟨memOther, candidateOther⟩ := (candidates other).1 memOther
  exact tracks.eq_of_modeOrder mem memOther (candidate.its.trans candidateOther.its.symm)

/-! ### What an interface shows -/

/-- What a row of `current_interface_vlan_memberships` says: the interface, the VLAN, whether it is
tagged, and the source. -/
def Membership.outline (membership : Membership) : Uuid × Uuid × TaggingMode × Uuid :=
  (membership.interfaceId, membership.vlanId, membership.taggingMode, membership.sourceId)

def Fact.outline (fact : Fact) : Option (Uuid × Uuid × TaggingMode × Uuid) :=
  fact.vlanId.map fun vlanId => (fact.interfaceId, vlanId, fact.taggingMode, fact.sourceId)

theorem outline_membership (row : Evidence) :
    row.membership.map Membership.outline = row.fact.outline := by
  rw [Evidence.membership, Option.map_map]
  rfl

def Db.membershipsOf (db : Db) (interfaceId : Uuid) : List Membership :=
  db.memberships.filter (·.interfaceId = interfaceId)

structure Shows (env : Env) (db : Db) (interfaceId : Uuid) : Prop where
  memberships : ∀ outline, outline ∈ (db.membershipsOf interfaceId).map Membership.outline ↔
    ∃ fact, Current env db.record interfaceId fact ∧ fact.outline = some outline
  mode : ∀ mode sourceId, (∃ row, db.modes.get? interfaceId = some row ∧ row.mode = mode ∧
    row.sourceId = sourceId) ↔ CurrentModeIs env db.record interfaceId mode sourceId

/-- An interface has one membership in a VLAN, at most one that is untagged, and none that is
tagged if its mode is access. -/
structure Coherent (db : Db) (interfaceId : Uuid) : Prop where
  vlans : ((db.membershipsOf interfaceId).map Membership.vlanId).Nodup
  untagged : ((db.membershipsOf interfaceId).filter (·.taggingMode = .untagged)).length ≤ 1
  access : ∀ row, db.modes.get? interfaceId = some row → row.mode = .access →
    ∀ membership ∈ db.membershipsOf interfaceId, membership.taggingMode = .untagged

/-- Two states of the tables show the same for an interface. -/
structure SameOn (interfaceId : Uuid) (db db' : Db) : Prop where
  memberships : db'.membershipsOf interfaceId = db.membershipsOf interfaceId
  mode : db'.modes.get? interfaceId = db.modes.get? interfaceId

theorem SameOn.trans {db'' : Db} (one : SameOn interfaceId db db')
    (two : SameOn interfaceId db' db'') : SameOn interfaceId db db'' :=
  ⟨two.memberships.trans one.memberships, two.mode.trans one.mode⟩

theorem Shows.of_same (shows : Shows env db interfaceId) (same : SameOn interfaceId db db')
    (record : Record.SameFor env interfaceId db.record db'.record) : Shows env db' interfaceId where
  memberships := by
    intro _
    rw [same.memberships, shows.memberships]
    exact exists_congr fun _ => and_congr_left fun _ =>
      ⟨fun current => current.of_same record, fun current => current.of_same record.symm⟩
  mode := by
    intro _ _
    rw [same.mode, shows.mode]
    exact ⟨fun is => is.of_same record, fun is => is.of_same record.symm⟩

theorem Coherent.of_same (coherent : Coherent db interfaceId) (same : SameOn interfaceId db db') :
    Coherent db' interfaceId := by
  obtain ⟨vlans, untagged, access⟩ := coherent
  rw [← same.memberships] at vlans untagged access
  rw [← same.mode] at access
  exact ⟨vlans, untagged, access⟩

/-! ### Rebuilding an interface -/

/-- What one turn of `rebuild_changed_vlan_interfaces/7` does. -/
def Db.rebuilt (db : Db) (resourceId interfaceId : Uuid) : Db :=
  (db.rebuildCurrentMemberships resourceId interfaceId).rebuildCurrentMode resourceId interfaceId

theorem rebuilt_modes {interfaceId : Uuid} {other : Uuid} :
    (db.rebuilt resourceId interfaceId).modes.get? other =
      if other = interfaceId then
        (db.rebuildCurrentMemberships resourceId interfaceId).currentMode resourceId interfaceId
      else db.modes.get? other := by
  have its : ∀ mode, (db.rebuildCurrentMemberships resourceId interfaceId).currentMode resourceId
      interfaceId = some mode → mode.interfaceId = interfaceId := by
    intro mode is
    obtain ⟨_, -, is⟩ := bind_eq_some_iff.1 is
    obtain ⟨_, -, is⟩ := bind_eq_some_iff.1 is
    split at is
    · rw [← some.inj is]
    · cases is
  unfold Db.rebuilt Db.rebuildCurrentMode
  cases is : (db.rebuildCurrentMemberships resourceId interfaceId).currentMode resourceId
      interfaceId with
  | some mode =>
    show (db.modes.place mode).get? other = _
    rw [KeyTable.get?_place, its mode is]
  | none =>
    show (db.modes.erase interfaceId).get? other = _
    rw [KeyTable.get?_erase]

theorem selectEffectiveUntagged_subset : selectEffectiveUntagged rows ⊆ rows := by
  intro _ mem
  unfold selectEffectiveUntagged at mem
  dsimp only at mem
  split at mem
  · exact (mem_filter.1 mem).1
  rename_i first is
  rcases mem_cons.1 mem with rfl | mem
  · exact (mem_filter.1 (argmax_mem is)).1
  · exact (mem_filter.1 mem).1

theorem own_of_mem_selected (mem : row ∈ db.selectedMemberships resourceId interfaceId) :
    row.fact.interfaceId = interfaceId := by
  have mem := Evidence.latestOfGroups_subset (selectEffectiveUntagged_subset mem)
  have mem := Evidence.latestOfGroups_subset (mem_filter.1 mem).1
  exact (of_decide_eq_true (mem_filter.1 mem).2).1

theorem own_of_mem_rebuilt {membership : Membership}
    (mem : membership ∈ (db.selectedMemberships resourceId interfaceId).filterMap
      Evidence.membership) : membership.interfaceId = interfaceId := by
  obtain ⟨_, memRow, is⟩ := mem_filterMap.1 mem
  obtain ⟨_, -, rfl⟩ := map_eq_some_iff.1 is
  exact own_of_mem_selected memRow

theorem membershipsOf_rebuilt {interfaceId : Uuid} :
    (db.rebuilt resourceId interfaceId).membershipsOf interfaceId =
      (db.selectedMemberships resourceId interfaceId).filterMap Evidence.membership := by
  show filter _ (filter _ _ ++ _) = _
  rw [filter_append, List.filter_filter, filter_eq_nil_iff.2 (by simp), nil_append]
  exact filter_eq_self.2 fun _ mem => decide_eq_true (own_of_mem_rebuilt mem)

theorem sameOn_rebuilt {other : Uuid} (ne : other ≠ interfaceId) :
    SameOn other db (db.rebuilt resourceId interfaceId) := by
  refine ⟨?_, by rw [rebuilt_modes, if_neg ne]⟩
  show filter _ (filter _ _ ++ _) = _
  rw [filter_append, List.filter_filter, (filter_eq_nil_iff (l := filterMap _ _)).2,
    append_nil]
  · refine filter_congr fun _ _ => ?_
    rw [Bool.and_eq_left_iff_imp]
    intro its
    rw [of_decide_eq_true its]
    exact decide_eq_true ne
  intro _ mem its
  exact ne ((of_decide_eq_true its).symm.trans (own_of_mem_rebuilt mem))

include tracks resource in
theorem Tracks.outlines_rebuilt (outline : Uuid × Uuid × TaggingMode × Uuid) :
    outline ∈ ((db.rebuilt resourceId interfaceId).membershipsOf interfaceId).map
        Membership.outline ↔
      ∃ fact, Current env db.record interfaceId fact ∧ fact.outline = some outline := by
  rw [membershipsOf_rebuilt, map_filterMap, mem_filterMap]
  constructor
  · rintro ⟨row, mem, is⟩
    exact ⟨row.fact, ((tracks.mem_selectedMemberships resource).1 mem).2,
      outline_membership row ▸ is⟩
  rintro ⟨_, current, is⟩
  obtain ⟨row, mem, rfl⟩ := mem_db_facts.1 current.prevails.candidate.mem
  exact ⟨row, (tracks.mem_selectedMemberships resource).2 ⟨mem, current⟩,
    (outline_membership row).trans is⟩

include tracks resource in
theorem Tracks.modeCompatible_iff {mode : Mode} :
    modeCompatible mode ((db.rebuilt resourceId interfaceId).membershipsOf interfaceId) = true ↔
      (mode = .access → ∀ membership, Current env db.record interfaceId membership →
        membership.taggingMode = .untagged) := by
  have outlines := tracks.outlines_rebuilt resource
  rw [modeCompatible, decide_eq_true_eq, ne_eq, ← imp_iff_not_or, List.all_eq_true]
  refine imp_congr_right fun _ => ⟨fun all fact current => ?_, fun all membership mem => ?_⟩
  · obtain ⟨vlanId, isVlan⟩ := ne_none_iff_exists'.1 current.prevails.candidate.resolved
    have is : fact.outline = some (fact.interfaceId, vlanId, fact.taggingMode, fact.sourceId) := by
      rw [Fact.outline, isVlan]
      rfl
    obtain ⟨membership, mem, same⟩ := mem_map.1 ((outlines _).2 ⟨fact, current, is⟩)
    have tagging : membership.taggingMode = fact.taggingMode := congrArg (·.2.2.1) same
    rw [← tagging]
    exact of_decide_eq_true (all membership mem)
  obtain ⟨fact, current, is⟩ := (outlines _).1 (mem_map_of_mem mem)
  obtain ⟨_, -, same⟩ := map_eq_some_iff.1 is
  have tagging : fact.taggingMode = membership.taggingMode := congrArg (·.2.2.1) same
  rw [← tagging]
  exact decide_eq_true (all fact current)

include tracks resource in
/-- **An interface that is rebuilt shows what the record says of it.** -/
theorem Tracks.shows_rebuilt : Shows env (db.rebuilt resourceId interfaceId) interfaceId := by
  refine ⟨tracks.outlines_rebuilt resource, fun mode _ => ?_⟩
  rw [rebuilt_modes, if_pos rfl]
  constructor
  · rintro ⟨_, is, rfl, rfl⟩
    obtain ⟨row, effective, is⟩ := bind_eq_some_iff.1 is
    obtain ⟨mode, isMode, is⟩ := bind_eq_some_iff.1 is
    obtain ⟨-, effective⟩ := (tracks.mem_effectiveModeEvidence resource).1 effective
    split at is
    · rename_i compatible
      obtain rfl := some.inj is
      exact ⟨row.fact, effective, isMode, rfl, (tracks.modeCompatible_iff resource).1 compatible⟩
    · cases is
  rintro ⟨_, effective, isMode, rfl, compatible⟩
  obtain ⟨row, mem, rfl⟩ := mem_db_modeFacts.1 effective.candidate.mem
  refine ⟨⟨interfaceId, row.id, mode, row.fact.sourceId⟩, ?_, rfl, rfl⟩
  refine bind_eq_some_iff.2 ⟨row, ?_, bind_eq_some_iff.2 ⟨mode, isMode, ?_⟩⟩
  · exact (tracks.mem_effectiveModeEvidence resource).2 ⟨mem, effective⟩
  · exact if_pos ((tracks.modeCompatible_iff resource).2 compatible)

theorem nodup_selectEffectiveUntagged {κ : Type*} {key : Evidence → κ}
    (distinct : (rows.map key).Nodup) : ((selectEffectiveUntagged rows).map key).Nodup := by
  have tagged : ((rows.filter (·.fact.taggingMode ≠ .untagged)).map key).Nodup :=
    (filter_sublist.map key).nodup distinct
  unfold selectEffectiveUntagged
  dsimp only
  split
  · exact tagged
  rename_i first is
  obtain ⟨memFirst, untagged⟩ := mem_filter.1 (argmax_mem is)
  refine nodup_cons.2 ⟨fun mem => ?_, tagged⟩
  obtain ⟨_, memOther, same⟩ := mem_map.1 mem
  obtain ⟨memOther, not⟩ := mem_filter.1 memOther
  obtain rfl := inj_on_of_nodup_map distinct memOther memFirst same
  exact of_decide_eq_true not (of_decide_eq_true untagged)

theorem length_untagged_selected :
    (((selectEffectiveUntagged rows).filterMap Evidence.membership).filter
      (·.taggingMode = .untagged)).length ≤ 1 := by
  have none : ((rows.filter (·.fact.taggingMode ≠ .untagged)).filterMap
      Evidence.membership).filter (·.taggingMode = .untagged) = [] := by
    refine filter_eq_nil_iff.2 fun _ mem untagged => ?_
    obtain ⟨_, memRow, is⟩ := mem_filterMap.1 mem
    obtain ⟨_, -, rfl⟩ := map_eq_some_iff.1 is
    exact of_decide_eq_true (mem_filter.1 memRow).2 (of_decide_eq_true untagged)
  unfold selectEffectiveUntagged
  dsimp only
  split
  · rw [none]
    exact Nat.zero_le _
  rw [filterMap_cons]
  split
  · rw [none]
    exact Nat.zero_le _
  rw [filter_cons, none]
  split <;> simp

/-- **An interface that is rebuilt is coherent**, whatever the tables hold. -/
theorem coherent_rebuilt (db : Db) (resourceId interfaceId : Uuid) :
    Coherent (db.rebuilt resourceId interfaceId) interfaceId := by
  refine ⟨?_, ?_, fun row is access => ?_⟩
  · rw [membershipsOf_rebuilt]
    have vlans : ((db.selectedMemberships resourceId interfaceId).map (·.fact.vlanId)).Nodup :=
      nodup_selectEffectiveUntagged Evidence.nodup_latestOfGroups
    have same : ((db.selectedMemberships resourceId interfaceId).filterMap
        Evidence.membership).map Membership.vlanId =
          ((db.selectedMemberships resourceId interfaceId).map (·.fact.vlanId)).filterMap id := by
      rw [map_filterMap, filterMap_map]
      refine filterMap_congr fun row _ => ?_
      rw [Evidence.membership, Option.map_map, Function.comp_apply, id_eq]
      cases row.fact.vlanId <;> rfl
    rw [same]
    exact vlans.filterMap fun _ _ _ its itsToo => its.trans itsToo.symm
  · rw [membershipsOf_rebuilt]
    exact length_untagged_selected
  rw [rebuilt_modes, if_pos rfl] at is
  obtain ⟨_, -, is⟩ := bind_eq_some_iff.1 is
  obtain ⟨_, -, is⟩ := bind_eq_some_iff.1 is
  split at is
  · rename_i compatible
    obtain rfl := some.inj is
    have compatible := of_decide_eq_true compatible
    have all := all_eq_true.1 (compatible.resolve_left (not_not.2 access))
    exact fun membership mem => of_decide_eq_true (all membership mem)
  · cases is

theorem Tracks.rebuilt (tracks : Tracks env arrivals db) (resourceId interfaceId : Uuid) :
    Tracks env arrivals (db.rebuilt resourceId interfaceId) :=
  { tracks with }

/-- **Rebuilding interfaces one after the other**: each shows what the record says of it in the
end, and the others show what they did. -/
theorem Tracks.rebuildAll (tracks : Tracks env arrivals db) {l : List Uuid}
    (on : ∀ interfaceId ∈ l, env.interfaces.resourceOf interfaceId = some resourceId) :
    let db' := l.foldl (fun db interfaceId => db.rebuilt resourceId interfaceId) db
    Tracks env arrivals db' ∧ db'.record = db.record ∧ ∀ interfaceId,
      (interfaceId ∈ l → Shows env db' interfaceId ∧ Coherent db' interfaceId) ∧
      (interfaceId ∉ l → SameOn interfaceId db db') := by
  induction l generalizing db with
  | nil =>
    exact ⟨tracks, rfl, fun interfaceId =>
      ⟨fun mem => absurd mem not_mem_nil, fun _ => ⟨rfl, rfl⟩⟩⟩
  | cons first l ih =>
    have onFirst := on first mem_cons_self
    obtain ⟨tracks', record, rest⟩ := ih (tracks.rebuilt resourceId first)
      fun interfaceId mem => on interfaceId (mem_cons_of_mem _ mem)
    refine ⟨tracks', record, fun interfaceId => ⟨fun mem => ?_, fun not => ?_⟩⟩
    · by_cases again : interfaceId ∈ l
      · exact (rest interfaceId).1 again
      obtain rfl := (mem_cons.1 mem).resolve_right again
      have same := (rest interfaceId).2 again
      refine ⟨(tracks.shows_rebuilt onFirst).of_same same ?_,
        (coherent_rebuilt db resourceId interfaceId).of_same same⟩
      rw [foldl_cons, record]
      exact Record.Same.rfl.sameFor
    rw [mem_cons, not_or] at not
    obtain ⟨ne, not⟩ := not
    have one : SameOn interfaceId db (db.rebuilt resourceId first) := sameOn_rebuilt ne
    have two := (rest interfaceId).2 not
    exact one.trans two

/-! ### Which interfaces a report touches -/

variable {observation : Observation} {source : Source} {arrival : Arrival} {complete : Bool}

theorem on_of_mem_changed (mem : interfaceId ∈ db.changed env observation resourceId complete) :
    env.interfaces.resourceOf interfaceId = some resourceId := by
  rcases mem_append.1 mem with mem | mem
  · rcases mem_append.1 mem with mem | mem
    · obtain ⟨reported, -, mem⟩ := mem_flatMap.1 mem
      split at mem
      · exact absurd mem not_mem_nil
      rename_i interface is
      obtain ⟨-, -, rfl⟩ := mem_map.1 mem
      exact resourceOf_reportedInterface is
    unfold Db.staleInterfaceIds at mem
    split at mem
    · obtain ⟨_, memRow, rfl⟩ := mem_map.1 mem
      exact (of_decide_eq_true (mem_filter.1 memRow).2).2.2.2
    · exact absurd mem not_mem_nil
  rcases mem_append.1 mem with mem | mem
  · obtain ⟨_, -, is⟩ := mem_filterMap.1 mem
    split at is
    · obtain ⟨interface, found, rfl⟩ := map_eq_some_iff.1 is
      exact resourceOf_reportedInterface found
    · cases is
  split at mem
  · obtain ⟨_, memInterface, rfl⟩ := mem_map.1 mem
    exact resourceOf_omitted memInterface
  · exact absurd mem not_mem_nil

theorem mem_changed_of_fact (mem : fact ∈ observation.interfaces.flatMap
    (env.factsOf observation resourceId)) :
    fact.interfaceId ∈ db.changed env observation resourceId complete := by
  refine mem_append_left _ (mem_append_left _ (mem_flatMap.2 ?_))
  obtain ⟨reported, memReported, mem⟩ := mem_flatMap.1 mem
  refine ⟨reported, memReported, ?_⟩
  unfold Env.factsOf at mem
  cases is : env.reportedInterface resourceId reported with
  | none =>
    rw [is] at mem
    exact absurd mem not_mem_nil
  | some =>
    rw [is] at mem
    obtain ⟨membership, memMembership, rfl⟩ := mem_map.1 mem
    exact mem_map.2 ⟨membership, memMembership, rfl⟩

theorem mem_modeInterfaceIds {reported : ReportedInterface} {interface : Interface}
    (mem : reported ∈ observation.interfaces) (present : reported.vlanMode.isSome = true)
    (is : env.reportedInterface resourceId reported = some interface) :
    interface.id ∈ env.modeInterfaceIds observation resourceId :=
  mem_filterMap.2 ⟨reported, mem, by rw [if_pos present, is, map_some]⟩

theorem mem_changed_of_mode (mem : mode ∈ env.reportedModes observation resourceId complete) :
    mode.interfaceId ∈ db.changed env observation resourceId complete := by
  refine mem_append_right _ (mem_append.2 ?_)
  rcases mem_append.1 mem with mem | mem
  · left
    obtain ⟨_, memReported, mem⟩ := mem_flatMap.1 mem
    unfold Env.modeFactOf at mem
    split at mem
    · exact absurd mem not_mem_nil
    rename_i interface is
    obtain ⟨value, present, rfl⟩ := map_eq_some_iff.1 (mem_toList.1 mem)
    exact mem_modeInterfaceIds memReported (isSome_iff_exists.2 ⟨value, present⟩) is
  right
  split at mem
  · rename_i isComplete
    rw [if_pos isComplete]
    obtain ⟨interface, memInterface, rfl⟩ := mem_map.1 mem
    exact mem_map_of_mem memInterface
  · exact absurd mem not_mem_nil

/-- A complete report touches every interface of its resource: it reports the mode of the
interface, or withdraws it. -/
theorem mem_changed_of_complete
    (on : env.interfaces.resourceOf interfaceId = some resourceId) :
    interfaceId ∈ db.changed env observation resourceId true := by
  refine mem_append_right _ (mem_append.2 ?_)
  obtain ⟨interface, found, resource⟩ := map_eq_some_iff.1 on
  have mem := KeyTable.mem_of_get? found
  have key := KeyTable.key_of_get? found
  by_cases named : interface.name ∈ (observation.interfaces.filter (·.vlanMode.isSome)).map
      fun reported => env.names.trim reported.name
  · left
    obtain ⟨reported, memReported, name⟩ := mem_map.1 named
    obtain ⟨memReported, present⟩ := mem_filter.1 memReported
    have is : env.reportedInterface resourceId reported = some interface := by
      rw [Env.reportedInterface, name]
      exact Interfaces.named_of_mem env.distinctNames mem resource
    rw [← key]
    exact mem_modeInterfaceIds memReported present is
  right
  rw [if_pos rfl, ← key]
  exact mem_map_of_mem (mem_filter.2 ⟨mem, decide_eq_true ⟨resource, named⟩⟩)

/-! ### Runs -/

/-- What has been heard is in the tables, and every interface shows it. -/
structure Settled (env : Env) (arrivals : List Arrival) (db : Db) : Prop where
  tracks : Tracks env arrivals db
  shows_ : ∀ interfaceId, Shows env db interfaceId
  coherent : ∀ interfaceId, Coherent db interfaceId

theorem settled_nothing : Settled env [] {} := by
  refine ⟨tracks_nothing, fun interfaceId => ⟨fun _ => ?_, fun _ _ => ?_⟩,
    fun _ => ⟨nodup_nil, Nat.zero_le 1, nofun⟩⟩
  · refine ⟨fun mem => absurd mem not_mem_nil, ?_⟩
    rintro ⟨fact, current, -⟩
    exact absurd current.prevails.candidate.mem not_mem_nil
  constructor
  · rintro ⟨_, is, -⟩
    cases is
  rintro ⟨_, effective, -⟩
  exact absurd effective.candidate.mem not_mem_nil

theorem Tracks.sameFor_of_not_changed (tracks : Tracks env arrivals db)
    (found : env.find arrival = some (observation, source)) {new : List Fact}
    (accepted : env.recorded arrival = some new)
    (same : db'.record.Same (env.heard (arrivals ++ [arrival])))
    (untouched : interfaceId ∉ db'.changed env observation arrival.resourceId
      (completeInterfaceVlanSnapshot source observation)) :
    Record.SameFor env interfaceId db.record db'.record := by
  obtain ⟨facts, modes, events⟩ := mem_heard_concat env arrivals arrival
  refine ⟨fun fact its => ?_, fun mode its => ?_, fun _ its => ?_⟩
  · rw [same.facts, tracks.same.facts, facts, accepted, getD_some]
    refine ⟨.inl, fun either => either.resolve_right fun mem => untouched ?_⟩
    rw [recorded_eq found] at accepted
    split at accepted
    · obtain ⟨-, comes, -⟩ := Evidence.mem_of_recordAll accepted
      rw [← its]
      exact mem_changed_of_fact ((comes fact mem).resolve_left not_mem_nil)
    · cases accepted
  · rw [same.modeFacts, tracks.same.modeFacts, modes]
    refine ⟨.inl, fun either => either.resolve_right fun mem => untouched ?_⟩
    cases recorded : env.recordedModes arrival with
    | none =>
      rw [recorded] at mem
      exact absurd mem not_mem_nil
    | some =>
      rw [recorded] at mem
      rw [recordedModes_eq found accepted] at recorded
      obtain ⟨-, comes, -⟩ := Evidence.mem_of_recordAll recorded
      rw [← its]
      exact mem_changed_of_mode ((comes mode mem).resolve_left not_mem_nil)
  rw [same.events, tracks.same.events, events]
  refine ⟨.inl, fun either => either.resolve_right fun drawn => untouched ?_⟩
  have resource := (about_of_boundary drawn).2.1
  rw [boundary_eq found accepted] at drawn
  split at drawn
  · rename_i complete
    rw [complete]
    exact mem_changed_of_complete (resource ▸ its)
  · cases drawn

theorem kept_refreshed {l : List Fact} {modes : List ModeFact}
    (collected : Collected l modes (db.announced source observation resourceId) db')
    (interfaceId : Uuid) :
    SameOn interfaceId db (db'.refreshed env observation resourceId complete) := by
  have announced : (db.announced source observation resourceId).memberships = db.memberships ∧
      (db.announced source observation resourceId).modes = db.modes := by
    unfold Db.announced
    split <;> exact ⟨rfl, rfl⟩
  have refreshed : (db'.refreshed env observation resourceId complete).memberships
      = db'.memberships ∧ (db'.refreshed env observation resourceId complete).modes
      = db'.modes := by
    unfold Db.refreshed Db.refreshVlanEvidenceStaleness Db.staleOmittedIfComplete
    split <;> exact ⟨rfl, rfl⟩
  refine ⟨?_, ?_⟩
  · rw [Db.membershipsOf, refreshed.1, collected.memberships, announced.1]
    rfl
  · rw [refreshed.2, collected.currentModes, announced.2]

/-- **One turn.**  What has been heard is one arrival more, and every interface shows it. -/
theorem Settled.turn (settled : Settled env arrivals db) {ids : Ids} {op : Op} :
    Settled env (arrivals ++ [op.arrival]) (step env ids db op) := by
  obtain ⟨tracks, shows_, coherent⟩ := settled
  cases accepted : env.recorded op.arrival with
  | none =>
    have refused : db.reconcileInterfaceVlans env ids op.observationId op.resourceId
        op.currentSnapshot = none :=
      tracks.reconcile_of_refused accepted
    rw [step, refused]
    refine ⟨{ tracks with same := ?_ }, shows_, coherent⟩
    rw [heard_concat_of_refused accepted]
    exact tracks.same
  | some =>
    obtain ⟨⟨observation, source⟩, found, -⟩ := bind_eq_some_iff.1 accepted
    obtain ⟨next, isNext, same⟩ := tracks.collect found ids op.currentSnapshot accepted
    have collected := collected_collected isNext
    obtain ⟨refreshed, record⟩ := tracks.refresh found collected same accepted
    have is : step env ids db op = (next.refreshed env observation op.resourceId
        (completeInterfaceVlanSnapshot source observation)).rebuildChangedVlanInterfaces
          op.resourceId (next.changed env observation op.resourceId
            (completeInterfaceVlanSnapshot source observation)) := by
      show (db.reconcileInterfaceVlans env ids op.arrival.observationId op.arrival.resourceId
        op.currentSnapshot).getD db = _
      rw [reconcile_eq, found, bind_some, isNext]
      rfl
    rw [is]
    obtain ⟨rebuilt, sameRecord, each⟩ := refreshed.rebuildAll fun interfaceId mem =>
      on_of_mem_changed (mem_dedup.1 mem)
    suffices both : ∀ interfaceId, Shows env _ interfaceId ∧ Coherent _ interfaceId from
      ⟨rebuilt, fun interfaceId => (both interfaceId).1, fun interfaceId => (both interfaceId).2⟩
    intro interfaceId
    by_cases touched : interfaceId ∈ (next.changed env observation op.resourceId
        (completeInterfaceVlanSnapshot source observation)).dedup
    · exact (each interfaceId).1 touched
    -- What it showed before is still right.
    have kept := (kept_refreshed collected interfaceId).trans ((each interfaceId).2 touched)
    refine ⟨(shows_ interfaceId).of_same kept ?_, (coherent interfaceId).of_same kept⟩
    have untouched := tracks.sameFor_of_not_changed found accepted same
      fun mem => touched (mem_dedup.2 mem)
    rwa [← record, ← sameRecord] at untouched

/-- **A run.**  Whatever the order of its turns, every interface shows what arrived. -/
theorem run_settled (env : Env) (ids : Ids) (ops : List Op) :
    Settled env (ops.map Op.arrival) (run env ids ops) := by
  induction ops using reverseRecOn with
  | nil => exact settled_nothing
  | append_singleton _ _ ih =>
    rw [run, Run.run_concat, map_append]
    exact ih.turn

theorem heard_same {one two : List Arrival} (same : ∀ arrival, arrival ∈ one ↔ arrival ∈ two) :
    (env.heard one).Same (env.heard two) := by
  refine ⟨fun _ => ?_, fun _ => ?_, fun _ => ?_⟩
  · simp only [mem_heard_facts, same]
  · simp only [mem_heard_modeFacts, same]
  simp only [Env.heard, mem_filterMap, same]

/-- What a row of `current_interface_vlan_modes` says: the mode and the source. -/
def CurrentMode.outline (row : CurrentMode) : Mode × Uuid := (row.mode, row.sourceId)

theorem outline_mode_iff {mode : Mode} :
    (db.modes.get? interfaceId).map CurrentMode.outline = some (mode, sourceId) ↔
      ∃ row, db.modes.get? interfaceId = some row ∧ row.mode = mode ∧ row.sourceId = sourceId := by
  rw [map_eq_some_iff]
  refine exists_congr fun _ => and_congr_right fun _ => ?_
  rw [CurrentMode.outline, Prod.mk.injEq]

theorem Coherent.nodup_outlines (coherent : Coherent db interfaceId) :
    ((db.membershipsOf interfaceId).map Membership.outline).Nodup := by
  refine List.Nodup.of_map (f := fun outline => outline.2.1) ?_
  rw [List.map_map]
  exact coherent.vlans

/-- **VLANs settle.**  Two runs in which the same observations arrive, each in any order and any
number of times, leave every interface with the same current memberships and the same current
mode.  An interface has at most one membership that is untagged, and none that is tagged if its
mode is access. -/
theorem vlans_settle (env : Env) (ids ids' : Ids) {ops ops' : List Op}
    (same : ∀ arrival, arrival ∈ ops.map Op.arrival ↔ arrival ∈ ops'.map Op.arrival)
    (interfaceId : Uuid) :
    (((run env ids ops).membershipsOf interfaceId).map Membership.outline).Perm
      (((run env ids' ops').membershipsOf interfaceId).map Membership.outline) ∧
    ((run env ids ops).modes.get? interfaceId).map CurrentMode.outline =
      ((run env ids' ops').modes.get? interfaceId).map CurrentMode.outline ∧
    (((run env ids ops).membershipsOf interfaceId).filter
      (·.taggingMode = .untagged)).length ≤ 1 ∧
    ∀ row, (run env ids ops).modes.get? interfaceId = some row → row.mode = .access →
      ∀ membership ∈ (run env ids ops).membershipsOf interfaceId,
        membership.taggingMode ≠ .tagged := by
  have one := run_settled env ids ops
  have two := run_settled env ids' ops'
  have record : Record.SameFor env interfaceId (run env ids ops).record
      (run env ids' ops').record :=
    (one.tracks.same.trans ((heard_same same).trans two.tracks.same.symm)).sameFor
  refine ⟨?_, ?_, (one.coherent interfaceId).untagged,
    fun row is access membership mem tagged => ?_⟩
  · refine (perm_ext_iff_of_nodup (one.coherent interfaceId).nodup_outlines
      (two.coherent interfaceId).nodup_outlines).2 fun _ => ?_
    rw [(one.shows_ interfaceId).memberships, (two.shows_ interfaceId).memberships]
    exact exists_congr fun _ => and_congr_left fun _ =>
      ⟨fun current => current.of_same record, fun current => current.of_same record.symm⟩
  · ext ⟨mode, sourceId⟩
    rw [outline_mode_iff, outline_mode_iff, (one.shows_ interfaceId).mode,
      (two.shows_ interfaceId).mode]
    exact ⟨fun is => is.of_same record, fun is => is.of_same record.symm⟩
  rw [(one.coherent interfaceId).access row is access membership mem] at tagged
  cases tagged

/-- A port that one source reports as a trunk and then, completely, as an access port; another
source reports a tagged VLAN in between, and later that it is untagged. -/
def portEnv : Env where
  names := Inventory.plainNames
  interfaces := ⟨[⟨1, 10, "port1", none, .up⟩], by decide⟩
  distinctNames := by decide
  resources := [10]
  sources := ⟨[⟨5, some "complete"⟩, ⟨6, none⟩], by decide⟩
  observations :=
    ⟨[⟨100, 5, 0, [⟨"port1", some (some .trunk), [⟨none, none, 7, .tagged⟩]⟩], true⟩,
      ⟨101, 6, 1000, [⟨"port1", none, [⟨some "a", none, 8, .tagged⟩]⟩], false⟩,
      ⟨102, 5, 2000, [⟨"port1", some (some .access), [⟨none, none, 7, .untagged⟩]⟩], true⟩,
      ⟨103, 6, 3000, [⟨"port1", none, [⟨some "a", none, 7, .untagged⟩]⟩], false⟩], by decide⟩
  mappings := [⟨5, "default", none⟩, ⟨6, "default", none⟩]
  vlans := [⟨70, none, 7⟩, ⟨80, none, 8⟩]

def inOrder : List Op := [⟨100, 10, true⟩, ⟨101, 10, true⟩, ⟨102, 10, true⟩, ⟨103, 10, true⟩]

def backwards : List Op :=
  [⟨103, 10, true⟩, ⟨102, 10, true⟩, ⟨101, 10, false⟩, ⟨103, 10, true⟩, ⟨100, 10, false⟩]

/-- The port ends as an access port with one untagged VLAN either way. -/
theorem port_settles :
    (((run portEnv Ids.counted inOrder).membershipsOf 1).map Membership.outline).Perm
      (((run portEnv Ids.counted backwards).membershipsOf 1).map Membership.outline) ∧
    ((run portEnv Ids.counted inOrder).membershipsOf 1).map Membership.outline
      = [(1, 70, .untagged, 6)] ∧
    ((run portEnv Ids.counted inOrder).modes.get? 1).map CurrentMode.outline
      = some (.access, 5) := by
  have same : ∀ arrival, arrival ∈ inOrder.map Op.arrival ↔ arrival ∈ backwards.map Op.arrival := by
    have one : inOrder.map Op.arrival ⊆ backwards.map Op.arrival := by decide
    have two : backwards.map Op.arrival ⊆ inOrder.map Op.arrival := by decide
    exact fun _ => ⟨fun mem => one mem, fun mem => two mem⟩
  exact ⟨(vlans_settle portEnv Ids.counted Ids.counted same 1).1, by decide +kernel,
    by decide +kernel⟩

/-- After the first three reports the effective mode is access and a tagged membership is
current; such a mode gets no row of `current_interface_vlan_modes`. -/
theorem access_beside_tagged :
    ¬ (((run portEnv Ids.counted (inOrder.take 3)).effectiveModeEvidence 10 1).bind (·.fact.mode)
        = some .access →
      ∀ membership ∈ (run portEnv Ids.counted (inOrder.take 3)).membershipsOf 1,
        membership.taggingMode ≠ .tagged) := by
  decide +kernel

end Renga.Topology.Vlans
