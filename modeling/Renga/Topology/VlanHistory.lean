import Renga.Topology.Vlans

/-!
# What arrivals say of VLANs

What has been heard of VLANs is a record: facts of memberships, facts of modes, and
boundaries.  An arrival adds what it says the first time it comes in; it is refused as a
whole or not at all.  So the record of a run is a function of which observations arrived
(`Env.heard`).
-/

namespace Renga.Topology.Vlans

open List KeyTable Option Vlans.Db

/-! ### What an arrival says -/

def Op.arrival (op : Op) : Arrival := ⟨op.observationId, op.resourceId⟩

variable (env : Env) (db : Db) (observation : Observation) (resourceId : Uuid)
  (reported : ReportedInterface)

def Env.find (arrival : Arrival) : Option (Observation × Source) := do
  let observation ← env.observations.get? arrival.observationId
  let source ← env.sources.get? observation.sourceId
  let _ ← env.resources.find? (· = arrival.resourceId)
  return (observation, source)

def Env.factsOf : List Fact :=
  match env.reportedInterface resourceId reported with
  | none => []
  | some interface => reported.vlans.map (env.fact observation interface)

def Env.modeFactOf (complete : Bool) (reported : ReportedInterface) : List ModeFact :=
  match env.reportedInterface resourceId reported with
  | none => []
  | some interface =>
    (reported.vlanMode.map fun mode => modeFact observation interface mode complete).toList

def Env.modeAllowed : Bool :=
  (env.reportedInterface resourceId reported).isNone ||
    reported.vlanMode.all (validReportedMode reported)

def Env.recorded (arrival : Arrival) : Option (List Fact) := do
  let (observation, _) ← env.find arrival
  if observation.interfaces.all (env.modeAllowed arrival.resourceId) then
    Evidence.recordAll Fact.link Fact.valid []
      (observation.interfaces.flatMap (env.factsOf observation arrival.resourceId))
  else none

/-- The modes an arrival has, with those a complete report withdraws. -/
def Env.reportedModes (complete : Bool) : List ModeFact :=
  observation.interfaces.flatMap (env.modeFactOf observation resourceId complete) ++
    if complete then
      (env.omittedModeInterfaces observation resourceId).map fun interface =>
        modeFact observation interface none true
    else []

def Env.recordedModes (arrival : Arrival) : Option (List ModeFact) := do
  let _ ← env.recorded arrival
  let (observation, source) ← env.find arrival
  Evidence.recordAll ModeFact.link (fun _ => true) []
    (env.reportedModes observation arrival.resourceId
      (completeInterfaceVlanSnapshot source observation))

def Env.boundary (arrival : Arrival) : Option SnapshotEvent := do
  let _ ← env.recorded arrival
  let (observation, source) ← env.find arrival
  if completeInterfaceVlanSnapshot source observation then
    some ⟨arrival.resourceId, source.id, observation.id, .interfaceVlans, observation.observedAt⟩
  else none

structure Record where
  facts : List Fact
  modeFacts : List ModeFact
  events : List SnapshotEvent

def Env.heard (arrivals : List Arrival) : Record where
  facts := arrivals.flatMap fun arrival => (env.recorded arrival).getD []
  modeFacts := arrivals.flatMap fun arrival => (env.recordedModes arrival).getD []
  events := arrivals.filterMap env.boundary

def Db.facts : List Fact := db.evidence.rows.map Evidence.fact

def Db.modeFacts : List ModeFact := db.modeEvidence.rows.map ModeEvidence.fact

def Db.record : Record := ⟨db.facts, db.modeFacts, db.events⟩

structure Record.Same (one two : Record) : Prop where
  facts : ∀ fact, fact ∈ one.facts ↔ fact ∈ two.facts
  modeFacts : ∀ fact, fact ∈ one.modeFacts ↔ fact ∈ two.modeFacts
  events : ∀ event, event ∈ one.events ↔ event ∈ two.events

variable {env : Env} {ids : Ids} {db db' : Db} {arrival : Arrival}
  {fact : Fact} {observation : Observation} {source : Source} {resourceId : Uuid}

theorem find_eq_some (is : env.find arrival = some (observation, source)) :
    env.observations.get? arrival.observationId = some observation ∧
      observation.id = arrival.observationId ∧ source.id = observation.sourceId := by
  obtain ⟨_, isObservation, is⟩ := bind_eq_some_iff.1 is
  obtain ⟨_, isSource, is⟩ := bind_eq_some_iff.1 is
  obtain ⟨-, -, is⟩ := bind_eq_some_iff.1 is
  obtain ⟨rfl, rfl⟩ := Prod.mk.inj (some.inj is)
  exact ⟨isObservation, key_of_get? isObservation, key_of_get? isSource⟩

variable {interface : Interface}

theorem resourceOf_reportedInterface {reported : ReportedInterface}
    (is : env.reportedInterface resourceId reported = some interface) :
    env.interfaces.resourceOf interface.id = some resourceId := Interfaces.resourceOf_named is

/-- What a fact has from the observation it came with, and from the interface it is about. -/
structure Fact.Of (env : Env) (observation : Observation) (resourceId : Uuid) (fact : Fact) :
    Prop where
  its : fact.observationId = observation.id
  source : fact.sourceId = observation.sourceId
  time : fact.observedAt = observation.observedAt
  resource : env.interfaces.resourceOf fact.interfaceId = some resourceId

/-- What a mode has from the observation it came with, and from the interface it is about. -/
structure ModeFact.Of (env : Env) (observation : Observation) (resourceId : Uuid)
    (fact : ModeFact) : Prop where
  its : fact.observationId = observation.id
  source : fact.sourceId = observation.sourceId
  time : fact.observedAt = observation.observedAt
  resource : env.interfaces.resourceOf fact.interfaceId = some resourceId

theorem of_mem_factsOf {reported : ReportedInterface}
    (mem : fact ∈ env.factsOf observation resourceId reported) :
    fact.Of env observation resourceId := by
  unfold Env.factsOf at mem
  split at mem
  · exact absurd mem not_mem_nil
  rename_i interface is
  obtain ⟨_, -, rfl⟩ := mem_map.1 mem
  exact ⟨rfl, rfl, rfl, resourceOf_reportedInterface is⟩

theorem resourceOf_omitted (mem : interface ∈ env.omittedModeInterfaces observation resourceId) :
    env.interfaces.resourceOf interface.id = some resourceId := by
  obtain ⟨mem, its⟩ := List.mem_filter.1 mem
  rw [Interfaces.resourceOf, get?_of_mem mem, map_some, (of_decide_eq_true its).1]

variable {mode : ModeFact}

theorem of_mem_reportedModes {complete : Bool}
    (mem : mode ∈ env.reportedModes observation resourceId complete) :
    mode.Of env observation resourceId := by
  rcases mem_append.1 mem with mem | mem
  · obtain ⟨_, -, mem⟩ := mem_flatMap.1 mem
    unfold Env.modeFactOf at mem
    split at mem
    · exact absurd mem not_mem_nil
    rename_i interface is
    obtain ⟨_, -, rfl⟩ := map_eq_some_iff.1 (mem_toList.1 mem)
    exact ⟨rfl, rfl, rfl, resourceOf_reportedInterface is⟩
  split at mem
  · obtain ⟨_, memInterface, rfl⟩ := mem_map.1 mem
    exact ⟨rfl, rfl, rfl, resourceOf_omitted memInterface⟩
  · exact absurd mem not_mem_nil

/-! ### What a turn collects -/

@[simp] theorem fact_supersedeLink (later : Fact) (row : Evidence) :
    (row.supersedeLink later).fact = row.fact := by
  unfold Evidence.supersedeLink
  split <;> rfl

@[simp] theorem fact_staleOmitted (row : Evidence) :
    (env.staleOmitted observation resourceId row).fact = row.fact := by
  unfold Env.staleOmitted
  split <;> rfl

@[simp] theorem fact_refreshedEvidence (row : Evidence) :
    (db.refreshedEvidence env resourceId row).fact = row.fact := by
  unfold refreshedEvidence
  split
  · dsimp only
    split <;> rfl
  · rfl

theorem id_supersedeLink (row : Evidence) : (row.supersedeLink fact).id = row.id := by
  unfold Evidence.supersedeLink
  split <;> rfl

/-- The rows once a fact has superseded those of its link. -/
def Db.superseding (db : Db) (currentSnapshot : Bool) (fact : Fact) :
    KeyTable Uuid Evidence Evidence.id :=
  if currentSnapshot then
    db.evidence.map (Evidence.supersedeLink fact) id_supersedeLink
  else db.evidence

theorem facts_superseding (currentSnapshot : Bool) (fact : Fact) :
    (db.superseding currentSnapshot fact).rows.map Evidence.fact = db.facts := by
  unfold superseding
  split
  · exact Evidence.map_view_map (fact_supersedeLink fact)
  · rfl

variable {currentSnapshot : Bool}

theorem put_eq :
    db.putInterfaceVlanEvidence ids currentSnapshot fact =
      if (db.superseding currentSnapshot fact).rows.any (·.fact.link = fact.link) then
        some { db with evidence := db.superseding currentSnapshot fact }
      else if fact.valid then
        some { db with
          evidence := (db.superseding currentSnapshot fact).add
            ⟨ids.next ((db.superseding currentSnapshot fact).rows.map Evidence.id), fact, none⟩
            (ids.get?_next _) }
      else none := rfl

theorem facts_put (ids : Ids) (currentSnapshot : Bool) :
    (db.putInterfaceVlanEvidence ids currentSnapshot fact).map Db.facts
      = Evidence.record Fact.link Fact.valid db.facts fact := by
  rw [put_eq, Evidence.record, ← facts_superseding currentSnapshot fact, List.any_map]
  refine (apply_ite (Option.map facts) ..).trans (ite_congr rfl (fun _ => rfl) fun _ => ?_)
  refine (apply_ite (Option.map facts) ..).trans (ite_congr rfl (fun _ => ?_) fun _ => rfl)
  exact congrArg some map_append

variable {l : List Fact}

theorem facts_putAll :
    (l.foldlM (Db.putInterfaceVlanEvidence ids currentSnapshot) db).map Db.facts
      = Evidence.recordAll Fact.link Fact.valid db.facts l :=
  Evidence.map_foldlM fun _ _ => facts_put ids currentSnapshot

theorem modeFacts_putMode (ids : Ids) :
    Evidence.record ModeFact.link (fun _ => true) db.modeFacts mode
      = some (db.putInterfaceVlanModeEvidence ids mode).modeFacts := by
  unfold putInterfaceVlanModeEvidence Evidence.record
  rw [modeFacts, List.any_map]
  refine Eq.trans ?_ (apply_ite (fun db : Db => some db.modeFacts) ..).symm
  refine ite_congr rfl (fun _ => rfl) fun _ => ?_
  refine congrArg some (Eq.symm ?_)
  exact map_append

/-- What is collected from facts and modes: they are recorded, and rows become stale that a fact
is later than. -/
structure Collected (l : List Fact) (modes : List ModeFact) (db db' : Db) : Prop where
  facts : Evidence.recordAll Fact.link Fact.valid db.facts l = some db'.facts
  modeFacts : Evidence.recordAll ModeFact.link (fun _ => true) db.modeFacts modes
    = some db'.modeFacts
  events : db'.events = db.events
  memberships : db'.memberships = db.memberships
  currentModes : db'.modes = db.modes
  active : ∀ row ∈ db'.evidence, row.staleAt = none →
    (∃ old ∈ db.evidence, old.fact = row.fact ∧ old.staleAt = none) ∨ row.fact ∈ l
  stale : ∀ row ∈ db'.evidence, row.staleAt ≠ none →
    (∃ old ∈ db.evidence, old.fact = row.fact ∧ old.staleAt ≠ none) ∨
      ∃ later ∈ l, later.identity = row.fact.identity ∧ row.fact.observedAt < later.observedAt

theorem Collected.nothing : Collected [] [] db db where
  facts := rfl
  modeFacts := rfl
  events := rfl
  memberships := rfl
  currentModes := rfl
  active := fun row mem active => .inl ⟨row, mem, rfl, active⟩
  stale := fun row mem stale => .inl ⟨row, mem, rfl, stale⟩

theorem Collected.trans {l' : List Fact} {modes modes' : List ModeFact} {next : Db}
    (one : Collected l modes db next) (two : Collected l' modes' next db') :
    Collected (l ++ l') (modes ++ modes') db db' where
  facts := by
    rw [Evidence.recordAll_append, one.facts]
    exact two.facts
  modeFacts := by
    rw [Evidence.recordAll_append, one.modeFacts]
    exact two.modeFacts
  events := two.events.trans one.events
  memberships := two.memberships.trans one.memberships
  currentModes := two.currentModes.trans one.currentModes
  active := by
    intro row mem active
    rcases two.active row mem active with ⟨old, memOld, same, wasActive⟩ | new
    · rw [← same]
      exact (one.active old memOld wasActive).imp_right (mem_append_left _)
    · exact .inr (mem_append_right _ new)
  stale := by
    intro row mem stale
    rcases two.stale row mem stale with ⟨old, memOld, same, wasStale⟩ | ⟨later, memLater, after⟩
    · rw [← same]
      refine (one.stale old memOld wasStale).imp_right ?_
      rintro ⟨later, memLater, after⟩
      exact ⟨later, mem_append_left _ memLater, after⟩
    · exact .inr ⟨later, mem_append_right _ memLater, after⟩

theorem mem_superseding {row : Evidence} (mem : row ∈ db.superseding currentSnapshot fact) :
    ∃ old ∈ db.evidence,
      old.fact = row.fact ∧ (old.staleAt = row.staleAt ∨ (row.staleAt ≠ none ∧
        fact.identity = row.fact.identity ∧ row.fact.observedAt < fact.observedAt)) := by
  unfold superseding at mem
  split at mem
  · obtain ⟨old, memOld, rfl⟩ := mem_map.1 mem
    refine ⟨old, memOld, (fact_supersedeLink fact old).symm, ?_⟩
    unfold Evidence.supersedeLink
    split
    · next earlier => exact .inr ⟨some_ne_none _, earlier.1.symm, earlier.2.2⟩
    · exact .inl rfl
  · exact ⟨row, mem, rfl, .inl rfl⟩

theorem collected_put (is : db.putInterfaceVlanEvidence ids currentSnapshot fact = some db') :
    Collected [fact] [] db db' := by
  have facts : Evidence.recordAll Fact.link Fact.valid db.facts [fact]
      = some db'.facts := by
    rw [Evidence.recordAll_cons, ← facts_put ids currentSnapshot, is]
    rfl
  -- The rows are those that may have been superseded, and one that is new.
  have kept : db'.modeEvidence = db.modeEvidence ∧ db'.events = db.events ∧
      db'.memberships = db.memberships ∧ db'.modes = db.modes ∧
      ∀ row ∈ db'.evidence, row ∈ db.superseding currentSnapshot fact ∨
        (row.fact = fact ∧ row.staleAt = none) := by
    rw [put_eq] at is
    split at is
    · obtain rfl := some.inj is
      exact ⟨rfl, rfl, rfl, rfl, fun row mem => .inl mem⟩
    split at is
    · obtain rfl := some.inj is
      refine ⟨rfl, rfl, rfl, rfl, fun row mem => ?_⟩
      have fresh := ids.get?_next (db.superseding currentSnapshot fact)
      refine ((mem_add fresh).1 mem).imp_right ?_
      rintro rfl
      exact ⟨rfl, rfl⟩
    · cases is
  obtain ⟨modes, events, memberships, currentModes, rows⟩ := kept
  refine ⟨facts, ?_, events, memberships, currentModes, fun row mem active => ?_,
    fun row mem stale => ?_⟩
  · rw [Evidence.recordAll_nil, modeFacts, modeFacts, modes]
  · rcases rows row mem with mem | ⟨new, -⟩
    · obtain ⟨old, memOld, same, unchanged | ⟨stale, -⟩⟩ := mem_superseding mem
      · exact .inl ⟨old, memOld, same, unchanged.trans active⟩
      · exact absurd active stale
    · exact .inr (mem_singleton.2 new)
  rcases rows row mem with mem | ⟨-, active⟩
  · obtain ⟨old, memOld, same, unchanged | ⟨-, after⟩⟩ := mem_superseding mem
    · exact .inl ⟨old, memOld, same, unchanged ▸ stale⟩
    · exact .inr ⟨fact, mem_singleton_self _, after⟩
  · exact absurd active stale

theorem collected_putMode (ids : Ids) :
    Collected [] [mode] db (db.putInterfaceVlanModeEvidence ids mode) := by
  have modes : Evidence.recordAll ModeFact.link (fun _ => true) db.modeFacts [mode]
      = some (db.putInterfaceVlanModeEvidence ids mode).modeFacts := by
    rw [Evidence.recordAll_cons, modeFacts_putMode ids]
    rfl
  have kept : ∃ modeEvidence, db.putInterfaceVlanModeEvidence ids mode
      = { db with modeEvidence } := by
    unfold putInterfaceVlanModeEvidence
    split
    · exact ⟨db.modeEvidence, rfl⟩
    · exact ⟨_, rfl⟩
  obtain ⟨_, is⟩ := kept
  rw [is] at modes ⊢
  exact ⟨rfl, modes, rfl, rfl, rfl, Collected.nothing.active, Collected.nothing.stale⟩

theorem collected_putAll
    (is : l.foldlM (Db.putInterfaceVlanEvidence ids currentSnapshot) db = some db') :
    Collected l [] db db' := by
  induction l generalizing db with
  | nil =>
    obtain rfl := some.inj is
    exact Collected.nothing
  | cons _ _ ih =>
    obtain ⟨_, one, is⟩ := bind_eq_some_iff.1 is
    exact (collected_put one).trans (ih is)

variable {currentSnapshot complete : Bool} {reported : ReportedInterface}

theorem facts_collect : (db.collectInterfaceVlanEvidence env ids observation
      resourceId currentSnapshot complete reported).map Db.facts =
    if env.modeAllowed resourceId reported then
      Evidence.recordAll Fact.link Fact.valid db.facts
        (env.factsOf observation resourceId reported)
    else none := by
  unfold collectInterfaceVlanEvidence Env.modeAllowed Env.factsOf
  cases env.reportedInterface resourceId reported with
  | none => rfl
  | some interface =>
    unfold putReportedVlanMode
    cases mode : reported.vlanMode with
    | none => exact facts_putAll
    | some value =>
      by_cases valid : validReportedMode reported value = true
      · have kept : (db.putInterfaceVlanModeEvidence ids
            (modeFact observation interface value complete)).facts = db.facts :=
          (some.inj (collected_putMode ids).facts).symm
        simp only [valid, isNone_some, Bool.false_or, all_some, if_true]
        rw [← kept]
        exact facts_putAll
      · simp [valid]

theorem collected_collect (is : db.collectInterfaceVlanEvidence env ids observation
      resourceId currentSnapshot complete reported = some db') :
    Collected (env.factsOf observation resourceId reported)
      (env.modeFactOf observation resourceId complete reported) db db' := by
  unfold collectInterfaceVlanEvidence at is
  unfold Env.factsOf Env.modeFactOf
  cases found : env.reportedInterface resourceId reported with
  | none =>
    rw [found] at is
    obtain rfl := some.inj is
    exact Collected.nothing
  | some =>
    rw [found] at is
    obtain ⟨_, mode, is⟩ := bind_eq_some_iff.1 is
    have rest := collected_putAll is
    unfold putReportedVlanMode at mode
    split at mode
    · rename_i absent
      obtain rfl := some.inj mode
      rw [absent]
      exact rest
    rename_i value present
    split at mode
    · obtain rfl := some.inj mode
      rw [present]
      exact (collected_putMode ids).trans rest
    · cases mode

theorem facts_collectAll (ids : Ids) {l : List ReportedInterface} :
    (l.foldlM (Db.collectInterfaceVlanEvidence env ids observation resourceId currentSnapshot
      complete) db).map Db.facts =
    if l.all (env.modeAllowed resourceId) then
      Evidence.recordAll Fact.link Fact.valid db.facts
        (l.flatMap (env.factsOf observation resourceId))
    else none := by
  induction l generalizing db with
  | nil => rfl
  | cons reported _ ih =>
    have first : (db.collectInterfaceVlanEvidence env ids observation resourceId
      currentSnapshot complete reported).map facts = _ := facts_collect
    rw [foldlM_cons, flatMap_cons, Evidence.recordAll_append, all_cons]
    by_cases allowed : env.modeAllowed resourceId reported = true
    · rw [if_pos allowed] at first
      rw [allowed, Bool.true_and, ← first, bind_map]
      cases db.collectInterfaceVlanEvidence env ids observation resourceId currentSnapshot
        complete reported with
      | none => split <;> rfl
      | some => exact ih
    rw [if_neg allowed, map_eq_none_iff] at first
    rw [first]
    simp [allowed]

theorem collected_collectAll {l : List ReportedInterface}
    (is : l.foldlM (Db.collectInterfaceVlanEvidence env ids observation resourceId
      currentSnapshot complete) db = some db') :
    Collected (l.flatMap (env.factsOf observation resourceId))
      (l.flatMap (env.modeFactOf observation resourceId complete)) db db' := by
  induction l generalizing db with
  | nil =>
    obtain rfl := some.inj is
    exact Collected.nothing
  | cons _ _ ih =>
    obtain ⟨_, one, is⟩ := bind_eq_some_iff.1 is
    exact (collected_collect one).trans (ih is)

theorem collected_withdrawals (observation : Observation) (ids : Ids) (l : List Interface) :
    Collected [] (l.map fun interface => modeFact observation interface none true) db
      (l.foldl (fun db interface =>
        db.putInterfaceVlanModeEvidence ids (modeFact observation interface none true)) db) := by
  induction l generalizing db with
  | nil => exact Collected.nothing
  | cons _ _ ih => exact (collected_putMode ids).trans ih

/-- The tables once an observation that is complete has drawn its boundary. -/
def Db.announced (db : Db) (source : Source) (observation : Observation) (resourceId : Uuid) : Db :=
  if completeInterfaceVlanSnapshot source observation then
    { db with
      events := putSnapshotEvent db.events
        ⟨resourceId, source.id, observation.id, .interfaceVlans, observation.observedAt⟩ }
  else db

def Db.changed (db : Db) (env : Env) (observation : Observation) (resourceId : Uuid)
    (complete : Bool) : List Uuid :=
  env.evidenceInterfaceIds observation resourceId ++
    db.staleInterfaceIds env observation resourceId complete ++
    (env.modeInterfaceIds observation resourceId ++
      if complete then (env.omittedModeInterfaces observation resourceId).map Interface.id else [])

def Db.refreshed (db : Db) (env : Env) (observation : Observation) (resourceId : Uuid)
    (complete : Bool) : Db :=
  (db.staleOmittedIfComplete env observation resourceId complete).refreshVlanEvidenceStaleness env
    resourceId

def Db.collected (db : Db) (env : Env) (ids : Ids) (source : Source) (observation : Observation)
    (resourceId : Uuid) (currentSnapshot : Bool) : Option Db :=
  (observation.interfaces.foldlM
    (Db.collectInterfaceVlanEvidence env ids observation resourceId currentSnapshot
      (completeInterfaceVlanSnapshot source observation))
    (db.announced source observation resourceId)).map fun next =>
      next.addOmittedModeWithdrawals env ids observation resourceId
        (completeInterfaceVlanSnapshot source observation)

theorem reconcile_eq :
    db.reconcileInterfaceVlans env ids arrival.observationId arrival.resourceId currentSnapshot =
      (env.find arrival).bind fun found =>
        (db.collected env ids found.2 found.1 arrival.resourceId currentSnapshot).map fun next =>
          (next.refreshed env found.1 arrival.resourceId
            (completeInterfaceVlanSnapshot found.2 found.1)).rebuildChangedVlanInterfaces
              arrival.resourceId (next.changed env found.1 arrival.resourceId
                (completeInterfaceVlanSnapshot found.2 found.1)) := by
  simp only [reconcileInterfaceVlans, collected, Env.find, bind_eq_bind, bind_assoc,
    map_eq_bind, Option.pure_def, bind_some, Function.comp_def]
  rfl

theorem facts_collected {resourceId : Uuid} :
    (db.collected env ids source observation resourceId currentSnapshot).map Db.facts =
      if observation.interfaces.all (env.modeAllowed resourceId) then
        Evidence.recordAll Fact.link Fact.valid db.facts
          (observation.interfaces.flatMap (env.factsOf observation resourceId))
      else none := by
  have kept : ∀ next : Db, (next.addOmittedModeWithdrawals env ids observation resourceId
      (completeInterfaceVlanSnapshot source observation)).facts = next.facts := by
    intro _
    unfold addOmittedModeWithdrawals
    split
    · exact (some.inj (collected_withdrawals observation ids _).facts).symm
    · rfl
  have announced : (db.announced source observation resourceId).facts = db.facts := by
    unfold announced
    split <;> rfl
  rw [collected, Option.map_map, ← announced, ← facts_collectAll ids]
  exact congrArg (Option.map · _) (funext kept)

theorem collected_collected
    (is : db.collected env ids source observation resourceId currentSnapshot = some db') :
    Collected (observation.interfaces.flatMap (env.factsOf observation resourceId))
      (env.reportedModes observation resourceId
        (completeInterfaceVlanSnapshot source observation))
      (db.announced source observation resourceId) db' := by
  obtain ⟨_, fold, rfl⟩ := map_eq_some_iff.1 is
  have first := collected_collectAll fold
  unfold addOmittedModeWithdrawals Env.reportedModes
  split
  · have both := first.trans (collected_withdrawals observation ids
      (env.omittedModeInterfaces observation resourceId))
    rwa [append_nil] at both
  · rwa [append_nil]

end Renga.Topology.Vlans
