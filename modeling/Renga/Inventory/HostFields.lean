import Renga.Inventory.Fields
import Renga.Lib.KeyTable

/-!
# The host row of a resource

`Projections.reconcile_host/6` folds the observations of a resource into its host row.  The
row should be a function of the set of observations.  It is not, because a source may be of
kind `manual` as well: such a report ranks above all others, but its owner reads like an
override that is gone, and the next report of any source takes the field over.
`hostSlot_eq_greatest_iff` says when exactly a field is what it should be.
-/

namespace Renga.Inventory

open List

inductive IdentifierValues where
  | one (value : String)
  | many (values : List String)
  deriving DecidableEq

/-- An observation of the resource: who reports, the host fields among `"attributes"` and two of
the identifiers.  An attribute may be absent or null. -/
structure HostObservation where
  reporter : Reporter
  attributes : HostField → Option (Option String) := fun _ => none
  hostname : Option IdentifierValues := none
  fqdn : Option IdentifierValues := none

structure Names where
  trim : String → String
  downcase : String → String
  trim_trim : ∀ value, trim (trim value) = trim value

def singleIdentifier : Option IdentifierValues → Option String
  | some (.one value) => some value
  | some (.many [value]) => some value
  | _ => none

variable (names : Names) (field : HostField) (observation : HostObservation)

def HostObservation.identifier : HostField → Option String
  | .hostname => singleIdentifier observation.hostname
  | .fqdn => singleIdentifier observation.fqdn
  | _ => none

/-- `normalize_name/2`, for the two fields it is called with. -/
def Names.normalize : HostField → String → String
  | .hostname, value => names.downcase (names.trim value)
  | .fqdn, value => names.downcase (names.trim value)
  | _, value => value

/-- `host_attrs/1`.  An attribute that is null keeps the identifier out, and is then dropped. -/
def hostAttrs (field : HostField) : Option String :=
  ((observation.attributes field).getD (observation.identifier field)).map (names.normalize field)

def Names.cast (value : Option String) : Option String :=
  value.filter fun value => names.trim value ≠ ""

def reconcileHost (overrides : HostField → Option (Override String))
    (host : Option (HostField → Slot String)) (observation : HostObservation) :
    HostField → Slot String :=
  let attrs := fun field => (hostAttrs names observation field).map some
  match host with
  | some host =>
    reconcileFields (fun _ => names.cast) Path.host observation.reporter overrides attrs host
  | none => initialFields (fun _ => names.cast) observation.reporter overrides attrs fun _ => none

/-- The host row after the observations, in the order of their arrival. -/
def projectHost (overrides : HostField → Option (Override String)) (arrivals : List HostObservation)
    : Option (HostField → Slot String) :=
  arrivals.foldl (fun host observation => some (reconcileHost names overrides host observation))
    none

/-- A field of the host row; without a row there is nothing in it. -/
def hostSlot (host : Option (HostField → Slot String)) (field : HostField) : Slot String :=
  match host with
  | some host => host field
  | none => {}

/-! ### What is said about a field -/

def hostSaid : Option (Said String) :=
  (hostAttrs names observation field).map fun value => ⟨observation.reporter, some value⟩

def hostReports (observations : List HostObservation) : List (Said String) :=
  observations.filterMap (hostSaid names field)

variable {names : Names} {observations : List HostObservation} {said : Said String}

theorem mem_hostReports {field : HostField} : said ∈ hostReports names field observations ↔
      ∃ observation ∈ observations, hostSaid names field observation = some said :=
  mem_filterMap

theorem hostReports_concat {field : HostField} {observation : HostObservation} :
    hostReports names field (observations ++ [observation])
      = hostReports names field observations ++ (hostSaid names field observation).toList := by
  cases spoke : hostSaid names field observation <;> simp [spoke, hostReports]

theorem reporter_of_hostSaid {field : HostField} {observation : HostObservation}
    (spoke : hostSaid names field observation = some said) :
    said.reporter = observation.reporter := by
  obtain ⟨_, _, rfl⟩ := Option.map_eq_some_iff.1 spoke
  rfl

variable {arrivals : List HostObservation}

theorem consistent_hostReports (names : Names)
    {observations : KeyTable Uuid HostObservation (·.reporter.observationId)} (field : HostField)
    (drawn : ∀ observation ∈ arrivals, observation ∈ observations) :
    Consistent (hostReports names field arrivals) := by
  intro _ mem _ mem' same
  obtain ⟨o, arrived, spoke⟩ := mem_hostReports.1 mem
  obtain ⟨o', arrived', spoke'⟩ := mem_hostReports.1 mem'
  rw [reporter_of_hostSaid spoke, reporter_of_hostSaid spoke'] at same
  rw [KeyTable.eq_of_key_eq (drawn o arrived) (drawn o' arrived') same, spoke'] at spoke
  exact (Option.some.inj spoke).symm

theorem reconcileHost_slotOf {host : Option (HostField → Slot String)} {field : HostField}
    {holder : Option (Said String)} (held : hostSlot host field = slotOf names.cast none holder)
    (observation : HostObservation) :
    reconcileHost names (fun _ => none) host observation field
      = slotOf names.cast none (match hostSaid names field observation with
        | none => holder
        | some said =>
          Contest.challenge (Said.precedence (.host field)) Said.Manual holder said) := by
  unfold hostSaid
  cases host with
  | none =>
    -- The row is new, so nobody holds the field yet.
    have nobody : holder = none := by
      cases holder with
      | none => rfl
      | some => cases congrArg Slot.owner held
    subst nobody
    simp only [reconcileHost, initialFields]
    cases hostAttrs names observation field <;> rfl
  | some host =>
    have held : host field = slotOf names.cast none holder := held
    simp only [reconcileHost, reconcileFields]
    cases hostAttrs names observation field with
    | none => exact held
    | some value =>
      show reconcileField names.cast (.host field) observation.reporter none (host field)
        (some value) = _
      rw [held]
      exact reconcileField_slotOf ⟨observation.reporter, some value⟩

theorem hostSlot_projectHost {field : HostField} :
    hostSlot (projectHost names (fun _ => none) arrivals) field
      = slotOf names.cast none (settle (.host field) (hostReports names field arrivals)) := by
  induction arrivals using reverseRecOn with
  | nil => rfl
  | append_singleton arrivals observation ih =>
    rw [projectHost, foldl_append]
    show reconcileHost names (fun _ => none) (projectHost names (fun _ => none) arrivals)
      observation field = _
    rw [reconcileHost_slotOf ih observation, hostReports_concat]
    cases hostSaid names field observation with
    | none => rw [Option.toList_none, append_nil]
    | some => exact congrArg _ Contest.outcome_concat.symm

/-! ### The greatest report -/

/-- What the row should hold: a function of the set of observations. -/
def greatestHostReport (names : Names) (field : HostField) (observations : List HostObservation) :
    Option (Said String) :=
  greatest (.host field) (hostReports names field observations)

theorem greatestHostReport_congr
    (observations : KeyTable Uuid HostObservation (·.reporter.observationId)) (field : HostField)
    (drawn : ∀ observation, observation ∈ arrivals ↔ observation ∈ observations) :
    greatestHostReport names field arrivals = greatestHostReport names field observations.rows := by
  refine Contest.argmax_congr
    (consistent_hostReports names field fun o => (drawn o).1).apart fun _ => ?_
  rw [mem_hostReports, mem_hostReports]
  exact exists_congr fun o => and_congr_left' (drawn o)

/-- **When a field of the host row is that of the greatest report.**  Whatever the order and the
repetitions in which the observations arrived, a field holds value and owner of the greatest
report about it exactly if that report is not by a source of kind `manual`, or if no other report
about the field arrived behind it. -/
theorem hostSlot_eq_greatest_iff (names : Names)
    (observations : KeyTable Uuid HostObservation (·.reporter.observationId))
    (arrivals : List HostObservation)
    (drawn : ∀ observation, observation ∈ arrivals ↔ observation ∈ observations)
    (field : HostField) :
    hostSlot (projectHost names (fun _ => none) arrivals) field
        = slotOf names.cast none (greatestHostReport names field observations.rows) ↔
      ∀ said, greatestHostReport names field observations.rows = some said →
        ¬ said.Manual ∨ (hostReports names field arrivals).getLast? = some said := by
  rw [hostSlot_projectHost, ← greatestHostReport_congr observations field drawn]
  have consistent := consistent_hostReports names field fun o => (drawn o).1
  cases is : greatestHostReport names field arrivals with
  | none =>
    have silent : hostReports names field arrivals = [] := argmax_eq_none.1 is
    rw [silent]
    exact iff_of_true rfl nofun
  | some said =>
    rw [slotOf_settle_iff consistent is]
    exact ⟨fun holds _ same => Option.some.inj same ▸ holds, fun all => all said rfl⟩

/-! ### A source of kind `manual` -/

def plainNames : Names := ⟨id, id, fun _ => rfl⟩

def byHand : HostObservation where
  reporter := ⟨1, .manual, 0, 1⟩
  attributes := fun field => if field = .vendor then some (some "acme") else none

def byAgent : HostObservation where
  reporter := ⟨2, .hostAgent, 1, 2⟩
  attributes := fun field => if field = .vendor then some (some "other") else none

def handAndAgent : KeyTable Uuid HostObservation (·.reporter.observationId) :=
  ⟨[byHand, byAgent], by decide⟩

/-- The report by hand ranks higher, and is gone when the agent's arrives behind it. -/
theorem agent_overtakes_hand :
    hostSlot (projectHost plainNames (fun _ => none) [byHand, byAgent]) .vendor
        ≠ slotOf plainNames.cast none (greatestHostReport plainNames .vendor handAndAgent.rows) ∧
      hostSlot (projectHost plainNames (fun _ => none) [byHand, byAgent]) .vendor
        ≠ hostSlot (projectHost plainNames (fun _ => none) [byAgent, byHand]) .vendor := by
  decide +kernel

/-- In the other order it stays. -/
theorem hand_keeps_from_agent :
    hostSlot (projectHost plainNames (fun _ => none) [byAgent, byHand]) .vendor
      = slotOf plainNames.cast none (greatestHostReport plainNames .vendor handAndAgent.rows) := by
  refine (hostSlot_eq_greatest_iff plainNames handAndAgent [byAgent, byHand] ?_ .vendor).2 ?_
  · intro observation
    show observation ∈ [byAgent, byHand] ↔ observation ∈ [byHand, byAgent]
    simp [or_comm]
  intro _ same
  cases same
  exact Or.inr rfl

end Renga.Inventory
