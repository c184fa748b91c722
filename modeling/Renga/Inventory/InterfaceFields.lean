import Renga.Inventory.Fields
import Renga.Lib.KeyTable

/-!
# The interfaces of a resource

`Projections.reconcile/5` as far as the interface rows go: every reported interface
(`reconcile_interface/7`), then those the observation leaves out although its source had
reported them before (`reconcile_network_omissions/6`).  An observation that is not the
latest about its resource neither creates rows nor leaves any out (`allow_new_rows?`).
-/

namespace Renga.Inventory

open List KeyTable Option

inductive InterfaceKind where
  | ethernet
  | loopback
  | bond
  | bridge
  | vlan
  | virtual
  | unknown
  deriving DecidableEq

inductive InterfaceStatus where
  | up
  | down
  | dormant
  | notPresent
  | unknown
  deriving DecidableEq

inductive InterfaceValue where
  | name (name : String)
  | macAddress (address : String)
  | kind (kind : InterfaceKind)
  | status (status : InterfaceStatus)
  | number (n : ℕ)
  deriving DecidableEq

/-- What an observation reports of an interface.  A field may be absent; an address and a number
may be null. -/
structure InterfaceReport where
  name : String
  macAddress : Option (Option String) := none
  kind : Option InterfaceKind := none
  status : Option InterfaceStatus := none
  mtu : Option (Option ℕ) := none
  speedMbps : Option (Option ℕ) := none
  deriving DecidableEq

/-- An observation of the resource.  `interfaces` is absent if the payload has no such key. -/
structure NetworkObservation where
  reporter : Reporter
  interfaces : Option (KeyTable String InterfaceReport InterfaceReport.name) := none

def NetworkObservation.report? (observation : NetworkObservation) (name : String) :
    Option InterfaceReport :=
  observation.interfaces.bind (·.get? name)

structure Interface where
  name : String
  slots : InterfaceField → Slot InterfaceValue

structure InterfaceEvidence where
  sourceId : Uuid
  observationId : Uuid
  interface : String
  deriving DecidableEq

/-- The interfaces of the resource and the evidence for them. -/
structure Network where
  interfaces : KeyTable String Interface Interface.name := empty
  evidence : List InterfaceEvidence := []

variable (network : Network) (reporter : Reporter) (name : String)

/-! ### One interface -/

def InterfaceReport.reportedAttrs (report : InterfaceReport) :
    InterfaceField → Option (Option InterfaceValue)
  | .name => some (some (.name report.name))
  | .macAddress => report.macAddress.map (·.map .macAddress)
  | .kind => report.kind.map fun kind => some (.kind kind)
  | .status => report.status.map fun status => some (.status status)
  | .mtu => report.mtu.map (·.map .number)
  | .speedMbps => report.speedMbps.map (·.map .number)

def createDefaults : InterfaceField → Option (Option InterfaceValue)
  | .kind => some (some (.kind .ethernet))
  | .status => some (some (.status .unknown))
  | _ => none

def InterfaceReport.createAttrs (report : InterfaceReport) (field : InterfaceField) :
    Option (Option InterfaceValue) :=
  (report.reportedAttrs field).or (createDefaults field)

def initialDefaults : InterfaceField → Option InterfaceValue
  | .name => some (.name name)
  | .kind => some (.kind .ethernet)
  | .status => some (.status .unknown)
  | _ => none

def Network.putInterfaceEvidence : Network :=
  if network.evidence.any fun evidence =>
      evidence.observationId = reporter.observationId ∧ evidence.interface = name then network
  else
    { network with
      evidence := ⟨reporter.sourceId, reporter.observationId, name⟩ :: network.evidence }

def Network.writeInterface (interface : Interface) : Network :=
  { network with interfaces := network.interfaces.place interface }

abbrev InterfaceOverrides := String → InterfaceField → Option (Override InterfaceValue)

variable (overrides : InterfaceOverrides) (observation : NetworkObservation) (network : Network)
  (reporter : Reporter) (name : String)

/-- An interface of the report; an unknown one gets a row only where new rows are allowed. -/
def reconcileInterface (allowNewRows : Bool) (network : Network) (report : InterfaceReport) :
    Network :=
  match network.interfaces.get? report.name with
  | some interface =>
    let slots := reconcileFields (fun _ => id) (.interface report.name) reporter
      (overrides report.name) report.reportedAttrs interface.slots
    (network.writeInterface ⟨report.name, slots⟩).putInterfaceEvidence reporter report.name
  | none =>
    if allowNewRows then
      let slots := initialFields (fun _ => id) reporter (overrides report.name)
        report.createAttrs (initialDefaults report.name)
      (network.writeInterface ⟨report.name, slots⟩).putInterfaceEvidence reporter report.name
    else network

/-! ### Omissions -/

def Network.sourceReported (sourceId : Uuid) (name : String) : Bool :=
  network.evidence.any fun evidence => evidence.sourceId = sourceId ∧ evidence.interface = name

def notPresentAttrs : InterfaceField → Option (Option InterfaceValue)
  | .status => some (some (.status .notPresent))
  | _ => none

def markInterfaceNotPresent (interface : Interface) : Interface where
  name := interface.name
  slots := reconcileFields (fun _ => id) (.interface interface.name) reporter
    (overrides interface.name) notPresentAttrs interface.slots

/-- What the source reported before and leaves out now is not present. -/
def reconcileNetworkOmissions : Network where
  interfaces := network.interfaces.map
    (fun interface =>
      if network.sourceReported observation.reporter.sourceId interface.name ∧
          (observation.report? interface.name).isNone then
        markInterfaceNotPresent overrides observation.reporter interface
      else interface)
    (fun interface => by split <;> rfl)
  evidence := network.evidence

/-! ### Arrivals -/

structure Arrival where
  observation : NetworkObservation
  allowNewRows : Bool

def reconcileNetwork (arrival : Arrival) : Network :=
  match arrival.observation.interfaces with
  | none => network
  | some reports =>
    let reconciled := reports.rows.foldl
      (reconcileInterface overrides arrival.observation.reporter arrival.allowNewRows) network
    if arrival.allowNewRows then
      reconcileNetworkOmissions overrides arrival.observation reconciled
    else reconciled

/-- `Reconciler.current_observation?/3`: nothing later was reconciled before. -/
def currentObservation (earlier : List NetworkObservation) (observation : NetworkObservation) :
    Bool :=
  earlier.all fun other =>
    toLex (other.reporter.observedAt, other.reporter.observationId)
      ≤ toLex (observation.reporter.observedAt, observation.reporter.observationId)

/-- Observations by themselves, in the order they are reconciled. -/
def inOrder (observations : List NetworkObservation) : List Arrival :=
  (observations.foldl (fun (earlier, arrivals) observation =>
    (observation :: earlier, arrivals ++ [⟨observation, currentObservation earlier observation⟩]))
    (([] : List NetworkObservation), ([] : List Arrival))).2

/-! ### One name

No interface looks at another: what happens to the row under one name is a function of that row
and of the sources that have reported it. -/

def Network.row : Option (InterfaceField → Slot InterfaceValue) :=
  (network.interfaces.get? name).map Interface.slots

def afterReport (allowNewRows : Bool) (report : InterfaceReport) :
    Option (InterfaceField → Slot InterfaceValue) → Option (InterfaceField → Slot InterfaceValue)
  | some slots => some (reconcileFields (fun _ => id) (.interface report.name) reporter
      (fun _ => none) report.reportedAttrs slots)
  | none =>
    if allowNewRows then
      some (initialFields (fun _ => id) reporter (fun _ => none) report.createAttrs
        (initialDefaults report.name))
    else none

/-- The row under a name and the sources that have reported it. -/
structure Track where
  row : Option (InterfaceField → Slot InterfaceValue) := none
  sources : List Uuid := []

def Track.reported (track : Track) (reporter : Reporter)
    (row : Option (InterfaceField → Slot InterfaceValue)) : Track where
  row := row
  sources := if row.isSome then reporter.sourceId :: track.sources else track.sources

/-- Not being named by the arrival is an omission: its source is one of those that have reported. -/
def Arrival.omits (arrival : Arrival) (sources : List Uuid) : Bool :=
  arrival.allowNewRows && arrival.observation.interfaces.isSome &&
    sources.contains arrival.observation.reporter.sourceId

def Track.next (track : Track) (arrival : Arrival) : Track :=
  let reporter := arrival.observation.reporter
  match arrival.observation.report? name with
  | some report =>
    let row := afterReport reporter arrival.allowNewRows report track.row
    track.reported reporter row
  | none =>
    if arrival.omits track.sources then
      { track with
        row := track.row.map (reconcileFields (fun _ => id) (.interface name) reporter
          (fun _ => none) notPresentAttrs) }
    else track

/-- The network shows this under the name.  Evidence names the source its observation is of. -/
structure Network.Shows (sourceOf : Uuid → Uuid) (name : String) (network : Network)
    (track : Track) : Prop where
  row : network.row name = track.row
  sources : ∀ source, network.sourceReported source name = true ↔ source ∈ track.sources
  traced : ∀ evidence ∈ network.evidence, evidence.sourceId = sourceOf evidence.observationId

variable {sourceOf : Uuid → Uuid} {name : String} {network : Network} {track : Track}

@[simp] theorem Network.row_putInterfaceEvidence {network : Network} {reporter : Reporter}
    {name name' : String} : (network.putInterfaceEvidence reporter name').row name
      = network.row name := by
  unfold Network.putInterfaceEvidence
  split <;> rfl

variable {source : Uuid}

theorem Network.sourceReported_iff : network.sourceReported source name = true ↔
    ∃ evidence ∈ network.evidence, evidence.sourceId = source ∧ evidence.interface = name := by
  simp [Network.sourceReported]

variable {other : String}

theorem Network.sourceReported_putInterfaceEvidence_of_ne (ne : name ≠ other)
    {reporter : Reporter} :
    (network.putInterfaceEvidence reporter other).sourceReported source name
      = network.sourceReported source name := by
  unfold Network.putInterfaceEvidence
  split
  · rfl
  simp [Network.sourceReported, Ne.symm ne]

variable {reporter : Reporter} (its : reporter.sourceId = sourceOf reporter.observationId)
include its

theorem Network.sourceReported_putInterfaceEvidence
    (traced : ∀ evidence ∈ network.evidence, evidence.sourceId = sourceOf evidence.observationId) :
    (network.putInterfaceEvidence reporter name).sourceReported source name = true ↔
      source = reporter.sourceId ∨ network.sourceReported source name = true := by
  unfold Network.putInterfaceEvidence
  split
  · rename_i there
    obtain ⟨evidence, mem, same⟩ := any_eq_true.1 there
    obtain ⟨same, named⟩ := of_decide_eq_true same
    refine ⟨.inr, ?_⟩
    rintro (rfl | reported)
    · exact Network.sourceReported_iff.2
        ⟨evidence, mem, by rw [traced evidence mem, same, ← its], named⟩
    · exact reported
  simp only [Network.sourceReported_iff, exists_mem_cons_iff, and_true]
  exact or_congr_left eq_comm

theorem Network.traced_putInterfaceEvidence
    (traced : ∀ evidence ∈ network.evidence, evidence.sourceId = sourceOf evidence.observationId) :
    ∀ evidence ∈ (network.putInterfaceEvidence reporter other).evidence,
      evidence.sourceId = sourceOf evidence.observationId := by
  unfold Network.putInterfaceEvidence
  split
  · exact traced
  intro evidence mem
  rcases mem_cons.1 mem with rfl | mem
  · exact its
  · exact traced evidence mem

variable (shows : network.Shows sourceOf name track)
  {slots : InterfaceField → Slot InterfaceValue}

include shows in
theorem Network.Shows.write :
    ((network.writeInterface ⟨name, slots⟩).putInterfaceEvidence reporter name).Shows sourceOf name
      { row := some slots, sources := reporter.sourceId :: track.sources } where
  row := by
    rw [Network.row_putInterfaceEvidence, Network.row, Network.writeInterface,
      get?_place, if_pos rfl]
    rfl
  sources source := by
    refine Iff.trans (Network.sourceReported_putInterfaceEvidence its ?_) ?_
    · exact shows.traced
    rw [mem_cons]
    exact or_congr_right (shows.sources source)
  traced := Network.traced_putInterfaceEvidence its shows.traced

include shows in
theorem Network.Shows.write_other (ne : name ≠ other) :
    ((network.writeInterface ⟨other, slots⟩).putInterfaceEvidence reporter other).Shows sourceOf
      name track where
  row := by
    rw [Network.row_putInterfaceEvidence, Network.row, Network.writeInterface,
      get?_place, if_neg ne]
    exact shows.row
  sources source := by
    rw [Network.sourceReported_putInterfaceEvidence_of_ne ne]
    exact shows.sources source
  traced := Network.traced_putInterfaceEvidence its shows.traced

variable {report : InterfaceReport} {allowNewRows : Bool}

theorem Network.Shows.reconcileInterface (shows : network.Shows sourceOf report.name track) :
    let row := afterReport reporter allowNewRows report track.row
    (Inventory.reconcileInterface (fun _ _ => none) reporter allowNewRows network report).Shows
      sourceOf report.name
      (track.reported reporter row) := by
  have row := shows.row
  unfold Network.row at row
  unfold Inventory.reconcileInterface
  cases found : network.interfaces.get? report.name with
  | some =>
    rw [found] at row
    rw [← row]
    exact shows.write its
  | none =>
    rw [found] at row
    rw [← row]
    cases allowNewRows with
    | true => exact shows.write its
    | false =>
      obtain ⟨_, _⟩ := track
      cases row
      exact shows

include shows in
theorem Network.Shows.reconcileInterface_other (ne : name ≠ report.name) :
    (Inventory.reconcileInterface (fun _ _ => none) reporter allowNewRows network report).Shows
      sourceOf name track := by
  unfold Inventory.reconcileInterface
  split
  · exact shows.write_other its ne
  split
  · exact shows.write_other its ne
  · exact shows

theorem Network.Shows.foldl_other {reports : List InterfaceReport}
    (shows : network.Shows sourceOf name track) (ne : ∀ report ∈ reports, name ≠ report.name)
    (allowNewRows : Bool) :
    (reports.foldl (Inventory.reconcileInterface (fun _ _ => none) reporter allowNewRows)
      network).Shows sourceOf name track := by
  refine foldlRecOn (motive := (Network.Shows sourceOf name · track)) reports _ shows ?_
  exact fun _ shows report mem => shows.reconcileInterface_other its (ne report mem)

theorem Network.Shows.foldl_self {reports : KeyTable String InterfaceReport InterfaceReport.name}
    (mem : report ∈ reports) (shows : network.Shows sourceOf report.name track)
    (allowNewRows : Bool) :
    let row := afterReport reporter allowNewRows report track.row
    (reports.rows.foldl (Inventory.reconcileInterface (fun _ _ => none) reporter allowNewRows)
      network).Shows sourceOf report.name
      (track.reported reporter row) := by
  obtain ⟨_, _, split⟩ := append_of_mem mem
  have nodup := reports.nodup
  rw [split, map_append, map_cons, nodup_append, nodup_cons] at nodup
  obtain ⟨_, ⟨notBehind, _⟩, apart⟩ := nodup
  rw [split, foldl_append, foldl_cons]
  refine Network.Shows.foldl_other its ?_ ?_ allowNewRows
  · refine Network.Shows.reconcileInterface its ?_
    refine Network.Shows.foldl_other its shows ?_ allowNewRows
    intro other mem' same
    exact apart _ (mem_map_of_mem mem') _ (mem_cons_self ..) same.symm
  intro _ mem' same
  exact notBehind (same ▸ mem_map_of_mem mem')

omit its

include shows in
theorem Network.Shows.reconcileNetworkOmissions (observation : NetworkObservation) :
    (Inventory.reconcileNetworkOmissions (fun _ _ => none) observation network).Shows sourceOf name
      { track with
        row := if observation.reporter.sourceId ∈ track.sources ∧
            (observation.report? name).isNone then
          track.row.map (reconcileFields (fun _ => id) (.interface name) observation.reporter
            (fun _ => none) notPresentAttrs)
        else track.row } where
  row := by
    rw [Network.row, Inventory.reconcileNetworkOmissions, get?_map, Option.map_map]
    simp only [← shows.row, Network.row]
    cases found : network.interfaces.get? name with
    | none => simp
    | some =>
      rw [← key_of_get? found] at shows ⊢
      simp only [map_some, Function.comp_apply, shows.sources]
      split <;> rfl
  sources := shows.sources
  traced := shows.traced

variable {arrival : Arrival}

include shows in
theorem Network.Shows.reconcileNetwork (its : arrival.observation.reporter.sourceId
      = sourceOf arrival.observation.reporter.observationId) :
    (Inventory.reconcileNetwork (fun _ _ => none) network arrival).Shows sourceOf name
      (track.next name arrival) := by
  obtain ⟨observation, allowNewRows⟩ := arrival
  unfold Inventory.reconcileNetwork Track.next Arrival.omits
  cases listed : observation.interfaces with
  | none =>
    have silent : observation.report? name = none := by
      rw [NetworkObservation.report?, listed]
      rfl
    simpa [silent] using shows
  | some reports =>
    have look : observation.report? name = reports.get? name := by
      rw [NetworkObservation.report?, listed]
      rfl
    cases found : reports.get? name with
    | some =>
      obtain rfl := key_of_get? found
      have reported := shows.foldl_self its (mem_of_get? found) allowNewRows
      simp only [look, found]
      cases allowNewRows with
      | false => exact reported
      | true =>
        have after := reported.reconcileNetworkOmissions observation
        simpa [look, found] using after
    | none =>
      have others := shows.foldl_other its (fun report mem same =>
        get?_eq_none_iff.1 found report mem same.symm) allowNewRows
      simp only [look, found]
      cases allowNewRows with
      | false => simpa using others
      | true =>
        have after := others.reconcileNetworkOmissions observation
        simp only [look, found, isNone_none, and_true] at after
        by_cases known : observation.reporter.sourceId ∈ track.sources
        · simpa [known] using after
        simpa [known] using after

variable {arrivals : List Arrival}

variable (observation : NetworkObservation)

def NetworkObservation.reported (name : String) (field : InterfaceField) :
    Option (Said InterfaceValue) :=
  (observation.report? name).bind fun report =>
    (report.reportedAttrs field).map fun value => ⟨observation.reporter, value⟩

/-- What an observation puts into a field if it creates the row. -/
def NetworkObservation.created (name : String) (field : InterfaceField) :
    Option (Said InterfaceValue) :=
  (observation.report? name).bind fun report =>
    (report.createAttrs field).map fun value => ⟨observation.reporter, value⟩

def NetworkObservation.omitted (field : InterfaceField) : Option (Said InterfaceValue) :=
  (notPresentAttrs field).map fun value => ⟨observation.reporter, value⟩

/-- What an arrival has to say about a field of a row that is there; `sources` have reported the
interface before. -/
def Arrival.contribution (arrival : Arrival) (name : String) (field : InterfaceField)
    (sources : List Uuid) : Option (Said InterfaceValue) :=
  match arrival.observation.report? name with
  | some _ => arrival.observation.reported name field
  | none => if arrival.omits sources then arrival.observation.omitted field else none

def heardLater (name : String) (field : InterfaceField) :
    List Uuid → List Arrival → List (Said InterfaceValue)
  | _, [] => []
  | sources, arrival :: arrivals =>
    (arrival.contribution name field sources).toList ++
      heardLater name field
        (if (arrival.observation.report? name).isSome then
          arrival.observation.reporter.sourceId :: sources
        else sources)
        arrivals

def Arrival.creates (name : String) (arrival : Arrival) : Bool :=
  arrival.allowNewRows && (arrival.observation.report? name).isSome

/-- Everything said about a field, from the creation of the row on. -/
def heard (name : String) (field : InterfaceField) (arrivals : List Arrival) :
    List (Said InterfaceValue) :=
  match arrivals.dropWhile fun arrival => !arrival.creates name with
  | [] => []
  | creator :: later =>
    (creator.observation.created name field).toList ++
      heardLater name field [creator.observation.reporter.sourceId] later

def Holds (slots : InterfaceField → Slot InterfaceValue)
    (holder : InterfaceField → Option (Said InterfaceValue)) : Prop :=
  ∀ field, slots field = slotOf id none (holder field)

def hear (name : String) (field : InterfaceField) (holder : Option (Said InterfaceValue))
    (said : List (Said InterfaceValue)) : Option (Said InterfaceValue) :=
  said.foldl (Contest.challenge (Said.precedence (.interface name field)) Said.Manual) holder

variable {slots : InterfaceField → Slot InterfaceValue}
  {holder : InterfaceField → Option (Said InterfaceValue)}

theorem Holds.reconcileFields (holds : Holds slots holder) {reporter : Reporter}
    {attrs : InterfaceField → Option (Option InterfaceValue)} :
    Holds (Inventory.reconcileFields (fun _ => id) (.interface name) reporter (fun _ => none) attrs
        slots)
      fun field => hear name field (holder field)
        ((attrs field).map fun value => (⟨reporter, value⟩ : Said InterfaceValue)).toList := by
  intro field
  unfold Inventory.reconcileFields
  dsimp only
  cases attrs field with
  | none => exact holds field
  | some value =>
    show reconcileField id (.interface name field) reporter none (slots field) value = _
    rw [holds field]
    exact reconcileField_slotOf ⟨reporter, value⟩

variable {observation : NetworkObservation} {field : InterfaceField} {said : Said InterfaceValue}

variable {observations : KeyTable Uuid NetworkObservation (·.reporter.observationId)}

/-- A field of the row under a name is that of the greatest report; without any report nobody
owns it. -/
def Network.Settled (network : Network) (name : String) (field : InterfaceField) :
    Option (Said InterfaceValue) → Prop
  | some said => ∃ slots, network.row name = some slots ∧ slots field = slotOf id none (some said)
  | none => ∀ slots, network.row name = some slots → (slots field).owner = none

/-- A report prevails over what was heard.  By a source of kind `manual`, it has to come last.
Otherwise it is heard, and behind the last thing said by such a source nothing ranks above it
that was not reported, but put into the new row or concluded from an omission. -/
def Prevails (path : Path) (reports heard : List (Said InterfaceValue)) :
    Option (Said InterfaceValue) → Prop
  | some said =>
    said.Manual ∧ heard.getLast? = some said ∨
      ¬ said.Manual ∧ said ∈ Contest.unsettled Said.Manual heard ∧
        ∀ other ∈ Contest.unsettled Said.Manual heard, other ∉ reports →
          other.precedence path < said.precedence path
  | none => heard = []

end Renga.Inventory
