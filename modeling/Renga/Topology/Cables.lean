import Renga.Lib.Greedy
import Renga.Lib.KeyTable
import Renga.Lib.Run
import Renga.Organizations

/-!
# Cables

`Renga.Topology.CableReconciler`: people and trusted imports assert and retract cables between two
ends; neighbor evidence proposes them.  The current cables are rebuilt from the confirmed
assertions: of each pair of ends the latest claim counts, and of the claims that assert a cable
the newest takes its ends first.
-/

namespace Renga.Topology

open List Option

/-! ### Attributes -/

/-- `CableAttributes`.  Lengths are in thousandths (`numeric(12, 3)`), metadata is the text of the
map. -/
structure Attributes where
  cableType : Option String := none
  status : Option String := none
  label : Option String := none
  color : Option String := none
  lengthValue : Option ℕ := none
  lengthUnit : Option String := none
  description : Option String := none
  metadata : String := "\x7b\x7d"
  deriving DecidableEq

/-- The text functions of the standard library that casting uses. -/
structure CableTexts where
  trim : String → String
  downcase : String → String
  trim_trim : ∀ text, trim (trim text) = trim text
  trim_downcase : ∀ text, trim (downcase (trim text)) = downcase (trim text)
  downcase_downcase : ∀ text, downcase (downcase text) = downcase text

variable (texts : CableTexts) (attributes : Attributes)

def CableTexts.trimOptional (text : String) : Option String :=
  if texts.trim text = "" then none else some (texts.trim text)

def CableTexts.normalizeColor (color : String) : Option String :=
  if texts.trim color = "" then none else some (texts.downcase (texts.trim color))

def colorFormat (color : String) : Bool :=
  match color.toList with
  | '#' :: digits => digits.length = 6 && digits.all fun digit =>
    digit.isDigit || ('a' ≤ digit && digit ≤ 'f') || ('A' ≤ digit && digit ≤ 'F')
  | _ => false

def statuses : List String := ["planned", "connected", "decommissioning"]

def lengthUnits : List String := ["m", "cm", "ft", "in"]

def maxLength : ℕ := 999999999999

def Attributes.valid : Bool :=
  attributes.cableType.all (·.length ≤ 255) && attributes.label.all (·.length ≤ 255) &&
    attributes.status.all (· ∈ statuses) && attributes.lengthUnit.all (· ∈ lengthUnits) &&
    attributes.color.all colorFormat &&
    attributes.lengthValue.all (fun value => 0 < value && value ≤ maxLength) &&
    attributes.lengthValue.isNone == attributes.lengthUnit.isNone

def CableTexts.normalize : Attributes :=
  { attributes with
    cableType := attributes.cableType.bind texts.trimOptional
    label := attributes.label.bind texts.trimOptional
    lengthUnit := attributes.lengthUnit.bind texts.trimOptional
    description := attributes.description.bind texts.trimOptional
    color := attributes.color.bind texts.normalizeColor }

def castAttributes : Option Attributes :=
  let cast := texts.normalize attributes
  if cast.valid then some cast else none

/-! ### Ends -/

inductive CableKind where
  | data
  | power
  deriving DecidableEq

inductive Far where
  | outlet (id : Uuid)
  | feed (id : Uuid)
  deriving DecidableEq

def Far.id : Far → Uuid
  | .outlet id => id
  | .feed id => id

inductive Ends where
  | data (interfaceA interfaceB : Uuid)
  | power (port : Uuid) (far : Far)
  deriving DecidableEq

def Ends.kind : Ends → CableKind
  | .data .. => .data
  | .power .. => .power

inductive EndpointKey where
  | interface (id : Uuid)
  | powerPort (id : Uuid)
  | powerOutlet (id : Uuid)
  | powerFeed (id : Uuid)
  deriving DecidableEq

def Ends.endpointKeys : Ends → List EndpointKey
  | .power port (.outlet id) => [.powerPort port, .powerOutlet id]
  | .power port (.feed id) => [.powerPort port, .powerFeed id]
  | .data a b => [.interface a, .interface b]

/-- `pair_key/1`.  The text does not tell an outlet from a feed. -/
inductive PairKey where
  | data (interfaceA interfaceB : Uuid)
  | power (port far : Uuid)
  deriving DecidableEq

@[inherit_doc PairKey]
def Ends.pairKey : Ends → PairKey
  | .data a b => .data a b
  | .power port far => .power port far.id

inductive EndpointTable where
  | interfaces
  | powerPorts
  | powerOutlets
  | powerFeeds
  deriving DecidableEq

abbrev Tables := Uuid → Option EndpointTable

def Ends.stored (tables : Tables) : Ends → Bool
  | .data a b => tables a = some .interfaces && tables b = some .interfaces
  | .power port (.outlet id) => tables port = some .powerPorts && tables id = some .powerOutlets
  | .power port (.feed id) => tables port = some .powerPorts && tables id = some .powerFeeds

def Ends.canonical : Ends → Ends
  | .data a b => if a < b then .data a b else .data b a
  | .power port far => .power port far

/-! ### Assertions -/

inductive AssertionKind where
  | operator
  | import_
  | neighborEvidence
  deriving DecidableEq

def AssertionKind.confirmed : AssertionKind → Bool
  | .operator | .import_ => true
  | .neighborEvidence => false

inductive AssertionAction where
  | assert
  | retract
  deriving DecidableEq

structure Assertion where
  id : Uuid
  sequence : ℕ
  kind : AssertionKind
  action : AssertionAction
  ends : Ends
  assertedAt : Time
  attributes : Attributes
  sourceId : Option Uuid
  actorUserId : Option Uuid
  deriving DecidableEq

def Assertion.pairKey (assertion : Assertion) : PairKey := assertion.ends.pairKey

def Assertion.endpointKeys (assertion : Assertion) : List EndpointKey :=
  assertion.ends.endpointKeys

def Assertion.age (assertion : Assertion) : Time ×ₗ ℕ :=
  toLex (assertion.assertedAt, assertion.sequence)

/-- The rows of `cable_assertions`, in the order of insertion, with what the table keeps of
them. -/
structure Assertions (texts : CableTexts) (tables : Tables) where
  rows : List Assertion
  sequences : rows.Pairwise fun one two => one.sequence < two.sequence
  ids : (rows.map Assertion.id).Nodup
  cast : ∀ row ∈ rows, castAttributes texts row.attributes = some row.attributes
  stored : ∀ row ∈ rows, row.ends.stored tables = true

def Assertions.empty {texts : CableTexts} {tables : Tables} : Assertions texts tables where
  rows := []
  sequences := List.Pairwise.nil
  ids := nodup_nil
  cast := fun _ mem => absurd mem not_mem_nil
  stored := fun _ mem => absurd mem not_mem_nil

def Assertions.append {texts : CableTexts} {tables : Tables} (assertions : Assertions texts tables)
    (row : Assertion) (last : ∀ other ∈ assertions.rows, other.sequence < row.sequence)
    (fresh : row.id ∉ assertions.rows.map Assertion.id)
    (cast : castAttributes texts row.attributes = some row.attributes)
    (stored : row.ends.stored tables = true) : Assertions texts tables where
  rows := assertions.rows ++ [row]
  sequences := pairwise_append.2 ⟨assertions.sequences, pairwise_singleton _ _,
    fun other mem new mem' => mem_singleton.1 mem' ▸ last other mem⟩
  ids := by
    rw [map_append, nodup_append]
    refine ⟨assertions.ids, nodup_singleton _, fun id mem new mem' => ?_⟩
    rw [map_singleton, mem_singleton] at mem'
    exact fun same => fresh (mem' ▸ same ▸ mem)
  cast := fun other mem => by
    rcases mem_append.1 mem with mem | mem
    · exact assertions.cast other mem
    rw [mem_singleton.1 mem]
    exact cast
  stored := fun other mem => by
    rcases mem_append.1 mem with mem | mem
    · exact assertions.stored other mem
    rw [mem_singleton.1 mem]
    exact stored

/-! ### Cables and events -/

structure Cable where
  id : Uuid
  ends : Ends
  attributes : Attributes
  primaryAssertionId : Uuid
  lastAssertedAt : Time
  deriving DecidableEq

inductive EventAction where
  | created
  | updated
  | removed
  deriving DecidableEq

inductive AttributeField where
  | cableType
  | status
  | label
  | color
  | lengthValue
  | lengthUnit
  | description
  | metadata
  deriving DecidableEq

inductive AttributeValue where
  | text (value : Option String)
  | number (value : Option ℕ)
  deriving DecidableEq

def Attributes.get : AttributeField → AttributeValue
  | .cableType => .text attributes.cableType
  | .status => .text attributes.status
  | .label => .text attributes.label
  | .color => .text attributes.color
  | .lengthValue => .number attributes.lengthValue
  | .lengthUnit => .text attributes.lengthUnit
  | .description => .text attributes.description
  | .metadata => .text (some attributes.metadata)

def attributeFields : List AttributeField :=
  [.cableType, .status, .label, .color, .lengthValue, .lengthUnit, .description, .metadata]

structure AttributeChange where
  field : AttributeField
  before : AttributeValue
  after : AttributeValue
  deriving DecidableEq

def attributeChanges (before after : Attributes) : List AttributeChange :=
  (attributeFields.filter fun field => before.get field ≠ after.get field).map fun field =>
    ⟨field, before.get field, after.get field⟩

structure Snapshot where
  cableType : Option String
  status : Option String
  label : Option String
  color : Option String
  lengthValue : Option ℕ
  lengthUnit : Option String
  description : Option String
  deriving DecidableEq

def Attributes.snapshot : Snapshot :=
  ⟨attributes.cableType, attributes.status, attributes.label, attributes.color,
    attributes.lengthValue, attributes.lengthUnit, attributes.description⟩

structure ChangeEvent where
  cableId : Uuid
  assertionId : Option Uuid
  ends : Ends
  sourceId : Option Uuid
  actorUserId : Option Uuid
  action : EventAction
  changes : List AttributeChange
  snapshot : Snapshot
  occurredAt : Time
  deriving DecidableEq

structure Db (texts : CableTexts) (tables : Tables) where
  assertions : Assertions texts tables := Assertions.empty
  cables : KeyTable Uuid Cable Cable.id := KeyTable.empty
  events : List ChangeEvent := []

variable {texts : CableTexts} {tables : Tables}

/-! ### Selection -/

/-- `effective_claims/2`: the latest confirmed claim for each pair. -/
def effectiveClaims (kind : CableKind) (assertions : List Assertion) :
    KeyTable PairKey Assertion Assertion.pairKey :=
  let confirmed := assertions.filter fun assertion =>
    assertion.kind.confirmed ∧ assertion.ends.kind = kind
  (confirmed.insertionSort fun one two => one.age ≤ two.age).foldl KeyTable.place KeyTable.empty

/-- `select_claims/1`: what is selected and what is blocked, newest first. -/
def selectClaims (claims : List Assertion) : List Assertion × List Assertion :=
  let sorted := claims.insertionSort fun one two => two.age ≤ one.age
  (Greedy.select Assertion.endpointKeys sorted, Greedy.blocked Assertion.endpointKeys sorted)

def selectedClaims (kind : CableKind) (assertions : List Assertion) : List Assertion :=
  (selectClaims ((effectiveClaims kind assertions).rows.filter (·.action = .assert))).1

def endpointIndex (claims : List Assertion) : EndpointKey → Option Assertion :=
  claims.foldl
    (fun index claim => claim.endpointKeys.foldl
      (fun index key => Function.update index key (some claim)) index)
    fun _ => none

variable (db : Db texts tables) (cable : Cable) (assertion : Assertion)

def removalCause (claimsByPair : KeyTable PairKey Assertion Assertion.pairKey)
    (selectedByEndpoint : EndpointKey → Option Assertion) : Option Assertion :=
  let displacing := (cable.ends.endpointKeys.filterMap selectedByEndpoint).argmax Assertion.age
  match claimsByPair.get? cable.ends.pairKey with
  | some claim => if claim.action = .retract then some claim else displacing
  | none => displacing

/-! ### Writes -/

def cableAttributes : Attributes :=
  { assertion.attributes with
    status := some (assertion.attributes.status.getD "connected") }

def recordEvent (action : EventAction) (changes : List AttributeChange) (cause : Option Assertion)
    (now : Time) : ChangeEvent where
  cableId := cable.id
  assertionId := cause.map Assertion.id
  ends := cable.ends
  sourceId := cause.bind Assertion.sourceId
  actorUserId := cause.bind Assertion.actorUserId
  action := action
  changes := changes
  snapshot := cable.attributes.snapshot
  occurredAt := now

/-- Whether an end is terminated, as the terminations of interfaces and the unique indexes of
power ends know it. -/
def Db.occupied (key : EndpointKey) : Bool :=
  db.cables.rows.any fun cable => key ∈ cable.ends.endpointKeys

/-- `create_cable/3`.  The database refuses an end that is terminated already. -/
def Db.createCable (newId : Uuid) (now : Time) : Option (Db texts tables) := do
  let attributes ← castAttributes texts (cableAttributes assertion)
  let cable : Cable := ⟨newId, assertion.ends, attributes, assertion.id, assertion.assertedAt⟩
  if assertion.endpointKeys.any db.occupied then none
  else if fresh : db.cables.get? newId = none then
    some { db with
      cables := db.cables.add cable fresh
      events := db.events ++ [recordEvent cable .created [] (some assertion) now] }
  else none

def Db.updateCable (now : Time) : Option (Db texts tables) := do
  let attrs := cableAttributes assertion
  let changes := attributeChanges cable.attributes attrs
  let attributes ← castAttributes texts attrs
  let cable := { cable with
    attributes, primaryAssertionId := assertion.id, lastAssertedAt := assertion.assertedAt }
  if (db.cables.get? cable.id).isNone then none
  else
    some { db with
      cables := db.cables.put cable
      events := if changes = [] then db.events
        else db.events ++ [recordEvent cable .updated changes (some assertion) now] }

def Db.removeCable (cause : Option Assertion) (now : Time) : Db texts tables :=
  { db with
    cables := db.cables.erase cable.id
    events := db.events ++ [recordEvent cable .removed [] cause now] }

/-- One write of a rebuild, decided on before the first. -/
inductive Write where
  | remove (cable : Cable) (cause : Option Assertion)
  | create (assertion : Assertion)
  | update (cable : Cable) (assertion : Assertion)

/-- A write is carried out.  The keys of new cables are generated; here the claim a cable is
created for tells them apart. -/
def Db.write (newId : Uuid → Uuid) (now : Time) (db : Db texts tables) :
    Write → Option (Db texts tables)
  | .remove cable cause => some (db.removeCable cable cause now)
  | .create assertion => db.createCable assertion (newId assertion.id) now
  | .update cable assertion => db.updateCable cable assertion now

/-- `list_cables/2`, by the ids of the first end and the second. -/
def Db.listCables (kind : CableKind) : List Cable :=
  let order : Cable → Uuid ×ₗ Uuid := fun cable =>
    match cable.ends with
    | .data a b => toLex (a, b)
    | .power port _ => toLex (port, 0)
  (db.cables.rows.filter (·.ends.kind = kind)).insertionSort fun one two => order one ≤ order two

/-- What `rebuild_current_cables/3` writes: superseded cables are removed before new ones are
installed, so that an end that moves from one cable to another is never terminated twice. -/
def Db.rebuildWrites (kind : CableKind) : List Write :=
  let claimsByPair := effectiveClaims kind db.assertions.rows
  let selected := selectedClaims kind db.assertions.rows
  let existing := db.listCables kind
  let removed := existing.filter fun cable =>
    ¬selected.any fun claim => claim.pairKey = cable.ends.pairKey
  removed.map (fun cable =>
      .remove cable (removalCause cable claimsByPair (endpointIndex selected))) ++
    selected.map fun claim =>
      match existing.reverse.find? (·.ends.pairKey = claim.pairKey) with
      | none => .create claim
      | some cable => .update cable claim

def Db.rebuildCurrentCables (kind : CableKind) (newId : Uuid → Uuid) (now : Time) :
    Option (Db texts tables) :=
  (db.rebuildWrites kind).foldlM (Db.write newId now) db

def Db.reconcile (newId : Uuid → Uuid) (now : Time) : Option (Db texts tables) := do
  let db ← db.rebuildCurrentCables .data newId now
  db.rebuildCurrentCables .power newId now

/-! ### Recording claims -/

inductive PutError where
  | changeset
  | assertedAtInFuture
  | identicalEndpoints
  | notFound
  | endpointNotPhysical
  | powerEndpoints
  | powerEndpointRetiredOrLoop
  deriving DecidableEq

structure Request where
  id : Uuid
  kind : AssertionKind
  action : AssertionAction
  assertedAt : Option Time := none
  attributes : Attributes := {}
  sourceId : Option Uuid := none
  actorUserId : Option Uuid := none

variable (request : Request)

def Request.attrs : Attributes :=
  if request.action = .retract then {} else request.attributes

/-- The next value of the table's sequence; others may have used up some. -/
def nextSequence (assertions : List Assertion) (gap : ℕ) : ℕ :=
  (assertions.map Assertion.sequence).foldr max 0 + 1 + gap

theorem lt_nextSequence {assertions : List Assertion} {gap : ℕ} :
    ∀ other ∈ assertions, other.sequence < nextSequence assertions gap := by
  unfold nextSequence
  induction assertions with
  | nil => exact fun _ mem => absurd mem not_mem_nil
  | cons _ _ ih =>
    intro other mem
    rw [map_cons, foldr_cons]
    rcases mem_cons.1 mem with rfl | mem
    · omega
    have := ih other mem
    omega

theorem trimOptional_of_eq_some {text trimmed : String}
    (is : texts.trimOptional text = some trimmed) : texts.trimOptional trimmed = some trimmed := by
  unfold CableTexts.trimOptional at is ⊢
  split at is
  · cases is
  rename_i ne
  cases is
  rw [texts.trim_trim, if_neg ne]

theorem bind_trimOptional {text : Option String} :
    (text.bind texts.trimOptional).bind texts.trimOptional = text.bind texts.trimOptional := by
  cases is : text.bind texts.trimOptional with
  | none => rfl
  | some =>
    obtain ⟨_, -, its⟩ := bind_eq_some_iff.1 is
    exact trimOptional_of_eq_some its

theorem bind_normalizeColor {color : Option String}
    (valid : (color.bind texts.normalizeColor).all colorFormat = true) :
    (color.bind texts.normalizeColor).bind texts.normalizeColor
      = color.bind texts.normalizeColor := by
  cases is : color.bind texts.normalizeColor with
  | none => rfl
  | some =>
    obtain ⟨_, -, its⟩ := bind_eq_some_iff.1 is
    rw [is, all_some] at valid
    unfold CableTexts.normalizeColor at its
    split at its
    · cases its
    cases its
    rw [bind_some, CableTexts.normalizeColor, texts.trim_downcase,
      texts.downcase_downcase, if_neg]
    intro blank
    rw [blank] at valid
    exact Bool.false_ne_true valid

theorem castAttributes_of_cast {attributes cast : Attributes}
    (is : castAttributes texts attributes = some cast) :
    castAttributes texts cast = some cast := by
  unfold castAttributes at is
  dsimp only at is
  split at is
  · rename_i valid
    cases is
    have color : (attributes.color.bind texts.normalizeColor).all colorFormat = true := by
      simp only [Attributes.valid, Bool.and_eq_true] at valid
      exact valid.1.1.2
    have same : texts.normalize (texts.normalize attributes) = texts.normalize attributes := by
      simp only [CableTexts.normalize, bind_trimOptional, bind_normalizeColor color]
    unfold castAttributes
    rw [same, if_pos valid]
  · cases is

def Db.insertAssertion (ends : Ends) (gap : ℕ) (now : Time) : Except PutError (Db texts tables) :=
  match is : castAttributes texts request.attrs with
  | none => .error .changeset
  | some attributes =>
    let row : Assertion :=
      { id := request.id
        sequence := nextSequence db.assertions.rows gap
        kind := request.kind
        action := request.action
        ends := ends
        assertedAt := request.assertedAt.getD now
        attributes := attributes
        sourceId := request.sourceId
        actorUserId := request.actorUserId }
    if stored : ends.stored tables = true then
      if fresh : request.id ∉ db.assertions.rows.map Assertion.id then
        .ok { db with
          assertions := db.assertions.append row lt_nextSequence fresh
            (castAttributes_of_cast is) stored }
      else .error .changeset
    else .error .notFound

/-- `put_cable_assertion!/6`.  `physical` is whether both interfaces are ethernet interfaces; a
retraction does not ask. -/
def Db.putCableAssertion (first second : Uuid) (gap : ℕ) (now : Time) (physical : Bool) :
    Except PutError (Db texts tables) :=
  let ends := (Ends.data first second).canonical
  if castAttributes texts request.attrs = none then .error .changeset
  else if now < request.assertedAt.getD now then .error .assertedAtInFuture
  else if first = second then .error .identicalEndpoints
  else if ends.stored tables = false then .error .notFound
  else if request.action = .assert ∧ physical = false then .error .endpointNotPhysical
  else db.insertAssertion request ends gap now

/-- `Power.Cables.create_assertion/4`, with the checks of `endpoints!/3`.  `usable` is whether
port and outlet are not retired and not of one device. -/
def Db.createPowerAssertion (port : Uuid) (far : Far) (gap : ℕ) (now : Time) (usable : Bool) :
    Except PutError (Db texts tables) :=
  let ends := Ends.power port far
  if ends.stored tables = false then .error .powerEndpoints
  else if usable = false then .error .powerEndpointRetiredOrLoop
  else db.insertAssertion { request with kind := .operator, assertedAt := none } ends gap now

/-- `propose_from_evidence/3`, of evidence that is fresh, matched and has no proposal. -/
def Db.proposeFromEvidence (near remote : Uuid) (gap : ℕ) (observedAt : Time) :
    Except PutError (Db texts tables) :=
  db.insertAssertion
    { request with kind := .neighborEvidence, action := .assert, assertedAt := some observedAt }
    (Ends.data near remote).canonical gap observedAt

/-! ### Turns -/

inductive Op where
  | put (request : Request) (first second : Uuid) (gap : ℕ) (now : Time) (physical : Bool)
  | power (request : Request) (port : Uuid) (far : Far) (gap : ℕ) (now : Time) (usable : Bool)
  | propose (request : Request) (near remote : Uuid) (gap : ℕ) (observedAt : Time)
  | reconcile (newId : Uuid → Uuid) (now : Time)

/-- One turn.  What is rolled back leaves nothing behind. -/
def step : Op → Db texts tables
  | .put request first second gap now physical =>
    Run.commit db (db.putCableAssertion request first second gap now physical)
  | .power request port far gap now usable =>
    Run.commit db (db.createPowerAssertion request port far gap now usable)
  | .propose request near remote gap observedAt =>
    Run.commit db (db.proposeFromEvidence request near remote gap observedAt)
  | .reconcile newId now => (db.reconcile newId now).getD db

def run (texts : CableTexts) (tables : Tables) (ops : List Op) : Db texts tables :=
  Run.run step {} ops

end Renga.Topology
