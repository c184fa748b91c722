import Renga.Inventory.Schema

/-!
# Which resource an observation is about

The identifiers of an observation (`observation_identifiers/1`) and the resources they lead
to (`match_resource/3`).  Serial number, DMI UUID and machine ID are strong: each of these
kinds is looked up by itself, and two resources found, by one kind or by two, make the
identity ambiguous.  A host is found by the exact set of its MAC addresses as well.  Names
count only where there is nothing else.
-/

namespace Renga.Inventory

open List

def uniqBy {α κ : Type*} [DecidableEq κ] (key : α → κ) : List α → List α
  | [] => []
  | a :: l => a :: (uniqBy key l).filter fun b => key b ≠ key a

theorem mem_of_mem_uniqBy {α κ : Type*} [DecidableEq κ] {key : α → κ} {l : List α} {a : α}
    (mem : a ∈ uniqBy key l) : a ∈ l := by
  induction l with
  | nil => exact mem
  | cons _ _ ih =>
    rcases mem_cons.1 mem with rfl | mem
    · exact mem_cons_self ..
    · exact mem_cons_of_mem _ (ih (mem_of_mem_filter mem))

/-! ### The identifiers of an observation -/

def IdentifierValues.wrap : IdentifierValues → List String
  | .one value => [value]
  | .many values => values

/-- The interfaces whose MAC addresses may tell a host: physical ones. -/
def identityInterface (kind : InterfaceKind) : Bool := kind = .ethernet

/-- The MAC addresses of the reported interfaces that are there: those that tell the host, in
reverse order, and the others. -/
def classifyInterfaceMacs (names : Names) (interfaces : List InterfaceReport) :
    List Identifier × List String :=
  (interfaces.filter fun interface => interface.status ≠ some .notPresent).foldl
    (fun (identityMacs, otherMacs) interface =>
      match interface.macAddress.join with
      | none => (identityMacs, otherMacs)
      | some address =>
        let identifier := names.identifier .macAddress address
        if identityInterface (interface.kind.getD .ethernet) then
          (identifier :: identityMacs, otherMacs)
        else (identityMacs, identifier.normalizedValue :: otherMacs))
    ([], [])

def observationIdentifiers (names : Names) (payload : ResourcePayload) : List Identifier :=
  let macs := classifyInterfaceMacs names ((payload.interfaces.map KeyTable.rows).getD [])
  let excluded := macs.2.filter fun value => value ∉ macs.1.map Identifier.normalizedValue
  let identifiers := acceptedIdentifierKinds.flatMap fun kind =>
    ((payload.identifiers kind).map IdentifierValues.wrap).getD [] |>.map (names.identifier kind)
  let identifiers := identifiers.filter fun identifier =>
    ¬ (identifier.kind = .macAddress ∧ identifier.normalizedValue ∈ excluded)
  uniqBy (fun identifier => (identifier.kind, identifier.normalizedValue))
    (identifiers ++ macs.1)

/-! ### Looking up -/

inductive Strategy where
  | identifier (kind : IdentifierKind)
  | macAddressSet
  | discovered
  deriving DecidableEq

variable (db : Db) (results : List (Strategy × List Uuid)) (identifiers : List Identifier)

def valuesOf (kind : IdentifierKind) : List String :=
  (identifiers.filter fun identifier => identifier.kind = kind).map Identifier.normalizedValue

def Db.resourcesForIdentifierValues (kind : IdentifierKind) (values : List String) : List Uuid :=
  (db.resources.rows.map Resource.id).filter fun id =>
    db.identifiers.any fun identifier =>
      identifier.resourceId = id ∧ identifier.kind = kind ∧ identifier.normalizedValue ∈ values

/-- The MAC addresses that tell a host, from its interface rows. -/
def Network.identityMacs (network : Network) : List String :=
  network.interfaces.rows.filterMap fun interface =>
    match (interface.slots .status).value, (interface.slots .kind).value,
        (interface.slots .macAddress).value with
    | some (.status status), some (.kind kind), some (.macAddress address) =>
      if status ≠ .notPresent ∧ identityInterface kind then some address else none
    | _, _, _ => none

/-- `mac_set_candidates/2`: the resources, of no collector's kind, that have just these MAC
addresses. -/
def Db.macSetCandidates (observed : List String) : List Uuid :=
  (db.resources.rows.filter fun resource =>
    let macs := (db.networks resource.id).identityMacs
    ¬ resource.kind.collector ∧ (macs.any fun mac => mac ∈ observed) ∧
      (macs.all fun mac => mac ∈ observed) ∧ (observed.all fun mac => mac ∈ macs)).map Resource.id

def Db.matchMacSet : List Uuid :=
  match valuesOf identifiers .macAddress with
  | [] => []
  | observed => db.macSetCandidates observed

def Db.resourcesForCurrentHostValues (field : HostField) (values : List String) : List Uuid :=
  (db.resources.rows.filter fun resource =>
    ¬ resource.kind.collector ∧
      ((hostSlot (db.hosts resource.id) field).value.any fun value => value ∈ values)).map
    Resource.id

inductive Match where
  | found (resourceId : Uuid) (strategy : Strategy)
  | none
  | ambiguous (candidates : List Uuid)
  deriving DecidableEq

def ambiguousCandidates : List Uuid :=
  (results.flatMap fun result => if 1 < result.2.length then result.2 else []).eraseDups

def singleMatches : List (Strategy × Uuid) :=
  results.filterMap fun result =>
    match result.2 with
    | [resourceId] => some (result.1, resourceId)
    | _ => Option.none

def combineStrongMatches : Match :=
  let matched := ((singleMatches results).map Prod.snd).eraseDups
  if ambiguousCandidates results ≠ [] then .ambiguous (ambiguousCandidates results)
  else if 1 < matched.length then .ambiguous matched
  else
    match singleMatches results with
    | [] => .none
    | (strategy, resourceId) :: _ => .found resourceId strategy

def Db.strongMatches : List (Strategy × List Uuid) :=
  strongIdentifierKinds.map fun kind =>
    (.identifier kind, db.resourcesForIdentifierValues kind (valuesOf identifiers kind))

def Db.matchWeakIdentity : Match :=
  combineStrongMatches (weakIdentifierKinds.map fun weak =>
    (.identifier weak.1, db.resourcesForCurrentHostValues weak.2 (valuesOf identifiers weak.1)))

def strongIdentity : Bool :=
  identifiers.any fun identifier =>
    identifier.kind ∈ strongIdentifierKinds ∨ identifier.kind = .macAddress

def Db.matchResource (collector : Bool) : Match :=
  if collector then combineStrongMatches (db.strongMatches identifiers)
  else
    match combineStrongMatches
        (db.strongMatches identifiers ++ [(.macAddressSet, db.matchMacSet identifiers)]) with
    | .none => if strongIdentity identifiers then .none else db.matchWeakIdentity identifiers
    | result => result

end Renga.Inventory
