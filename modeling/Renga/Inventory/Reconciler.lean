import Renga.Inventory.Collectors
import Renga.Inventory.Matching
import Renga.Lib.Run

/-!
# Reconciling observations

`Renga.Inventory.Reconciler`: one observation is matched with a resource, which is created
if there is none; its identifiers, claims and fields are attached, and the attempt is
recorded (`performResourceReconciliation`).  A report is reconciled through the observations
derived from it and then applied to its targets (`performReportReconciliation`).
-/

namespace Renga.Inventory

variable (env : Env)

/-! ### Attaching -/

variable (db : Db) (source : Source) (observation : Observation) (resourceId : Uuid)

def Db.ensureResource (matched : Option Uuid) (newId : Uuid) : Option (Db × Uuid) :=
  match matched with
  | some resourceId => some (db, resourceId)
  | none =>
    if fresh : db.resources.get? newId = none then
      let kind := observation.payload.kind.getD .server
      some ({ db with resources := db.resources.add ⟨newId, kind⟩ fresh }, newId)
    else none

/-- `Inventory.create_reconciled_resource_identifier/3`.  A value that is blank is refused. -/
def Db.createIdentifier (kind : IdentifierKind) (value : String) : Option Db :=
  let value := env.names.trim value
  if value = "" then none
  else
    let identifier := ⟨resourceId, kind, value, env.names.normalizeValue kind value⟩
    some { db with identifiers := identifier :: db.identifiers }

/-- `reconcile_identifiers/3`: the identifiers the resource does not have yet. -/
def Db.reconcileIdentifiers (db : Db) (resourceId : Uuid) : List Identifier → Option Db
  | [] => some db
  | identifier :: rest =>
    if db.identifiers.any fun existing => existing.resourceId = resourceId ∧
        existing.kind = identifier.kind ∧
        existing.normalizedValue = identifier.normalizedValue then
      Db.reconcileIdentifiers db resourceId rest
    else do
      let db ← db.createIdentifier env resourceId identifier.kind identifier.value
      Db.reconcileIdentifiers db resourceId rest

/-- `reconcile_claims/5`: an observation has one claim for each of its identifiers. -/
def Db.reconcileClaims (resourceId : Option Uuid) (identifiers : List Identifier) : Db :=
  { db with
    claims := identifiers.map (fun identifier =>
        ⟨observation.id, identifier.kind, identifier.normalizedValue, resourceId⟩) ++
      db.claims.filter fun claim => ¬ (claim.observationId = observation.id ∧
        identifiers.any fun identifier => identifier.kind = claim.kind ∧
          identifier.normalizedValue = claim.normalizedValue) }

def Db.currentObservation (observation : Observation) : Bool :=
  db.reconciliations.all fun reconciliation =>
    ¬ (reconciliation.matchedResourceId = some resourceId ∧ reconciliation.succeeded) ∨
      toLex (reconciliation.observedAt, reconciliation.observationId)
        ≤ toLex (observation.observedAt, observation.id)

def reporterOf : Reporter :=
  ⟨source.id, source.kind, observation.observedAt, observation.id⟩

def Db.project (allowNewRows : Bool) : Db :=
  let reporter := reporterOf source observation
  let payload := observation.payload
  let host := reconcileHost env.names (env.hostOverrides resourceId) (db.hosts resourceId)
    ⟨reporter, payload.attributes, payload.identifiers .hostname, payload.identifiers .fqdn⟩
  let network := reconcileNetwork (env.interfaceOverrides resourceId) (db.networks resourceId)
    ⟨⟨reporter, payload.interfaces⟩, allowNewRows⟩
  { db with
    hosts := Function.update db.hosts resourceId (some host)
    networks := Function.update db.networks resourceId network }

def Db.recordAttempt (succeeded : Bool) (resourceId : Option Uuid) : Db :=
  { db with
    reconciliations := db.reconciliations ++
      [⟨observation.id, observation.observedAt, source.kind, succeeded, resourceId⟩] }

def Db.recordSuccess (freshnessAdvanced : Bool) : Db :=
  let db :=
    if freshnessAdvanced then db.putCondition resourceId ⟨true, .observationReconciled⟩ else db
  db.recordAttempt source observation true (some resourceId)

/-- What is reconciled behind the attachments: fields, the attempt and, for a host agent, the
claim. -/
def Db.settleResource : Db :=
  let freshnessAdvanced := db.currentObservation resourceId observation &&
    !db.supersededBySnapshot source observation resourceId
  let db := db.project env source observation resourceId freshnessAdvanced
  let db := db.recordSuccess source observation resourceId freshnessAdvanced
  if source.kind = .hostAgent then db.keepClaimedInventoryCurrent resourceId else db

def Db.reconcileResource (matched : Option Uuid) (newId : Uuid) : Option (Db × Uuid) := do
  let identifiers := observationIdentifiers env.names observation.payload
  let (db, resourceId) ← db.ensureResource observation matched newId
  let db ← db.reconcileIdentifiers env resourceId identifiers
  let db := db.reconcileClaims observation (some resourceId) identifiers
  some (db.settleResource env source observation resourceId, resourceId)

/-- `perform_resource_reconciliation/3`: the resource, or none if the identity is ambiguous. -/
def Db.performResourceReconciliation (newId : Uuid) : Option (Db × Option Uuid) :=
  let identifiers := observationIdentifiers env.names observation.payload
  match db.matchResource identifiers source.collectorStream with
  | .found resourceId _ =>
    (db.reconcileResource env source observation (some resourceId) newId).map fun done =>
      (done.1, some done.2)
  | .none =>
    (db.reconcileResource env source observation none newId).map fun done =>
      (done.1, some done.2)
  | .ambiguous _ =>
    let db := db.reconcileClaims observation none identifiers
    some (db.recordAttempt source observation false none, none)

/-! ### Reports -/

def Db.latestResult (observationId : Uuid) : Option Reconciliation :=
  (db.reconciliations.filter fun result => result.observationId = observationId).getLast?

/-- What comes with a turn: new identifiers for resources, the observations that fail outside
this model, and whether the effects that belong to the turn fail. -/
structure Chance where
  newId : Uuid → Uuid
  raises : Uuid → Bool
  effectsFail : Bool

def Db.derivedResult (failed : List Uuid) (chance : Chance) : Option (Db × Option Uuid) :=
  let perform :=
    if chance.raises observation.id then none
    else db.performResourceReconciliation env source observation (chance.newId observation.id)
  match db.latestResult observation.id with
  | none => perform
  | some result =>
    if result.succeeded then some (db, result.matchedResourceId)
    else if observation.id ∈ failed then some (db, none)
    else perform

/-- The derived observations of a report, one after the other. -/
def Db.derivedResults (source : Source) (failed : List Uuid) (chance : Chance) (db : Db) :
    List Observation → Option (Db × List Outcome)
  | [] => some (db, [])
  | observation :: rest => do
      let (db, resource) ← db.derivedResult env source observation failed chance
      let (db, outcomes) ← Db.derivedResults source failed chance db rest
      some (db, ⟨observation.target.getD "", resource, observation.payload.domain⟩ :: outcomes)

/-- The attempt of a report is recorded.  It has no resource of its own. -/
def Db.recordReport (stored : StoredReport) (succeeded : Bool) : Db :=
  { db with
    reconciliations := db.reconciliations ++
      [⟨stored.report.id, stored.report.observedAt, stored.source.kind, succeeded, none⟩] }

def Db.performReportReconciliation (stored : StoredReport) (failed : List Uuid) (chance : Chance) :
    Option Db := do
  let (db, outcomes) ← db.derivedResults env stored.source failed chance stored.report.derived
  some ((db.applyReport stored.source stored.report outcomes).recordReport stored true)

/-! ### Turns -/

/-- What happens in an organization: an observation or a report is reconciled, again or only if
it was not before, or the failure of a derived observation is recorded. -/
inductive Op where
  | observation (id : Uuid) (once : Bool) (chance : Chance)
  | report (id : Uuid) (once : Bool) (failed : List Uuid) (chance : Chance)
  | failResource (reportId derivedId : Uuid)

/-- The turn of one observation (`reconcile_turn/4`).  The effects of a host agent's observation
belong to its transaction. -/
def Db.observationTurn (stored : StoredObservation) (chance : Chance) : Option Db := do
  let observation := stored.observation
  if chance.raises observation.id then none
  else
    let (db, resource) ←
      db.performResourceReconciliation env stored.source observation (chance.newId observation.id)
    if stored.source.kind = .hostAgent ∧ resource.isSome ∧ chance.effectsFail then none
    else some db

/-- `Reconciler.reconcile/3`, `reconcile_once/3` and `fail_resource!/5`.  The turn of a report
that is rolled back because of one resource leaves nothing behind; the failure of the resource is
recorded next, and the report run again. -/
def step : Op → Db
  | .observation id once chance =>
    match env.observation? id with
    | none => db
    | some stored =>
      if once ∧ (db.latestResult id).isSome then db
      else
        match db.observationTurn env stored chance with
        | some db => db
        | none => db.recordAttempt stored.source stored.observation false none
  | .report id once failed chance =>
    match env.report? id with
    | none => db
    | some stored =>
      if once ∧ (db.latestResult id).isSome then db
      else
        match db.performReportReconciliation env stored failed chance with
        | some after => if chance.effectsFail then db.recordReport stored false else after
        | none => db
  | .failResource reportId derivedId =>
    match env.report? reportId with
    | none => db
    | some stored =>
      match stored.report.derived.find? (·.id = derivedId) with
      | none => db
      | some observation =>
        if (db.latestResult observation.id).any Reconciliation.succeeded then db
        else db.recordAttempt stored.source observation false none

def run (ops : List Op) : Db := Run.run (step env) {} ops

end Renga.Inventory
