import Mathlib.Data.Prod.Lex
import Renga.Lib.Contest
import Renga.Organizations

/-!
# Who owns a projected field

Several sources report about one resource.  `Renga.Inventory.Reconciler.Projections` keeps one
value of every field and remembers in the row's metadata whose it is: the owner.
-/

namespace Renga.Inventory

/-! ### Sources -/

inductive SourceKind where
  | hostAgent
  | switchPoller
  | vmProvider
  | powerPoller
  | bmcPower
  | bmc
  | manual
  deriving DecidableEq

inductive HostField where
  | hostname
  | fqdn
  | vendor
  | model
  | assetTag
  deriving DecidableEq

inductive InterfaceField where
  | name
  | macAddress
  | kind
  | status
  | mtu
  | speedMbps
  deriving DecidableEq

inductive Path where
  | host (field : HostField)
  | interface (name : String) (field : InterfaceField)
  deriving DecidableEq

def priority : SourceKind → Path → ℕ
  | .manual, _ => 500
  | .bmc, .host .vendor => 400
  | .bmc, .host .model => 400
  | .bmc, .host .assetTag => 400
  | .switchPoller, .interface _ _ => 400
  | .hostAgent, _ => 300
  | .vmProvider, _ => 200
  | .bmc, _ => 100
  | _, _ => 0

theorem priority_lt_manual {kind : SourceKind} (other : kind ≠ .manual) {path path' : Path} :
    priority kind path < priority .manual path' := by
  unfold priority
  split <;> first | exact absurd rfl other | decide

/-! ### Owners -/

/-- A source and an observation of it, as `owner/2` records them. -/
structure Reporter where
  sourceId : Uuid
  sourceKind : SourceKind
  observedAt : Time
  observationId : Uuid
  deriving DecidableEq

/-- Who owns a field: a report, or an override by a person (`manual_owner/1`). -/
inductive Owner where
  | observed (reporter : Reporter)
  | overridden (id : Uuid)
  deriving DecidableEq

/-- What reports are compared by: priority, time, source, observation. -/
abbrev Precedence := ℕ ×ₗ Time ×ₗ Uuid ×ₗ Uuid

def Reporter.precedence (path : Path) (reporter : Reporter) : Precedence :=
  toLex (priority reporter.sourceKind path,
    toLex (reporter.observedAt, toLex (reporter.sourceId, reporter.observationId)))

/-- The rank of an owner.  An override has neither a time nor a source. -/
def Owner.precedence (path : Path) : Owner → Precedence
  | .observed reporter => reporter.precedence path
  | .overridden _ => toLex (priority .manual path, toLex (0, toLex (0, 0)))

def Owner.manual : Owner → Bool
  | .observed reporter => reporter.sourceKind = .manual
  | .overridden _ => true

def effectiveOwner (owner : Option Owner) (overridden : Bool) : Option Owner :=
  if overridden then owner else owner.filter fun owner => !owner.manual

def sourceWins (reporter : Reporter) (owner : Option Owner) (path : Path) : Bool :=
  match owner with
  | none => true
  | some owner => owner.precedence path ≤ reporter.precedence path

/-! ### Fields -/

@[ext] structure Slot (V : Type*) where
  value : Option V := none
  owner : Option Owner := none
  deriving DecidableEq

structure Override (V : Type*) where
  id : Uuid
  value : Option V

section Rows

variable {F V : Type*}

/-- `reconcile_field/6`.  `store` is what the changeset makes of a value. -/
def reconcileField (store : Option V → Option V) (path : Path) (reporter : Reporter)
    (override : Option (Override V)) (slot : Slot V) (incoming : Option V) : Slot V :=
  match override with
  | some override => { value := store override.value, owner := some (.overridden override.id) }
  | none =>
    if sourceWins reporter (effectiveOwner slot.owner false) path then
      { value := store incoming, owner := some (.observed reporter) }
    else slot

/-- `reconcile_fields/6`.  A field may be absent from what comes in, or empty. -/
def reconcileFields (store : F → Option V → Option V) (path : F → Path) (reporter : Reporter)
    (overrides : F → Option (Override V)) (incoming : F → Option (Option V))
    (slots : F → Slot V) : F → Slot V := fun field =>
  match incoming field with
  | none => slots field
  | some value =>
    reconcileField (store field) (path field) reporter (overrides field) (slots field) value

def initialFields (store : F → Option V → Option V) (reporter : Reporter)
    (overrides : F → Option (Override V)) (incoming : F → Option (Option V))
    (defaults : F → Option V) : F → Slot V := fun field =>
  match incoming field with
  | none => { value := defaults field }
  | some value =>
    match overrides field with
    | none => { value := store field value, owner := some (.observed reporter) }
    | some override =>
      { value := store field override.value, owner := some (.overridden override.id) }

end Rows

/-! ### The contest for a field -/

section Contest

variable {V : Type*}

structure Said (V : Type*) where
  reporter : Reporter
  value : Option V
  deriving DecidableEq

def Said.precedence (path : Path) (said : Said V) : Precedence := said.reporter.precedence path

def Said.Manual (said : Said V) : Prop := said.reporter.sourceKind = .manual

instance : DecidablePred (Said.Manual (V := V)) := fun said =>
  inferInstanceAs (Decidable (said.reporter.sourceKind = .manual))

/-- The slot that holds what was said, or the value of nobody. -/
def slotOf (store : Option V → Option V) (default : Option V) : Option (Said V) → Slot V
  | none => { value := default }
  | some said => { value := store said.value, owner := some (.observed said.reporter) }

variable {store : Option V → Option V} {default : Option V} {path : Path}
  {holder : Option (Said V)}

theorem reconcileField_slotOf (said : Said V) :
    reconcileField store path said.reporter none (slotOf store default holder) said.value
      = slotOf store default
        (Contest.challenge (Said.precedence path) Said.Manual holder said) := by
  cases holder with
  | none => rfl
  | some held =>
    unfold reconcileField Contest.challenge
    by_cases manual : held.Manual
    · have gone : effectiveOwner (slotOf store default (some held)).owner false = none := by
        simp [effectiveOwner, slotOf, Owner.manual, show held.reporter.sourceKind = .manual from
          manual]
      simp only [gone, sourceWins, if_true]
      rw [if_pos (Or.inl manual)]
      rfl
    have stays : effectiveOwner (slotOf store default (some held)).owner false
        = some (.observed held.reporter) := by
      simp [effectiveOwner, slotOf, Owner.manual,
        show ¬ held.reporter.sourceKind = .manual from manual]
    simp only [stays, sourceWins, decide_eq_true_eq]
    by_cases above : held.precedence path ≤ said.precedence path
    · rw [if_pos (Or.inr above)]
      exact if_pos above
    rw [if_neg (not_or.2 ⟨manual, above⟩)]
    exact if_neg above

theorem Said.precedence_lt {one other : Said V} (manual : one.Manual) (plain : ¬ other.Manual) :
    other.precedence path < one.precedence path := by
  refine Prod.Lex.toLex_lt_toLex.2 (Or.inl ?_)
  show priority other.reporter.sourceKind path < priority one.reporter.sourceKind path
  rw [show one.reporter.sourceKind = .manual from manual]
  exact priority_lt_manual plain

theorem Reporter.observationId_of_precedence {one other : Reporter}
    (same : one.precedence path = other.precedence path) :
    one.observationId = other.observationId := by
  have fields := congrArg (fun rank : Precedence => (ofLex (ofLex (ofLex rank).2).2).2) same
  exact fields

def Consistent (heard : List (Said V)) : Prop :=
  ∀ one ∈ heard, ∀ other ∈ heard,
    one.reporter.observationId = other.reporter.observationId → one = other

variable {heard : List (Said V)}

theorem Consistent.apart (consistent : Consistent heard) :
    ∀ one ∈ heard, ∀ other ∈ heard, one.precedence path = other.precedence path → one = other :=
  fun one mem other mem' same =>
    consistent one mem other mem' (Reporter.observationId_of_precedence same)

variable {said : Said V}

theorem slotOf_eq_iff (consistent : Consistent heard) (mem : said ∈ heard)
    (held : ∀ other, holder = some other → other ∈ heard) :
    slotOf store default holder = slotOf store default (some said) ↔ holder = some said := by
  constructor
  · intro same
    have owners := congrArg Slot.owner same
    cases holder with
    | none => cases owners
    | some other =>
      have reporters : other.reporter = said.reporter :=
        Owner.observed.inj (Option.some.inj owners)
      exact congrArg some (consistent other (held other rfl) said mem (by rw [reporters]))
  rintro rfl
  rfl

def settle (path : Path) (heard : List (Said V)) : Option (Said V) :=
  Contest.outcome (Said.precedence path) Said.Manual heard

theorem mem_of_settle (holds : settle path heard = some said) :
    said ∈ heard := Contest.outcome_mem holds

def greatest (path : Path) (heard : List (Said V)) : Option (Said V) :=
  heard.argmax (Said.precedence path)

/-- A field ends with the greatest report if that is not by a source of kind `manual`, or if it
is the last one. -/
theorem slotOf_settle_iff (consistent : Consistent heard) (is : greatest path heard = some said) :
    slotOf store default (settle path heard) = slotOf store default (some said) ↔
      ¬ said.Manual ∨ heard.getLast? = some said := by
  rw [slotOf_eq_iff consistent (List.argmax_mem is) fun _ => mem_of_settle]
  exact Contest.outcome_eq_argmax_iff consistent.apart
    (fun _ _ manual _ _ plain => Said.precedence_lt manual plain) is

end Contest

end Renga.Inventory
