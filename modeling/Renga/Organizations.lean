import Mathlib.Data.Int.Order.Basic
import Mathlib.Data.List.Basic

/-!
# Organizations and their lifecycle

`Renga.Operators.OrganizationLifecycle`: an operator suspends and resumes an organization
and schedules or cancels its deletion.  `transition` is the pure part, the columns an action
changes; `none` is the empty map, an action that is already satisfied.  Identifiers are
opaque keys with an order (queries sort by them), times are milliseconds.
-/

namespace Renga

/-- A UUID.  Only equality and the order queries sort by are used. -/
abbrev Uuid := ℕ

instance : LawfulBEq (Uuid × Uuid) := inferInstance

/-- Milliseconds. -/
abbrev Time := ℤ

/-- Times are compared as integers are.  Of the instances for integers this is the one that
computes. -/
instance : LinearOrder Time := Int.instLinearOrder

instance : Preorder Time := Int.instLinearOrder.toPreorder

def seconds (n : ℤ) : Time := n * 1000

inductive OrganizationStatus where
  | active
  | disabled
  | deletionPending
  | purging
  deriving DecidableEq

/-- The columns of an organization the modelled code reads.
`allowedCapabilities` is the stored job setting, absent until an owner chose
one; `jobCreationRate` is the organization's limit of that name. -/
structure Organization where
  id : Uuid
  status : OrganizationStatus
  deletionScheduledAt : Option Time := none
  deletionDueAt : Option Time := none
  allowedCapabilities : Option (List String) := none
  jobCreationRate : ℕ := 60
  deriving DecidableEq

/-- A person or system a request is made for.  `holds` is what
`Authorization.authorize!` answers for a permission of the scope's membership. -/
structure Scope where
  organizationId : Uuid
  userId : Option Uuid := none
  membershipId : Option Uuid := none
  holds : String → Bool := fun _ => false

namespace OrganizationLifecycle

inductive Action where
  | suspend
  | resume
  | scheduleDeletion
  | cancelDeletion
  deriving DecidableEq

/-- The map of `transition/2`: the new status with the deletion columns. -/
structure Attrs where
  status : OrganizationStatus
  deletion : Option (Option Time × Option Time) := none
  deriving DecidableEq

def clearDeletion (status : OrganizationStatus) : Attrs :=
  { status, deletion := some (none, none) }

/-- `transition/2`; `none` on the left is the refusal `:purging`. -/
def transition (organization : Organization) (action : Action) (now : Time) :
    Option (Option Attrs) :=
  match organization.status, action with
  | .purging, _ => none
  | .active, .resume => some none
  | .active, .suspend => some (some { status := .disabled })
  | _, .suspend => some none
  | _, .resume => some (some (clearDeletion .active))
  | .deletionPending, .scheduleDeletion => some none
  | _, .scheduleDeletion =>
    some (some { status := .deletionPending
                 deletion := some (some now, some (now + seconds (30 * 24 * 3600))) })
  | .deletionPending, .cancelDeletion => some (some (clearDeletion .active))
  | _, .cancelDeletion => some none

def change (organization : Organization) (attrs : Attrs) : Organization :=
  { organization with
    status := attrs.status
    deletionScheduledAt := (attrs.deletion.map Prod.fst).getD organization.deletionScheduledAt
    deletionDueAt := (attrs.deletion.map Prod.snd).getD organization.deletionDueAt }

variable {organization : Organization} {attrs : Attrs}

@[simp] theorem change_id :
    (change organization attrs).id = organization.id := rfl

@[simp] theorem change_status :
    (change organization attrs).status = attrs.status := rfl

end OrganizationLifecycle

end Renga
