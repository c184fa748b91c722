import Renga.Access.Permissions
import Renga.Lib.KeyTable
import Renga.Lib.Run
import Renga.Organizations

/-!
# Members, roles and invitations

The tables of `Renga.Accounts`, `Renga.Roles` and `Renga.Transfers` that decide what a
person may do in an organization.  A membership holds a built-in base role; assignments add
further roles until they expire.  An invitation offers a base role; one that names an
imported principal also brings back what an import has held for that person.
-/

namespace Renga.Access

/-- What the string functions answer: `String.trim`, `String.downcase`, `String.length`, and
the folding under which `citext` compares. -/
structure Texts where
  trim : String → String
  downcase : String → String
  length : String → ℕ
  fold : String → String

/-! ### Errors -/

/-- What a transaction is rolled back with.  `raised` is an exception: a constraint of the
database, or a row that is not there. -/
inductive Error where
  | forbidden
  | notFound
  | invalidRole
  | lastOwner
  | self
  | scimManaged
  | alreadyAssigned
  | invalid
  | wrongEmail
  | alreadyMember
  | scopedSession
  | notEligible
  | changeset (errors : List (String × String))
  | raised
  deriving DecidableEq

def ensure (condition : Bool) (error : Error) : Except Error PUnit :=
  Except.require condition error

/-! ### Rows -/

inductive MemberStatus where
  | active
  | disabled
  deriving DecidableEq

structure Membership where
  id : Uuid
  organizationId : Uuid
  userId : Uuid
  role : BuiltInRole
  status : MemberStatus := .active
  scimConnectionId : Option Uuid := none
  deriving DecidableEq

structure Role where
  id : Uuid
  organizationId : Uuid
  name : String
  description : Option String := none
  permissions : List Permission
  deriving DecidableEq

inductive AssignedRole where
  | builtIn (role : BuiltInRole)
  | custom (roleId : Uuid)
  deriving DecidableEq

structure Assignment where
  id : Uuid
  organizationId : Uuid
  membershipId : Uuid
  role : AssignedRole
  validUntil : Option Time := none
  reason : Option String := none
  deriving DecidableEq

/-- `Assignment.current?/2`, which is also the condition of `current_assignments/1`. -/
def Assignment.current (assignment : Assignment) (now : Time) : Bool :=
  match assignment.validUntil with
  | none => true
  | some validUntil => now < validUntil

structure User where
  id : Uuid
  email : Option String := none
  confirmedAt : Option Time := none
  deriving DecidableEq

structure Invitation where
  id : Uuid
  organizationId : Uuid
  email : String
  role : BuiltInRole
  tokenHash : String
  expiresAt : Time
  acceptedAt : Option Time := none
  revokedAt : Option Time := none
  invitedByUserId : Option Uuid := none
  invitedByOperator : Option String := none
  invitedByOperatorTokenId : Option Uuid := none
  importedPrincipalId : Option Uuid := none
  deriving DecidableEq

def Invitation.pending (invitation : Invitation) : Bool :=
  invitation.acceptedAt.isNone && invitation.revokedAt.isNone

/-- It can still be accepted. -/
def Invitation.isOpen (invitation : Invitation) (now : Time) : Bool :=
  invitation.pending && now < invitation.expiresAt

structure OperatorToken where
  id : Uuid
  revokedAt : Option Time := none
  deriving DecidableEq

structure ImportedPrincipal where
  id : Uuid
  organizationId : Uuid
  email : Option String := none
  userId : Option Uuid := none
  deriving DecidableEq

inductive HeldMetadata where
  | absent
  | managedBy
  | plain
  | malformed
  deriving DecidableEq

/-- A row of `imported_held_records` of type `organization_memberships`. -/
structure HeldMembership where
  id : Uuid
  organizationId : Uuid
  principalId : Uuid
  membershipId : Uuid
  status : String
  role : String
  metadata : HeldMetadata := .absent
  deriving DecidableEq

/-- A row of `imported_held_records` of type `role_assignments`. -/
structure HeldAssignment where
  id : Uuid
  organizationId : Uuid
  principalId : Uuid
  assignmentId : Uuid
  membershipId : Uuid
  builtInRole : Option String := none
  roleId : Option Uuid := none
  validUntil : Option Time := none
  expiredAt : Option Time := none
  source : String := "manual"
  reason : Option String := none
  deriving DecidableEq

/-! ### The database -/

structure Db where
  organizations : KeyTable Uuid Organization Organization.id := .empty
  memberships : KeyTable Uuid Membership Membership.id := .empty
  roles : KeyTable Uuid Role Role.id := .empty
  assignments : KeyTable Uuid Assignment Assignment.id := .empty
  users : KeyTable Uuid User User.id := .empty
  invitations : KeyTable Uuid Invitation Invitation.id := .empty
  operatorTokens : KeyTable Uuid OperatorToken OperatorToken.id := .empty
  principals : KeyTable Uuid ImportedPrincipal ImportedPrincipal.id := .empty
  heldMemberships : List HeldMembership := []
  heldAssignments : List HeldAssignment := []

namespace Db

/-- Inserts a membership; the organization and the user identify it as well. -/
def insertMembership! (db : Db) (membership : Membership) : Except Error Db :=
  if fresh : db.memberships.get? membership.id = none then
    if db.memberships.rows.any fun other =>
        other.organizationId = membership.organizationId ∧ other.userId = membership.userId then
      .error .raised
    else .ok { db with memberships := db.memberships.add membership fresh }
  else .error .raised

/-- Whether the foreign keys of an assignment are met: its member, and its custom role if it
has one, are in its organization. -/
def references (db : Db) (assignment : Assignment) : Bool :=
  (db.memberships.rows.any fun membership =>
    membership.id = assignment.membershipId ∧
      membership.organizationId = assignment.organizationId) &&
  match assignment.role with
  | .builtIn _ => true
  | .custom roleId =>
    db.roles.rows.any fun role =>
      role.id = roleId ∧ role.organizationId = assignment.organizationId

def insertAssignment! (db : Db) (assignment : Assignment) : Except Error Db :=
  if fresh : db.assignments.get? assignment.id = none then
    if db.references assignment then
      .ok { db with assignments := db.assignments.add assignment fresh }
    else .error .raised
  else .error .raised

end Db

end Renga.Access
