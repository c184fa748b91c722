import Renga.Access.Schema

/-!
# Administering members and roles

`Renga.Authorization.authorize!`, `Renga.Roles`, `Renga.Assignments`, `Renga.Members` and
`Renga.Transfers.Principals`: the transactions that change what people may do.  Each of them locks
the organization, so they are modelled one after the other.
-/

namespace Renga.Access

/-! ### Authorization -/

/-- `Renga.Accounts.Scope`: who acts, in which organization.  `mfaSatisfied` is what
`OrganizationMFA.satisfied?` answers for the session. -/
structure Scope where
  organizationId : Uuid
  userId : Option Uuid := none
  membershipId : Option Uuid := none
  mfaSatisfied : Bool := true
  deriving DecidableEq

/-- What a transaction reads of the clock: in `authorize!`, in `current_roles!`, and for the
change itself. -/
structure Clock where
  authorizedAt : Time
  rolesAt : Time
  now : Time
  deriving DecidableEq

namespace Db

/-- `holding/2`: the base role or a current assignment grants the permission. -/
def holding (db : Db) (membership : Membership) (permission : Permission) (now : Time) : Bool :=
  membership.role ∈ rolesGranting permission ||
    db.assignments.rows.any fun assignment =>
      assignment.membershipId = membership.id && assignment.current now &&
        match assignment.role with
        | .builtIn role => role ∈ rolesGranting permission
        | .custom roleId => (db.roles.get? roleId).any (permission ∈ ·.permissions)

def lockActiveOrganization! (db : Db) (organizationId : Uuid) : Except Error PUnit :=
  ensure ((db.organizations.get? organizationId).any (·.status = .active)) .forbidden

def authorize! (db : Db) (scope : Scope) (permission : Permission) (now : Time) :
    Except Error PUnit :=
  match scope.membershipId, scope.userId with
  | some membershipId, some userId => do
      db.lockActiveOrganization! scope.organizationId
      ensure ((db.memberships.get? membershipId).any fun membership =>
        membership.userId = userId ∧ membership.organizationId = scope.organizationId ∧
          membership.status = .active ∧ db.holding membership permission now) .forbidden
      ensure scope.mfaSatisfied .forbidden
  | _, _ => .error .forbidden

def assignedRoles (db : Db) (membershipId : Uuid) (now : Time) : List BuiltInRole :=
  ((db.assignments.rows.filter fun assignment =>
      assignment.current now && assignment.membershipId = membershipId).filterMap
    fun assignment =>
      match assignment.role with
      | .builtIn role => some role
      | .custom _ => none).reverse.eraseDups

def rolesOf (db : Db) (membership : Membership) (now : Time) : List BuiltInRole :=
  (membership.role :: db.assignedRoles membership.id now).eraseDups

def currentRoles! (db : Db) (membershipId : Uuid) (now : Time) :
    Except Error (List BuiltInRole) := do
  let membership ← Except.ofOption (db.memberships.get? membershipId) .raised
  return db.rolesOf membership now

end Db

structure Ceiling where
  roles : List BuiltInRole
  permissions : List Permission
  deriving DecidableEq

def Ceiling.of (roles : List BuiltInRole) : Ceiling :=
  { roles := grantableRoles roles, permissions := grantablePermissions roles }

variable (texts : Texts) (db : Db) (scope : Scope) (membershipId : Uuid) (clock : Clock)

/-- The start of every transaction of a person: the permission is checked, then the roles the
membership holds are read for the ceiling. -/
def Db.ceiling! (permission : Permission) (clock : Clock) : Except Error Ceiling := do
  db.authorize! scope permission clock.authorizedAt
  let membershipId ← Except.ofOption scope.membershipId .raised
  let roles ← db.currentRoles! membershipId clock.rolesAt
  return .of roles

/-! ### Custom roles -/

/-- The attributes of a custom role as they are cast: absent, empty or a value. -/
structure RoleAttrs where
  name : Option (Option String) := none
  description : Option (Option String) := none
  permissions : Option (List (Option String)) := none
  deriving DecidableEq

def blankToNil (value : Option String) : Option String :=
  value.bind fun value => if texts.trim value = "" then none else some (texts.trim value)

def normalizePermissions (permissions : List (Option String)) : List String :=
  ((permissions.filterMap id).filter (· ≠ "")).eraseDups.insertionSort (· ≤ ·)

/-- A changeset of a role: the fields with the changes applied, and which of them are
changes. -/
structure RoleChange where
  name : Option String
  nameChanged : Bool
  description : Option String
  descriptionChanged : Bool
  permissions : List String
  permissionsChanged : Bool
  deriving DecidableEq

/-- `Role.changeset/2` up to its validations.  A role that is not stored yet has no name and
no permissions. -/
def Role.changeset (current : Option Role) (attrs : RoleAttrs) : RoleChange :=
  let oldName := current.map (·.name)
  let oldDescription := current.bind (·.description)
  let oldPermissions := (current.map (·.permissions)).getD [] |>.map Permission.name
  let name := attrs.name.elim oldName (blankToNil texts)
  let description := attrs.description.elim oldDescription (blankToNil texts)
  let permissions := attrs.permissions.elim oldPermissions normalizePermissions
  { name
    nameChanged := name ≠ oldName
    description
    descriptionChanged := description ≠ oldDescription
    permissions
    permissionsChanged := permissions ≠ oldPermissions }

def check (condition : Bool) (field message : String) : List (String × String) :=
  if condition then [] else [(field, message)]

def RoleChange.errors (change : RoleChange) : List (String × String) :=
  check change.name.isSome "name" "can't be blank" ++
  check (!change.nameChanged || change.name.all fun name => texts.length name ≤ 60)
    "name" "should be at most 60 character(s)" ++
  check (!change.descriptionChanged || change.description.all fun text => texts.length text ≤ 500)
    "description" "should be at most 500 character(s)" ++
  check (!change.nameChanged || change.name.all fun name =>
      texts.downcase name ∉ BuiltInRole.roleOrder.map BuiltInRole.name)
    "name" "is the name of a built-in role" ++
  check (!change.permissions.isEmpty) "permissions" "choose at least one permission" ++
  check (!change.permissionsChanged || change.permissions.all fun text =>
      text ∈ Permission.all.map Permission.name)
    "permissions" "has an unknown permission" ++
  check (!change.permissionsChanged || change.permissions.all fun text =>
      text ∈ customRolePermissions.map Permission.name)
    "permissions" "can't include members.manage or roles.manage" ++
  check (!((change.permissions.filterMap Permission.ofName?).any (· ∈ Permission.explicit) &&
      (change.permissions.filterMap Permission.ofName?).any (· ∉ Permission.explicit)))
    "permissions" "can't mix explicit permissions with others"

def RoleChange.ceilingErrors (change : RoleChange) (ceiling : Ceiling) : List (String × String) :=
  let above := change.permissions.diff (ceiling.permissions.map Permission.name)
  check (!change.permissionsChanged || above.isEmpty) "permissions"
    ("includes " ++ String.intercalate ", " above ++ ", which you may not grant")

/-- `roles_organization_name_index`: no other role of the organization has the name. -/
def Db.nameTaken (role : Role) : Bool :=
  db.roles.rows.any fun other =>
    other.id ≠ role.id ∧ other.organizationId = role.organizationId ∧
      texts.fold other.name = texts.fold role.name

def RoleChange.apply (change : RoleChange) (id organizationId : Uuid) : Role :=
  { id
    organizationId
    name := change.name.getD ""
    description := change.description
    permissions := change.permissions.filterMap Permission.ofName? }

def valid! (errors : List (String × String)) : Except Error PUnit :=
  ensure errors.isEmpty (.changeset errors)

def createRole (attrs : RoleAttrs) (newId : Uuid) (clock : Clock) : Except Error Db := do
  let ceiling ← db.ceiling! scope .rolesManage clock
  let change := Role.changeset texts none attrs
  let role := change.apply newId scope.organizationId
  valid! (change.errors texts ++ change.ceilingErrors ceiling)
  valid! (check (!db.nameTaken texts role) "name" "is already a role in this organization")
  if fresh : db.roles.get? role.id = none then
    return { db with roles := db.roles.add role fresh }
  else .error .raised

def Db.lockRole (roleId : Uuid) : Except Error Role :=
  Except.ofOption ((db.roles.get? roleId).filter (·.organizationId = scope.organizationId))
    .notFound

def withinPermissions (permissions : List Permission) (ceiling : Ceiling) : Bool :=
  (permissions.diff ceiling.permissions).isEmpty

def updateRole (roleId : Uuid) (attrs : RoleAttrs) (clock : Clock) : Except Error Db := do
  let ceiling ← db.ceiling! scope .rolesManage clock
  let current ← db.lockRole scope roleId
  ensure (withinPermissions current.permissions ceiling) .forbidden
  let change := Role.changeset texts (some current) attrs
  let role := change.apply current.id current.organizationId
  valid! (change.errors texts ++ change.ceilingErrors ceiling)
  valid! (check (!db.nameTaken texts role) "name" "is already a role in this organization")
  return { db with roles := db.roles.put role }

/-- `Roles.delete_role/2`; the assignments of the role go with it. -/
def deleteRole (roleId : Uuid) (clock : Clock) : Except Error Db := do
  let ceiling ← db.ceiling! scope .rolesManage clock
  let current ← db.lockRole scope roleId
  ensure (withinPermissions current.permissions ceiling) .forbidden
  return { db with
    roles := db.roles.erase current.id
    assignments := db.assignments.filter (·.role ≠ .custom current.id) }

/-! ### Assignments -/

inductive RoleText where
  | builtIn (role : BuiltInRole)
  | uuid (id : Uuid)
  | other
  deriving DecidableEq

inductive ResolvedRole where
  | builtIn (role : BuiltInRole)
  | custom (role : Role)
  deriving DecidableEq

/-- The attributes of an assignment as they are cast. -/
structure AssignmentAttrs where
  role : RoleText
  validUntil : Option Time := none
  reason : Option String := none
  deriving DecidableEq

def invalidRole : Error := .changeset [("built_in_role", "choose a role")]

def Db.resolveRole : RoleText → Except Error ResolvedRole
  | .builtIn role => .ok (.builtIn role)
  | .uuid id => do
      let role ← Except.ofOption
        ((db.roles.get? id).filter (·.organizationId = scope.organizationId)) invalidRole
      return .custom role
  | .other => .error invalidRole

def ResolvedRole.within (ceiling : Ceiling) : ResolvedRole → Bool
  | .builtIn role => role ∈ ceiling.roles
  | .custom role => withinPermissions role.permissions ceiling

def ResolvedRole.assigned : ResolvedRole → AssignedRole
  | .builtIn role => .builtIn role
  | .custom role => .custom role.id

def Db.lockMember : Except Error Membership :=
  Except.ofOption ((db.memberships.get? membershipId).filter
    (·.organizationId = scope.organizationId)) .notFound

def assignmentErrors (validUntil : Option Time) (reason : Option String) (now : Time) :
    List (String × String) :=
  check (reason.all fun text => texts.length text ≤ 500)
    "reason" "should be at most 500 character(s)" ++
  check (validUntil.all fun time => now < time) "valid_until" "must be in the future"

def assign (attrs : AssignmentAttrs) (newId : Uuid) (clock : Clock) : Except Error Db := do
  let ceiling ← db.ceiling! scope .membersManage clock
  let member ← db.lockMember scope membershipId
  let role ← db.resolveRole scope attrs.role
  ensure (role.within ceiling) .forbidden
  ensure (!db.assignments.rows.any fun assignment =>
    assignment.membershipId = member.id ∧ assignment.role = role.assigned ∧
      assignment.current clock.now) .alreadyAssigned
  let reason := blankToNil texts attrs.reason
  valid! (assignmentErrors texts attrs.validUntil reason clock.now)
  db.insertAssignment!
    { id := newId
      organizationId := scope.organizationId
      membershipId := member.id
      role := role.assigned
      validUntil := attrs.validUntil
      reason }

def Db.preloadRole : AssignedRole → Except Error ResolvedRole
  | .builtIn role => .ok (.builtIn role)
  | .custom roleId => do
      let role ← Except.ofOption (db.roles.get? roleId) .raised
      return .custom role

def unassign (assignmentId : Uuid) (clock : Clock) : Except Error Db := do
  let ceiling ← db.ceiling! scope .membersManage clock
  let assignment ← Except.ofOption ((db.assignments.get? assignmentId).filter
    (·.organizationId = scope.organizationId)) .notFound
  let role ← db.preloadRole assignment.role
  ensure (role.within ceiling) .forbidden
  return { db with assignments := db.assignments.erase assignment.id }

/-! ### Members -/

def Db.memberWithinCeiling (member : Membership) (ceiling : Ceiling) (now : Time) : Bool :=
  member.role ∈ ceiling.roles &&
    (db.assignments.rows.filter fun assignment =>
      assignment.membershipId = member.id && assignment.current now).all fun assignment =>
        match assignment.role with
        | .builtIn role => role ∈ ceiling.roles
        | .custom roleId =>
          (db.roles.get? roleId).any fun role => withinPermissions role.permissions ceiling

def Db.lastActiveOwner (member : Membership) : Bool :=
  (member.role = .owner ∧ member.status = .active) &&
    !db.memberships.rows.any fun other =>
      other.organizationId = member.organizationId ∧ other.id ≠ member.id ∧
        other.role = .owner ∧ other.status = .active ∧ other.scimConnectionId = none

/-- `administer/3` of `Members`: the change is made to a member whose access is within the
ceiling. -/
def administer (change : Ceiling → Membership → Except Error Membership) : Except Error Db := do
  let ceiling ← db.ceiling! scope .membersManage clock
  let member ← db.lockMember scope membershipId
  ensure member.scimConnectionId.isNone .scimManaged
  ensure (db.memberWithinCeiling member ceiling clock.now) .forbidden
  let changed ← change ceiling member
  return { db with memberships := db.memberships.put changed }

def changeRole (role : String) (clock : Clock) : Except Error Db :=
  administer db scope membershipId clock fun ceiling member =>
    match BuiltInRole.ofName? role with
    | none => .error .invalidRole
    | some role =>
      if member.role = role then .ok member
      else if role ∉ ceiling.roles then .error .forbidden
      else if db.lastActiveOwner member then .error .lastOwner
      else .ok { member with role }

def disableMember : Except Error Db :=
  administer db scope membershipId clock fun _ member =>
    if member.status = .disabled then .ok member
    else if some member.id = scope.membershipId then .error .self
    else if db.lastActiveOwner member then .error .lastOwner
    else .ok { member with status := .disabled }

def enableMember : Except Error Db :=
  administer db scope membershipId clock fun _ member =>
    if member.status = .active then .ok member else .ok { member with status := .active }

/-! ### Invitations -/

/-- The attributes of an invitation as they are cast. -/
structure InvitationAttrs where
  email : Option String
  role : Option String
  deriving DecidableEq

/-- The format an address must have: something, one `@`, something, with no separators. -/
def emailFormat (email : String) : Bool :=
  let plain (c : Char) : Bool := c ∉ ['@', ',', ';', ' ', '\t', '\n', '\r', '\x0b', '\x0c']
  let name := email.toList.takeWhile plain
  let domain := (email.toList.dropWhile plain).tail
  !name.isEmpty && (email.toList.dropWhile plain).head? = some '@' && !domain.isEmpty &&
    domain.all plain

/-- `returning_role/2`, from the held membership of a principal. -/
def returningRole (principal : ImportedPrincipal) (held : Option HeldMembership) : Option String :=
  if principal.email = none ∨ principal.email = some "" then none
  else
    match held with
    | none => none
    | some record =>
      if record.status = "active" then
        match record.metadata with
        | .absent => some record.role
        | .managedBy => none
        | .plain => some record.role
        | .malformed => none
      else none

namespace Db

variable (texts : Texts) (db : Db) (organizationId : Uuid)

/-- The held membership `held_memberships/2` maps a principal to. -/
def heldMembership (principalId : Uuid) : Option HeldMembership :=
  (db.heldMemberships.filter fun held =>
    held.organizationId = organizationId ∧ held.principalId = principalId).getLast?

def invitable (principalId : Uuid) (email : String) : Bool :=
  match db.principals.get? principalId with
  | none => false
  | some principal =>
    principal.organizationId = organizationId ∧ principal.userId = none ∧
      principal.email.any (fun address => texts.fold address = texts.fold email) ∧
      (returningRole principal (db.heldMembership organizationId principalId)).isSome

def memberEmail (email : String) : Bool :=
  db.memberships.rows.any fun membership =>
    membership.organizationId = organizationId ∧
      (db.users.get? membership.userId).any fun user =>
        user.email.any fun address => texts.fold address = texts.fold email

/-- The validations of `create_changeset/2`, `validate_invitable/3` and
`validate_imported/3`. -/
def invitationErrors (scope : Scope) (email role : Option String)
    (importedPrincipalId : Option Uuid) (ceiling : List BuiltInRole) : List (String × String) :=
  check email.isSome "email" "can't be blank" ++
  check role.isSome "role" "can't be blank" ++
  check (email.all emailFormat) "email" "must have the @ sign and no spaces" ++
  check (email.all fun email => texts.length email ≤ 160)
    "email" "should be at most 160 character(s)" ++
  check (role.all fun role => role ∈ BuiltInRole.roleOrder.map BuiltInRole.name)
    "role" "is invalid" ++
  check (role.all fun role => role ∈ ceiling.map BuiltInRole.name)
    "role" "is above what you may grant" ++
  check (email.all fun email => !db.memberEmail texts scope.organizationId email)
    "email" "already belongs to a member" ++
  check (importedPrincipalId.all fun principalId =>
      email.all fun email => db.invitable texts scope.organizationId principalId email)
    "email" "is not the imported person's address"

def replaceOpenInvitation (scope : Scope) (email : String) (ceiling : List BuiltInRole) (now : Time)
    : Except Error Db :=
  match db.invitations.rows.find? fun invitation =>
      invitation.organizationId = scope.organizationId ∧
        texts.fold invitation.email = texts.fold email ∧ invitation.pending with
  | none => .ok db
  | some invitation =>
    if invitation.role ∈ ceiling then
      .ok { db with invitations := db.invitations.put { invitation with revokedAt := some now } }
    else .error .forbidden

end Db

/-- `OrganizationInvitation.validity_days/0`, in milliseconds. -/
def invitationValidity : Time := seconds (7 * 24 * 3600)

variable (texts : Texts) (db : Db) (scope : Scope) (invitation : Invitation) (principalId : Uuid)

def invite (attrs : InvitationAttrs) (importedPrincipalId : Option Uuid) (tokenHash : String)
    (newId : Uuid) (clock : Clock) : Except Error Db := do
  let ceiling ← db.ceiling! scope .membersManage clock
  let email := blankToNil texts attrs.email
  valid! (db.invitationErrors texts scope email attrs.role importedPrincipalId ceiling.roles)
  let email ← Except.ofOption email .raised
  let role ← Except.ofOption (attrs.role.bind BuiltInRole.ofName?) .raised
  let db ← db.replaceOpenInvitation texts scope email ceiling.roles clock.now
  let invitation : Invitation :=
    { id := newId
      organizationId := scope.organizationId
      email
      role
      tokenHash
      expiresAt := clock.now + invitationValidity
      invitedByUserId := scope.userId
      importedPrincipalId }
  if fresh : db.invitations.get? invitation.id = none then
    return { db with invitations := db.invitations.add invitation fresh }
  else .error .raised

/-- `Principals.invite/3`.  A principal that is not in the organization falls through to the
same clause as one that may not return. -/
def inviteBack (tokenHash : String) (newId : Uuid) (clock : Clock) : Except Error Db :=
  match (db.principals.get? principalId).filter (·.organizationId = scope.organizationId) with
  | none => .error .notEligible
  | some principal =>
    if principal.userId.isSome then .error .notFound
    else
      match returningRole principal (db.heldMembership scope.organizationId principalId) with
      | none => .error .notEligible
      | some role =>
        invite texts db scope { email := principal.email, role := some role }
          (some principal.id) tokenHash newId clock

def revokeInvitation (invitationId : Uuid) (clock : Clock) : Except Error Db := do
  let ceiling ← db.ceiling! scope .membersManage clock
  let invitation ← Except.ofOption ((db.invitations.get? invitationId).filter fun invitation =>
    invitation.organizationId = scope.organizationId ∧ invitation.pending) .notFound
  ensure (invitation.role ∈ ceiling.roles) .forbidden
  return { db with
    invitations := db.invitations.put { invitation with revokedAt := some clock.now } }

/-! ### Acceptance -/

/-- What an acceptance reads of the clock: for the acceptance itself, twice for the person
who invited, and once more where an import is restored. -/
structure AcceptanceClock where
  now : Time
  heldAt : Time
  rolesAt : Time
  restoredAt : Time
  deriving DecidableEq

/-- The account that accepts, with the organization its session is scoped to and what
`organization_verified_email?/2` answers for it. -/
structure Recipient where
  userId : Uuid
  sessionOrganizationId : Option Uuid := none
  verifiedEmail : Bool := false
  deriving DecidableEq

def confirmedRecipient (user : User) (recipient : Recipient) (invitation : Invitation) : Bool :=
  (user.confirmedAt.isSome &&
    user.email.any fun email => texts.downcase email = texts.downcase invitation.email) ||
  recipient.verifiedEmail

def Db.inviter : Option Membership :=
  db.memberships.rows.find? fun membership =>
    membership.organizationId = invitation.organizationId ∧
      some membership.userId = invitation.invitedByUserId

def Db.inviterMayGrant (clock : AcceptanceClock) : Bool :=
  match invitation.invitedByUserId with
  | none =>
    invitation.invitedByOperator.isSome &&
      invitation.invitedByOperatorTokenId.all fun tokenId =>
        (db.operatorTokens.get? tokenId).any (·.revokedAt.isNone)
  | some _ =>
    (db.inviter invitation).any fun membership =>
      membership.status = .active ∧ db.holding membership .membersManage clock.heldAt ∧
        invitation.role ∈ grantableRoles (db.rolesOf membership clock.rolesAt)

def Db.heldWithin (ceiling : Ceiling) (held : HeldAssignment) : Except Error Bool :=
  match held.builtInRole, held.roleId with
  | some name, _ => .ok (name ∈ ceiling.roles.map BuiltInRole.name)
  | none, some roleId =>
    .ok ((db.roles.get? roleId).any fun role => withinPermissions role.permissions ceiling)
  | none, none => .error .raised

/-- `restore_record?/5` of a held assignment, in the order of its conditions. -/
def Db.restores (membershipId : Uuid) (ceiling : Ceiling) (now : Time) (held : HeldAssignment) :
    Except Error Bool :=
  if held.membershipId = membershipId ∧ held.source = "manual" ∧ held.expiredAt = none ∧
      (held.validUntil.all fun time => now < time) then db.heldWithin ceiling held
  else .ok false

/-- The role a held assignment is stored with; the checks of the table want exactly one. -/
def HeldAssignment.role? (held : HeldAssignment) : Option AssignedRole :=
  match held.builtInRole, held.roleId with
  | some name, none => (BuiltInRole.ofName? name).map .builtIn
  | none, some roleId => some (.custom roleId)
  | _, _ => none

def Db.restoreAssignment! (organizationId : Uuid) (held : HeldAssignment) : Except Error Db := do
  let role ← Except.ofOption held.role? .raised
  db.insertAssignment!
    { id := held.assignmentId
      organizationId
      membershipId := held.membershipId
      role
      validUntil := held.validUntil
      reason := held.reason }

def Db.restorable (db : Db) (membershipId : Uuid) (ceiling : Ceiling) (now : Time) :
    List HeldAssignment → Except Error (List HeldAssignment)
  | [] => .ok []
  | held :: rest => do
      let restores ← db.restores membershipId ceiling now held
      let rest ← db.restorable membershipId ceiling now rest
      return if restores then held :: rest else rest

def Db.restoreEach (organizationId : Uuid) : List HeldAssignment → Db → Except Error Db
  | [], db => .ok db
  | held :: rest, db => do
      let db ← db.restoreAssignment! organizationId held
      Db.restoreEach organizationId rest db

def Db.lockUnlinked : Option ImportedPrincipal :=
  (db.principals.get? principalId).filter fun principal =>
    principal.organizationId = invitation.organizationId ∧ principal.userId = none ∧
      principal.email.any fun address => texts.fold address = texts.fold invitation.email

def restore (userId principalId : Uuid) (clock : AcceptanceClock) : Except Error Db := do
  let principal ← Except.ofOption (db.lockUnlinked texts invitation principalId) .invalid
  let _ ← Except.ofOption
    (returningRole principal (db.heldMembership invitation.organizationId principal.id)) .invalid
  let memberships := db.heldMemberships.filter fun held =>
    held.organizationId = principal.organizationId ∧ held.principalId = principal.id
  let assignments := db.heldAssignments.filter fun held =>
    held.organizationId = principal.organizationId ∧ held.principalId = principal.id
  let record ← Except.ofOption (memberships.find? (·.status = "active")) .raised
  let membership : Membership :=
    { id := record.membershipId
      organizationId := invitation.organizationId
      userId
      role := invitation.role }
  let db ← db.insertMembership! membership
  let inviter ← Except.ofOption (db.inviter invitation) .raised
  let ceiling := Ceiling.of (db.rolesOf inviter clock.restoredAt)
  let applied ← db.restorable membership.id ceiling clock.now assignments
  let db ← Db.restoreEach invitation.organizationId applied db
  let consumed := memberships.find? fun held => held.metadata ≠ .managedBy ∧ held.status = "active"
  return { db with
    heldMemberships := db.heldMemberships.filter fun held => some held.id ≠ consumed.map (·.id)
    heldAssignments := db.heldAssignments.filter fun held => held.id ∉ applied.map (·.id)
    principals := db.principals.put { principal with userId := some userId } }

def enter (userId newId : Uuid) (clock : AcceptanceClock) : Except Error Db :=
  match invitation.importedPrincipalId with
  | none =>
    db.insertMembership!
      { id := newId
        organizationId := invitation.organizationId
        userId
        role := invitation.role }
  | some principalId => restore texts db invitation userId principalId clock

def acceptInvitation (recipient : Recipient) (tokenHash : String) (newId : Uuid)
    (clock : AcceptanceClock) : Except Error Db := do
  let invitation ← Except.ofOption
    (db.invitations.rows.find? fun invitation => invitation.tokenHash = tokenHash) .invalid
  ensure (recipient.sessionOrganizationId.all (· = invitation.organizationId)) .scopedSession
  db.lockActiveOrganization! invitation.organizationId
  let user ← Except.ofOption (db.users.get? recipient.userId) .invalid
  ensure (invitation.isOpen clock.now) .invalid
  ensure (confirmedRecipient texts user recipient invitation) .wrongEmail
  ensure (db.inviterMayGrant invitation clock) .forbidden
  ensure (!db.memberships.rows.any fun membership =>
    membership.organizationId = invitation.organizationId ∧ membership.userId = user.id)
    .alreadyMember
  let db ← enter texts db invitation user.id newId clock
  return { db with
    invitations := db.invitations.put { invitation with acceptedAt := some clock.now } }

/-! ### Steps -/

inductive Op where
  | createRole (scope : Scope) (attrs : RoleAttrs) (newId : Uuid) (clock : Clock)
  | updateRole (scope : Scope) (roleId : Uuid) (attrs : RoleAttrs) (clock : Clock)
  | deleteRole (scope : Scope) (roleId : Uuid) (clock : Clock)
  | assign (scope : Scope) (membershipId : Uuid) (attrs : AssignmentAttrs) (newId : Uuid)
      (clock : Clock)
  | unassign (scope : Scope) (assignmentId : Uuid) (clock : Clock)
  | changeRole (scope : Scope) (membershipId : Uuid) (role : String) (clock : Clock)
  | disableMember (scope : Scope) (membershipId : Uuid) (clock : Clock)
  | enableMember (scope : Scope) (membershipId : Uuid) (clock : Clock)
  | invite (scope : Scope) (attrs : InvitationAttrs) (tokenHash : String) (newId : Uuid)
      (clock : Clock)
  | inviteBack (scope : Scope) (principalId : Uuid) (tokenHash : String) (newId : Uuid)
      (clock : Clock)
  | revokeInvitation (scope : Scope) (invitationId : Uuid) (clock : Clock)
  | acceptInvitation (recipient : Recipient) (tokenHash : String) (newId : Uuid)
      (clock : AcceptanceClock)

def perform : Op → Except Error Db
  | .createRole scope attrs newId clock => createRole texts db scope attrs newId clock
  | .updateRole scope roleId attrs clock => updateRole texts db scope roleId attrs clock
  | .deleteRole scope roleId clock => deleteRole db scope roleId clock
  | .assign scope membershipId attrs newId clock =>
    assign texts db scope membershipId attrs newId clock
  | .unassign scope assignmentId clock => unassign db scope assignmentId clock
  | .changeRole scope membershipId role clock => changeRole db scope membershipId role clock
  | .disableMember scope membershipId clock => disableMember db scope membershipId clock
  | .enableMember scope membershipId clock => enableMember db scope membershipId clock
  | .invite scope attrs tokenHash newId clock =>
    invite texts db scope attrs none tokenHash newId clock
  | .inviteBack scope principalId tokenHash newId clock =>
    inviteBack texts db scope principalId tokenHash newId clock
  | .revokeInvitation scope invitationId clock => revokeInvitation db scope invitationId clock
  | .acceptInvitation recipient tokenHash newId clock =>
    acceptInvitation texts db recipient tokenHash newId clock

def step (op : Op) : Db := Run.commit db (perform texts db op)

abbrev run (texts : Texts) (db : Db) (ops : List Op) : Db := Run.run (step texts) db ops

end Renga.Access
