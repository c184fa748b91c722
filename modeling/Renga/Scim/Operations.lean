import Renga.Scim.Grants

/-!
# What changes grants

Every transaction that can change what SCIM grants: the SCIM resources `Users` and `Groups`,
the settings of a connection, changes of an identity provider, sign-ins and links, and the
lifecycle of an organization.  Each takes the organization's lock before it writes, so they
are modelled one after the other, and each reconciles the people it believes it has reached,
and no others.
-/

namespace Renga.Scim

open Renga.Access (BuiltInRole)

/-- What the standard library and the database do to texts.  `lower` is that of SQL. -/
structure Env where
  texts : Access.Texts
  lower : String → String
  printable : String → Bool

def ensure (condition : Bool) (error : Error) : Except Error PUnit :=
  Except.require condition error

/-- The row of the connection a token has authenticated.  Its organization and its provider never
change. -/
def Db.client (db : Db) (connectionId : Uuid) : Except Error Connection :=
  Except.ofOption (db.connections.get? connectionId) .raised

/-! ### Directory entries -/

/-- The attributes a SCIM write sets.  `others` is the detail with which the last of the attributes
that are not kept here would be refused. -/
structure UserAttrs where
  userName : String
  externalId : Option String := none
  active : Bool := true
  others : Option String := none
  deriving DecidableEq

/-- The first error of `DirectoryUser.changeset/2`, the one added last. -/
def UserAttrs.check (env : Env) (attrs : UserAttrs) : Except Error PUnit :=
  match attrs.others with
  | some detail => .error (.scim .invalidValue detail)
  | none =>
    if attrs.externalId.any (255 < ·.length) then
      .error (.scim .invalidValue "externalId should be at most 255 character(s)")
    else if env.texts.trim attrs.userName = "" then
      .error (.scim .invalidValue "userName can't be blank")
    else if 255 < attrs.userName.length then
      .error (.scim .invalidValue "userName should be at most 255 character(s)")
    else .ok ⟨⟩

/-- An entry with the attributes of a write.  Another `externalId` clears the binding. -/
def DirectoryUser.changeset (entry : DirectoryUser) (attrs : UserAttrs) : DirectoryUser :=
  { entry with
    userName := attrs.userName
    externalId := attrs.externalId
    active := attrs.active
    userIdentityId := if attrs.externalId = entry.externalId then entry.userIdentityId else none }

def Db.userUnique (env : Env) (db : Db) (entry : DirectoryUser) : Except Error PUnit :=
  if db.directoryUsers.rows.any fun other =>
      other.id ≠ entry.id ∧ other.connectionId = entry.connectionId ∧
        env.texts.fold other.userName = env.texts.fold entry.userName then
    .error (.scim .uniqueness "userName is already taken")
  else if db.directoryUsers.rows.any fun other =>
      other.id ≠ entry.id ∧ other.connectionId = entry.connectionId ∧
        other.externalId.isSome ∧ other.externalId = entry.externalId then
    .error (.scim .uniqueness "externalId is already taken")
  else .ok ⟨⟩

namespace Users

def lockUser (db : Db) (connection : Connection) (id : Uuid) : Except Error DirectoryUser :=
  Except.ofOption ((db.directoryUsers.get? id).filter (·.connectionId = connection.id)) .notFound

def create (env : Env) (db : Db) (connectionId : Uuid) (resource : Except Error UserAttrs)
    (newId : Uuid) : Except Error Db := do
  let connection ← db.client connectionId
  lift (db.access.lockActiveOrganization! connection.organizationId)
  let attrs ← resource
  attrs.check env
  let entry : DirectoryUser :=
    { id := newId, organizationId := connection.organizationId, connectionId := connection.id
      userName := attrs.userName, externalId := attrs.externalId, active := attrs.active }
  db.userUnique env entry
  if fresh : db.directoryUsers.get? entry.id = none then
    .ok { db with directoryUsers := db.directoryUsers.add entry fresh }
  else .error .raised

def update (env : Env) (db : Db) (connectionId id : Uuid)
    (resource : DirectoryUser → Except Error UserAttrs) (newIds : NewIds) : Except Error Db := do
  let connection ← db.client connectionId
  lift (db.access.lockActiveOrganization! connection.organizationId)
  let user ← lockUser db connection id
  let attrs ← resource user
  attrs.check env
  let updated := user.changeset attrs
  db.userUnique env updated
  let after : Db := { db with directoryUsers := db.directoryUsers.put updated }
  after.reconcile! connection.organizationId
    (db.usersOfEntries [user.id] ++ after.usersOfEntries [user.id]) newIds

def replace := update

def patch := update

def delete (db : Db) (connectionId id : Uuid) (newIds : NewIds) : Except Error Db := do
  let connection ← db.client connectionId
  lift (db.access.lockActiveOrganization! connection.organizationId)
  let user ← lockUser db connection id
  let after : Db :=
    { db with
      directoryUsers := db.directoryUsers.erase user.id
      groupMembers := db.groupMembers.filter (·.userId ≠ user.id) }
  after.reconcile! connection.organizationId (db.usersOfEntries [user.id]) newIds

end Users

/-! ### Directory groups -/

structure GroupAttrs where
  displayName : String
  externalId : Option String := none
  deriving DecidableEq

/-- The first error of `DirectoryGroup.changeset/2`, as `invalid/1` reports it. -/
def GroupAttrs.check (env : Env) (attrs : GroupAttrs) : Except Error PUnit :=
  if attrs.externalId.any (255 < ·.length) then
    .error (.scim .invalidValue "externalId should be at most 255 character(s)")
  else if env.texts.trim attrs.displayName = "" then
    .error (.scim .invalidValue "displayName can't be blank")
  else if 255 < attrs.displayName.length then
    .error (.scim .invalidValue "displayName should be at most 255 character(s)")
  else .ok ⟨⟩

def Db.groupUnique (env : Env) (db : Db) (group : DirectoryGroup) : Except Error PUnit :=
  if db.directoryGroups.rows.any fun other =>
      other.id ≠ group.id ∧ other.connectionId = group.connectionId ∧
        env.lower other.displayName = env.lower group.displayName then
    .error (.scim .uniqueness "displayName is already taken")
  else .ok ⟨⟩

namespace Groups

def noMember : Error := .scim .invalidValue "Every member must be a user of this connection"

variable (env : Env) (db : Db) (connection : Connection) (connectionId id : Uuid)

def lockGroup : Except Error DirectoryGroup :=
  Except.ofOption ((db.directoryGroups.get? id).filter (·.connectionId = connection.id)) .notFound

def currentMemberIds (groupId : Uuid) : List Uuid :=
  (db.groupMembers.filter (·.groupId = groupId)).map (·.userId)

def castAll : List (Option Uuid) → Except Error (List Uuid)
  | [] => .ok []
  | none :: _ => .error noMember
  | some id :: rest => do return id :: (← castAll rest)

def members (ids : List (Option Uuid)) (known : List Uuid) : Except Error (List Uuid) := do
  let knownIds := known.filter (some · ∈ ids)
  let uuids ← castAll (ids.filter fun id => !id.any (· ∈ known))
  let found := (db.directoryUsers.rows.filter fun user =>
    user.connectionId = connection.id ∧ user.id ∈ uuids).map (·.id)
  ensure (found.length = uuids.eraseDups.length) noMember
  return knownIds ++ found

def added (current wanted : List Uuid) : List Uuid := (wanted.filter (· ∉ current)).eraseDups

def removed (current wanted : List Uuid) : List Uuid := current.filter (· ∉ wanted)

def setMembers (groupMembers : List GroupMember) (group : DirectoryGroup)
    (current wanted : List Uuid) : List GroupMember :=
  (groupMembers.filter fun member =>
      ¬ (member.groupId = group.id ∧ member.userId ∈ removed current wanted)) ++
    (added current wanted).map fun userId =>
      { connectionId := group.connectionId, groupId := group.id, userId }

/-- `reconcile!/3` of `Renga.Scim.Groups`: only a mapped group's members change what it grants. -/
def reconcile! (db : Db) (connection : Connection) (group : DirectoryGroup)
    (entryIds : List Uuid) (newIds : NewIds) : Except Error Db :=
  match group.role with
  | none => .ok db
  | some _ => db.reconcile! connection.organizationId (db.usersOfEntries entryIds) newIds

def create (resource : Except Error (GroupAttrs × List (Option Uuid))) (newId : Uuid) :
    Except Error Db := do
  let connection ← db.client connectionId
  lift (db.access.lockActiveOrganization! connection.organizationId)
  let (attrs, memberIds) ← resource
  let wanted ← members db connection memberIds []
  attrs.check env
  let group : DirectoryGroup :=
    { id := newId, organizationId := connection.organizationId, connectionId := connection.id
      displayName := attrs.displayName, externalId := attrs.externalId }
  db.groupUnique env group
  if fresh : db.directoryGroups.get? group.id = none then
    .ok { db with
      directoryGroups := db.directoryGroups.add group fresh
      groupMembers := setMembers db.groupMembers group [] wanted }
  else .error .raised

def change (group : DirectoryGroup) (attrs : GroupAttrs) (wanted : List Uuid) (newIds : NewIds) :
    Except Error Db := do
  let current := currentMemberIds db group.id
  attrs.check env
  let updated : DirectoryGroup :=
    { group with displayName := attrs.displayName, externalId := attrs.externalId }
  db.groupUnique env updated
  let after : Db :=
    { db with
      directoryGroups := db.directoryGroups.put updated
      groupMembers := setMembers db.groupMembers updated current wanted }
  reconcile! after connection group (added current wanted ++ removed current wanted) newIds

def replace (resource : Except Error (GroupAttrs × List (Option Uuid))) (newIds : NewIds) :
    Except Error Db := do
  let connection ← db.client connectionId
  lift (db.access.lockActiveOrganization! connection.organizationId)
  let group ← lockGroup db connection id
  let (attrs, memberIds) ← resource
  let wanted ← members db connection memberIds []
  change env db connection group attrs wanted newIds

def patch (resource : GroupAttrs → List Uuid → Except Error (GroupAttrs × List (Option Uuid)))
    (newIds : NewIds) : Except Error Db := do
  let connection ← db.client connectionId
  lift (db.access.lockActiveOrganization! connection.organizationId)
  let group ← lockGroup db connection id
  let current := currentMemberIds db group.id
  let (attrs, memberIds) ←
    resource { displayName := group.displayName, externalId := group.externalId } current
  let wanted ← members db connection memberIds current
  change env db connection group attrs wanted newIds

def delete (newIds : NewIds) : Except Error Db := do
  let connection ← db.client connectionId
  lift (db.access.lockActiveOrganization! connection.organizationId)
  let group ← lockGroup db connection id
  let after : Db :=
    { db with
      directoryGroups := db.directoryGroups.erase group.id
      groupMembers := db.groupMembers.filter (·.groupId ≠ group.id) }
  reconcile! after connection group (currentMemberIds db group.id) newIds

end Groups

/-! ### Connections -/

/-- A role of a form: nothing and the blank choice mean none. -/
def parseRole (role : Option String) (error : Error) : Except Error (Option BuiltInRole) :=
  match role with
  | none => .ok none
  | some name =>
    if name = "" then .ok none
    else (Except.ofOption (BuiltInRole.ofName? name) error).map some

namespace Db

variable (db : Db) (scope : Access.Scope) (connectionId : Uuid) (now : Time) (newIds : NewIds)

def lockGroup (groupId : Uuid) : Except Error DirectoryGroup :=
  Except.ofOption ((db.directoryGroups.get? groupId).filter
    (·.organizationId = scope.organizationId)) .notFound

def mapGroup (groupId : Uuid) (role : Option String) (now : Time) (newIds : NewIds) :
    Except Error Db := do
  lift (db.access.authorize! scope .scimManage now)
  let role ← parseRole role (.access .invalidRole)
  let group ← db.lockGroup scope groupId
  if group.role = role then .ok db
  else
    let after : Db := { db with directoryGroups := db.directoryGroups.put { group with role } }
    after.reconcile! scope.organizationId (after.usersOfGroup group.id) newIds

def lockConnection : Except Error Connection :=
  Except.ofOption ((db.connections.get? connectionId).filter
    (·.organizationId = scope.organizationId)) .notFound

/-- A connection is written and the people it may have granted to are reconciled
(`reconcile_connection!/2`). -/
def writeConnection (connection : Connection) (newIds : NewIds) : Except Error Db :=
  let after : Db := { db with connections := db.connections.put connection }
  after.reconcile! connection.organizationId (after.usersOfConnection connection.id) newIds

def updateDefaultRole (role : Option String) (now : Time) (newIds : NewIds) : Except Error Db := do
  lift (db.access.authorize! scope .scimManage now)
  let connection ← db.lockConnection scope connectionId
  let defaultRole ← parseRole role (.changeset [("default_role", "is invalid")])
  db.writeConnection { connection with defaultRole } newIds

def enabledConnection (organizationId : Uuid) : Bool :=
  db.connections.rows.any fun connection =>
    connection.organizationId = organizationId ∧ connection.disabledAt = none

def disableConnection : Except Error Db := do
  lift (db.access.authorize! scope .scimManage now)
  let connection ← db.lockConnection scope connectionId
  if connection.disabledAt = none then
    db.writeConnection { connection with disabledAt := some now } newIds
  else .ok db

def eligibleProvider (providerId : String) (organizationId : Uuid) : Bool :=
  (db.providers.get? providerId).any fun provider =>
    provider.kind = .oidc ∧ provider.usable ∧
      (provider.organizationId = none ∨ provider.organizationId = some organizationId)

def enableConnection : Except Error Db := do
  lift (db.access.authorize! scope .scimManage now)
  let connection ← db.lockConnection scope connectionId
  if connection.disabledAt = none then .ok db
  else if db.enabledConnection scope.organizationId then .error .alreadyConnected
  else if !db.eligibleProvider connection.providerId scope.organizationId then
    .error .providerUnavailable
  else db.writeConnection { connection with disabledAt := none } newIds

end Db

structure ConnectionAttrs where
  providerId : Option String
  correlationClaim : Option String := some "sub"
  defaultRole : Option String := none
  deriving DecidableEq

def blank (value : Option String) : Bool := value.all (· = "")

def Db.connectionErrors (db : Db) (organizationId : Uuid) (attrs : ConnectionAttrs) :
    List (String × String) :=
  Access.check (!blank attrs.providerId) "provider_id" "can't be blank" ++
  Access.check (!blank attrs.correlationClaim) "correlation_claim" "can't be blank" ++
  Access.check (attrs.defaultRole.all fun name => name = "" ∨ (BuiltInRole.ofName? name).isSome)
    "default_role" "is invalid" ++
  (match attrs.providerId with
  | none => []
  | some providerId =>
    if !db.eligibleProvider providerId organizationId then
      [("provider_id", "is not an available OpenID Connect provider")]
    else Access.check (attrs.correlationClaim = some "sub") "correlation_claim"
      "is not a stable claim this provider declares") ++
  Access.check (!db.enabledConnection organizationId) "organization_id"
    "already has a SCIM connection"

def Db.createConnection (db : Db) (scope : Access.Scope) (attrs : ConnectionAttrs)
    (newId : Uuid) (now : Time) : Except Error Db := do
  lift (db.access.authorize! scope .scimManage now)
  let errors := db.connectionErrors scope.organizationId attrs
  ensure (errors = []) (.changeset errors)
  let providerId ← Except.ofOption attrs.providerId .raised
  let correlationClaim ← Except.ofOption attrs.correlationClaim .raised
  let defaultRole ← parseRole attrs.defaultRole .raised
  let connection : Connection :=
    { id := newId, organizationId := scope.organizationId, providerId, correlationClaim
      defaultRole }
  if fresh : db.connections.get? connection.id = none then
    .ok { db with connections := db.connections.add connection fresh }
  else .error .raised

/-! ### Providers -/

namespace Db

variable (db : Db) (id : String) (organizationId : Option Uuid)

def lockOrganization (organizationId : Uuid) : Bool :=
  (db.access.organizations.get? organizationId).any (·.status = .active)

def unbindIf (condition : DirectoryUser → Bool) (entry : DirectoryUser) : DirectoryUser :=
  if condition entry then { entry with userIdentityId := none } else entry

theorem unbindIf_id {condition : DirectoryUser → Bool} (entry : DirectoryUser) :
    (unbindIf condition entry).id = entry.id := by
  unfold unbindIf
  split <;> rfl

def unbind (condition : DirectoryUser → Bool) : Db :=
  { db with
    directoryUsers := db.directoryUsers.map (unbindIf condition) unbindIf_id }

def retire! (connection : Connection) (now : Time) : Db :=
  { db.unbind (·.connectionId = connection.id) with
    connections := db.connections.put { connection with disabledAt := some now } }

/-- What a change of its provider does to a connection: it is retired, if the provider is
removed. -/
def retireIf (removed : Option Time) (connection : Connection) : Db :=
  match removed with
  | none => db
  | some now => db.retire! connection now

/-- `provider_changed!/2`.  An inactive organization is left for whenever it is reactivated. -/
def connectionChanged! (removed : Option Time) (connection : Connection) (newIds : NewIds) :
    Except Error Db :=
  (db.retireIf removed connection).reconcile! connection.organizationId
    (if db.lockOrganization connection.organizationId then db.usersOfConnection connection.id
     else []) newIds

def providerChangedEach (removed : Option Time) (newIds : NewIds) :
    List Connection → Db → Except Error Db
  | [], db => .ok db
  | connection :: rest, db => do
      let db ← db.connectionChanged! removed connection newIds
      providerChangedEach removed newIds rest db

def providerChanged! (provider : IdentityProvider) (newIds : NewIds) : Except Error Db :=
  providerChangedEach provider.removedAt newIds
    (db.connections.rows.filter fun connection =>
      connection.providerId = provider.id ∧ connection.disabledAt = none) db

def lockProvider : Except Error IdentityProvider :=
  Except.ofOption ((db.providers.get? id).filter fun provider =>
    provider.organizationId = organizationId ∧ provider.removedAt = none) .notFound

def saveProvider (provider : IdentityProvider) (newIds : NewIds) : Except Error Db :=
  { db with providers := db.providers.put provider }.providerChanged! provider newIds

/-- `serialized/1`: a change that takes away the last way to sign in is refused. -/
def serialized (signInKept : Bool) (change : Except Error Db) : Except Error Db := do
  let after ← change
  ensure signInKept .lastSignInMethod
  return after

def setEnabled (enabled : Bool) (signInKept : Bool) (newIds : NewIds) : Except Error Db :=
  serialized signInKept do
    let provider ← db.lockProvider id organizationId
    if provider.enabled = enabled then .ok db
    else db.saveProvider { provider with enabled } newIds

def removeProvider (now : Time) (signInKept : Bool) (newIds : NewIds) : Except Error Db :=
  serialized signInKept do
    let provider ← db.lockProvider id organizationId
    db.saveProvider { provider with enabled := false, removedAt := some now } newIds

end Db

/-! ### Identities -/

def correlationValue (env : Env) (value : String) : Bool :=
  value ≠ "" && decide (value.utf8ByteSize ≤ 255) && env.printable value &&
    !value.toList.any (· ∈ ['\n', '\r', '\t', '\x0b', '\x0c', '\x1b', '\x07', '\x08'])

namespace Db

variable (env : Env) (db : Db) (identity : UserIdentity) (providerId : String)
  (claims : String → Option String)

/-- `candidates/2`; `claims` are the claims of the ID token that are texts. -/
def candidate (entry : DirectoryUser) : Bool :=
  (db.connections.get? entry.connectionId).any fun connection =>
    connection.providerId = providerId ∧ connection.disabledAt = none ∧
      (db.access.organizations.get? connection.organizationId).any (·.status = .active) ∧
      (claims connection.correlationClaim).any fun value =>
        correlationValue env value ∧ entry.externalId = some value

def permitsSignUp : Bool :=
  db.directoryUsers.rows.any fun entry =>
    db.candidate env providerId claims entry ∧ entry.active ∧ entry.userIdentityId = none

def bind! (entry : DirectoryUser) (identity : UserIdentity) (newIds : NewIds) : Except Error Db :=
  let after : Db :=
    { db with
      directoryUsers :=
        db.directoryUsers.put { entry with userIdentityId := some identity.id } }
  after.reconcile! entry.organizationId [identity.userId] newIds

/-- What `link_identity/2` does with a candidate.  Under the lock of its organization the entry is
read again by the same rules. -/
def linkEntry (newIds : NewIds) (organizationId entryId : Uuid) : Except Error Db :=
  if db.lockOrganization organizationId then
    match (db.directoryUsers.get? entryId).filter
        (db.candidate env identity.providerId claims) with
    | none => .ok db
    | some entry =>
      if entry.userIdentityId = none then db.bind! entry identity newIds else .ok db
  else .ok db

def linkEach (env : Env) (identity : UserIdentity) (claims : String → Option String)
    (newIds : NewIds) : List (Uuid × Uuid) → Db → Except Error Db
  | [], db => .ok db
  | candidate :: rest, db => do
      let db ← db.linkEntry env identity claims newIds candidate.1 candidate.2
      linkEach env identity claims newIds rest db

def linkIdentity (newIds : NewIds) : Except Error Db :=
  let candidates := (db.directoryUsers.rows.filter
      (db.candidate env identity.providerId claims)).map fun entry =>
    (entry.organizationId, entry.id)
  linkEach env identity claims newIds
    (candidates.insertionSort fun one other => toLex one ≤ toLex other) db

def unlinkIn (newIds : NewIds) (organizationId : Uuid) : Except Error Db :=
  if db.lockOrganization organizationId then
    let after := db.unbind fun entry =>
      entry.userIdentityId = some identity.id ∧ entry.organizationId = organizationId
    after.reconcile! organizationId [identity.userId] newIds
  else .ok db

def unlinkEach (identity : UserIdentity) (newIds : NewIds) : List Uuid → Db → Except Error Db
  | [], db => .ok db
  | organizationId :: rest, db => do
      let db ← db.unlinkIn identity newIds organizationId
      unlinkEach identity newIds rest db

def unlinkIdentity! (newIds : NewIds) : Except Error Db :=
  unlinkEach identity newIds
    (((db.directoryUsers.rows.filter (·.userIdentityId = some identity.id)).map
      (·.organizationId)).eraseDups.insertionSort (· ≤ ·)) db

/-- `unlink/3`.  `permitted` is what the re-check and the rules about last methods answer.
Deleting the identity clears what is still bound to it. -/
def unlink (userId identityId : Uuid) (permitted : Bool) (newIds : NewIds) : Except Error Db := do
  let identity ← Except.ofOption
    ((db.identities.get? identityId).filter (·.userId = userId)) .notFound
  ensure permitted .refused
  let db ← db.unlinkIdentity! identity newIds
  return { db.unbind (·.userIdentityId = some identity.id) with
    identities := db.identities.erase identity.id }

/-- A new identity; the provider and the subject identify it as well. -/
def insertIdentity (taken : Error) : Except Error Db :=
  if fresh : db.identities.get? identity.id = none then
    if db.identities.rows.any fun other =>
        other.providerId = identity.providerId ∧ other.subject = identity.subject then
      .error taken
    else .ok { db with identities := db.identities.add identity fresh }
  else .error .raised

def subject (claims : String → Option String) : Except Error String := do
  let subject ← Except.ofOption (claims "sub") .invalidClaims
  ensure (subject ≠ "" && decide (subject.utf8ByteSize ≤ 255)) .invalidClaims
  return subject

/-- `link/2`.  `permitted` is what the session, the revision and the domain answer. -/
def link (userId : Uuid) (providerId : String) (claims : String → Option String) (permitted : Bool)
    (newId : Uuid) : Except Error Db := do
  ensure ((db.providers.get? providerId).any fun provider =>
    provider.usable ∧ provider.organizationId = none) .inactive
  let subject ← subject claims
  ensure permitted .refused
  match db.identities.rows.find? fun other =>
      other.providerId = providerId ∧ other.subject = subject with
  | some other => .error (if other.userId = userId then .alreadyLinked else .linkedElsewhere)
  | none => db.insertIdentity { id := newId, userId, providerId, subject } .linkedElsewhere

def recoverySignInAllowed (organizationId : Uuid) (providerId subject : String) : Bool :=
  db.access.memberships.rows.any fun membership =>
    membership.organizationId = organizationId ∧ membership.role = .owner ∧
      membership.status = .active ∧
      (db.identities.rows.any fun identity =>
        identity.userId = membership.userId ∧ identity.providerId = providerId ∧
          identity.subject = subject) ∧
      (membership.scimConnectionId = none ∨
        db.grantedRole organizationId membership.userId = some .owner)

def organizationSignInAllowed (provider : IdentityProvider) (claims : String → Option String) :
    Bool :=
  match provider.organizationId with
  | none => true
  | some organizationId =>
    match (db.access.organizations.get? organizationId).map Organization.status with
    | some .active => true
    | some .deletionPending =>
      (claims "sub").any (db.recoverySignInAllowed organizationId provider.id)
    | _ => false

end Db

/-- A validated sign-in.  `email` is the address of the claims and whether it is verified;
`revisionCurrent`, `domainAllowed` and `allowSignUp` are answers of the provider's revision, and
`issued` is whether the session could be issued. -/
structure SignIn where
  providerId : String
  claims : String → Option String
  email : Option (String × Bool) := none
  revisionCurrent : Bool := true
  domainAllowed : Bool := true
  allowSignUp : Bool := false
  issued : Bool := true

/-- `new_user/2`.  The address of an organization's provider stays on the identity. -/
def newUser (provider : IdentityProvider) (address : String) (userId : Uuid) (now : Time) :
    Access.User :=
  match provider.organizationId with
  | none => { id := userId, email := some address, confirmedAt := some now }
  | some _ => { id := userId }

namespace Db

def firstSignIn (env : Env) (db : Db) (provider : IdentityProvider) (signIn : SignIn)
    (subject : String) (userId identityId : Uuid) (now : Time) (newIds : NewIds) :
    Except Error Db := do
  let inUse := fun address => db.access.users.rows.any fun user =>
    user.email.any fun email => env.texts.fold email = env.texts.fold address
  ensure (!signIn.email.any fun email => email.2 && inUse email.1) .emailInUse
  ensure (signIn.allowSignUp || db.permitsSignUp env provider.id signIn.claims) .signUpClosed
  let (address, verified) ← Except.ofOption signIn.email .unverifiedEmail
  ensure verified .unverifiedEmail
  let user := newUser provider address userId now
  if fresh : db.access.users.get? user.id = none then
    let db : Db :=
      { db with access := { db.access with users := db.access.users.add user fresh } }
    let identity : UserIdentity := { id := identityId, userId, providerId := provider.id, subject }
    let db ← db.insertIdentity identity .alreadyLinked
    db.linkIdentity env identity signIn.claims newIds
  else .error .raised

def resolve (env : Env) (db : Db) (provider : IdentityProvider) (signIn : SignIn)
    (userId identityId : Uuid) (now : Time) (newIds : NewIds) : Except Error Db := do
  let subject ← subject signIn.claims
  ensure signIn.domainAllowed .refused
  match db.identities.rows.find? fun identity =>
      identity.providerId = provider.id ∧ identity.subject = subject with
  | some identity => db.linkIdentity env identity signIn.claims newIds
  | none => db.firstSignIn env provider signIn subject userId identityId now newIds

def providerSignIn (env : Env) (db : Db) (signIn : SignIn) (userId identityId : Uuid) (now : Time)
    (newIds : NewIds) : Except Error Db := do
  let provider ← Except.ofOption ((db.providers.get? signIn.providerId).filter (·.usable)) .inactive
  ensure signIn.revisionCurrent .inactive
  ensure (db.organizationSignInAllowed provider signIn.claims) .inactive
  let after ← db.resolve env provider signIn userId identityId now newIds
  ensure signIn.issued .sessionFailed
  return after

end Db

/-! ### The lifecycle of an organization -/

/-- An owner who recovers an organization.  `sessionAllows` is what the session's organization
and `OrganizationMFA.satisfied?` answer. -/
structure Recovery where
  userId : Uuid
  sessionAllows : Bool
  deriving DecidableEq

namespace Db

/-- `owner_check/2`, with `source_owner?/1`; an operator is not checked. -/
def ownerCheck (db : Db) (organizationId : Uuid) : Option Recovery → Except Error PUnit
  | none => .ok ⟨⟩
  | some owner =>
    ensure ((db.access.membership? organizationId owner.userId).any fun membership =>
      membership.status = .active ∧ membership.role = .owner ∧
        (membership.scimConnectionId = none ∨
          db.grantedRole organizationId owner.userId = some .owner) ∧
        owner.sessionAllows) .forbidden

def reconcileSources! (db : Db) (organizationId : Uuid) (newIds : NewIds) : Except Error Db :=
  db.reconcile! organizationId
    ((db.connections.rows.filter (·.organizationId = organizationId)).flatMap
      fun connection => db.usersOfConnection connection.id) newIds

/-- What `apply_change/4` does with the attributes of a transition: before access returns, the
sources are reconciled. -/
def applyAttrs (db : Db) (organization : Organization) (newIds : NewIds) :
    Option OrganizationLifecycle.Attrs → Except Error Db
  | none => .ok db
  | some attrs =>
    let sources :=
      if attrs.status = .active then db.reconcileSources! organization.id newIds else .ok db
    sources.map fun db =>
      { db with
        access := { db.access with
          organizations :=
            db.access.organizations.put (OrganizationLifecycle.change organization attrs) } }

/-- `apply_change/4`: what `change/3` does, and `cancel_by_owner/3` with an owner. -/
def applyChange (db : Db) (id : Uuid) (action : OrganizationLifecycle.Action)
    (owner : Option Recovery) (now : Time) (newIds : NewIds) : Except Error Db := do
  let organization ← Except.ofOption (db.access.organizations.get? id) .notFound
  db.ownerCheck id owner
  let attrs ← Except.ofOption (OrganizationLifecycle.transition organization action now) .purging
  db.applyAttrs organization newIds attrs

end Db

/-! ### Runs -/

inductive Op where
  | createUser (connectionId : Uuid) (resource : Except Error UserAttrs) (newId : Uuid)
  | replaceUser (connectionId id : Uuid) (resource : DirectoryUser → Except Error UserAttrs)
      (newIds : NewIds)
  | patchUser (connectionId id : Uuid) (resource : DirectoryUser → Except Error UserAttrs)
      (newIds : NewIds)
  | deleteUser (connectionId id : Uuid) (newIds : NewIds)
  | createGroup (connectionId : Uuid) (resource : Except Error (GroupAttrs × List (Option Uuid)))
      (newId : Uuid)
  | replaceGroup (connectionId id : Uuid)
      (resource : Except Error (GroupAttrs × List (Option Uuid))) (newIds : NewIds)
  | patchGroup (connectionId id : Uuid)
      (resource : GroupAttrs → List Uuid → Except Error (GroupAttrs × List (Option Uuid)))
      (newIds : NewIds)
  | deleteGroup (connectionId id : Uuid) (newIds : NewIds)
  | mapGroup (scope : Access.Scope) (groupId : Uuid) (role : Option String) (now : Time)
      (newIds : NewIds)
  | updateDefaultRole (scope : Access.Scope) (connectionId : Uuid) (role : Option String)
      (now : Time) (newIds : NewIds)
  | createConnection (scope : Access.Scope) (attrs : ConnectionAttrs) (newId : Uuid) (now : Time)
  | enableConnection (scope : Access.Scope) (connectionId : Uuid) (now : Time) (newIds : NewIds)
  | disableConnection (scope : Access.Scope) (connectionId : Uuid) (now : Time) (newIds : NewIds)
  | setEnabled (id : String) (organizationId : Option Uuid) (enabled signInKept : Bool)
      (newIds : NewIds)
  | removeProvider (id : String) (organizationId : Option Uuid) (now : Time) (signInKept : Bool)
      (newIds : NewIds)
  | providerSignIn (signIn : SignIn) (userId identityId : Uuid) (now : Time) (newIds : NewIds)
  | link (userId : Uuid) (providerId : String) (claims : String → Option String)
      (permitted : Bool) (newId : Uuid)
  | unlink (userId identityId : Uuid) (permitted : Bool) (newIds : NewIds)
  | changeOrganization (id : Uuid) (action : OrganizationLifecycle.Action) (now : Time)
      (newIds : NewIds)
  | cancelByOwner (owner : Recovery) (id : Uuid) (now : Time) (newIds : NewIds)

/-- The transaction, which is rolled back where it fails. -/
def perform (env : Env) (db : Db) : Op → Except Error Db
  | .createUser connectionId resource newId => Users.create env db connectionId resource newId
  | .replaceUser connectionId id resource newIds =>
    Users.replace env db connectionId id resource newIds
  | .patchUser connectionId id resource newIds => Users.patch env db connectionId id resource newIds
  | .deleteUser connectionId id newIds => Users.delete db connectionId id newIds
  | .createGroup connectionId resource newId => Groups.create env db connectionId resource newId
  | .replaceGroup connectionId id resource newIds =>
    Groups.replace env db connectionId id resource newIds
  | .patchGroup connectionId id resource newIds =>
    Groups.patch env db connectionId id resource newIds
  | .deleteGroup connectionId id newIds => Groups.delete db connectionId id newIds
  | .mapGroup scope groupId role now newIds => db.mapGroup scope groupId role now newIds
  | .updateDefaultRole scope connectionId role now newIds =>
    db.updateDefaultRole scope connectionId role now newIds
  | .createConnection scope attrs newId now => db.createConnection scope attrs newId now
  | .enableConnection scope connectionId now newIds =>
    db.enableConnection scope connectionId now newIds
  | .disableConnection scope connectionId now newIds =>
    db.disableConnection scope connectionId now newIds
  | .setEnabled id organizationId enabled signInKept newIds =>
    db.setEnabled id organizationId enabled signInKept newIds
  | .removeProvider id organizationId now signInKept newIds =>
    db.removeProvider id organizationId now signInKept newIds
  | .providerSignIn signIn userId identityId now newIds =>
    db.providerSignIn env signIn userId identityId now newIds
  | .link userId providerId claims permitted newId =>
    db.link userId providerId claims permitted newId
  | .unlink userId identityId permitted newIds => db.unlink userId identityId permitted newIds
  | .changeOrganization id action now newIds => db.applyChange id action none now newIds
  | .cancelByOwner owner id now newIds => db.applyChange id .cancelDeletion (some owner) now newIds

def step (env : Env) (db : Db) (op : Op) : Db := Run.commit db (perform env db op)

abbrev run (env : Env) (db : Db) (ops : List Op) : Db := Run.run (step env) db ops

end Renga.Scim
