import Renga.Access.Memberships

/-!
# Directories and what they grant

The tables of `Renga.Scim` and of the identity providers: a linked, active entry of an
organization's enabled connection grants a role, the highest of the connection's default role and
of the roles its groups are mapped to (`Renga.Scim.Grants`).  `grantedRole` is computed the way
the source does it.
-/

namespace Renga.Scim

open KeyTable Option

open Renga.Access (BuiltInRole Membership)

/-! ### Rows -/

inductive ProviderKind where
  | oidc
  | github
  deriving DecidableEq

structure IdentityProvider where
  id : String
  organizationId : Option Uuid := none
  kind : ProviderKind := .oidc
  enabled : Bool := true
  removedAt : Option Time := none
  deriving DecidableEq

structure UserIdentity where
  id : Uuid
  userId : Uuid
  providerId : String
  subject : String
  deriving DecidableEq

structure Connection where
  id : Uuid
  organizationId : Uuid
  providerId : String
  correlationClaim : String := "sub"
  defaultRole : Option BuiltInRole := none
  disabledAt : Option Time := none
  deriving DecidableEq

structure DirectoryUser where
  id : Uuid
  organizationId : Uuid
  connectionId : Uuid
  userName : String
  externalId : Option String := none
  active : Bool := true
  userIdentityId : Option Uuid := none
  deriving DecidableEq

structure DirectoryGroup where
  id : Uuid
  organizationId : Uuid
  connectionId : Uuid
  displayName : String
  externalId : Option String := none
  role : Option BuiltInRole := none
  deriving DecidableEq

structure GroupMember where
  connectionId : Uuid
  groupId : Uuid
  userId : Uuid
  deriving DecidableEq

structure Db where
  access : Access.Db := {}
  providers : KeyTable String IdentityProvider IdentityProvider.id := .empty
  identities : KeyTable Uuid UserIdentity UserIdentity.id := .empty
  connections : KeyTable Uuid Connection Connection.id := .empty
  directoryUsers : KeyTable Uuid DirectoryUser DirectoryUser.id := .empty
  directoryGroups : KeyTable Uuid DirectoryGroup DirectoryGroup.id := .empty
  groupMembers : List GroupMember := []

/-! ### What is granted -/

/-- People can sign in with it. -/
def IdentityProvider.usable (provider : IdentityProvider) : Bool :=
  provider.enabled && provider.removedAt.isNone

namespace Db

/-- `active_connection/1`.  The index `scim_connections_one_enabled` leaves one at most. -/
def activeConnection (db : Db) (organizationId : Uuid) : Option Connection :=
  db.connections.rows.find? fun connection =>
    connection.organizationId = organizationId ∧ connection.disabledAt = none ∧
      (db.providers.get? connection.providerId).any (·.usable)

def linkedEntries (db : Db) (connection : Connection) (userId : Uuid) : List Uuid :=
  (db.directoryUsers.rows.filter fun entry =>
    entry.connectionId = connection.id ∧ entry.active ∧
      entry.userIdentityId.any fun identityId =>
        (db.identities.get? identityId).any fun identity =>
          identity.userId = userId ∧ identity.providerId = connection.providerId).map (·.id)

def mappedRoles (db : Db) (entries : List Uuid) : List BuiltInRole :=
  (db.groupMembers.filter (·.userId ∈ entries)).filterMap fun member =>
    (db.directoryGroups.get? member.groupId).bind (·.role)

end Db

def highest (roles : List (Option BuiltInRole)) : Option BuiltInRole :=
  BuiltInRole.roleOrder.find? fun role => some role ∈ roles

def Db.desiredRole (db : Db) (connection : Option Connection) (userId : Uuid) :
    Option BuiltInRole :=
  connection.bind fun connection =>
    if db.linkedEntries connection userId = [] then none
    else highest (connection.defaultRole ::
      (db.mappedRoles (db.linkedEntries connection userId)).map some)

/-- The role SCIM grants a person now. -/
def Db.grantedRole (db : Db) (organizationId userId : Uuid) : Option BuiltInRole :=
  db.desiredRole (db.activeConnection organizationId) userId

/-! ### What is offered -/

def rank (role : BuiltInRole) : ℕ := BuiltInRole.roleOrder.idxOf role

theorem find?_roleOrder {p : BuiltInRole → Bool} {role : BuiltInRole} :
    BuiltInRole.roleOrder.find? p = some role ↔
      p role = true ∧ ∀ other, p other = true → rank role ≤ rank other := by
  have all : (∀ other, p other = true → rank role ≤ rank other) ↔
      (p .owner = true → rank role ≤ 0) ∧ (p .admin = true → rank role ≤ 1) ∧
        (p .member = true → rank role ≤ 2) ∧ (p .viewer = true → rank role ≤ 3) := by
    constructor
    · exact fun least => ⟨least .owner, least .admin, least .member, least .viewer⟩
    rintro ⟨owner, admin, member, viewer⟩ other
    cases other with
    | owner => exact owner
    | admin => exact admin
    | member => exact member
    | viewer => exact viewer
  rw [all]
  simp only [BuiltInRole.roleOrder, List.find?]
  cases owner : p .owner <;> cases admin : p .admin <;> cases member : p .member <;>
    cases viewer : p .viewer <;> cases role <;> simp [owner, admin, member, viewer, rank] <;> decide

variable {db : Db} {organizationId userId : Uuid} {role : BuiltInRole}

def Db.Usable (db : Db) (providerId : String) : Prop :=
  ∃ provider ∈ db.providers, provider.id = providerId ∧ provider.usable = true

/-- An entry is linked to an identity the person has at a provider. -/
def Db.Linked (db : Db) (entry : DirectoryUser) (userId : Uuid) (providerId : String) : Prop :=
  ∃ identity ∈ db.identities, entry.userIdentityId = some identity.id ∧
    identity.userId = userId ∧ identity.providerId = providerId

/-- An entry entitles a person: it is active, linked to an identity of theirs, and its connection
is enabled and has a usable provider. -/
structure Entitles (db : Db) (organizationId userId : Uuid) (connection : Connection)
    (entry : DirectoryUser) : Prop where
  connected : connection ∈ db.connections
  home : connection.organizationId = organizationId
  enabled : connection.disabledAt = none
  usable : db.Usable connection.providerId
  stored : entry ∈ db.directoryUsers
  within : entry.connectionId = connection.id
  active : entry.active = true
  linked : db.Linked entry userId connection.providerId

/-- A group of the entry is mapped to the role. -/
def Db.Mapped (db : Db) (entryId : Uuid) (role : BuiltInRole) : Prop :=
  ∃ member ∈ db.groupMembers, member.userId = entryId ∧
    ∃ group ∈ db.directoryGroups, group.id = member.groupId ∧ group.role = some role

/-- An entry that entitles the person brings the role, by default or by a group. -/
def Db.Offered (db : Db) (organizationId userId : Uuid) (role : BuiltInRole) : Prop :=
  ∃ connection entry, Entitles db organizationId userId connection entry ∧
    (connection.defaultRole = some role ∨ db.Mapped entry.id role)

/-- The role is the highest of the default role and the mapped group roles over the entries that
entitle the person. -/
def Db.Highest (db : Db) (organizationId userId : Uuid) (role : BuiltInRole) : Prop :=
  db.Offered organizationId userId role ∧
    ∀ other, db.Offered organizationId userId other → rank role ≤ rank other

/-- An organization has one enabled connection at most. -/
def Db.OneEnabled (db : Db) : Prop :=
  ∀ one ∈ db.connections, ∀ other ∈ db.connections, one.organizationId = other.organizationId →
    one.disabledAt = none → other.disabledAt = none → one = other

variable {connection : Connection}

theorem Db.activeConnection_eq_some_iff (oneEnabled : db.OneEnabled) :
    db.activeConnection organizationId = some connection ↔
      connection ∈ db.connections ∧ connection.organizationId = organizationId ∧
        connection.disabledAt = none ∧ db.Usable connection.providerId := by
  have usable : ∀ connection : Connection,
      (db.providers.get? connection.providerId).any (·.usable) = true ↔
        db.Usable connection.providerId := by
    intro connection
    rw [any_eq_true]
    constructor
    · rintro ⟨provider, found, is⟩
      exact ⟨provider, mem_of_get? found, key_of_get? found, is⟩
    rintro ⟨provider, stored, named, is⟩
    exact ⟨provider, named ▸ get?_of_mem stored, is⟩
  have chosen : ∀ connection, db.activeConnection organizationId = some connection →
      connection.organizationId = organizationId ∧ connection.disabledAt = none ∧
        (db.providers.get? connection.providerId).any (·.usable) = true := by
    intro connection found
    simpa only [decide_eq_true_eq] using List.find?_some found
  constructor
  · intro found
    obtain ⟨home, enabled, any⟩ := chosen connection found
    exact ⟨List.mem_of_find?_eq_some found, home, enabled, (usable connection).1 any⟩
  rintro ⟨connected, home, enabled, any⟩
  cases found : db.activeConnection organizationId with
  | none =>
    have none := List.find?_eq_none.1 found connection connected
    exact absurd (decide_eq_true ⟨home, enabled, (usable connection).2 any⟩) none
  | some other =>
    obtain ⟨home', enabled', -⟩ := chosen other found
    rw [oneEnabled other (List.mem_of_find?_eq_some found) connection connected
      (home'.trans home.symm) enabled' enabled]

theorem Db.mem_linkedEntries {entryId : Uuid} :
    entryId ∈ db.linkedEntries connection userId ↔
      ∃ entry ∈ db.directoryUsers, entry.id = entryId ∧ entry.connectionId = connection.id ∧
        entry.active = true ∧ db.Linked entry userId connection.providerId := by
  have linked : ∀ entry : DirectoryUser, (entry.userIdentityId.any fun identityId =>
      (db.identities.get? identityId).any fun identity =>
        identity.userId = userId ∧ identity.providerId = connection.providerId) = true ↔
      db.Linked entry userId connection.providerId := by
    intro entry
    simp only [any_eq_true, decide_eq_true_eq]
    constructor
    · rintro ⟨_, bound, identity, found, is⟩
      exact ⟨identity, mem_of_get? found, (key_of_get? found).symm ▸ bound, is⟩
    rintro ⟨identity, stored, bound, is⟩
    exact ⟨identity.id, bound, identity, get?_of_mem stored, is⟩
  simp only [linkedEntries, List.mem_map, List.mem_filter, decide_eq_true_eq, linked]
  constructor
  · rintro ⟨entry, ⟨stored, within, active, is⟩, rfl⟩
    exact ⟨entry, stored, rfl, within, active, is⟩
  rintro ⟨entry, stored, rfl, within, active, is⟩
  exact ⟨entry, ⟨stored, within, active, is⟩, rfl⟩

theorem Db.mem_mappedRoles {entries : List Uuid} :
    role ∈ db.mappedRoles entries ↔ ∃ entryId ∈ entries, db.Mapped entryId role := by
  simp only [mappedRoles, List.mem_filterMap, List.mem_filter, decide_eq_true_eq, bind_eq_some_iff]
  constructor
  · rintro ⟨member, ⟨listed, its⟩, group, found, mapped⟩
    exact ⟨member.userId, its, member, listed, rfl, group, mem_of_get? found,
      key_of_get? found, mapped⟩
  rintro ⟨_, its, member, listed, rfl, group, stored, named, mapped⟩
  exact ⟨member, ⟨listed, its⟩, group, named ▸ get?_of_mem stored, mapped⟩

/-- **The role granted is the highest one offered.** -/
theorem Db.grantedRole_eq_some_iff (oneEnabled : db.OneEnabled) :
    db.grantedRole organizationId userId = some role ↔ db.Highest organizationId userId role := by
  have offered : ∀ connection, db.activeConnection organizationId = some connection →
      ∀ role, db.Offered organizationId userId role ↔
        ∃ entryId ∈ db.linkedEntries connection userId,
          connection.defaultRole = some role ∨ db.Mapped entryId role := by
    intro connection found role
    obtain ⟨connected, home, enabled, usable⟩ := (activeConnection_eq_some_iff oneEnabled).1 found
    constructor
    · rintro ⟨other, entry, entitles, offers⟩
      obtain rfl : other = connection := oneEnabled other entitles.connected connection connected
        (entitles.home.trans home.symm) entitles.enabled enabled
      exact ⟨entry.id, mem_linkedEntries.2 ⟨entry, entitles.stored, rfl, entitles.within,
        entitles.active, entitles.linked⟩, offers⟩
    rintro ⟨entryId, linked, offers⟩
    obtain ⟨entry, stored, rfl, within, active, linked⟩ := mem_linkedEntries.1 linked
    exact ⟨connection, entry, ⟨connected, home, enabled, usable, stored, within, active, linked⟩,
      offers⟩
  cases found : db.activeConnection organizationId with
  | none =>
    rw [grantedRole, found]
    constructor
    · intro granted
      cases granted
    rintro ⟨⟨connection, _, entitles, -⟩, -⟩
    have none := found.symm.trans ((activeConnection_eq_some_iff oneEnabled).2
      ⟨entitles.connected, entitles.home, entitles.enabled, entitles.usable⟩)
    cases none
  | some connection =>
    rw [grantedRole, found, desiredRole, bind_some, Highest]
    simp only [offered connection found]
    split
    · rename_i none
      simp [none]
    rename_i some_
    obtain ⟨first, listed⟩ := List.exists_mem_of_ne_nil _ some_
    have listed_iff : ∀ role, decide (some role ∈ connection.defaultRole ::
        (db.mappedRoles (db.linkedEntries connection userId)).map some) = true ↔
        ∃ entryId ∈ db.linkedEntries connection userId,
          connection.defaultRole = some role ∨ db.Mapped entryId role := by
      intro role
      rw [decide_eq_true_eq, List.mem_cons, List.mem_map]
      constructor
      · rintro (default | ⟨_, mapped, same⟩)
        · exact ⟨first, listed, Or.inl default.symm⟩
        cases same
        obtain ⟨entryId, its, mapped⟩ := mem_mappedRoles.1 mapped
        exact ⟨entryId, its, Or.inr mapped⟩
      rintro ⟨entryId, its, default | mapped⟩
      · exact Or.inl default.symm
      · exact Or.inr ⟨role, mem_mappedRoles.2 ⟨entryId, its, mapped⟩, rfl⟩
    rw [highest, find?_roleOrder]
    simp only [listed_iff]

/-! ### The accounts a change can reach -/

namespace Db

def usersOfEntries (db : Db) (entryIds : List Uuid) : List Uuid :=
  ((db.directoryUsers.rows.filter (·.id ∈ entryIds)).filterMap fun entry =>
    entry.userIdentityId.bind fun identityId =>
      (db.identities.get? identityId).map (·.userId)).eraseDups

def usersOfGroup (db : Db) (groupId : Uuid) : List Uuid :=
  db.usersOfEntries ((db.groupMembers.filter (·.groupId = groupId)).map (·.userId))

def usersOfConnection (db : Db) (connectionId : Uuid) : List Uuid :=
  (db.usersOfEntries
      ((db.directoryUsers.rows.filter (·.connectionId = connectionId)).map (·.id)) ++
    (db.access.memberships.rows.filter (·.scimConnectionId = some connectionId)).map
      (·.userId)).eraseDups

variable {entryIds : List Uuid}

theorem mem_usersOfEntries : userId ∈ db.usersOfEntries entryIds ↔
    ∃ entry ∈ db.directoryUsers, entry.id ∈ entryIds ∧ ∃ identity ∈ db.identities,
      entry.userIdentityId = some identity.id ∧ identity.userId = userId := by
  simp only [usersOfEntries, List.mem_eraseDups, List.mem_filterMap, List.mem_filter,
    decide_eq_true_eq, bind_eq_some_iff, map_eq_some_iff]
  constructor
  · rintro ⟨entry, ⟨stored, its⟩, _, bound, identity, found, rfl⟩
    exact ⟨entry, stored, its, identity, mem_of_get? found, (key_of_get? found).symm ▸ bound, rfl⟩
  rintro ⟨entry, stored, its, identity, known, bound, rfl⟩
  exact ⟨entry, ⟨stored, its⟩, identity.id, bound, identity, get?_of_mem known, rfl⟩

variable {entry : DirectoryUser}

theorem mem_usersOfEntries_of_entitles
    (entitles : Entitles db organizationId userId connection entry) (listed : entry.id ∈ entryIds) :
    userId ∈ db.usersOfEntries entryIds := by
  obtain ⟨identity, known, bound, person, -⟩ := entitles.linked
  exact mem_usersOfEntries.2 ⟨entry, entitles.stored, listed, identity, known, bound, person⟩

theorem mem_usersOfConnection {connectionId : Uuid} : userId ∈ db.usersOfConnection connectionId ↔
    userId ∈ db.usersOfEntries
        ((db.directoryUsers.rows.filter (·.connectionId = connectionId)).map (·.id)) ∨
      ∃ membership ∈ db.access.memberships, membership.scimConnectionId = some connectionId ∧
        membership.userId = userId := by
  simp only [usersOfConnection, List.mem_eraseDups, List.mem_append, List.mem_map,
    List.mem_filter, decide_eq_true_eq, KeyTable.mem_def, and_assoc]

theorem mem_usersOfConnection_of_entitles
    (entitles : Entitles db organizationId userId connection entry) :
    userId ∈ db.usersOfConnection connection.id := by
  refine mem_usersOfConnection.2 (Or.inl (mem_usersOfEntries_of_entitles entitles ?_))
  exact List.mem_map.2 ⟨entry, List.mem_filter.2 ⟨entitles.stored,
    decide_eq_true entitles.within⟩, rfl⟩

end Db

end Renga.Scim
