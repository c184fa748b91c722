import Renga.Scim.Owners

/-!
# Grants follow the directory

In an active organization everybody whose membership was not granted by hand has exactly the
role SCIM grants, whatever has been done before.  Each operation reconciles only the people
it believes it has reached, so this is a statement about all the others: two states offer
them the same, through the same entries (`Agree`).  It is shown here for the writes of the
SCIM resources.
-/

namespace Renga.Scim

open List KeyTable Option Except Db

open Renga.Access (BuiltInRole Membership)

variable {env : Env} {db mid db' : Db} {organizationId userId : Uuid} {role : BuiltInRole}
  {newIds : NewIds}

/-! ### Well-formed tables -/

/-- What the indexes and the foreign keys of the tables say, and that a membership names a
connection of its own organization. -/
structure Db.Sound (db : Db) : Prop where
  oneEach : db.access.OneEach
  oneEnabled : db.OneEnabled
  granted : ∀ membership ∈ db.access.memberships, ∀ connectionId,
    membership.scimConnectionId = some connectionId → ∃ connection ∈ db.connections,
      connection.id = connectionId ∧ connection.organizationId = membership.organizationId
  tenant : ∀ entry ∈ db.directoryUsers, ∃ connection ∈ db.connections,
    connection.id = entry.connectionId ∧ connection.organizationId = entry.organizationId
  bound : ∀ entry ∈ db.directoryUsers, ∀ identityId, entry.userIdentityId = some identityId →
    ∃ identity ∈ db.identities, identity.id = identityId
  grouped : ∀ group ∈ db.directoryGroups, ∃ connection ∈ db.connections,
    connection.id = group.connectionId ∧ connection.organizationId = group.organizationId
  joined : ∀ member ∈ db.groupMembers, ∃ group ∈ db.directoryGroups, group.id = member.groupId ∧
    ∃ entry ∈ db.directoryUsers, entry.id = member.userId ∧
      entry.organizationId = group.organizationId

variable {connection : Connection} {entry : DirectoryUser}

theorem Db.Sound.home (sound : db.Sound)
    (entitles : Entitles db organizationId userId connection entry) :
    entry.organizationId = organizationId := by
  obtain ⟨_, connected, named, home⟩ := sound.tenant entry entitles.stored
  have same := eq_of_key_eq connected entitles.connected (named.trans entitles.within)
  rw [← home, same, entitles.home]

/-! ### Settled grants -/

/-- A person whose membership was not granted by hand has the role that is granted. -/
def Db.SettledFor (db : Db) (organizationId userId : Uuid) : Prop :=
  ¬ db.ByHand organizationId userId →
    ∀ role, db.Holds organizationId userId role ↔ db.Highest organizationId userId role

/-- In an active organization everybody is settled. -/
def Db.Settled (db : Db) : Prop :=
  ∀ organizationId, db.lockOrganization organizationId = true →
    ∀ userId, db.SettledFor organizationId userId

/-- Both states entitle a person through the same entries, and those are mapped to the same
roles. -/
def Agree (db db' : Db) (organizationId userId : Uuid) : Prop :=
  ∀ connection entry,
    (Entitles db' organizationId userId connection entry ↔
      Entitles db organizationId userId connection entry) ∧
    (Entitles db organizationId userId connection entry →
      ∀ role, db'.Mapped entry.id role ↔ db.Mapped entry.id role)

/-- Where two states agree on a person, they offer the same roles. -/
theorem Agree.offered (agree : Agree db db' organizationId userId) :
    db'.Offered organizationId userId role ↔ db.Offered organizationId userId role := by
  constructor
  · rintro ⟨connection, entry, entitles', offers⟩
    have entitles := (agree connection entry).1.1 entitles'
    exact ⟨connection, entry, entitles,
      offers.imp_right ((agree connection entry).2 entitles role).1⟩
  rintro ⟨connection, entry, entitles, offers⟩
  exact ⟨connection, entry, (agree connection entry).1.2 entitles,
    offers.imp_right ((agree connection entry).2 entitles role).2⟩

theorem entitles_congr (connected : connection ∈ db'.connections ↔ connection ∈ db.connections)
    (usable : db'.Usable connection.providerId ↔ db.Usable connection.providerId)
    (stored : entry ∈ db'.directoryUsers ↔ entry ∈ db.directoryUsers)
    (linked : db'.Linked entry userId connection.providerId ↔
      db.Linked entry userId connection.providerId) :
    Entitles db' organizationId userId connection entry ↔
      Entitles db organizationId userId connection entry :=
  ⟨fun its => { its with
      connected := connected.1 its.connected, usable := usable.1 its.usable
      stored := stored.1 its.stored, linked := linked.1 its.linked },
    fun its => { its with
      connected := connected.2 its.connected, usable := usable.2 its.usable
      stored := stored.2 its.stored, linked := linked.2 its.linked }⟩

/-- The same connections, providers and identities. -/
structure SameSources (db db' : Db) : Prop where
  connections : db'.connections = db.connections
  providers : db'.providers = db.providers
  identities : db'.identities = db.identities

theorem SameSources.entitles (same : SameSources db db')
    (stored : entry ∈ db'.directoryUsers ↔ entry ∈ db.directoryUsers) :
    Entitles db' organizationId userId connection entry ↔
      Entitles db organizationId userId connection entry := by
  refine entitles_congr ?_ ?_ stored ?_
  · rw [same.connections]
  · rw [Db.Usable, same.providers, Db.Usable]
  · rw [Db.Linked, same.identities, Db.Linked]

theorem Agree.of_mapped (entryIds : List Uuid) (same : SameSources db db')
    (entries : db'.directoryUsers = db.directoryUsers)
    (mapped : ∀ entryId, entryId ∉ entryIds → ∀ role,
      db'.Mapped entryId role ↔ db.Mapped entryId role)
    (unreached : ∀ connection entry, entry.id ∈ entryIds →
      ¬ Entitles db organizationId userId connection entry) :
    Agree db db' organizationId userId := by
  intro connection entry
  refine ⟨same.entitles (by rw [entries]), fun entitles => mapped entry.id fun listed => ?_⟩
  exact unreached connection entry listed entitles

theorem Agree.of_tables (same : SameSources db db')
    (entries : db'.directoryUsers = db.directoryUsers)
    (mapped : ∀ entryId role, db'.Mapped entryId role ↔ db.Mapped entryId role) :
    Agree db db' organizationId userId := by
  refine .of_mapped [] same entries
    (fun entryId _ => mapped entryId) fun _ _ listed => absurd listed not_mem_nil

theorem Db.SettledFor.of_agree (settled : db.SettledFor organizationId userId)
    (same : db'.access.membership? organizationId userId =
      db.access.membership? organizationId userId)
    (agree : Agree db db' organizationId userId) : db'.SettledFor organizationId userId := by
  intro free role
  rw [ByHand, same] at free
  rw [Holds, same, Highest]
  simp only [agree.offered]
  exact settled free role

theorem Db.settledFor_of_unreached (unoffered : ∀ role, ¬ db.Offered organizationId userId role)
    (ungranted : ∀ membership, db.access.membership? organizationId userId = some membership →
      membership.scimConnectionId = none) : db.SettledFor organizationId userId := by
  intro free role
  constructor
  · rintro ⟨membership, found, -⟩
    exact absurd ⟨membership, found, ungranted membership found⟩ free
  · exact fun highest => absurd highest.1 (unoffered role)

/-! ### Reconciling -/

variable {userIds : List Uuid} (sound : db.Sound)
  (done : db.reconcile! organizationId userIds newIds = .ok db')

include sound done in
theorem Db.reconcile!_sound : db'.Sound := by
  have reconciled := reconcile!_reconciled sound.oneEach done
  have rest := reconciled.rest
  refine ⟨reconciled.oneEach, ?_, ?_, ?_, ?_, ?_, ?_⟩
  · rw [rest]
    exact sound.oneEnabled
  · intro membership stored connectionId names
    have connections : db'.connections = db.connections := by rw [rest]; rfl
    rw [connections]
    have found := (Access.Db.membership?_eq_some_iff reconciled.oneEach).2 ⟨stored, rfl, rfl⟩
    -- What names a connection did so before, or names the active one of the organization.
    have before : ∀ old, db.access.membership? membership.organizationId membership.userId =
        some old → old.scimConnectionId = some connectionId →
        ∃ connection ∈ db.connections, connection.id = connectionId ∧
          connection.organizationId = membership.organizationId := by
      intro old held its
      obtain ⟨there, home, -⟩ := (Access.Db.membership?_eq_some_iff sound.oneEach).1 held
      rw [← home]
      exact sound.granted old there connectionId its
    by_cases home : membership.organizationId = organizationId
    · subst home
      rcases reconciled.named _ membership connectionId found names with ⟨old, held, its⟩ | active
      · exact before old held its
      obtain ⟨connection, chosen, rfl⟩ := map_eq_some_iff.1 active
      obtain ⟨connected, ours, -⟩ :=
        (activeConnection_eq_some_iff sound.oneEnabled).1 chosen
      exact ⟨connection, connected, rfl, ours⟩
    rw [reconciled.elsewhere _ _ fun its => home its.1] at found
    exact before membership found names
  · rw [rest]
    exact sound.tenant
  · rw [rest]
    exact sound.bound
  · rw [rest]
    exact sound.grouped
  rw [rest]
  exact sound.joined

variable {organizationId' : Uuid}

include sound done in
theorem Db.reconcile!_lockOrganization :
    db'.lockOrganization organizationId' = db.lockOrganization organizationId' := by
  rw [(reconcile!_reconciled sound.oneEach done).rest]
  rfl

include sound done in
/-- **After a reconciliation** whoever was reconciled is settled. -/
theorem Db.settledFor_reconcile!
    (others : ¬ (organizationId' = organizationId ∧ userId ∈ userIds) →
      db.SettledFor organizationId' userId) : db'.SettledFor organizationId' userId := by
  have reconciled := reconcile!_reconciled sound.oneEach done
  have agree : Agree db db' organizationId' userId := by
    rw [reconciled.rest]
    exact .of_tables ⟨rfl, rfl, rfl⟩ rfl fun _ _ => Iff.rfl
  by_cases its : organizationId' = organizationId ∧ userId ∈ userIds
  · obtain ⟨rfl, listed⟩ := its
    intro free role
    rw [byHand_iff reconciled.byHand] at free
    rw [reconciled.granted userId listed free role, grantedRole_eq_some_iff sound.oneEnabled,
      Highest, Highest]
    simp only [agree.offered]
  · exact (others its).of_agree (reconciled.elsewhere organizationId' userId its) agree

/-- The tables are well-formed and everybody is settled. -/
structure Good (db : Db) : Prop where
  sound : db.Sound
  settled : db.Settled

/-- **A write and the reconciliation after it.**  Whoever is not reconciled must be offered the
same as before. -/
theorem Good.write_reconcile! (good : Good db)
    (done : mid.reconcile! organizationId userIds newIds = .ok db') (sound : mid.Sound)
    (same : mid.access = db.access)
    (agree : ∀ organizationId' userId, db.lockOrganization organizationId' = true →
      ¬ (organizationId' = organizationId ∧ userId ∈ userIds) →
      Agree db mid organizationId' userId) : Good db' where
  sound := reconcile!_sound sound done
  settled := by
    intro organizationId' active userId
    rw [reconcile!_lockOrganization sound done, lockOrganization, same] at active
    refine settledFor_reconcile! sound done fun other => ?_
    exact (good.settled organizationId' active userId).of_agree (by rw [same])
      (agree organizationId' userId active other)

theorem Good.write (good : Good db) (sound : db'.Sound)
    (members : db'.access.memberships = db.access.memberships)
    (organizations : db'.access.organizations = db.access.organizations)
    (agree : ∀ organizationId userId, db.lockOrganization organizationId = true →
      Agree db db' organizationId userId) : Good db' where
  sound := sound
  settled := by
    intro organizationId active userId
    rw [lockOrganization, organizations] at active
    refine (good.settled organizationId active userId).of_agree ?_
      (agree organizationId userId active)
    rw [Access.Db.membership?, Access.Db.membership?, members]

/-! ### Entries -/

/-- Entries were taken from old ones, bound as those or not at all, and those that are left in a
group are still there. -/
theorem Db.Sound.of_entries (sound : db.Sound) (access : db'.access = db.access)
    (connections : db'.connections = db.connections) (identities : db'.identities = db.identities)
    (groups : db'.directoryGroups = db.directoryGroups)
    (source : ∀ entry ∈ db'.directoryUsers, ∃ old ∈ db.directoryUsers,
      old.connectionId = entry.connectionId ∧ old.organizationId = entry.organizationId ∧
        (entry.userIdentityId = none ∨ entry.userIdentityId = old.userIdentityId))
    (members : ∀ member ∈ db'.groupMembers, member ∈ db.groupMembers ∧
      ∀ old ∈ db.directoryUsers, old.id = member.userId →
        ∃ entry ∈ db'.directoryUsers, entry.id = old.id ∧
          entry.organizationId = old.organizationId) :
    db'.Sound where
  oneEach := access ▸ sound.oneEach
  oneEnabled := by
    unfold OneEnabled
    rw [connections]
    exact sound.oneEnabled
  granted := by
    rw [access, connections]
    exact sound.granted
  tenant := by
    intro entry stored
    obtain ⟨old, there, within, home, -⟩ := source entry stored
    rw [connections, ← within, ← home]
    exact sound.tenant old there
  bound := by
    intro entry stored identityId bound
    obtain ⟨old, there, -, -, unbound | same⟩ := source entry stored
    · rw [unbound] at bound
      cases bound
    rw [identities]
    exact sound.bound old there identityId (same ▸ bound)
  grouped := by
    rw [groups, connections]
    exact sound.grouped
  joined := by
    intro member listed
    obtain ⟨was, still⟩ := members member listed
    obtain ⟨group, there, named, old, stored, its, home⟩ := sound.joined member was
    obtain ⟨entry, mem, same, home'⟩ := still old stored its
    rw [groups]
    exact ⟨group, there, named, entry, mem, same.trans its, home'.trans home⟩

theorem Agree.of_entry (entryId : Uuid) (same : SameSources db db')
    (entries : ∀ entry : DirectoryUser, entry.id ≠ entryId →
      (entry ∈ db'.directoryUsers ↔ entry ∈ db.directoryUsers))
    (mapped : ∀ otherId, otherId ≠ entryId → ∀ role,
      db'.Mapped otherId role ↔ db.Mapped otherId role)
    (before : ∀ connection entry, entry.id = entryId →
      ¬ Entitles db organizationId userId connection entry)
    (after : ∀ connection entry, entry.id = entryId →
      ¬ Entitles db' organizationId userId connection entry) :
    Agree db db' organizationId userId := by
  intro connection entry
  by_cases its : entry.id = entryId
  · exact ⟨iff_of_false (after connection entry its) (before connection entry its),
      fun entitles => absurd entitles (before connection entry its)⟩
  exact ⟨same.entitles (entries entry its), fun _ => mapped entry.id its⟩

theorem Entitles.home_of_within {other : Connection}
    (entitles : Entitles db organizationId userId other entry)
    (connected : connection ∈ db.connections) (within : entry.connectionId = connection.id) :
    organizationId = connection.organizationId := by
  have same := eq_of_key_eq entitles.connected connected (entitles.within.symm.trans within)
  rw [← same, entitles.home]

variable {connectionId : Uuid}

theorem Users.create_good {newId : Uuid} {resource : Except Error UserAttrs} (good : Good db)
    (done : Users.create env db connectionId resource newId = .ok db') :
    Good db' := by
  simp only [Users.create, client, bind_eq_ok_iff, ofOption_eq_ok_iff] at done
  obtain ⟨connection, found, _, _, _, _, _, _, _, _, done⟩ := done
  split at done
  · rename_i fresh
    cases done
    have sound := good.sound
    refine good.write { sound with tenant := ?_, bound := ?_, joined := ?_ } rfl rfl ?_
    · intro entry stored
      rcases (mem_add fresh).1 stored with old | rfl
      · exact sound.tenant entry old
      · exact ⟨connection, mem_of_get? found, rfl, rfl⟩
    · intro entry stored identityId bound
      rcases (mem_add fresh).1 stored with old | rfl
      · exact sound.bound entry old identityId bound
      · cases bound
    · intro member listed
      obtain ⟨group, there, named, entry, stored, its⟩ := sound.joined member listed
      exact ⟨group, there, named, entry, (mem_add fresh).2 (.inl stored), its⟩
    -- The new entry is bound to nobody.
    intro _ _ _
    refine .of_entry newId ⟨rfl, rfl, rfl⟩ (fun entry differs => ?_) (fun _ _ _ => Iff.rfl) ?_ ?_
    · rw [mem_add fresh]
      refine or_iff_left ?_
      rintro rfl
      exact differs rfl
    · intro _ entry its entitles
      exact get?_eq_none_iff.1 fresh entry entitles.stored its
    intro _ entry its entitles
    rcases (mem_add fresh).1 entitles.stored with old | rfl
    · exact get?_eq_none_iff.1 fresh entry old its
    obtain ⟨_, _, bound, _⟩ := entitles.linked
    cases bound
  · cases done

theorem Users.lockUser_eq_ok {id : Uuid} {user : DirectoryUser}
    (locked : Users.lockUser db connection id = .ok user) :
    user ∈ db.directoryUsers ∧ user.connectionId = connection.id := by
  rw [Users.lockUser, ofOption_eq_ok_iff, filter_eq_some_iff] at locked
  exact ⟨mem_of_get? locked.1, of_decide_eq_true locked.2⟩

theorem Users.update_good {id : Uuid} {resource : DirectoryUser → Except Error UserAttrs}
    (good : Good db) (done : Users.update env db connectionId id resource newIds = .ok db') :
    Good db' := by
  simp only [Users.update, client, bind_eq_ok_iff, ofOption_eq_ok_iff] at done
  obtain ⟨_, found, _, _, user, locked, attrs, _, _, _, _, _, done⟩ := done
  obtain ⟨stored, within⟩ := lockUser_eq_ok locked
  refine good.write_reconcile! done (good.sound.of_entries rfl rfl rfl rfl ?_ ?_) rfl ?_
  · intro entry mem
    rcases mem_put mem with rfl | ⟨old, -⟩
    · refine ⟨user, stored, rfl, rfl, ?_⟩
      show (if _ then _ else _) = none ∨ (if _ then _ else _) = _
      split
      · exact .inr rfl
      · exact .inl rfl
    · exact ⟨entry, old, rfl, rfl, .inr rfl⟩
  · refine fun _ listed => ⟨listed, fun old mem _ => ?_⟩
    rcases mem_put_or_eq (r := user.changeset attrs) stored rfl mem with kept | ⟨rfl, put⟩
    · exact ⟨old, kept, rfl, rfl⟩
    · exact ⟨_, put, rfl, rfl⟩
  intro _ _ _ other
  refine .of_entry user.id ⟨rfl, rfl, rfl⟩ (fun entry differs => mem_put_iff_of_ne differs)
    (fun _ _ _ => Iff.rfl) ?_ ?_
  · intro _ entry its entitles
    obtain rfl := eq_of_key_eq entitles.stored stored its
    exact other ⟨entitles.home_of_within (mem_of_get? found) within,
      mem_append_left _ (mem_usersOfEntries_of_entitles entitles mem_cons_self)⟩
  intro _ _ its entitles
  rcases mem_put entitles.stored with rfl | ⟨-, differs⟩
  · exact other ⟨entitles.home_of_within (mem_of_get? found) within,
      mem_append_right _ (mem_usersOfEntries_of_entitles entitles mem_cons_self)⟩
  · exact absurd its differs

theorem Users.delete_good {id : Uuid} (good : Good db)
    (done : Users.delete db connectionId id newIds = .ok db') : Good db' := by
  simp only [Users.delete, client, bind_eq_ok_iff, ofOption_eq_ok_iff] at done
  obtain ⟨_, found, _, _, user, locked, done⟩ := done
  obtain ⟨stored, within⟩ := lockUser_eq_ok locked
  refine good.write_reconcile! done (good.sound.of_entries rfl rfl rfl rfl ?_ ?_) rfl ?_
  · intro entry mem
    exact ⟨entry, (mem_erase.1 mem).1, rfl, rfl, .inr rfl⟩
  · intro member listed
    obtain ⟨was, differs⟩ := mem_filter.1 listed
    refine ⟨was, fun old mem its => ⟨old, mem_erase.2 ⟨mem, ?_⟩, rfl, rfl⟩⟩
    rw [its]
    exact of_decide_eq_true differs
  intro _ _ _ other
  refine .of_entry user.id ⟨rfl, rfl, rfl⟩ (fun entry differs => ?_) (fun _ differs _ => ?_)
    ?_ ?_
  · rw [mem_erase]
    exact and_iff_left differs
  · constructor
    · rintro ⟨member, listed, its, mapped⟩
      exact ⟨member, (mem_filter.1 listed).1, its, mapped⟩
    rintro ⟨member, listed, rfl, mapped⟩
    exact ⟨member, mem_filter.2 ⟨listed, decide_eq_true differs⟩, rfl, mapped⟩
  · intro _ entry its entitles
    obtain rfl := eq_of_key_eq entitles.stored stored its
    exact other ⟨entitles.home_of_within (mem_of_get? found) within,
      mem_usersOfEntries_of_entitles entitles mem_cons_self⟩
  intro _ _ its entitles
  exact (mem_erase.1 entitles.stored).2 its

/-! ### Groups -/

/-- The group is mapped to the role. -/
def Db.GroupRole (db : Db) (groupId : Uuid) (role : BuiltInRole) : Prop :=
  ∃ group ∈ db.directoryGroups, group.id = groupId ∧ group.role = some role

variable {group : DirectoryGroup}

theorem Db.not_groupRole (stored : group ∈ db.directoryGroups) (unmapped : group.role = none) :
    ¬ db.GroupRole group.id role := by
  rintro ⟨_, mem, same, mapped⟩
  rw [eq_of_key_eq mem stored same, unmapped] at mapped
  cases mapped

variable {wanted : List Uuid} {current : List Uuid}

theorem Groups.mem_setMembers {groupMembers : List GroupMember} {member : GroupMember} :
    member ∈ setMembers groupMembers group current wanted ↔ member ∈ groupMembers ∧
          ¬ (member.groupId = group.id ∧ member.userId ∈ removed current wanted) ∨
        ∃ userId ∈ added current wanted,
          { connectionId := group.connectionId, groupId := group.id, userId } = member := by
  rw [setMembers, mem_append, List.mem_filter, List.mem_map, decide_eq_true_eq]

variable {known : List Uuid}

theorem Groups.members_spec {ids : List (Option Uuid)}
    (checked : members db connection ids known = .ok wanted) :
    ∀ id ∈ wanted, id ∈ known ∨
      ∃ entry ∈ db.directoryUsers, entry.id = id ∧ entry.connectionId = connection.id := by
  simp only [members, bind_eq_ok_iff, pure_eq_ok_iff] at checked
  obtain ⟨_, _, _, _, rfl⟩ := checked
  intro _ mem
  rcases mem_append.1 mem with mem | mem
  · exact .inl (List.mem_filter.1 mem).1
  obtain ⟨entry, its, rfl⟩ := List.mem_map.1 mem
  obtain ⟨stored, its⟩ := List.mem_filter.1 its
  exact .inr ⟨entry, stored, rfl, (of_decide_eq_true its).1⟩

theorem Groups.lockGroup_eq_ok {id : Uuid} (locked : lockGroup db connection id = .ok group) :
    group ∈ db.directoryGroups ∧ group.connectionId = connection.id := by
  rw [lockGroup, ofOption_eq_ok_iff, filter_eq_some_iff] at locked
  exact ⟨mem_of_get? locked.1, of_decide_eq_true locked.2⟩

theorem Db.Sound.group_home (sound : db.Sound) (stored : group ∈ db.directoryGroups)
    (connected : connection ∈ db.connections) (within : group.connectionId = connection.id) :
    group.organizationId = connection.organizationId := by
  obtain ⟨_, there, named, home⟩ := sound.grouped group stored
  rw [← home, eq_of_key_eq there connected (named.trans within)]

theorem Db.Sound.member_home (sound : db.Sound) (stored : group ∈ db.directoryGroups)
    (mem : entry ∈ db.directoryUsers) (its : entry.id ∈ Groups.currentMemberIds db group.id) :
    entry.organizationId = group.organizationId := by
  obtain ⟨member, listed, same⟩ := mem_map.1 its
  obtain ⟨listed, ours⟩ := mem_filter.1 listed
  obtain ⟨_, there, named, _, mem', same', home⟩ := sound.joined member listed
  rw [eq_of_key_eq mem mem' (same.symm.trans same'.symm), home,
    eq_of_key_eq there stored (named.trans (of_decide_eq_true ours))]

/-- **A change of a group** and the reconciliation of the entries it reaches. -/
theorem Good.group_write {entryIds : List Uuid} (good : Good db)
    (done : Groups.reconcile! mid connection group entryIds newIds = .ok db') (sound : mid.Sound)
    (access : mid.access = db.access) (same : SameSources db mid)
    (entries : mid.directoryUsers = db.directoryUsers)
    (home : ∀ entry ∈ db.directoryUsers, entry.id ∈ entryIds →
      entry.organizationId = connection.organizationId)
    (mapped : ∀ entryId, entryId ∉ entryIds ∨ group.role = none → ∀ role,
      mid.Mapped entryId role ↔ db.Mapped entryId role) : Good db' := by
  unfold Groups.reconcile! at done
  split at done
  · rename_i unmapped
    cases done
    refine good.write sound (by rw [access]) (by rw [access]) fun _ _ _ => ?_
    exact .of_tables same entries fun entryId => mapped entryId (.inr unmapped)
  refine good.write_reconcile! done sound access fun _ _ _ other => ?_
  refine .of_mapped entryIds same entries (fun entryId apart => mapped entryId (.inl apart))
    fun _ entry listed entitles => ?_
  have reached : mid.usersOfEntries entryIds = db.usersOfEntries entryIds := by
    rw [usersOfEntries, entries, same.identities, usersOfEntries]
  refine other ⟨?_, reached ▸ mem_usersOfEntries_of_entitles entitles listed⟩
  rw [← good.sound.home entitles, home entry entitles.stored listed]

theorem Groups.mem_added : userId ∈ added current wanted ↔ userId ∈ wanted ∧ userId ∉ current := by
  rw [added, mem_eraseDups, List.mem_filter, decide_eq_true_eq]

variable (good : Good db)
include good

variable {resource : Except Error (GroupAttrs × List (Option Uuid))}

theorem Groups.create_good {newId : Uuid}
    (done : Groups.create env db connectionId resource newId = .ok db') : Good db' := by
  simp only [Groups.create, client, bind_eq_ok_iff, ofOption_eq_ok_iff] at done
  obtain ⟨connection, found, _, _, _, _, _, checked, _, _, _, _, done⟩ := done
  split at done
  · rename_i fresh
    cases done
    have sound := good.sound
    have connected := mem_of_get? found
    refine good.write { sound with grouped := ?_, joined := ?_ } rfl rfl fun _ userId _ => ?_
    · intro group stored
      rcases (mem_add fresh).1 stored with old | rfl
      · exact sound.grouped group old
      · exact ⟨connection, connected, rfl, rfl⟩
    · intro member listed
      rcases mem_setMembers.1 listed with ⟨was, -⟩ | ⟨userId, new, rfl⟩
      · obtain ⟨group, there, its⟩ := sound.joined member was
        exact ⟨group, (mem_add fresh).2 (.inl there), its⟩
      refine ⟨_, (mem_add fresh).2 (.inr rfl), rfl, ?_⟩
      obtain ⟨entry, stored, its, within⟩ := (members_spec checked userId
        (mem_added.1 new).1).resolve_left not_mem_nil
      obtain ⟨_, there, named, home⟩ := sound.tenant entry stored
      refine ⟨entry, stored, its, ?_⟩
      rw [← home, eq_of_key_eq there connected (named.trans within)]
    -- The new group is mapped to no role.
    refine .of_tables ⟨rfl, rfl, rfl⟩ rfl fun _ _ => ⟨?_, ?_⟩
    · rintro ⟨member, listed, its, group, stored, named, mapped⟩
      rcases (mem_add fresh).1 stored with old | rfl
      · rcases mem_setMembers.1 listed with ⟨was, -⟩ | ⟨_, -, rfl⟩
        · exact ⟨member, was, its, group, old, named, mapped⟩
        · exact absurd named (get?_eq_none_iff.1 fresh group old)
      · cases mapped
    rintro ⟨member, listed, its, group, stored, mapped⟩
    refine ⟨member, mem_setMembers.2 (.inl ⟨listed, fun out => ?_⟩), its, group,
      (mem_add fresh).2 (.inl stored), mapped⟩
    exact absurd (mem_filter.1 out.2).1 not_mem_nil
  · cases done

/-- Changing a group: its members before and after are reconciled. -/
theorem Groups.change_good {attrs : GroupAttrs} (connected : connection ∈ db.connections)
    (stored : group ∈ db.directoryGroups) (within : group.connectionId = connection.id)
    (current : known ⊆ currentMemberIds db group.id) (members : ∀ id ∈ wanted, id ∈ known ∨
      ∃ entry ∈ db.directoryUsers, entry.id = id ∧ entry.connectionId = connection.id)
    (done : Groups.change env db connection group attrs wanted newIds = .ok db') : Good db' := by
  simp only [Groups.change, bind_eq_ok_iff] at done
  obtain ⟨_, _, _, _, done⟩ := done
  have sound := good.sound
  have home := sound.group_home stored connected within
  -- What is added is an entry of the connection, so of the group's organization.
  have addition : ∀ userId ∈ added (currentMemberIds db group.id) wanted,
      ∃ entry ∈ db.directoryUsers, entry.id = userId ∧
        entry.organizationId = group.organizationId := by
    intro userId new
    obtain ⟨listed, absent⟩ := mem_added.1 new
    obtain ⟨entry, mem, its, ours⟩ :=
      (members userId listed).resolve_left fun old => absent (current old)
    obtain ⟨other, there, named, home'⟩ := sound.tenant entry mem
    refine ⟨entry, mem, its, ?_⟩
    rw [home, ← home', eq_of_key_eq there connected (named.trans ours)]
  have still : ∀ other ∈ db.directoryGroups, _ := fun _ => mem_put_or_eq stored
    (r := { group with displayName := attrs.displayName, externalId := attrs.externalId }) rfl
  refine good.group_write done { sound with grouped := ?_, joined := ?_ } rfl ⟨rfl, rfl, rfl⟩ rfl
    ?_ ?_
  · intro other mem
    rcases mem_put mem with rfl | ⟨old, -⟩
    · exact ⟨connection, connected, within.symm, home.symm⟩
    · exact sound.grouped other old
  · intro member listed
    rcases mem_setMembers.1 listed with ⟨was, -⟩ | ⟨userId, new, rfl⟩
    · obtain ⟨other, there, named, its⟩ := sound.joined member was
      rcases still other there with kept | ⟨rfl, put⟩
      · exact ⟨other, kept, named, its⟩
      · exact ⟨_, put, named, its⟩
    · have there : db.directoryGroups.get? group.id = some group := get?_of_mem stored
      exact ⟨_, mem_put_self there, rfl, addition userId new⟩
  · intro entry mem listed
    rw [← home]
    rcases mem_append.1 listed with new | out
    · obtain ⟨other, mem', its, home'⟩ := addition entry.id new
      rw [eq_of_key_eq mem mem' its.symm, home']
    · exact sound.member_home stored mem (mem_filter.1 out).1
  intro _ apart role
  constructor
  · rintro ⟨member, listed, its, other, mem, named, mapped⟩
    have old : db.GroupRole member.groupId role := by
      rcases mem_put mem with rfl | ⟨old, -⟩
      · exact ⟨group, stored, named, mapped⟩
      · exact ⟨other, old, named, mapped⟩
    rcases mem_setMembers.1 listed with ⟨was, -⟩ | ⟨_, new, rfl⟩
    · exact ⟨member, was, its, old⟩
    rcases apart with absent | unmapped
    · exact absurd (mem_append_left _ (its ▸ new)) absent
    exact absurd old (not_groupRole stored unmapped)
  rintro ⟨member, was, its, other, mem, named, mapped⟩
  refine ⟨member, mem_setMembers.2 (.inl ⟨was, ?_⟩), its, ?_⟩
  · rintro ⟨ours, out⟩
    rcases apart with absent | unmapped
    · exact absent (mem_append_right _ (its ▸ out))
    · exact not_groupRole stored unmapped ⟨other, mem, named.trans ours, mapped⟩
  rcases still other mem with kept | ⟨rfl, put⟩
  · exact ⟨other, kept, named, mapped⟩
  · exact ⟨_, put, named, mapped⟩

theorem Groups.replace_good {id : Uuid}
    (done : Groups.replace env db connectionId id resource newIds = .ok db') : Good db' := by
  simp only [Groups.replace, client, bind_eq_ok_iff, ofOption_eq_ok_iff] at done
  obtain ⟨_, found, _, _, _, locked, _, _, _, checked, done⟩ := done
  obtain ⟨stored, within⟩ := lockGroup_eq_ok locked
  exact change_good good (mem_of_get? found) stored within (nil_subset _)
    (members_spec checked) done

theorem Groups.patch_good {id : Uuid}
    {resource : GroupAttrs → List Uuid → Except Error (GroupAttrs × List (Option Uuid))}
    (done : Groups.patch env db connectionId id resource newIds = .ok db') :
    Good db' := by
  simp only [Groups.patch, client, bind_eq_ok_iff, ofOption_eq_ok_iff] at done
  obtain ⟨_, found, _, _, _, locked, _, _, _, checked, done⟩ := done
  obtain ⟨stored, within⟩ := lockGroup_eq_ok locked
  exact change_good good (mem_of_get? found) stored within (List.Subset.refl _)
    (members_spec checked) done

theorem Groups.delete_good {id : Uuid}
    (done : Groups.delete db connectionId id newIds = .ok db') : Good db' := by
  simp only [Groups.delete, client, bind_eq_ok_iff, ofOption_eq_ok_iff] at done
  obtain ⟨_, found, _, _, group, locked, done⟩ := done
  obtain ⟨stored, within⟩ := lockGroup_eq_ok locked
  have sound := good.sound
  have home := sound.group_home stored (mem_of_get? found) within
  refine good.group_write done { sound with grouped := ?_, joined := ?_ } rfl ⟨rfl, rfl, rfl⟩ rfl
    ?_ ?_
  · exact fun other mem => sound.grouped other (mem_erase.1 mem).1
  · intro member listed
    obtain ⟨was, differs⟩ := mem_filter.1 listed
    obtain ⟨other, there, named, its⟩ := sound.joined member was
    refine ⟨other, mem_erase.2 ⟨there, ?_⟩, named, its⟩
    rw [named]
    exact of_decide_eq_true differs
  · exact fun _ mem listed => (sound.member_home stored mem listed).trans home
  intro _ apart _
  constructor
  · rintro ⟨member, listed, its, other, mem, mapped⟩
    exact ⟨member, (mem_filter.1 listed).1, its, other, (mem_erase.1 mem).1, mapped⟩
  rintro ⟨member, was, its, other, mem, named, mapped⟩
  have differs : member.groupId ≠ group.id := by
    intro ours
    rcases apart with absent | unmapped
    · exact absent (mem_map.2 ⟨member, mem_filter.2 ⟨was, decide_eq_true ours⟩, its⟩)
    · exact not_groupRole stored unmapped ⟨other, mem, named.trans ours, mapped⟩
  exact ⟨member, mem_filter.2 ⟨was, decide_eq_true differs⟩, its, other,
    mem_erase.2 ⟨mem, named ▸ differs⟩, named, mapped⟩

theorem Db.mapGroup_good {scope : Access.Scope} {groupId : Uuid} {role : Option String} {now : Time}
    (done : db.mapGroup scope groupId role now newIds = .ok db') : Good db' := by
  simp only [mapGroup, lockGroup, bind_eq_ok_iff, ofOption_eq_ok_iff,
    filter_eq_some_iff, decide_eq_true_eq] at done
  obtain ⟨_, _, role, _, group, ⟨found, inScope⟩, done⟩ := done
  split at done
  · cases done
    exact good
  have stored := mem_of_get? found
  have sound := good.sound
  refine good.write_reconcile! done { sound with grouped := ?_, joined := ?_ } rfl
    fun _ _ _ other => ?_
  · intro group' mem
    rcases mem_put mem with rfl | ⟨old, -⟩
    · exact sound.grouped group stored
    · exact sound.grouped group' old
  · intro member listed
    obtain ⟨group', mem, named, its⟩ := sound.joined member listed
    rcases mem_put_or_eq (r := { group with role }) stored rfl mem with kept | ⟨rfl, put⟩
    · exact ⟨group', kept, named, its⟩
    · exact ⟨_, put, named, its⟩
  refine .of_mapped (Groups.currentMemberIds db group.id) ⟨rfl, rfl, rfl⟩ rfl
    (fun entryId absent _ => ?_) fun _ _ listed entitles => other ⟨?_, ?_⟩
  · -- The group of a member that is not of this group is as it was.
    have apart : ∀ member ∈ db.groupMembers, member.userId = entryId →
        member.groupId ≠ group.id := fun member listed its ours =>
      absent (mem_map.2 ⟨member, mem_filter.2 ⟨listed, decide_eq_true ours⟩, its⟩)
    constructor
    · rintro ⟨member, listed, its, group', mem, named, mapped⟩
      rcases mem_put mem with rfl | ⟨old, -⟩
      · exact absurd named.symm (apart member listed its)
      exact ⟨member, listed, its, group', old, named, mapped⟩
    rintro ⟨member, listed, its, group', mem, named, mapped⟩
    refine ⟨member, listed, its, group', mem_put_of_ne mem ?_, named, mapped⟩
    exact fun same => apart member listed its (named.symm.trans same)
  · rw [← inScope, ← sound.member_home stored entitles.stored listed, sound.home entitles]
  have reached := mem_usersOfEntries_of_entitles entitles listed
  exact reached

omit good

end Renga.Scim
