import Renga.Scim.Settled

/-!
# Connections, providers and identities

A change of a provider and a sign-in write several times, and what they do is shown write by
write.  Between the write of a provider and the end of its loop the people its connections reach
are not settled.  `SettledBut` says that all others are; each turn of the loop takes one
connection off.
-/

namespace Renga.Scim

open List KeyTable Option Except

open Renga.Access (BuiltInRole Membership)

variable {env : Env} {db mid db' : Db} {organizationId userId : Uuid} {newIds : NewIds}

/-! ### Connections -/

variable {connection : Connection}

section Change

/-! A connection is changed in its default role or in when it was disabled; where it is enabled, no
other one of its organization is. -/

variable (good : Good db) (done : db.writeConnection connection newIds = .ok db')

variable {old : Connection} (stored : old ∈ db.connections) (same : connection.id = old.id)
  (home : connection.organizationId = old.organizationId)
  (alone : connection.disabledAt = none → ∀ other ∈ db.connections,
    other.organizationId = connection.organizationId → other.disabledAt = none →
    other.id = connection.id)
include stored same home alone

theorem Db.Sound.put_connection (sound : db.Sound) :
    Db.Sound { db with connections := db.connections.put connection } := by
  have there : db.connections.get? connection.id = some old := same ▸ get?_of_mem stored
  have put := mem_put_self there
  -- Every connection is still there, under its key and in its organization.
  have still : ∀ other ∈ db.connections, ∃ connection' ∈ db.connections.put connection,
      connection'.id = other.id ∧ connection'.organizationId = other.organizationId := by
    intro other mem
    rcases mem_put_or_eq stored same mem with kept | ⟨rfl, put⟩
    · exact ⟨other, kept, rfl, rfl⟩
    · exact ⟨connection, put, same, home⟩
  refine ⟨sound.oneEach, ?_, ?_, ?_, sound.bound, ?_, sound.joined⟩
  · intro one mem two mem' its enabled enabled'
    by_cases ours : one.id = connection.id
    · obtain rfl := eq_of_key_eq mem put ours
      by_cases ours' : two.id = one.id
      · exact (eq_of_key_eq mem' mem ours').symm
      · exact absurd (alone enabled two ((mem_put_iff_of_ne ours').1 mem') its.symm enabled') ours'
    by_cases ours' : two.id = connection.id
    · obtain rfl := eq_of_key_eq mem' put ours'
      exact absurd (alone enabled' one ((mem_put_iff_of_ne ours).1 mem) its enabled) ours
    exact sound.oneEnabled one ((mem_put_iff_of_ne ours).1 mem) two
      ((mem_put_iff_of_ne ours').1 mem') its enabled enabled'
  · intro membership mem connectionId names
    obtain ⟨before, mem', rfl, home'⟩ := sound.granted membership mem connectionId names
    obtain ⟨after, mem'', its, home''⟩ := still before mem'
    exact ⟨after, mem'', its, home''.trans home'⟩
  · intro entry mem
    obtain ⟨before, mem', named, home'⟩ := sound.tenant entry mem
    obtain ⟨after, mem'', its, home''⟩ := still before mem'
    exact ⟨after, mem'', its.trans named, home''.trans home'⟩
  intro group mem
  obtain ⟨before, mem', named, home'⟩ := sound.grouped group mem
  obtain ⟨after, mem'', its, home''⟩ := still before mem'
  exact ⟨after, mem'', its.trans named, home''.trans home'⟩

include good done in
theorem Db.writeConnection_good : Good db' := by
  have there : db.connections.get? connection.id = some old := same ▸ get?_of_mem stored
  refine good.write_reconcile! done (good.sound.put_connection stored same home alone) rfl
    fun organizationId userId _ other connection' entry => ?_
  by_cases ours : connection'.id = connection.id
  · -- Who is entitled through the connection is reconciled.
    have before : ¬ Entitles db organizationId userId connection' entry := by
      intro entitles
      have reached := mem_usersOfConnection_of_entitles entitles
      refine other ⟨?_, ours ▸ reached⟩
      rw [home, ← eq_of_key_eq entitles.connected stored (ours.trans same), entitles.home]
    refine ⟨iff_of_false (fun entitles => ?_) before, fun entitles => absurd entitles before⟩
    have reached := mem_usersOfConnection_of_entitles entitles
    refine other ⟨?_, ours ▸ reached⟩
    rw [← eq_of_key_eq entitles.connected (mem_put_self there) ours, entitles.home]
  · exact ⟨entitles_congr (mem_put_iff_of_ne ours) Iff.rfl Iff.rfl Iff.rfl, fun _ _ => Iff.rfl⟩

end Change

variable {scope : Access.Scope} {connectionId : Uuid}

theorem Db.lockConnection_eq_ok (locked : db.lockConnection scope connectionId = .ok connection) :
    connection ∈ db.connections ∧ connection.organizationId = scope.organizationId := by
  rw [lockConnection, ofOption_eq_ok_iff, filter_eq_some_iff] at locked
  exact ⟨mem_of_get? locked.1, of_decide_eq_true locked.2⟩

variable {now : Time}

theorem Db.updateDefaultRole_good {role : Option String} (good : Good db)
    (done : db.updateDefaultRole scope connectionId role now newIds = .ok db') : Good db' := by
  simp only [updateDefaultRole, bind_eq_ok_iff] at done
  obtain ⟨_, _, connection, locked, _, _, done⟩ := done
  have stored := (lockConnection_eq_ok locked).1
  refine writeConnection_good good done stored rfl rfl fun enabled other mem home enabled' => ?_
  rw [good.sound.oneEnabled other mem connection stored home enabled' enabled]

theorem Db.disableConnection_good (good : Good db)
    (done : db.disableConnection scope connectionId now newIds = .ok db') : Good db' := by
  simp only [disableConnection, bind_eq_ok_iff] at done
  obtain ⟨_, _, _, locked, done⟩ := done
  split at done
  · exact writeConnection_good good done (lockConnection_eq_ok locked).1 rfl rfl
      fun enabled => by cases enabled
  cases done
  exact good

theorem Db.not_enabled (none : ¬ db.enabledConnection organizationId = true)
    (mem : connection ∈ db.connections) (home : connection.organizationId = organizationId) :
    connection.disabledAt ≠ Option.none := by
  intro enabled
  exact none (any_eq_true.2 ⟨connection, mem, decide_eq_true ⟨home, enabled⟩⟩)

theorem Db.enableConnection_good (good : Good db)
    (done : db.enableConnection scope connectionId now newIds = .ok db') : Good db' := by
  simp only [enableConnection, bind_eq_ok_iff] at done
  obtain ⟨_, _, _, locked, done⟩ := done
  obtain ⟨stored, home⟩ := lockConnection_eq_ok locked
  split at done
  · cases done
    exact good
  split at done
  · cases done
  rename_i none
  split at done
  · cases done
  refine writeConnection_good good done stored rfl rfl fun _ _ mem home' enabled => ?_
  exact absurd enabled (not_enabled none mem (home'.trans home))

theorem Db.createConnection_good {attrs : ConnectionAttrs} {newId : Uuid} (good : Good db)
    (done : db.createConnection scope attrs newId now = .ok db') : Good db' := by
  simp only [createConnection, ensure, bind_eq_ok_iff, require_eq_ok_iff] at done
  obtain ⟨_, _, _, valid, _, _, _, _, _, _, done⟩ := done
  have none : ¬ db.enabledConnection scope.organizationId = true := by
    intro enabled
    have errors := of_decide_eq_true valid
    simp [connectionErrors, Access.check, enabled] at errors
  split at done
  · rename_i fresh
    cases done
    have sound := good.sound
    refine good.write ⟨sound.oneEach, ?_, ?_, ?_, sound.bound, ?_, sound.joined⟩ rfl rfl
      fun _ _ _ connection entry => ⟨?_, fun _ _ => Iff.rfl⟩
    · intro one mem two mem' home enabled enabled'
      rcases (mem_add fresh).1 mem with old | rfl
      · rcases (mem_add fresh).1 mem' with old' | rfl
        · exact sound.oneEnabled one old two old' home enabled enabled'
        · exact absurd enabled (not_enabled none old home)
      rcases (mem_add fresh).1 mem' with old' | rfl
      · exact absurd enabled' (not_enabled none old' home.symm)
      rfl
    · intro membership mem connectionId names
      obtain ⟨connection, old, its⟩ := sound.granted membership mem connectionId names
      exact ⟨connection, (mem_add fresh).2 (.inl old), its⟩
    · intro entry mem
      obtain ⟨connection, old, its⟩ := sound.tenant entry mem
      exact ⟨connection, (mem_add fresh).2 (.inl old), its⟩
    · intro group mem
      obtain ⟨connection, old, its⟩ := sound.grouped group mem
      exact ⟨connection, (mem_add fresh).2 (.inl old), its⟩
    -- The new connection has no entries.
    constructor
    · intro entitles
      rcases (mem_add fresh).1 entitles.connected with old | rfl
      · exact { entitles with connected := old }
      obtain ⟨other, old, named, -⟩ := sound.tenant entry entitles.stored
      exact absurd (named.trans entitles.within) (get?_eq_none_iff.1 fresh other old)
    intro entitles
    exact { entitles with connected := (mem_add fresh).2 (.inl entitles.connected) }
  · cases done

/-! ### Bindings that are cleared -/

variable {condition : DirectoryUser → Bool} {entry : DirectoryUser}

theorem Db.mem_unbind_iff : entry ∈ (db.unbind condition).directoryUsers ↔
      ∃ old ∈ db.directoryUsers, unbindIf condition old = entry :=
  mem_map

theorem Db.mem_unbind (bound : entry.userIdentityId ≠ none) :
    entry ∈ (db.unbind condition).directoryUsers ↔
      entry ∈ db.directoryUsers ∧ condition entry = false := by
  rw [mem_unbind_iff]
  refine ⟨?_, fun its => ⟨entry, its.1, if_neg (Bool.eq_false_iff.1 its.2)⟩⟩
  rintro ⟨_, mem, rfl⟩
  unfold unbindIf at bound ⊢
  split at bound
  · exact absurd rfl bound
  rename_i kept
  rw [if_neg kept]
  exact ⟨mem, Bool.eq_false_iff.2 kept⟩

theorem Db.Linked.bound {providerId : String} (linked : db.Linked entry userId providerId) :
    entry.userIdentityId ≠ none := by
  obtain ⟨_, _, bound, _⟩ := linked
  rw [bound]
  exact some_ne_none _

theorem Db.unbindIf_kept (condition : DirectoryUser → Bool) (entry : DirectoryUser) :
    (unbindIf condition entry).connectionId = entry.connectionId ∧
      (unbindIf condition entry).organizationId = entry.organizationId ∧
      ((unbindIf condition entry).userIdentityId = none ∨
        (unbindIf condition entry).userIdentityId = entry.userIdentityId) := by
  unfold unbindIf
  split
  · exact ⟨rfl, rfl, .inl rfl⟩
  · exact ⟨rfl, rfl, .inr rfl⟩

theorem Db.Sound.unbind (sound : db.Sound) (condition : DirectoryUser → Bool) :
    (db.unbind condition).Sound := by
  refine sound.of_entries rfl rfl rfl rfl ?_ fun _ listed => ⟨listed, fun old mem _ => ?_⟩
  · intro _ mem
    obtain ⟨old, there, rfl⟩ := mem_unbind_iff.1 mem
    obtain ⟨within, home, bound⟩ := unbindIf_kept condition old
    exact ⟨old, there, within.symm, home.symm, bound⟩
  exact ⟨_, mem_unbind_iff.2 ⟨old, mem, rfl⟩, unbindIf_id old,
    (unbindIf_kept condition old).2.1⟩

theorem Agree.unbind
    (kept : ∀ connection entry, Entitles db organizationId userId connection entry →
      condition entry = false) : Agree db (db.unbind condition) organizationId userId := by
  intro connection entry
  refine ⟨⟨fun its => ?_, fun its => ?_⟩, fun _ _ => Iff.rfl⟩
  · exact { its with stored := ((Db.mem_unbind its.linked.bound).1 its.stored).1 }
  exact { its with
    stored := (Db.mem_unbind its.linked.bound).2 ⟨its.stored, kept connection entry its⟩ }

/-! ### Providers -/

/-- An entry of the connection is bound to an identity of the person. -/
def Db.Reaches (db : Db) (connection : Connection) (userId : Uuid) : Prop :=
  ∃ entry ∈ db.directoryUsers, entry.connectionId = connection.id ∧
    ∃ identity ∈ db.identities, entry.userIdentityId = some identity.id ∧ identity.userId = userId

theorem Entitles.reaches (entitles : Entitles db organizationId userId connection entry) :
    db.Reaches connection userId := by
  obtain ⟨identity, known, bound, person, -⟩ := entitles.linked
  exact ⟨entry, entitles.stored, entitles.within, identity, known, bound, person⟩

theorem Db.Reaches.mem_usersOfConnection (reaches : db.Reaches connection userId) :
    userId ∈ db.usersOfConnection connection.id := by
  obtain ⟨entry, mem, within, identity, known, bound, person⟩ := reaches
  refine Db.mem_usersOfConnection.2 (.inl (Db.mem_usersOfEntries.2
    ⟨entry, mem, ?_, identity, known, bound, person⟩))
  exact mem_map.2 ⟨entry, List.mem_filter.2 ⟨mem, decide_eq_true within⟩, rfl⟩

/-- Everybody is settled but for those whom some connections reach. -/
def Db.SettledBut (db : Db) (pending : List Connection) : Prop :=
  ∀ organizationId, db.lockOrganization organizationId = true → ∀ userId,
    (∀ connection ∈ pending, connection.organizationId = organizationId →
      ¬ db.Reaches connection userId) → db.SettledFor organizationId userId

variable {removed : Option Time}

theorem Agree.retireIf (connected : connection ∈ db.connections)
    (unreached : organizationId = connection.organizationId → ¬ db.Reaches connection userId) :
    Agree db (db.retireIf removed connection) organizationId userId := by
  cases removed with
  | none => exact .of_tables ⟨rfl, rfl, rfl⟩ rfl fun _ _ => Iff.rfl
  | some =>
    -- A connection that entitles the person is another one.
    have differs : ∀ connection' entry,
        Entitles db organizationId userId connection' entry → connection'.id ≠ connection.id := by
      intro connection' entry its same
      obtain rfl := eq_of_key_eq its.connected connected same
      exact unreached its.home.symm its.reaches
    have cleared : Agree db (db.unbind (·.connectionId = connection.id)) organizationId userId := by
      refine .unbind fun connection' entry its => decide_eq_false ?_
      rw [its.within]
      exact differs connection' entry its
    intro connection' entry
    refine ⟨⟨fun its => (cleared connection' entry).1.1 ?_, fun its => ?_⟩, fun _ _ => Iff.rfl⟩
    · rcases mem_put its.connected with rfl | ⟨old, -⟩
      · cases its.enabled
      exact { its with connected := old }
    have kept := (cleared connection' entry).1.2 its
    exact { kept with connected := mem_put_of_ne kept.connected (differs connection' entry its) }

theorem Db.Sound.retireIf (sound : db.Sound) (connected : connection ∈ db.connections) :
    (db.retireIf removed connection).Sound := by
  cases removed with
  | none => exact sound
  | some =>
    exact (sound.unbind (·.connectionId = connection.id)).put_connection connected rfl rfl
      fun enabled => by cases enabled

theorem Db.reaches_retireIf {other : Connection} (differs : other.id ≠ connection.id) :
    (db.retireIf removed connection).Reaches other userId ↔ db.Reaches other userId := by
  cases removed with
  | none => exact Iff.rfl
  | some =>
    have bound : ∀ {entry : DirectoryUser} {identity : UserIdentity},
        entry.userIdentityId = some identity.id → entry.userIdentityId ≠ none :=
      fun its => its ▸ some_ne_none _
    constructor
    · rintro ⟨entry, mem, within, identity, known, its⟩
      exact ⟨entry, ((mem_unbind (bound its.1)).1 mem).1, within, identity, known, its⟩
    rintro ⟨entry, mem, within, identity, known, its⟩
    refine ⟨entry, (mem_unbind (bound its.1)).2 ⟨mem, decide_eq_false ?_⟩, within, identity,
      known, its⟩
    rw [within]
    exact differs

/-- **A connection whose provider has changed.**  It is no longer among those that are pending. -/
theorem Db.connectionChanged!_settledBut {rest : List Connection} (sound : db.Sound)
    (but : db.SettledBut (connection :: rest))
    (pending : ∀ other ∈ connection :: rest, other ∈ db.connections ∧ other.disabledAt = none)
    (distinct : (connection :: rest).Nodup)
    (done : db.connectionChanged! removed connection newIds = .ok db') :
    db'.Sound ∧ db'.SettledBut rest ∧
      ∀ other ∈ rest, other ∈ db'.connections ∧ other.disabledAt = none := by
  obtain ⟨connected, _⟩ := pending connection mem_cons_self
  have soundMid : (db.retireIf removed connection).Sound := sound.retireIf connected
  have reconciled := reconcile!_reconciled soundMid.oneEach done
  have apart : ∀ other ∈ rest, other.id ≠ connection.id := by
    intro other mem same
    have its := (pending other (mem_cons_of_mem _ mem)).1
    exact (nodup_cons.1 distinct).1 (eq_of_key_eq its connected same ▸ mem)
  have accessSame : (db.retireIf removed connection).access = db.access := by
    cases removed <;> rfl
  refine ⟨reconcile!_sound soundMid done, ?_, fun other mem => ?_⟩
  · intro organizationId active userId unreached
    rw [reconcile!_lockOrganization soundMid done, lockOrganization, accessSame] at active
    -- The connections that are left reach the same people as before.
    have unreached' : ∀ other ∈ rest, other.organizationId = organizationId →
        ¬ db.Reaches other userId := by
      intro other mem home reaches
      refine unreached other mem home ?_
      rw [reconciled.rest]
      exact (reaches_retireIf (apart other mem)).2 reaches
    refine settledFor_reconcile! soundMid done fun others => ?_
    have here : organizationId = connection.organizationId → ¬ db.Reaches connection userId := by
      rintro rfl reaches
      refine others ⟨rfl, ?_⟩
      rw [lockOrganization, if_pos active]
      exact reaches.mem_usersOfConnection
    refine (but organizationId active userId ?_).of_agree (by rw [accessSame])
      (.retireIf connected here)
    intro other mem home
    rcases mem_cons.1 mem with rfl | mem
    · exact here home.symm
    · exact unreached' other mem home
  obtain ⟨its, enabled'⟩ := pending other (mem_cons_of_mem _ mem)
  refine ⟨?_, enabled'⟩
  rw [reconciled.rest]
  cases removed with
  | none => exact its
  | some => exact mem_put_of_ne its (apart other mem)

theorem Db.providerChangedEach_good {connections : List Connection}
    (done : providerChangedEach removed newIds connections db = .ok db') (sound : db.Sound)
    (but : db.SettledBut connections)
    (pending : ∀ other ∈ connections, other ∈ db.connections ∧ other.disabledAt = none)
    (distinct : connections.Nodup) : Good db' := by
  induction connections generalizing db with
  | nil =>
    cases done
    exact ⟨sound, fun organizationId active userId =>
      but organizationId active userId fun _ mem => absurd mem not_mem_nil⟩
  | cons _ _ ih =>
    simp only [providerChangedEach, bind_eq_ok_iff] at done
    obtain ⟨_, changed, done⟩ := done
    obtain ⟨sound', but', pending'⟩ :=
      connectionChanged!_settledBut sound but pending distinct changed
    exact ih done sound' but' pending' (nodup_cons.1 distinct).2

variable {provider : IdentityProvider}

theorem Db.saveProvider_good (good : Good db) (done : db.saveProvider provider newIds = .ok db') :
    Good db' := by
  have sound := good.sound
  have changed : providerChangedEach provider.removedAt newIds _
    { db with providers := db.providers.put provider } = .ok db' := done
  refine providerChangedEach_good changed { sound with } ?_ ?_ ?_
  · intro organizationId active userId unreached
    refine (good.settled organizationId active userId).of_agree rfl fun connection _ => ?_
    refine ⟨?_, fun _ _ => Iff.rfl⟩
    by_cases ours : connection.providerId = provider.id
    · -- Such a connection is pending, and whom it reaches is left out.
      have pending : connection ∈ db.connections → connection.disabledAt = none →
          connection.organizationId = organizationId → ¬ db.Reaches connection userId := by
        intro mem enabled
        exact unreached connection (List.mem_filter.2 ⟨mem, decide_eq_true ⟨ours, enabled⟩⟩)
      refine iff_of_false (fun its => ?_) fun its => ?_
      · exact pending its.connected its.enabled its.home its.reaches
      · exact pending its.connected its.enabled its.home its.reaches
    refine entitles_congr Iff.rfl ?_ Iff.rfl Iff.rfl
    constructor
    · rintro ⟨other, mem, named, usable⟩
      rcases mem_put mem with rfl | ⟨old, -⟩
      · exact absurd named.symm ours
      exact ⟨other, old, named, usable⟩
    rintro ⟨other, mem, named, usable⟩
    exact ⟨other, mem_put_of_ne mem fun same => ours (named.symm.trans same), named,
      usable⟩
  · intro _ mem
    obtain ⟨mem, its⟩ := List.mem_filter.1 mem
    exact ⟨mem, (of_decide_eq_true its).2⟩
  · exact (List.Nodup.of_map _ db.connections.nodup).filter _

/-! ### Identities -/

variable {identity : UserIdentity}

theorem Db.insertIdentity_good {taken : Error} (done : db.insertIdentity identity taken = .ok db')
    (good : Good db) :
    Good db' ∧ identity ∈ db'.identities := by
  unfold insertIdentity at done
  split at done
  · rename_i fresh
    split at done
    · cases done
    cases done
    have sound := good.sound
    refine ⟨good.write { sound with bound := ?_ } rfl rfl fun _ _ _ _ entry => ?_,
      (mem_add fresh).2 (.inr rfl)⟩
    · intro entry mem identityId bound
      obtain ⟨other, known, its⟩ := sound.bound entry mem identityId bound
      exact ⟨other, (mem_add fresh).2 (.inl known), its⟩
    refine ⟨⟨fun its => ?_, fun its => ?_⟩, fun _ _ => Iff.rfl⟩
    · obtain ⟨other, known, bound, person⟩ := its.linked
      refine { its with linked := ⟨other, ?_, bound, person⟩ }
      rcases (mem_add fresh).1 known with old | rfl
      · exact old
      obtain ⟨older, old, same⟩ := sound.bound entry its.stored _ bound
      exact absurd same (get?_eq_none_iff.1 fresh older old)
    obtain ⟨other, known, its'⟩ := its.linked
    exact { its with linked := ⟨other, (mem_add fresh).2 (.inl known), its'⟩ }
  · cases done

variable (good : Good db) (known : identity ∈ db.identities)

include good known in
theorem Db.bind!_good (stored : entry ∈ db.directoryUsers) (unbound : entry.userIdentityId = none)
    (done : db.bind! entry identity newIds = .ok db') : Good db' := by
  have sound := good.sound
  obtain ⟨connection, connected, named, home⟩ := sound.tenant entry stored
  refine good.write_reconcile! done { sound with tenant := ?_, bound := ?_, joined := ?_ } rfl
    fun _ _ _ other => ?_
  · intro entry' mem
    rcases mem_put mem with rfl | ⟨old, -⟩
    · exact ⟨connection, connected, named, home⟩
    · exact sound.tenant entry' old
  · intro entry' mem identityId bound
    rcases mem_put mem with rfl | ⟨old, -⟩
    · cases bound
      exact ⟨identity, known, rfl⟩
    · exact sound.bound entry' old identityId bound
  · intro member listed
    obtain ⟨group, mem, its, entry', mem', same, home'⟩ := sound.joined member listed
    rcases mem_put_or_eq (r := { entry with userIdentityId := some identity.id }) stored rfl mem'
      with kept | ⟨rfl, put⟩
    · exact ⟨group, mem, its, entry', kept, same, home'⟩
    · exact ⟨group, mem, its, _, put, same, home'⟩
  refine .of_entry entry.id ⟨rfl, rfl, rfl⟩ (fun entry' differs => mem_put_iff_of_ne differs)
    (fun _ _ _ => Iff.rfl) ?_ ?_
  · intro _ entry' its entitles
    obtain rfl := eq_of_key_eq entitles.stored stored its
    exact entitles.linked.bound unbound
  intro _ _ its entitles
  rcases mem_put entitles.stored with rfl | ⟨-, differs⟩
  · obtain ⟨_, known', bound, person, -⟩ := entitles.linked
    obtain rfl := eq_of_key_eq known known' (some.inj bound)
    refine other ⟨?_, mem_singleton.2 person.symm⟩
    rw [entitles.home_of_within connected named.symm, home]
  · exact absurd its differs

theorem Db.reconcile!_identities {userIds : List Uuid}
    (done : db.reconcile! organizationId userIds newIds = .ok db') (oneEach : db.access.OneEach) :
    db'.identities = db.identities := by
  rw [(reconcile!_reconciled oneEach done).rest]
  rfl

variable {claims : String → Option String}

include good known in
theorem Db.linkEntry_good {entryId : Uuid}
    (done : db.linkEntry env identity claims newIds organizationId entryId = .ok db') :
    Good db' ∧ identity ∈ db'.identities := by
  unfold linkEntry at done
  split at done
  · split at done
    · cases done
      exact ⟨good, known⟩
    rename_i entry found
    split at done
    · rename_i unbound
      have stored := mem_of_get? (filter_eq_some_iff.1 found).1
      refine ⟨bind!_good good known stored unbound done, ?_⟩
      rw [reconcile!_identities done good.sound.oneEach]
      exact known
    cases done
    exact ⟨good, known⟩
  cases done
  exact ⟨good, known⟩

include good known in
theorem Db.linkEach_good {candidates : List (Uuid × Uuid)}
    (done : linkEach env identity claims newIds candidates db = .ok db') : Good db' := by
  induction candidates generalizing db with
  | nil =>
    cases done
    exact good
  | cons _ _ ih =>
    simp only [linkEach, bind_eq_ok_iff] at done
    obtain ⟨_, linked, done⟩ := done
    obtain ⟨good', known'⟩ := linkEntry_good good known linked
    exact ih good' known' done

variable {userId identityId : Uuid} {signIn : SignIn}

theorem Db.firstSignIn_good {subject : String} (good : Good db)
    (done : db.firstSignIn env provider signIn subject userId identityId now newIds = .ok db') :
    Good db' := by
  simp only [firstSignIn, bind_eq_ok_iff] at done
  obtain ⟨_, _, _, _, _, _, _, _, done⟩ := done
  split at done
  · simp only [bind_eq_ok_iff] at done
    obtain ⟨_, inserted, done⟩ := done
    have sound := good.sound
    obtain ⟨good', known⟩ := insertIdentity_good inserted
      (good.write { sound with } rfl rfl
        fun _ _ _ => .of_tables ⟨rfl, rfl, rfl⟩ rfl fun _ _ => Iff.rfl)
    exact linkEach_good good' known done
  · cases done

theorem Db.providerSignIn_good (good : Good db)
    (done : db.providerSignIn env signIn userId identityId now newIds = .ok db') : Good db' := by
  simp only [providerSignIn, resolve, bind_eq_ok_iff, pure_eq_ok_iff] at done
  obtain ⟨_, _, _, _, _, _, _, ⟨_, _, _, _, resolved⟩, _, _, rfl⟩ := done
  split at resolved
  · rename_i identity found
    exact linkEach_good good (mem_of_find?_eq_some found) resolved
  · exact firstSignIn_good good resolved

/-! ### Unlinking -/

def Db.Free (db : Db) (identityId organizationId : Uuid) : Prop :=
  ∀ entry ∈ db.directoryUsers, entry.organizationId = organizationId →
    entry.userIdentityId ≠ some identityId

theorem Db.Free.unbind (free : db.Free identityId organizationId) :
    (db.unbind condition).Free identityId organizationId := by
  intro entry mem home bound
  have its := (mem_unbind (bound ▸ some_ne_none _)).1 mem
  exact free entry its.1 home bound

include good known in
theorem Db.unlinkIn_good (done : db.unlinkIn identity newIds organizationId = .ok db') :
    Good db' ∧ identity ∈ db'.identities ∧
      (∀ other, db'.lockOrganization other = db.lockOrganization other) ∧
      (∀ other, db.Free identity.id other → db'.Free identity.id other) ∧
      (db.lockOrganization organizationId = true → db'.Free identity.id organizationId) := by
  unfold unlinkIn at done
  split at done
  · have sound := good.sound
    have soundMid := sound.unbind fun entry =>
      entry.userIdentityId = some identity.id ∧ entry.organizationId = organizationId
    have reconciled := reconcile!_reconciled soundMid.oneEach done
    refine ⟨good.write_reconcile! done soundMid rfl ?_, ?_, ?_, ?_, ?_⟩
    · -- Who is entitled through an entry that is cleared is the person, in the organization.
      intro _ _ _ other
      refine .unbind fun _ _ entitles => decide_eq_false ?_
      rintro ⟨bound, home⟩
      obtain ⟨_, known', bound', person, -⟩ := entitles.linked
      obtain rfl := eq_of_key_eq known known' (some.inj (bound.symm.trans bound'))
      exact other ⟨(sound.home entitles).symm.trans home, mem_singleton.2 person.symm⟩
    · rw [reconciled.rest]
      exact known
    · intro other
      rw [reconciled.rest]
      rfl
    · intro _ free
      rw [reconciled.rest]
      exact free.unbind
    intro _
    rw [reconciled.rest]
    intro _ mem home bound
    have its := (mem_unbind (bound ▸ some_ne_none _)).1 mem
    exact absurd ⟨bound, home⟩ (of_decide_eq_false its.2)
  rename_i inactive
  cases done
  exact ⟨good, known, fun _ => rfl, fun _ free => free, fun active => absurd active inactive⟩

include good known in
theorem Db.unlinkEach_good {organizationIds : List Uuid}
    (done : unlinkEach identity newIds organizationIds db = .ok db') :
    Good db' ∧ (∀ other, db'.lockOrganization other = db.lockOrganization other) ∧
      (∀ other, db.Free identity.id other → db'.Free identity.id other) ∧
      ∀ other ∈ organizationIds, db.lockOrganization other = true → db'.Free identity.id other := by
  induction organizationIds generalizing db with
  | nil =>
    cases done
    exact ⟨good, fun _ => rfl, fun _ free => free, fun _ mem => absurd mem not_mem_nil⟩
  | cons _ _ ih =>
    simp only [unlinkEach, bind_eq_ok_iff] at done
    obtain ⟨_, unlinked, done⟩ := done
    obtain ⟨good', known', lock, frees, freed⟩ := unlinkIn_good good known unlinked
    obtain ⟨good'', lock', frees', freed'⟩ := ih good' known' done
    refine ⟨good'', fun other => (lock' other).trans (lock other),
      fun other free => frees' other (frees other free), fun other mem active => ?_⟩
    rcases mem_cons.1 mem with rfl | mem
    · exact frees' other (freed active)
    · exact freed' other mem ((lock other).trans active)

theorem Db.unlink_good {permitted : Bool} (good : Good db)
    (done : db.unlink userId identityId permitted newIds = .ok db') : Good db' := by
  simp only [unlink, bind_eq_ok_iff, ofOption_eq_ok_iff, pure_eq_ok_iff, filter_eq_some_iff] at done
  obtain ⟨identity, ⟨found, -⟩, _, _, mid, unlinked, rfl⟩ := done
  obtain ⟨good', lock, frees, freed⟩ :=
    unlinkEach_good good (mem_of_get? found) unlinked
  have free : ∀ organizationId, mid.lockOrganization organizationId = true →
      mid.Free identity.id organizationId := by
    intro organizationId active
    rw [lock] at active
    by_cases listed : ∃ entry ∈ db.directoryUsers,
        entry.userIdentityId = some identity.id ∧ entry.organizationId = organizationId
    · obtain ⟨entry, mem, bound, home⟩ := listed
      refine freed organizationId ?_ active
      rw [mem_insertionSort, mem_eraseDups]
      exact mem_map.2 ⟨entry, List.mem_filter.2 ⟨mem, decide_eq_true bound⟩, home⟩
    · exact frees organizationId fun entry mem home bound => listed ⟨entry, mem, bound, home⟩
  have sound := good'.sound.unbind fun entry => entry.userIdentityId = some identity.id
  refine good'.write { sound with bound := ?_ } rfl rfl
    fun organizationId userId active connection entry => ?_
  · intro entry mem identityId bound
    obtain ⟨other, known, rfl⟩ := sound.bound entry mem identityId bound
    refine ⟨other, mem_erase.2 ⟨known, fun same => ?_⟩, rfl⟩
    have its := (mem_unbind (bound ▸ some_ne_none _)).1 mem
    exact of_decide_eq_false its.2 (same ▸ bound)
  have cleared : Agree mid (mid.unbind fun entry => entry.userIdentityId = some identity.id)
      organizationId userId :=
    .unbind fun _ entry its => decide_eq_false
      (free organizationId active entry its.stored (good'.sound.home its))
  refine ⟨⟨fun its => (cleared connection entry).1.1 ?_, fun its => ?_⟩, fun _ _ => Iff.rfl⟩
  · obtain ⟨other, known, linked⟩ := its.linked
    exact { its with linked := ⟨other, (mem_erase.1 known).1, linked⟩ }
  have kept := (cleared connection entry).1.2 its
  obtain ⟨other, known, bound, linked⟩ := kept.linked
  refine { kept with linked := ⟨other, mem_erase.2 ⟨known, fun same => ?_⟩, bound, linked⟩ }
  exact free organizationId active entry its.stored (good'.sound.home its) (same ▸ bound)

end Renga.Scim
