import Renga.Scim.Operations

/-!
# Memberships granted by hand

What SCIM does, it does to memberships of its own: one that was granted by hand is the same
row before and after every transaction of `Renga.Scim` (`perform_spares`).  The requests of
`Renga.Access` change only what was granted by hand, and they spare the last active owner.
Together an organization that has an owner granted by hand keeps one.
-/

namespace Renga.Scim

open KeyTable Except Db Access.Db

open Renga.Access (Membership)

variable {env : Env} {db mid db' : Db} {op : Op} {organizationId : Uuid} {newIds : NewIds}

/-! ### SCIM spares what was granted by hand -/

/-- Memberships stay one for each person, and those granted by hand stay as they are. -/
structure Spares (db db' : Db) : Prop where
  oneEach : db'.access.OneEach
  byHand : ∀ organizationId userId membership, membership.scimConnectionId = none →
    (db'.access.membership? organizationId userId = some membership ↔
      db.access.membership? organizationId userId = some membership)

namespace Spares

theorem trans (first : Spares db mid) (second : Spares mid db') : Spares db db' where
  oneEach := second.oneEach
  byHand := fun organizationId userId membership is =>
    (second.byHand organizationId userId membership is).trans
      (first.byHand organizationId userId membership is)

theorem of_memberships (oneEach : db.access.OneEach)
    (same : db'.access.memberships = db.access.memberships) : Spares db db' where
  oneEach := by
    unfold Access.Db.OneEach
    rwa [same]
  byHand := by
    intro _ _ _ _
    rw [membership?, membership?, same]

variable {userIds : List Uuid}

theorem reconcile! (oneEach : db.access.OneEach)
    (done : db.reconcile! organizationId userIds newIds = .ok db') : Spares db db' where
  oneEach := (reconcile!_reconciled oneEach done).oneEach
  byHand := by
    intro organizationId' userId membership is
    have reconciled := reconcile!_reconciled oneEach done
    by_cases home : organizationId' = organizationId
    · subst home
      exact reconciled.byHand userId membership is
    · rw [reconciled.elsewhere organizationId' userId fun its => home its.1]

theorem write_reconcile! (oneEach : db.access.OneEach)
    (done : mid.reconcile! organizationId userIds newIds = .ok db')
    (same : mid.access.memberships = db.access.memberships) : Spares db db' := by
  have written : Spares db mid := of_memberships oneEach same
  exact written.trans (reconcile! written.oneEach done)

end Spares

variable (oneEach : db.access.OneEach)
include oneEach

variable {connection : Connection} {group : DirectoryGroup}

theorem Groups.reconcile!_spares {entryIds : List Uuid}
    (done : Groups.reconcile! mid connection group entryIds newIds = .ok db')
    (same : mid.access.memberships = db.access.memberships) : Spares db db' := by
  unfold Groups.reconcile! at done
  split at done
  · cases done
    exact .of_memberships oneEach same
  · exact .write_reconcile! oneEach done same

theorem Groups.change_spares {attrs : GroupAttrs} {wanted : List Uuid}
    (done : Groups.change env db connection group attrs wanted newIds = .ok db') :
    Spares db db' := by
  simp only [Groups.change, bind_eq_ok_iff] at done
  obtain ⟨_, _, _, _, done⟩ := done
  exact Groups.reconcile!_spares oneEach done rfl

theorem Db.providerChangedEach_spares {removed : Option Time} {connections : List Connection}
    (done : providerChangedEach removed newIds connections db = .ok db') : Spares db db' := by
  induction connections generalizing db with
  | nil =>
    cases done
    exact .of_memberships oneEach rfl
  | cons _ _ ih =>
    simp only [providerChangedEach, bind_eq_ok_iff] at done
    obtain ⟨mid, reconciled, done⟩ := done
    have first : Spares db mid := by
      refine .write_reconcile! oneEach reconciled ?_
      cases removed with
      | none | some => rfl
    exact first.trans (ih first.oneEach done)

variable {identity : UserIdentity} {claims : String → Option String}

theorem Db.linkEntry_spares {entryId : Uuid}
    (done : db.linkEntry env identity claims newIds organizationId entryId = .ok db') :
    Spares db db' := by
  unfold linkEntry at done
  split at done
  · split at done
    · cases done
      exact .of_memberships oneEach rfl
    split at done
    · exact .write_reconcile! oneEach done rfl
    cases done
    exact .of_memberships oneEach rfl
  cases done
  exact .of_memberships oneEach rfl

theorem Db.linkEach_spares {candidates : List (Uuid × Uuid)}
    (done : linkEach env identity claims newIds candidates db = .ok db') : Spares db db' := by
  induction candidates generalizing db with
  | nil =>
    cases done
    exact .of_memberships oneEach rfl
  | cons _ _ ih =>
    simp only [linkEach, bind_eq_ok_iff] at done
    obtain ⟨_, linked, done⟩ := done
    have first := linkEntry_spares oneEach linked
    exact first.trans (ih first.oneEach done)

theorem Db.unlinkEach_spares {organizationIds : List Uuid}
    (done : unlinkEach identity newIds organizationIds db = .ok db') : Spares db db' := by
  induction organizationIds generalizing db with
  | nil =>
    cases done
    exact .of_memberships oneEach rfl
  | cons _ _ ih =>
    simp only [unlinkEach, bind_eq_ok_iff] at done
    obtain ⟨mid, unlinked, done⟩ := done
    have first : Spares db mid := by
      unfold unlinkIn at unlinked
      split at unlinked
      · exact .write_reconcile! oneEach unlinked rfl
      cases unlinked
      exact .of_memberships oneEach rfl
    exact first.trans (ih first.oneEach done)

omit oneEach

theorem Db.insertIdentity_access {taken : Error} (done : db.insertIdentity identity taken = .ok db')
    : db'.access = db.access := by
  unfold insertIdentity at done
  split at done
  · split at done
    · cases done
    cases done
    rfl
  · cases done

variable (oneEach : db.access.OneEach)
include oneEach

variable {provider : IdentityProvider} {now : Time}

theorem Db.firstSignIn_spares {signIn : SignIn} {subject : String} {userId identityId : Uuid}
    (done : db.firstSignIn env provider signIn subject userId identityId now newIds = .ok db') :
    Spares db db' := by
  simp only [firstSignIn, bind_eq_ok_iff] at done
  obtain ⟨_, _, _, _, _, _, _, _, done⟩ := done
  split at done
  · simp only [bind_eq_ok_iff] at done
    obtain ⟨mid, inserted, done⟩ := done
    have written : Spares db mid := by
      refine .of_memberships oneEach ?_
      rw [insertIdentity_access inserted]
    exact written.trans (linkEach_spares written.oneEach done)
  · cases done

theorem Db.saveProvider_spares (done : db.saveProvider provider newIds = .ok db') :
    Spares db db' := by
  have written : Spares db { db with providers := db.providers.put provider } :=
    .of_memberships oneEach rfl
  exact written.trans (providerChangedEach_spares written.oneEach done)

theorem Db.applyChange_spares {id : Uuid} {action : OrganizationLifecycle.Action}
    {owner : Option Recovery} (done : db.applyChange id action owner now newIds = .ok db') :
    Spares db db' := by
  simp only [applyChange, bind_eq_ok_iff] at done
  obtain ⟨_, _, _, _, attrs, _, done⟩ := done
  cases attrs with
  | none =>
    cases done
    exact .of_memberships oneEach rfl
  | some =>
    obtain ⟨mid, sources, rfl⟩ := map_eq_ok_iff.1 done
    have first : Spares db mid := by
      split at sources
      · exact .reconcile! oneEach sources
      cases sources
      exact .of_memberships oneEach rfl
    exact first.trans (.of_memberships first.oneEach rfl)

/-- **A membership granted by hand is never changed.** -/
theorem perform_spares (done : perform env db op = .ok db') : Spares db db' := by
  cases op with
  | createUser | createConnection =>
    simp only [perform, Users.create, createConnection, bind_eq_ok_iff] at done
    obtain ⟨_, _, _, _, _, _, _, _, _, _, done⟩ := done
    split at done
    · cases done
      exact .of_memberships oneEach rfl
    · cases done
  | replaceUser | patchUser =>
    simp only [perform, Users.replace, Users.patch, Users.update, bind_eq_ok_iff] at done
    obtain ⟨_, _, _, _, _, _, _, _, _, _, _, _, done⟩ := done
    exact .write_reconcile! oneEach done rfl
  | deleteUser | updateDefaultRole =>
    simp only [perform, Users.delete, updateDefaultRole, bind_eq_ok_iff] at done
    obtain ⟨_, _, _, _, _, _, done⟩ := done
    exact .write_reconcile! oneEach done rfl
  | createGroup =>
    simp only [perform, Groups.create, bind_eq_ok_iff] at done
    obtain ⟨_, _, _, _, _, _, _, _, _, _, _, _, done⟩ := done
    split at done
    · cases done
      exact .of_memberships oneEach rfl
    · cases done
  | replaceGroup | patchGroup =>
    simp only [perform, Groups.replace, Groups.patch, bind_eq_ok_iff] at done
    obtain ⟨_, _, _, _, _, _, _, _, _, _, done⟩ := done
    exact Groups.change_spares oneEach done
  | deleteGroup =>
    simp only [perform, Groups.delete, bind_eq_ok_iff] at done
    obtain ⟨_, _, _, _, _, _, done⟩ := done
    exact Groups.reconcile!_spares oneEach done rfl
  | mapGroup =>
    simp only [perform, mapGroup, bind_eq_ok_iff] at done
    obtain ⟨_, _, _, _, _, _, done⟩ := done
    split at done
    · cases done
      exact .of_memberships oneEach rfl
    · exact .write_reconcile! oneEach done rfl
  | enableConnection =>
    simp only [perform, enableConnection, bind_eq_ok_iff] at done
    obtain ⟨_, _, _, _, done⟩ := done
    split at done
    · cases done
      exact .of_memberships oneEach rfl
    split at done
    · cases done
    split at done
    · cases done
    exact .write_reconcile! oneEach done rfl
  | disableConnection =>
    simp only [perform, disableConnection, bind_eq_ok_iff] at done
    obtain ⟨_, _, _, _, done⟩ := done
    split at done
    · exact .write_reconcile! oneEach done rfl
    cases done
    exact .of_memberships oneEach rfl
  | setEnabled =>
    simp only [perform, setEnabled, serialized, bind_eq_ok_iff, pure_eq_ok_iff] at done
    obtain ⟨after, ⟨_, _, saved⟩, _, _, rfl⟩ := done
    split at saved
    · cases saved
      exact .of_memberships oneEach rfl
    · exact saveProvider_spares oneEach saved
  | removeProvider =>
    simp only [perform, removeProvider, serialized, bind_eq_ok_iff, pure_eq_ok_iff] at done
    obtain ⟨after, ⟨_, _, saved⟩, _, _, rfl⟩ := done
    exact saveProvider_spares oneEach saved
  | providerSignIn =>
    simp only [perform, providerSignIn, resolve, bind_eq_ok_iff, pure_eq_ok_iff] at done
    obtain ⟨_, _, _, _, _, _, _, ⟨_, _, _, _, resolved⟩, _, _, rfl⟩ := done
    split at resolved
    · exact linkEach_spares oneEach resolved
    · exact firstSignIn_spares oneEach resolved
  | link =>
    simp only [perform, link, bind_eq_ok_iff] at done
    obtain ⟨_, _, _, _, _, _, done⟩ := done
    split at done
    · cases done
    exact .of_memberships oneEach (by rw [insertIdentity_access done])
  | unlink =>
    simp only [perform, unlink, bind_eq_ok_iff, pure_eq_ok_iff] at done
    obtain ⟨_, _, _, _, _, unlinked, rfl⟩ := done
    have written := unlinkEach_spares oneEach unlinked
    exact written.trans (.of_memberships written.oneEach rfl)
  | changeOrganization | cancelByOwner => exact applyChange_spares oneEach done

omit oneEach

/-! ### The last owner -/

structure HandOwner (access : Access.Db) (organizationId : Uuid) (membership : Membership) :
    Prop where
  stored : membership ∈ access.memberships
  home : membership.organizationId = organizationId
  owner : membership.role = .owner
  active : membership.status = .active
  byHand : membership.scimConnectionId = none

def HandOwned (access : Access.Db) (organizationId : Uuid) : Prop :=
  ∃ membership, HandOwner access organizationId membership

section Members

variable {access : Access.Db} {members : KeyTable Uuid Membership Access.Membership.id}

theorem other_owner {member : Membership} (is : HandOwner access organizationId member)
    (notLast : ¬ access.lastActiveOwner member = true) :
    ∃ other, HandOwner access organizationId other ∧ other.id ≠ member.id := by
  rw [lastActiveOwner, is.owner, is.active, decide_eq_true ⟨rfl, rfl⟩, Bool.true_and,
    Bool.not_eq_true', Bool.not_eq_false, List.any_eq_true] at notLast
  obtain ⟨other, stored, its⟩ := notLast
  obtain ⟨home, differs, owner, active, byHand⟩ := of_decide_eq_true its
  exact ⟨other, ⟨stored, home.trans is.home, owner, active, byHand⟩, differs⟩

theorem handOwned_of_effect (effect : Access.MembersEffect access members)
    (owned : HandOwned access organizationId) :
    HandOwned { access with memberships := members } organizationId := by
  obtain ⟨owner, is⟩ := owned
  cases effect with
  | kept => exact ⟨owner, is⟩
  | changed member role status found _ spared =>
    -- An owner other than the member who is changed stays as they are.
    have stays : ∀ other, HandOwner access organizationId other → other.id ≠ member.id →
        HandOwned { access with
          memberships := access.memberships.put { member with role, status } }
          organizationId :=
      fun other its differs => ⟨other, { its with stored := mem_put_of_ne its.stored differs }⟩
    by_cases same : owner.id = member.id
    · obtain rfl := eq_of_key_eq is.stored (mem_of_get? found) same
      by_cases last : access.lastActiveOwner owner = true
      · obtain ⟨rfl, rfl⟩ := spared last
        exact ⟨owner, { is with stored := mem_put_self found }⟩
      obtain ⟨other, its, differs⟩ := other_owner is last
      exact stays other its differs
    · exact stays owner is same
  | joined _ _ fresh =>
    exact ⟨owner, { is with stored := (mem_add fresh).2 (Or.inl is.stored) }⟩

theorem lookup_of_effect (effect : Access.MembersEffect access members) (oneEach : access.OneEach) :
    Access.Db.OneEach { access with memberships := members } ∧ ∀ organizationId userId,
      membership? { access with memberships := members } organizationId userId =
          access.membership? organizationId userId ∨
        ∃ membership, membership.scimConnectionId = none ∧
          membership? { access with memberships := members } organizationId userId =
            some membership := by
  -- Wherever one membership is written, and by hand.
  have written : ∀ {access' : Access.Db} {home person : Uuid} {membership : Membership},
      (∀ organizationId userId, access'.membership? organizationId userId =
        if organizationId = home ∧ userId = person then some membership
        else access.membership? organizationId userId) →
      membership.scimConnectionId = none →
      ∀ organizationId userId, access'.membership? organizationId userId =
          access.membership? organizationId userId ∨
        ∃ membership, membership.scimConnectionId = none ∧
          access'.membership? organizationId userId = some membership := by
    intro _ home person membership lookup byHand _ _
    rw [lookup]
    split
    · exact Or.inr ⟨membership, byHand, rfl⟩
    · exact Or.inl rfl
  cases effect with
  | kept => exact ⟨oneEach, fun _ _ => Or.inl rfl⟩
  | changed member role status found byHand =>
    have its := (membership?_eq_some_iff oneEach).2 ⟨mem_of_get? found, rfl, rfl⟩
    obtain ⟨oneEach', lookup⟩ :=
      put_membership? { member with role, status } oneEach its rfl rfl rfl
    exact ⟨oneEach', written lookup byHand⟩
  | joined membership byHand fresh alone =>
    have inserted : access.insertMembership! membership =
        .ok { access with memberships := access.memberships.add membership fresh } := by
      rw [insertMembership!, dif_pos fresh, if_neg]
      intro taken
      obtain ⟨other, stored, its⟩ := List.any_eq_true.1 taken
      obtain ⟨home, person⟩ := of_decide_eq_true its
      exact alone other stored home person
    obtain ⟨oneEach', -, lookup⟩ := insertMembership!_membership? oneEach inserted
    exact ⟨oneEach', written lookup byHand⟩

end Members

/-! ### Runs of both -/

/-- A request about members or roles, or a transaction that changes what SCIM grants. -/
inductive Request where
  | access (op : Access.Op)
  | scim (op : Op)

def Request.step (env : Env) (db : Db) : Request → Db
  | .access op => { db with access := Access.step env.texts db.access op }
  | .scim op => Scim.step env db op

/-- Memberships are one for each person, and the organization has an owner granted by hand. -/
structure Kept (organizationId : Uuid) (db : Db) : Prop where
  oneEach : db.access.OneEach
  owned : HandOwned db.access organizationId

theorem Kept.step (kept : Kept organizationId db) {request : Request} :
    Kept organizationId (request.step env db) := by
  cases request with
  | access op =>
    rcases Run.commit_cases db.access (Access.perform env.texts db.access op) with same | done
    · rw [Request.step, Access.step, same]
      exact kept
    obtain ⟨effect, -⟩ := Access.perform_members done
    have oneEach := (lookup_of_effect effect kept.oneEach).1
    obtain ⟨owner, is⟩ := handOwned_of_effect effect kept.owned
    exact ⟨oneEach, ⟨owner, { is with }⟩⟩
  | scim op =>
    rcases Run.commit_cases db (perform env db op) with same | done
    · rw [Request.step, Scim.step, same]
      exact kept
    have spares := perform_spares kept.oneEach done
    obtain ⟨owner, is⟩ := kept.owned
    have found := (membership?_eq_some_iff kept.oneEach).2 ⟨is.stored, is.home, rfl⟩
    have still := (spares.byHand _ _ owner is.byHand).2 found
    obtain ⟨stored, -, -⟩ := (membership?_eq_some_iff spares.oneEach).1 still
    exact ⟨spares.oneEach, ⟨owner, { is with stored }⟩⟩

/-- **An organization keeps an owner granted by hand.**  Whatever is requested, by whomever and in
whatever order, of members, roles, invitations and of SCIM: if the organization has an active
owner who was granted that role by hand, it has one in every state that follows. -/
theorem run_keeps_hand_owner (env : Env) (db : Db) (oneEach : db.access.OneEach)
    (organizationId : Uuid) (owned : HandOwned db.access organizationId)
    (requests : List Request) :
    HandOwned (Run.run (Request.step env) db requests).access organizationId := by
  have kept : Kept organizationId (Run.run (Request.step env) db requests) :=
    Run.run_invariant (fun _ _ before => before.step) ⟨oneEach, owned⟩ requests
  exact kept.owned

/-- An organization with an owner granted by hand and another one granted by SCIM. -/
def company : Db :=
  { access :=
      { organizations := .single { id := 1, status := .active }
        memberships := ⟨[{ id := 10, organizationId := 1, userId := 100, role := .owner },
          { id := 11, organizationId := 1, userId := 101, role := .owner
            scimConnectionId := some 5 }], by decide⟩ }
    providers := .single { id := "okta" }
    identities := .single { id := 30, userId := 101, providerId := "okta", subject := "a" }
    connections := .single
      { id := 5, organizationId := 1, providerId := "okta", defaultRole := some .owner }
    directoryUsers := .single
      { id := 20, organizationId := 1, connectionId := 5, userName := "ann"
        externalId := some "a", userIdentityId := some 30 } }

def plainEnv : Env where
  texts := { trim := id, downcase := id, length := String.length, fold := id }
  lower := id
  printable := fun _ => true

/-- The owner SCIM has granted tries to demote and to disable the other one, then their entry is
deleted. -/
def mutiny : List Request :=
  let scope : Access.Scope := { organizationId := 1, userId := some 101, membershipId := some 11 }
  let clock : Access.Clock := ⟨1, 2, 3⟩
  [.access (.changeRole scope 10 "viewer" clock), .access (.disableMember scope 10 clock),
    .scim (.deleteUser 5 20 fun _ _ => 12)]

theorem mutiny_keeps_hand_owner : company.access.OneEach ∧ HandOwned company.access 1 ∧
    (Run.run (Request.step plainEnv) company mutiny).access.memberships.rows.map
      (fun membership => (membership.id, membership.status)) = [(10, .active), (11, .disabled)] ∧
    HandOwned (Run.run (Request.step plainEnv) company mutiny).access 1 := by
  have oneEach : company.access.OneEach := by
    show ∀ one ∈ company.access.memberships.rows, ∀ other ∈ company.access.memberships.rows,
      one.organizationId = other.organizationId → one.userId = other.userId → one = other
    decide
  have owned : HandOwned company.access 1 :=
    ⟨{ id := 10, organizationId := 1, userId := 100, role := .owner },
      List.mem_cons_self .., rfl, rfl, rfl, rfl⟩
  exact ⟨oneEach, owned, by decide +kernel,
    run_keeps_hand_owner plainEnv company oneEach 1 owned mutiny⟩

end Renga.Scim
