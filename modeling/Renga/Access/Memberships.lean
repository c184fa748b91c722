import Renga.Access.Effects

/-!
# What a request does to the memberships

Every request counts here, also the acceptance of what an operator has offered: it leaves
the table of memberships, changes the role or the status of a member that was granted by
hand, or lets in a person who had no membership of the organization, by hand again.
-/

namespace Renga.Access

open Except

variable {texts : Texts} {db db' : Db} {op : Op} {scope : Scope} {clock : Clock}

def Db.membership? (db : Db) (organizationId userId : Uuid) : Option Membership :=
  db.memberships.rows.find? fun membership =>
    membership.organizationId = organizationId ∧ membership.userId = userId

/-- A person has one membership in an organization:
`organization_memberships_organization_id_user_id_index`. -/
def Db.OneEach (db : Db) : Prop :=
  ∀ one ∈ db.memberships, ∀ other ∈ db.memberships, one.organizationId = other.organizationId →
    one.userId = other.userId → one = other

variable {organizationId userId : Uuid} {membership : Membership}

theorem Db.membership?_eq_some_iff (oneEach : db.OneEach) :
    db.membership? organizationId userId = some membership ↔
      membership ∈ db.memberships ∧ membership.organizationId = organizationId ∧
        membership.userId = userId := by
  constructor
  · intro found
    exact ⟨List.mem_of_find?_eq_some found, by simpa using List.find?_some found⟩
  rintro ⟨stored, home, person⟩
  cases found : db.membership? organizationId userId with
  | none =>
    have none := List.find?_eq_none.1 found membership stored
    exact absurd (decide_eq_true ⟨home, person⟩) none
  | some other =>
    have its : other.organizationId = organizationId ∧ other.userId = userId := by
      simpa using List.find?_some found
    rw [oneEach other (List.mem_of_find?_eq_some found) membership stored
      (its.1.trans home.symm) (its.2.trans person.symm)]

theorem Db.membership?_congr (oneEach : db.OneEach) (oneEach' : db'.OneEach)
    (same : ∀ membership : Membership, membership.organizationId = organizationId →
      membership.userId = userId → (membership ∈ db'.memberships ↔ membership ∈ db.memberships)) :
    db'.membership? organizationId userId = db.membership? organizationId userId := by
  ext membership
  rw [membership?_eq_some_iff oneEach', membership?_eq_some_iff oneEach]
  constructor
  · rintro ⟨stored, home, person⟩
    exact ⟨(same membership home person).1 stored, home, person⟩
  rintro ⟨stored, home, person⟩
  exact ⟨(same membership home person).2 stored, home, person⟩

inductive MembersEffect (db : Db) : KeyTable Uuid Membership Membership.id → Prop
  | kept : MembersEffect db db.memberships
  | changed (member : Membership) (role : BuiltInRole) (status : MemberStatus)
      (found : db.memberships.get? member.id = some member)
      (byHand : member.scimConnectionId = none)
      (spared : db.lastActiveOwner member = true → role = member.role ∧ status = member.status) :
      MembersEffect db (db.memberships.put { member with role, status })
  | joined (membership : Membership) (byHand : membership.scimConnectionId = none)
      (fresh : db.memberships.get? membership.id = none)
      (alone : ∀ other ∈ db.memberships, other.organizationId = membership.organizationId →
        other.userId ≠ membership.userId) :
      MembersEffect db (db.memberships.add membership fresh)

theorem Administered.members (administered : Administered db scope clock db') :
    MembersEffect db db'.memberships ∧ db'.organizations = db.organizations := by
  cases administered with
  | intro _ member role status _ stored byHand _ _ spared =>
    exact ⟨.changed member role status stored byHand spared, rfl⟩

theorem insertMembership!_joined (byHand : membership.scimConnectionId = none)
    (done : db.insertMembership! membership = .ok db') : MembersEffect db db'.memberships := by
  unfold Db.insertMembership! at done
  split at done
  · rename_i fresh
    split at done
    · cases done
    rename_i alone
    cases done
    refine .joined membership byHand fresh fun other stored home person => alone ?_
    exact List.any_eq_true.2 ⟨other, stored, decide_eq_true ⟨home, person⟩⟩
  · cases done

theorem restoreEach_memberships {applied : List HeldAssignment}
    (done : Db.restoreEach organizationId applied db = .ok db') :
    db'.memberships = db.memberships ∧ db'.organizations = db.organizations := by
  induction applied generalizing db with
  | nil =>
    cases done
    exact ⟨rfl, rfl⟩
  | cons _ _ ih =>
    simp only [Db.restoreEach, Db.restoreAssignment!, bind_eq_ok_iff] at done
    obtain ⟨_, ⟨_, _, inserted⟩, done⟩ := done
    obtain ⟨_, _, rfl⟩ := insertAssignment!_eq_ok inserted
    have kept := ih done
    exact kept

theorem enter_members {invitation : Invitation} {newId : Uuid} {clock : AcceptanceClock}
    (done : enter texts db invitation userId newId clock = .ok db') :
    MembersEffect db db'.memberships ∧ db'.organizations = db.organizations := by
  unfold enter at done
  split at done
  · refine ⟨insertMembership!_joined rfl done, ?_⟩
    obtain ⟨fresh, rfl⟩ := insertMembership!_eq_ok done
    rfl
  simp only [restore, bind_eq_ok_iff, pure_eq_ok_iff] at done
  obtain ⟨_, _, _, _, _, _, _, inserted, _, _, _, _, final, restored, rfl⟩ := done
  obtain ⟨members, organizations⟩ := restoreEach_memberships restored
  have joined := insertMembership!_joined rfl inserted
  obtain ⟨_, rfl⟩ := insertMembership!_eq_ok inserted
  show MembersEffect db final.memberships ∧ final.organizations = db.organizations
  rw [members, organizations]
  exact ⟨joined, rfl⟩

/-- **What every request does to the memberships.** -/
theorem perform_members (done : perform texts db op = .ok db') :
    MembersEffect db db'.memberships ∧ db'.organizations = db.organizations := by
  cases op with
  | createRole =>
    simp only [perform, createRole, bind_eq_ok_iff] at done
    obtain ⟨_, _, _, _, _, _, done⟩ := done
    split at done
    · cases done
      exact ⟨.kept, rfl⟩
    · cases done
  | updateRole =>
    simp only [perform, updateRole, bind_eq_ok_iff, pure_eq_ok_iff] at done
    obtain ⟨_, _, _, _, _, _, _, _, _, _, rfl⟩ := done
    exact ⟨.kept, rfl⟩
  | deleteRole | revokeInvitation =>
    simp only [perform, deleteRole, revokeInvitation, bind_eq_ok_iff, pure_eq_ok_iff] at done
    obtain ⟨_, _, _, _, _, _, rfl⟩ := done
    exact ⟨.kept, rfl⟩
  | assign =>
    simp only [perform, assign, bind_eq_ok_iff] at done
    obtain ⟨_, _, _, _, _, _, _, _, _, _, _, _, inserted⟩ := done
    obtain ⟨_, _, rfl⟩ := insertAssignment!_eq_ok inserted
    exact ⟨.kept, rfl⟩
  | unassign =>
    simp only [perform, unassign, bind_eq_ok_iff, pure_eq_ok_iff] at done
    obtain ⟨_, _, _, _, _, _, _, _, rfl⟩ := done
    exact ⟨.kept, rfl⟩
  | changeRole => exact (changeRole_administered done).members
  | disableMember => exact (disableMember_administered done).members
  | enableMember => exact (enableMember_administered done).members
  | invite =>
    obtain ⟨grants, organizations⟩ := invite_keeps done
    have same : db'.memberships = db.memberships := congrArg Grants.memberships grants
    exact ⟨same ▸ .kept, organizations⟩
  | inviteBack =>
    obtain ⟨grants, organizations⟩ := inviteBack_keeps done
    have same : db'.memberships = db.memberships := congrArg Grants.memberships grants
    exact ⟨same ▸ .kept, organizations⟩
  | acceptInvitation =>
    simp only [perform, acceptInvitation, bind_eq_ok_iff, pure_eq_ok_iff] at done
    obtain ⟨_, _, _, _, _, _, _, _, _, _, _, _, _, _, _, _, _, entered, rfl⟩ := done
    have effect := enter_members entered
    exact effect

end Renga.Access
