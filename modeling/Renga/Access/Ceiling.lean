import Renga.Access.Effects

/-!
# Nobody rises above the ceiling

What a member holds at a time comes from the base role of an active membership and from the
assignments that have not expired.
-/

namespace Renga.Access

open List KeyTable

namespace Grants

variable (grants : Grants) (time : Time) (membershipId : Uuid)

/-- The member is active and holds the built-in role at the time. -/
def HoldsRole (role : BuiltInRole) : Prop :=
  ∃ membership, grants.memberships.get? membershipId = some membership ∧
    membership.status = .active ∧
    (membership.role = role ∨ ∃ assignment ∈ grants.assignments,
      assignment.membershipId = membershipId ∧ assignment.current time = true ∧
        assignment.role = .builtIn role)

/-- The member is active and holds a custom role with the permission at the time. -/
def HoldsCustom (permission : Permission) : Prop :=
  ∃ membership, grants.memberships.get? membershipId = some membership ∧
    membership.status = .active ∧ ∃ assignment ∈ grants.assignments,
      assignment.membershipId = membershipId ∧ assignment.current time = true ∧
        ∃ role ∈ grants.roles, assignment.role = .custom role.id ∧ permission ∈ role.permissions

def Holds (permission : Permission) : Prop :=
  (∃ role, grants.HoldsRole time membershipId role ∧ permission ∈ role.rolePermissions) ∨
    grants.HoldsCustom time membershipId permission

structure Sound (grants : Grants) : Prop where
  members : ∀ assignment ∈ grants.assignments, ∃ membership ∈ grants.memberships,
    membership.id = assignment.membershipId ∧
      membership.organizationId = assignment.organizationId
  customs : ∀ assignment ∈ grants.assignments, ∀ roleId, assignment.role = .custom roleId →
    ∃ role ∈ grants.roles, role.id = roleId ∧ role.organizationId = assignment.organizationId
  unreserved : ∀ role ∈ grants.roles, ∀ permission ∈ role.permissions,
    permission ∉ Permission.reserved

end Grants

variable {texts : Texts} {db : Db} {op : Op} {grants : Grants} {May : Ceiling → Prop}
  {now time : Time} {assignment : Assignment} {before : Grants} {after : Grants}

theorem current_of_le (later : now ≤ time) (current : assignment.current time = true) :
    assignment.current now = true := by
  unfold Assignment.current at current ⊢
  cases deadline : assignment.validUntil with
  | none => rfl
  | some =>
    rw [deadline] at current
    simp only [decide_eq_true_eq] at current ⊢
    exact lt_of_le_of_lt later current

/-! ### One request -/

/-- Whatever is held and was not held before is within a ceiling. -/
structure Bounded (May : Ceiling → Prop) (before after : Grants) (time : Time) : Prop where
  roles : ∀ membershipId role, after.HoldsRole time membershipId role →
    before.HoldsRole time membershipId role ∨ ∃ ceiling, May ceiling ∧ role ∈ ceiling.roles
  customs : ∀ membershipId permission, after.HoldsCustom time membershipId permission →
    before.HoldsCustom time membershipId permission ∨
      ∃ ceiling, May ceiling ∧ permission ∈ ceiling.permissions

theorem Bounded.of_subset (members : after.memberships = before.memberships)
    (roles : ∀ role ∈ after.roles, role ∈ before.roles)
    (assignments : ∀ assignment ∈ after.assignments, assignment ∈ before.assignments) :
    Bounded May before after time where
  roles := by
    rintro membershipId role ⟨membership, found, active, held⟩
    rw [members] at found
    refine .inl ⟨membership, found, active, held.imp_right ?_⟩
    rintro ⟨assignment, listed, rest⟩
    exact ⟨assignment, assignments assignment listed, rest⟩
  customs := by
    rintro _ _ ⟨membership, found, active, assignment, listed, mine, current,
      role, stored, rest⟩
    rw [members] at found
    exact .inl ⟨membership, found, active, assignment, assignments assignment listed, mine,
      current, role, roles role stored, rest⟩

variable {ceiling : Ceiling}

theorem Bounded.of_role {role : Role} (may : May ceiling)
    (within : ∀ permission ∈ role.permissions, permission ∈ ceiling.permissions)
    (members : after.memberships = before.memberships)
    (assignments : after.assignments = before.assignments)
    (roles : ∀ other ∈ after.roles, other = role ∨ other ∈ before.roles) :
    Bounded May before after time where
  roles := by
    rintro membershipId _ ⟨membership, found, active, held⟩
    rw [members] at found
    rw [assignments] at held
    exact .inl ⟨membership, found, active, held⟩
  customs := by
    rintro _ permission ⟨membership, found, active, assignment, listed, mine, current,
      custom, stored, role', carried⟩
    rw [members] at found
    rw [assignments] at listed
    rcases roles custom stored with rfl | old
    · exact .inr ⟨ceiling, may, within permission carried⟩
    exact .inl ⟨membership, found, active, assignment, listed, mine, current, custom, old,
      role', carried⟩

theorem Bounded.of_member {member : Membership} (roles : after.roles = before.roles)
    (base : ∃ ceiling, May ceiling ∧ member.role ∈ ceiling.roles)
    (members : ∀ membershipId membership, after.memberships.get? membershipId = some membership →
      membership = member ∨ membership.id ≠ member.id ∧
        before.memberships.get? membershipId = some membership)
    (assignments : ∀ assignment ∈ after.assignments,
      assignment.membershipId ≠ member.id → assignment ∈ before.assignments)
    (within : ∀ assignment ∈ after.assignments, assignment.membershipId = member.id →
      assignment.current time = true →
        ∃ ceiling, May ceiling ∧ assignment.role.Within before.roles ceiling) :
    Bounded May before after time where
  roles := by
    rintro membershipId role ⟨membership, found, active, held⟩
    have id := key_of_get? found
    rcases members membershipId membership found with rfl | ⟨other, old⟩
    · rcases held with rfl | ⟨assignment, listed, mine, current, builtIn⟩
      · exact .inr base
      obtain ⟨ceiling, may, covered⟩ := within assignment listed (mine.trans id.symm) current
      rw [builtIn] at covered
      exact .inr ⟨ceiling, may, covered⟩
    refine .inl ⟨membership, old, active, held.imp_right ?_⟩
    rintro ⟨assignment, listed, mine, rest⟩
    exact ⟨assignment, assignments assignment listed (mine ▸ id ▸ other), mine, rest⟩
  customs := by
    rintro membershipId permission ⟨membership, found, active, assignment, listed, mine, current,
      custom, stored, role, carried⟩
    have id := key_of_get? found
    rw [roles] at stored
    rcases members membershipId membership found with rfl | ⟨other, old⟩
    · obtain ⟨ceiling, may, covered⟩ := within assignment listed (mine.trans id.symm) current
      rw [role] at covered
      exact .inr ⟨ceiling, may, covered custom stored rfl permission carried⟩
    exact .inl ⟨membership, old, active, assignment,
      assignments assignment listed (mine ▸ id ▸ other), mine, current, custom, stored, role,
      carried⟩

theorem Bounded.of_assignment (may : May ceiling)
    (within : assignment.role.Within before.roles ceiling)
    (members : after.memberships = before.memberships) (roles : after.roles = before.roles)
    (assignments : ∀ other ∈ after.assignments, other ∈ before.assignments ∨ other = assignment) :
    Bounded May before after time where
  roles := by
    rintro membershipId role ⟨membership, found, active, held⟩
    rw [members] at found
    rcases held with base | ⟨other, listed, mine, current, builtIn⟩
    · exact .inl ⟨membership, found, active, .inl base⟩
    rcases assignments other listed with old | rfl
    · exact .inl ⟨membership, found, active, .inr ⟨other, old, mine, current, builtIn⟩⟩
    rw [builtIn] at within
    exact .inr ⟨ceiling, may, within⟩
  customs := by
    rintro _ permission ⟨membership, found, active, other, listed, mine, current,
      custom, stored, role, carried⟩
    rw [members] at found
    rw [roles] at stored
    rcases assignments other listed with old | rfl
    · exact .inl ⟨membership, found, active, other, old, mine, current, custom, stored, role,
        carried⟩
    rw [role] at within
    exact .inr ⟨ceiling, may, within custom stored rfl permission carried⟩

/-- **What a request gives is within a ceiling of its granter.** -/
theorem Effect.bounded (effect : Effect db May now grants) (sound : db.grants.Sound)
    (later : now ≤ time) : Bounded May db.grants grants time := by
  cases effect with
  | kept => exact .of_subset rfl (fun _ stored => stored) fun _ stored => stored
  | createdRole _ _ may within fresh =>
    exact .of_role may within rfl rfl fun other stored => ((mem_add fresh).1 stored).symm
  | updatedRole _ _ _ may within =>
    exact .of_role may within rfl rfl fun other stored => (mem_put stored).imp_right And.left
  | deletedRole =>
    exact .of_subset rfl (fun _ stored => (mem_erase.1 stored).1)
      fun _ stored => (KeyTable.mem_filter.1 stored).1
  | assigned _ _ may within _ fresh =>
    exact .of_assignment may within rfl rfl fun other stored => (mem_add fresh).1 stored
  | unassigned =>
    exact .of_subset rfl (fun _ stored => stored) fun _ stored => (mem_erase.1 stored).1
  | changedMember member changed ceiling may found same role within =>
    refine .of_member rfl ⟨ceiling, may, role⟩ ?_ (fun _ stored _ => stored)
      ?_
    · intro membershipId membership found'
      by_cases mine : membershipId = changed.id
      · left
        have old : db.memberships.get? changed.id = some member := by rw [same.1, found]
        have get := get?_put_self old
        rw [← mine] at get
        exact Option.some.inj (found'.symm.trans get)
      right
      have id := key_of_get? found'
      refine ⟨id ▸ mine, ?_⟩
      exact (get?_put_of_ne db.memberships mine).symm.trans found'
    intro assignment stored mine current
    exact ⟨ceiling, may, within assignment stored (mine.trans same.1) (current_of_le later current)⟩
  | joined _ ceiling ceiling' may role fresh _ added =>
    refine .of_member rfl ⟨ceiling, may, role⟩ ?_ ?_ ?_
    · intro _ other found
      have id := key_of_get? found
      rcases (mem_add fresh).1 (mem_of_get? found) with old | rfl
      · refine .inr ⟨get?_eq_none_iff.1 fresh other old, ?_⟩
        rw [← id]
        exact get?_of_mem old
      · exact .inl rfl
    · intro assignment stored foreign
      rcases added assignment stored with old | ⟨mine, _⟩
      · exact old
      · exact absurd mine foreign
    intro assignment stored mine _
    rcases added assignment stored with old | ⟨_, may', within, _⟩
    · -- An older assignment would belong to a member that was there already.
      obtain ⟨other, listed, id, _⟩ := sound.members assignment old
      exact absurd (id.trans mine) (get?_eq_none_iff.1 fresh other listed)
    · exact ⟨ceiling', may', within⟩

theorem references_iff (references : db.references assignment = true) :
    (∃ membership ∈ db.memberships, membership.id = assignment.membershipId ∧
      membership.organizationId = assignment.organizationId) ∧
    ∀ roleId, assignment.role = .custom roleId → ∃ role ∈ db.roles, role.id = roleId ∧
      role.organizationId = assignment.organizationId := by
  rw [Db.references, Bool.and_eq_true, any_eq_true] at references
  obtain ⟨⟨membership, listed, same⟩, custom⟩ := references
  refine ⟨⟨membership, listed, by simpa using same⟩, fun _ role => ?_⟩
  rw [role] at custom
  obtain ⟨role, listed, same⟩ := any_eq_true.1 custom
  exact ⟨role, listed, by simpa using same⟩

theorem Effect.sound (effect : Effect db May now grants) (sound : db.grants.Sound)
    (ceilings : ∀ ceiling, May ceiling → ∀ permission ∈ ceiling.permissions,
      permission ∉ Permission.reserved) : grants.Sound := by
  obtain ⟨members, customs, unreserved⟩ := sound
  cases effect with
  | kept => exact ⟨members, customs, unreserved⟩
  | createdRole _ ceiling may within fresh =>
    refine ⟨members, fun assignment listed roleId custom => ?_, fun other stored => ?_⟩
    · obtain ⟨other, stored, same⟩ := customs assignment listed roleId custom
      exact ⟨other, (mem_add fresh).2 (.inl stored), same⟩
    rcases (mem_add fresh).1 stored with old | rfl
    · exact unreserved other old
    · exact fun permission carried => ceilings ceiling may permission (within permission carried)
  | updatedRole old role ceiling may within found home =>
    refine ⟨members, fun assignment listed roleId custom => ?_, fun other stored => ?_⟩
    · obtain ⟨other, stored, id, same⟩ := customs assignment listed roleId custom
      by_cases mine : other.id = role.id
      · have one : other = old := eq_of_key_eq stored (mem_of_get? found)
          (mine.trans (key_of_get? found).symm)
        subst one
        exact ⟨role, mem_put_self found, mine ▸ id, home.trans same⟩
      · exact ⟨other, mem_put_of_ne stored mine, id, same⟩
    rcases mem_put stored with rfl | ⟨old, _⟩
    · exact fun permission carried => ceilings ceiling may permission (within permission carried)
    · exact unreserved other old
  | deletedRole =>
    refine ⟨fun assignment listed => members assignment (KeyTable.mem_filter.1 listed).1,
      fun assignment listed other custom => ?_,
      fun other stored => unreserved other (mem_erase.1 stored).1⟩
    obtain ⟨listed, kept⟩ := KeyTable.mem_filter.1 listed
    obtain ⟨role, stored, id, same⟩ := customs assignment listed other custom
    refine ⟨role, mem_erase.2 ⟨stored, ?_⟩, id, same⟩
    rintro rfl
    rw [custom, id] at kept
    simp at kept
  | assigned _ _ _ _ references fresh =>
    obtain ⟨member, role⟩ := references_iff references
    refine ⟨fun other listed => ?_, fun other listed => ?_, unreserved⟩
    · rcases (mem_add fresh).1 listed with old | rfl
      · exact members other old
      · exact member
    rcases (mem_add fresh).1 listed with old | rfl
    · exact customs other old
    · exact role
  | unassigned =>
    exact ⟨fun other listed => members other (mem_erase.1 listed).1,
      fun other listed => customs other (mem_erase.1 listed).1, unreserved⟩
  | changedMember member changed _ _ found same =>
    refine ⟨fun assignment listed => ?_, customs, unreserved⟩
    obtain ⟨membership, stored, id, home⟩ := members assignment listed
    by_cases mine : membership.id = changed.id
    · have old : db.memberships.get? changed.id = some member := by rw [same.1, found]
      have one : membership = member := eq_of_key_eq stored
        (mem_of_get? found) (mine.trans same.1)
      subst one
      exact ⟨changed, mem_put_self old, mine ▸ id, same.2.trans home⟩
    · exact ⟨membership, mem_put_of_ne stored mine, id, home⟩
  | joined _ _ _ _ _ fresh _ added =>
    refine ⟨fun assignment listed => ?_, fun assignment listed => ?_, unreserved⟩
    · rcases added assignment listed with old | ⟨_, _, _, references⟩
      · obtain ⟨other, stored, same⟩ := members assignment old
        exact ⟨other, (mem_add fresh).2 (.inl stored), same⟩
      · exact (references_iff references).1
    rcases added assignment listed with old | ⟨_, _, _, references⟩
    · exact customs assignment old
    · exact (references_iff references).2

/-! ### Runs -/

theorem step_bounded (byMember : op.ByMember db) (sound : db.grants.Sound) :
    (step texts db op).grants.Sound ∧ ∀ time, (∀ reading ∈ op.readings, reading ≤ time) →
      Bounded (op.May db) db.grants (step texts db op).grants time := by
  rcases Run.commit_cases db (perform texts db op) with same | done
  · have kept : step texts db op = db := same
    rw [kept]
    exact ⟨sound, fun _ _ => .of_subset rfl (fun _ stored => stored) fun _ stored => stored⟩
  obtain ⟨now, read, effect⟩ := perform_effect byMember done
  refine ⟨effect.sound sound ?_, fun _ later => effect.bounded sound (later now read)⟩
  rintro _ ⟨_, _, _, _, rfl⟩ _ granted
  exact reserved_not_mem_customRolePermissions (mem_filter.1 granted).1

/-- The granter does not hold the owner role at any moment of the request, and no operator's
offer is accepted. -/
structure Op.Unowned (db : Db) (op : Op) : Prop where
  granter : ∀ membership, op.granter db = some membership →
    ∀ reading ∈ op.readings, .owner ∉ db.rolesOf membership reading
  byMember : op.ByMember db

def Unowned (texts : Texts) : Db → List Op → Prop
  | _, [] => True
  | db, op :: ops => op.Unowned db ∧ Unowned texts (step texts db op) ops

theorem Unowned.at {before after : List Op} (unowned : Unowned texts db (before ++ op :: after)) :
    Unowned texts db before ∧ op.Unowned (run texts db before) := by
  induction before generalizing db with
  | nil => exact ⟨trivial, unowned.1⟩
  | cons _ _ ih =>
    obtain ⟨rest, here⟩ := ih unowned.2
    exact ⟨⟨unowned.1, rest⟩, here⟩

theorem Bounded.unowned (unowned : op.Unowned db) (bounded : Bounded (op.May db) before after time)
    (membershipId : Uuid) :
    (after.HoldsRole time membershipId .owner → before.HoldsRole time membershipId .owner) ∧
    ∀ permission ∈ Permission.organization, after.HoldsCustom time membershipId permission →
      before.HoldsCustom time membershipId permission := by
  constructor
  · intro held
    rcases bounded.roles membershipId .owner held with
      old | ⟨_, ⟨membership, reading, granter, read, rfl⟩, granted⟩
    · exact old
    exact absurd granted
      (owner_not_mem_grantableRoles (unowned.granter membership granter reading read))
  intro permission organization held
  rcases bounded.customs membershipId permission held with old | ⟨_, ⟨membership, reading,
    granter, read, rfl⟩, granted⟩
  · exact old
  exact absurd granted (organization_not_mem_grantablePermissions
    (unowned.granter membership granter reading read) organization)

theorem run_bounded {ops : List Op} (sound : db.grants.Sound) (unowned : Unowned texts db ops) :
    (run texts db ops).grants.Sound ∧
    ∀ time, (∀ op ∈ ops, ∀ reading ∈ op.readings, reading ≤ time) → ∀ membershipId,
      ((run texts db ops).grants.HoldsRole time membershipId .owner →
        db.grants.HoldsRole time membershipId .owner) ∧
      ∀ permission ∈ Permission.organization,
        (run texts db ops).grants.HoldsCustom time membershipId permission →
          db.grants.HoldsCustom time membershipId permission := by
  induction ops generalizing db with
  | nil => exact ⟨sound, fun _ _ _ => ⟨id, fun _ _ => id⟩⟩
  | cons op _ ih =>
    obtain ⟨sound', bounded⟩ := step_bounded unowned.1.byMember sound
    obtain ⟨final, rest⟩ := ih sound' unowned.2
    refine ⟨final, fun time later membershipId => ?_⟩
    have first := (bounded time (later op mem_cons_self)).unowned unowned.1 membershipId
    have then_ := rest time (fun other member => later other (mem_cons_of_mem _ member))
      membershipId
    exact ⟨fun held => first.1 (then_.1 held), fun permission organization held =>
      first.2 permission organization (then_.2 permission organization held)⟩

/-- **Requests of members who are not owners never escalate.**  Take any run of requests
none of which is an owner's, from tables whose keys are met and whose custom roles carry no
reserved permission.  No custom role comes to carry one.  From the last reading of the clock
on, whoever is an owner was one at the start, and whoever holds an organization permission
held it at the start.  And whatever a request of the run gives anybody, also by editing a role
somebody has, is within the ceiling of its granter at a moment of the request. -/
theorem run_never_escalates (texts : Texts) (db : Db) (sound : db.grants.Sound) (ops : List Op)
    (unowned : Unowned texts db ops) :
    (∀ role ∈ (run texts db ops).roles, ∀ permission ∈ role.permissions,
      permission ∉ Permission.reserved) ∧
    (∀ time, (∀ op ∈ ops, ∀ reading ∈ op.readings, reading ≤ time) → ∀ membershipId,
      ((run texts db ops).grants.HoldsRole time membershipId .owner →
        db.grants.HoldsRole time membershipId .owner) ∧
      ∀ permission ∈ Permission.organization,
        (run texts db ops).grants.Holds time membershipId permission →
          db.grants.Holds time membershipId permission) ∧
    (∀ before op after, ops = before ++ op :: after →
      ∀ time, (∀ reading ∈ op.readings, reading ≤ time) →
        Bounded (op.May (run texts db before)) (run texts db before).grants
          (step texts (run texts db before) op).grants time) := by
  obtain ⟨final, kept⟩ := run_bounded sound unowned
  refine ⟨final.unreserved, fun time later membershipId => ?_, ?_⟩
  · obtain ⟨owner, customs⟩ := kept time later membershipId
    refine ⟨owner, fun permission organization held => ?_⟩
    rcases held with ⟨_, held, granted⟩ | held
    · cases eq_owner_of_organization organization granted
      exact .inl ⟨.owner, owner held, granted⟩
    · exact .inr (customs permission organization held)
  rintro _ _ _ rfl time later
  obtain ⟨earlier, here⟩ := unowned.at
  exact (step_bounded here.byMember (run_bounded sound earlier).1).2 time later

/-- An organization with an owner, an admin and a member. -/
def office : Db :=
  { organizations := ⟨[{ id := 1, status := .active }], by decide⟩
    memberships := ⟨[{ id := 10, organizationId := 1, userId := 100, role := .owner },
      { id := 11, organizationId := 1, userId := 101, role := .admin },
      { id := 12, organizationId := 1, userId := 102, role := .member }], by decide⟩ }

def plainTexts : Texts where
  trim := id
  downcase := id
  length := String.length
  fold := id

/-- The admin defines a role, gives it to the member, changes it and tries to make the member
an owner. -/
def climb : List Op :=
  let scope : Scope := { organizationId := 1, userId := some 101, membershipId := some 11 }
  let clock : Clock := ⟨1, 2, 3⟩
  [.createRole scope
      { name := some (some "Queries"), permissions := some [some "queries.run"] } 50 clock,
    .assign scope 12 { role := .uuid 50 } 60 clock,
    .updateRole scope 50 { permissions := some [some "queries.run_sensitive"] } clock,
    .updateRole scope 50 { permissions := some [some "organization.manage"] } clock,
    .changeRole scope 12 "owner" clock]

theorem climb_unowned : Unowned plainTexts office climb := by
  refine ⟨⟨?_, trivial⟩, ⟨?_, trivial⟩, ⟨?_, trivial⟩, ⟨?_, trivial⟩, ⟨?_, trivial⟩, trivial⟩
  all_goals
    intro _ granter
    cases granter
    decide

theorem office_sound : office.grants.Sound where
  members := nofun
  customs := nofun
  unreserved := nofun

theorem climb_never_escalates : office.grants.Sound ∧ Unowned plainTexts office climb ∧
    ((run plainTexts office climb).roles.rows.map (·.permissions)) = [[.queriesRunSensitive]] ∧
    ∀ time, 3 ≤ time → ∀ membershipId,
      (run plainTexts office climb).grants.HoldsRole time membershipId .owner →
        office.grants.HoldsRole time membershipId .owner := by
  refine ⟨office_sound, climb_unowned, by decide +kernel, fun time later membershipId => ?_⟩
  refine (((run_never_escalates plainTexts office office_sound climb climb_unowned).2.1 time ?_)
    membershipId).1
  intro op _ reading read
  have small : ∀ op ∈ climb, ∀ reading ∈ op.readings, reading ≤ (3 : Time) := by decide
  exact (small op ‹_› reading read).trans later

end Renga.Access
