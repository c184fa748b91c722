import Renga.Access.Operations

/-!
# What a request changes

A request that succeeds writes a role, deletes one, adds or removes an assignment, changes a
member, lets a person in, or leaves what people may do as it is.  `Effect` lists these cases with
what the transaction has checked before it commits.
-/

namespace Renga.Access

open List KeyTable Option Except

structure Grants where
  memberships : KeyTable Uuid Membership Membership.id
  roles : KeyTable Uuid Role Role.id
  assignments : KeyTable Uuid Assignment Assignment.id

def Db.grants (db : Db) : Grants := ⟨db.memberships, db.roles, db.assignments⟩

variable {texts : Texts} {db db' : Db} {op : Op} {scope : Scope} {clock : Clock}

/-! ### Granters -/

def Db.invitation? (db : Db) (tokenHash : String) : Option Invitation :=
  db.invitations.rows.find? fun invitation => invitation.tokenHash = tokenHash

def Op.granter (db : Db) : Op → Option Membership
  | .createRole scope _ _ _ | .updateRole scope _ _ _ | .deleteRole scope _ _
  | .assign scope _ _ _ _ | .unassign scope _ _ | .changeRole scope _ _ _
  | .disableMember scope _ _ | .enableMember scope _ _ | .invite scope _ _ _ _
  | .inviteBack scope _ _ _ _ | .revokeInvitation scope _ _ =>
    scope.membershipId.bind db.memberships.get?
  | .acceptInvitation _ tokenHash _ _ => (db.invitation? tokenHash).bind db.inviter

def Clock.readings (clock : Clock) : List Time := [clock.authorizedAt, clock.rolesAt, clock.now]

def AcceptanceClock.readings (clock : AcceptanceClock) : List Time :=
  [clock.now, clock.heldAt, clock.rolesAt, clock.restoredAt]

def Op.readings : Op → List Time
  | .createRole _ _ _ clock | .updateRole _ _ _ clock | .deleteRole _ _ clock
  | .assign _ _ _ _ clock | .unassign _ _ clock | .changeRole _ _ _ clock
  | .disableMember _ _ clock | .enableMember _ _ clock | .invite _ _ _ _ clock
  | .inviteBack _ _ _ _ clock | .revokeInvitation _ _ clock => clock.readings
  | .acceptInvitation _ _ _ clock => clock.readings

/-- The ceiling is that of the granter at a moment of the request. -/
def Op.May (db : Db) (op : Op) (ceiling : Ceiling) : Prop :=
  ∃ membership reading, op.granter db = some membership ∧ reading ∈ op.readings ∧
    ceiling = .of (db.rolesOf membership reading)

def Op.ByMember (db : Db) : Op → Prop
  | .acceptInvitation _ tokenHash _ _ =>
    ∀ invitation, db.invitation? tokenHash = some invitation →
      invitation.invitedByUserId ≠ none
  | _ => True

/-! ### Effects -/

def AssignedRole.Within (roles : KeyTable Uuid Role Role.id) (ceiling : Ceiling) :
    AssignedRole → Prop
  | .builtIn role => role ∈ ceiling.roles
  | .custom roleId => ∀ role ∈ roles, role.id = roleId →
      ∀ permission ∈ role.permissions, permission ∈ ceiling.permissions

/-- What a request does to the three tables.  `May` are the ceilings it may use, `now` is
when it looks at the assignments of a member. -/
inductive Effect (db : Db) (May : Ceiling → Prop) (now : Time) : Grants → Prop
  | kept : Effect db May now db.grants
  | createdRole (role : Role) (ceiling : Ceiling) (may : May ceiling)
      (within : ∀ permission ∈ role.permissions, permission ∈ ceiling.permissions)
      (fresh : db.roles.get? role.id = none) :
      Effect db May now { db.grants with roles := db.roles.add role fresh }
  | updatedRole (old role : Role) (ceiling : Ceiling) (may : May ceiling)
      (within : ∀ permission ∈ role.permissions, permission ∈ ceiling.permissions)
      (found : db.roles.get? role.id = some old)
      (home : role.organizationId = old.organizationId) :
      Effect db May now { db.grants with roles := db.roles.put role }
  | deletedRole (roleId : Uuid) :
      Effect db May now { db.grants with
        roles := db.roles.erase roleId
        assignments := db.assignments.filter (·.role ≠ .custom roleId) }
  | assigned (assignment : Assignment) (ceiling : Ceiling) (may : May ceiling)
      (within : assignment.role.Within db.roles ceiling)
      (references : db.references assignment = true)
      (fresh : db.assignments.get? assignment.id = none) :
      Effect db May now { db.grants with assignments := db.assignments.add assignment fresh }
  | unassigned (assignmentId : Uuid) :
      Effect db May now { db.grants with assignments := db.assignments.erase assignmentId }
  | changedMember (member changed : Membership) (ceiling : Ceiling) (may : May ceiling)
      (found : db.memberships.get? member.id = some member)
      (same : changed.id = member.id ∧ changed.organizationId = member.organizationId)
      (role : changed.role ∈ ceiling.roles)
      (within : ∀ assignment ∈ db.assignments, assignment.membershipId = member.id →
        assignment.current now = true → assignment.role.Within db.roles ceiling)
      (spared : db.lastActiveOwner member = true →
        changed.role = member.role ∧ changed.status = member.status) :
      Effect db May now { db.grants with memberships := db.memberships.put changed }
  | joined (membership : Membership) (ceiling ceiling' : Ceiling) (may : May ceiling)
      (role : membership.role ∈ ceiling.roles)
      (fresh : db.memberships.get? membership.id = none)
      (assignments : KeyTable Uuid Assignment Assignment.id)
      (added : ∀ assignment ∈ assignments, assignment ∈ db.assignments ∨
        assignment.membershipId = membership.id ∧ May ceiling' ∧
          assignment.role.Within db.roles ceiling' ∧
          Db.references { db with memberships := db.memberships.add membership fresh }
            assignment = true) :
      Effect db May now { db.grants with
        memberships := db.memberships.add membership fresh
        assignments := assignments }

/-! ### Reading the checks -/

variable {condition : Bool} {u : PUnit}

theorem ensure_eq_ok {error : Error} :
    ensure condition error = .ok u ↔ condition = true := require_eq_ok_iff

theorem valid!_eq_ok {errors : List (String × String)} : valid! errors = .ok u ↔ errors = [] := by
  rw [valid!, ensure_eq_ok, List.isEmpty_iff]

theorem check_eq_nil {field message : String} :
    check condition field message = [] ↔ condition = true := by
  cases condition <;> simp [check]

variable {ceiling : Ceiling}

theorem withinPermissions_iff {permissions : List Permission}
    (within : withinPermissions permissions ceiling = true) :
    ∀ permission ∈ permissions, permission ∈ ceiling.permissions := by
  intro _ carried
  by_contra above
  have left := mem_diff_of_mem carried above
  rw [isEmpty_iff.1 within] at left
  cases left

variable {permission : Permission}

theorem ceiling!_eq_ok (granted : db.ceiling! scope permission clock = .ok ceiling) :
    ∃ membership, scope.membershipId.bind db.memberships.get? = some membership ∧
      ceiling = .of (db.rolesOf membership clock.rolesAt) := by
  simp only [Db.ceiling!, Db.currentRoles!, bind_eq_ok_iff, ofOption_eq_ok_iff,
    pure_eq_ok_iff] at granted
  obtain ⟨_, _, _, acting, _, ⟨membership, found, rfl⟩, rfl⟩ := granted
  refine ⟨membership, ?_, rfl⟩
  rw [acting]
  exact found

variable {attrs : RoleAttrs} {organizationId : Uuid}

theorem RoleChange.within {current : Option Role} {id : Uuid}
    (before : ∀ role, current = some role →
      ∀ permission ∈ role.permissions, permission ∈ ceiling.permissions)
    (valid : (Role.changeset texts current attrs).errors texts ++
      (Role.changeset texts current attrs).ceilingErrors ceiling = []) :
    ∀ permission ∈ ((Role.changeset texts current attrs).apply id organizationId).permissions,
      permission ∈ ceiling.permissions := by
  have bounded := check_eq_nil.1 (append_eq_nil_iff.1 valid).2
  intro permission stored
  obtain ⟨text, listed, known⟩ := mem_filterMap.1 stored
  have named := Permission.name_of_ofName? known
  rw [Bool.or_eq_true, Bool.not_eq_true', List.isEmpty_iff] at bounded
  rcases bounded with unchanged | bounded
  · have same : (Role.changeset texts current attrs).permissions
        = ((current.map (·.permissions)).getD []).map Permission.name := by
      simpa [Role.changeset] using unchanged
    rw [same] at listed
    obtain ⟨permission', old, name⟩ := mem_map.1 listed
    cases Permission.name_injective (name.trans named.symm)
    cases current with
    | none => cases old
    | some role => exact before role rfl permission old
  by_contra above
  have left : text ∈ (Role.changeset texts current attrs).permissions.diff
      (ceiling.permissions.map Permission.name) := by
    refine mem_diff_of_mem listed fun covered => above ?_
    obtain ⟨_, granted, name⟩ := mem_map.1 covered
    cases Permission.name_injective (name.trans named.symm)
    exact granted
  rw [bounded] at left
  cases left

theorem memberWithinCeiling_iff {member : Membership} {now : Time}
    (within : db.memberWithinCeiling member ceiling now = true) :
    member.role ∈ ceiling.roles ∧ ∀ assignment ∈ db.assignments,
      assignment.membershipId = member.id → assignment.current now = true →
        assignment.role.Within db.roles ceiling := by
  rw [Db.memberWithinCeiling, Bool.and_eq_true, decide_eq_true_eq, List.all_eq_true] at within
  refine ⟨within.1, fun assignment stored mine current => ?_⟩
  have covered := within.2 assignment (List.mem_filter.2 ⟨stored, by simp [mine, current]⟩)
  cases role : assignment.role with
  | builtIn builtIn =>
    rw [role] at covered
    show builtIn ∈ ceiling.roles
    simpa using covered
  | custom =>
    rw [role] at covered
    obtain ⟨_, known, within⟩ := (any_eq_true _ _).1 covered
    intro _ listed same
    subst same
    rw [get?_of_mem listed] at known
    cases known
    exact withinPermissions_iff within

/-! ### Requests -/

theorem may_of_ceiling! (granted : db.ceiling! scope permission clock = .ok ceiling)
    (granter : op.granter db = scope.membershipId.bind db.memberships.get?)
    (readings : op.readings = clock.readings) : op.May db ceiling := by
  obtain ⟨membership, found, same⟩ := ceiling!_eq_ok granted
  refine ⟨membership, clock.rolesAt, granter.trans found, ?_, same⟩
  rw [readings]
  exact mem_cons_of_mem _ mem_cons_self

variable {May : Ceiling → Prop} {now : Time} {newId : Uuid}

theorem createRole_effect
    (may : ∀ ceiling, db.ceiling! scope .rolesManage clock = .ok ceiling → May ceiling)
    (done : createRole texts db scope attrs newId clock = .ok db') :
    Effect db May now db'.grants := by
  simp only [createRole, bind_eq_ok_iff, valid!_eq_ok] at done
  obtain ⟨ceiling, granted, _, valid, _, _, done⟩ := done
  split at done
  · rename_i fresh
    cases done
    exact .createdRole _ ceiling (may ceiling granted)
      (RoleChange.within (fun _ none => (by cases none)) valid) fresh
  · cases done

variable {roleId : Uuid}

theorem lockRole_eq_ok {role : Role} (found : db.lockRole scope roleId = .ok role) :
    db.roles.get? role.id = some role := by
  rw [Db.lockRole, ofOption_eq_ok_iff, filter_eq_some_iff] at found
  rw [key_of_get? found.1]
  exact found.1

theorem updateRole_effect
    (may : ∀ ceiling, db.ceiling! scope .rolesManage clock = .ok ceiling → May ceiling)
    (done : updateRole texts db scope roleId attrs clock = .ok db') :
    Effect db May now db'.grants := by
  simp only [updateRole, bind_eq_ok_iff, valid!_eq_ok, ensure_eq_ok, pure_eq_ok_iff] at done
  obtain ⟨ceiling, granted, current, found, _, within, _, valid, _, _, rfl⟩ := done
  refine .updatedRole current _ ceiling (may ceiling granted) (RoleChange.within ?_ valid)
    (lockRole_eq_ok found) rfl
  rintro _ same
  cases same
  exact withinPermissions_iff within

theorem deleteRole_effect (done : deleteRole db scope roleId clock = .ok db') :
    Effect db May now db'.grants := by
  simp only [deleteRole, bind_eq_ok_iff, ensure_eq_ok, pure_eq_ok_iff] at done
  obtain ⟨_, _, current, _, _, _, rfl⟩ := done
  exact .deletedRole current.id

variable {role : ResolvedRole}

theorem ResolvedRole.assigned_within
    (stored : ∀ custom, role = .custom custom → db.roles.get? custom.id = some custom)
    (within : role.within ceiling = true) : role.assigned.Within db.roles ceiling := by
  cases role with
  | builtIn builtIn =>
    show builtIn ∈ ceiling.roles
    simpa [ResolvedRole.within] using within
  | custom custom =>
    intro _ listed same
    have one := stored custom rfl
    rw [← same, get?_of_mem listed] at one
    cases one
    exact withinPermissions_iff within

theorem resolveRole_stored {text : RoleText} (found : db.resolveRole scope text = .ok role) :
    ∀ custom, role = .custom custom → db.roles.get? custom.id = some custom := by
  rintro _ rfl
  cases text with
  | builtIn | other => cases found
  | uuid =>
    simp only [Db.resolveRole, bind_eq_ok_iff, ofOption_eq_ok_iff,
      pure_eq_ok_iff, filter_eq_some_iff] at found
    obtain ⟨_, ⟨known, _⟩, same⟩ := found
    cases same
    rw [key_of_get? known]
    exact known

theorem insertAssignment!_eq_ok {assignment : Assignment}
    (done : db.insertAssignment! assignment = .ok db') :
    ∃ fresh, db.references assignment = true ∧
      db' = { db with assignments := db.assignments.add assignment fresh } := by
  unfold Db.insertAssignment! at done
  split at done
  · rename_i fresh
    split at done
    · rename_i references
      cases done
      exact ⟨fresh, references, rfl⟩
    · cases done
  · cases done

variable {membershipId : Uuid}

theorem assign_effect {attrs : AssignmentAttrs}
    (may : ∀ ceiling, db.ceiling! scope .membersManage clock = .ok ceiling → May ceiling)
    (done : assign texts db scope membershipId attrs newId clock = .ok db') :
    Effect db May now db'.grants := by
  simp only [assign, bind_eq_ok_iff, ensure_eq_ok] at done
  obtain ⟨ceiling, granted, _, _, _, found, _, within, _, _, _, _, done⟩ := done
  obtain ⟨fresh, references, rfl⟩ := insertAssignment!_eq_ok done
  exact .assigned _ ceiling (may ceiling granted)
    (ResolvedRole.assigned_within (resolveRole_stored found) within) references fresh

theorem unassign_effect {assignmentId : Uuid}
    (done : unassign db scope assignmentId clock = .ok db') : Effect db May now db'.grants := by
  simp only [unassign, bind_eq_ok_iff, ensure_eq_ok, pure_eq_ok_iff] at done
  obtain ⟨_, _, assignment, _, _, _, _, _, rfl⟩ := done
  exact .unassigned assignment.id

/-- What an administration of a member does: role and status of a member granted by hand are
changed within the ceiling, and not those of the last owner. -/
inductive Administered (db : Db) (scope : Scope) (clock : Clock) : Db → Prop
  | intro (ceiling : Ceiling) (member : Membership) (role : BuiltInRole) (status : MemberStatus)
      (granted : db.ceiling! scope .membersManage clock = .ok ceiling)
      (stored : db.memberships.get? member.id = some member)
      (byHand : member.scimConnectionId = none) (within : role ∈ ceiling.roles)
      (assignments : ∀ assignment ∈ db.assignments, assignment.membershipId = member.id →
        assignment.current clock.now = true → assignment.role.Within db.roles ceiling)
      (spared : db.lastActiveOwner member = true → role = member.role ∧ status = member.status) :
      Administered db scope clock
        { db with memberships := db.memberships.put { member with role, status } }

theorem administer_administered {change : Ceiling → Membership → Except Error Membership}
    (keeps : ∀ ceiling member changed, change ceiling member = .ok changed →
      member.role ∈ ceiling.roles →
      changed = { member with role := changed.role, status := changed.status } ∧
        changed.role ∈ ceiling.roles ∧
        (db.lastActiveOwner member = true →
          changed.role = member.role ∧ changed.status = member.status))
    (done : administer db scope membershipId clock change = .ok db') :
    Administered db scope clock db' := by
  simp only [administer, Db.lockMember, bind_eq_ok_iff, ensure_eq_ok,
    ofOption_eq_ok_iff, filter_eq_some_iff, pure_eq_ok_iff] at done
  obtain ⟨ceiling, granted, member, ⟨found, _⟩, _, byHand, _, within, changed, change, rfl⟩ := done
  obtain ⟨role, assignments⟩ := memberWithinCeiling_iff within
  obtain ⟨same, role', spared⟩ := keeps ceiling member changed change role
  have stored : db.memberships.get? member.id = some member := by
    rw [key_of_get? found]
    exact found
  rw [same]
  exact .intro ceiling member _ _ granted stored (isNone_iff_eq_none.1 byHand) role'
    assignments spared

theorem changeRole_administered {role : String}
    (done : changeRole db scope membershipId role clock = .ok db') :
    Administered db scope clock db' := by
  refine administer_administered (fun _ _ _ change within => ?_) done
  split at change
  · cases change
  split at change
  · cases change
    exact ⟨rfl, within, fun _ => ⟨rfl, rfl⟩⟩
  split at change
  · cases change
  rename_i granted
  split at change
  · cases change
  rename_i notLast
  cases change
  exact ⟨rfl, not_not.1 granted, fun last => absurd last notLast⟩

theorem disableMember_administered (done : disableMember db scope membershipId clock = .ok db') :
    Administered db scope clock db' := by
  refine administer_administered (fun _ _ _ change within => ?_) done
  split at change
  · cases change
    exact ⟨rfl, within, fun _ => ⟨rfl, rfl⟩⟩
  split at change
  · cases change
  split at change
  · cases change
  rename_i notLast
  cases change
  exact ⟨rfl, within, fun last => absurd last notLast⟩

theorem enableMember_administered (done : enableMember db scope membershipId clock = .ok db') :
    Administered db scope clock db' := by
  refine administer_administered (fun _ _ _ change within => ?_) done
  split at change
  · cases change
    exact ⟨rfl, within, fun _ => ⟨rfl, rfl⟩⟩
  rename_i inactive
  cases change
  refine ⟨rfl, within, fun last => absurd ?_ inactive⟩
  simp only [Db.lastActiveOwner, Bool.and_eq_true, decide_eq_true_eq] at last
  exact last.1.2

theorem Administered.effect
    (may : ∀ ceiling, db.ceiling! scope .membersManage clock = .ok ceiling → May ceiling)
    (administered : Administered db scope clock db') : Effect db May clock.now db'.grants := by
  cases administered with
  | intro ceiling member role status granted stored _ within assignments spared =>
    exact .changedMember member { member with role, status } ceiling (may ceiling granted) stored
      ⟨rfl, rfl⟩ within assignments spared

theorem replaceOpenInvitation_keeps {email : String} {ceiling : List BuiltInRole}
    (done : db.replaceOpenInvitation texts scope email ceiling now = .ok db') :
    db'.grants = db.grants ∧ db'.organizations = db.organizations := by
  unfold Db.replaceOpenInvitation at done
  split at done
  · cases done
    exact ⟨rfl, rfl⟩
  split at done
  · cases done
    exact ⟨rfl, rfl⟩
  · cases done

variable {tokenHash : String}

theorem invite_keeps {attrs : InvitationAttrs} {importedPrincipalId : Option Uuid}
    (done : invite texts db scope attrs importedPrincipalId tokenHash newId clock = .ok db') :
    db'.grants = db.grants ∧ db'.organizations = db.organizations := by
  simp only [invite, bind_eq_ok_iff] at done
  obtain ⟨_, _, _, _, _, _, _, _, _, replaced, done⟩ := done
  split at done
  · cases done
    have kept := replaceOpenInvitation_keeps replaced
    exact kept
  · cases done

theorem inviteBack_keeps {principalId : Uuid}
    (done : inviteBack texts db scope principalId tokenHash newId clock = .ok db') :
    db'.grants = db.grants ∧ db'.organizations = db.organizations := by
  unfold inviteBack at done
  split at done
  · cases done
  split at done
  · cases done
  split at done
  · cases done
  exact invite_keeps done

theorem revokeInvitation_grants {invitationId : Uuid}
    (done : revokeInvitation db scope invitationId clock = .ok db') : db'.grants = db.grants := by
  simp only [revokeInvitation, bind_eq_ok_iff, pure_eq_ok_iff] at done
  obtain ⟨_, _, _, _, _, _, rfl⟩ := done
  rfl

/-! ### Acceptance -/

variable {membership : Membership}

theorem insertMembership!_eq_ok (done : db.insertMembership! membership = .ok db') :
    ∃ fresh, db' = { db with memberships := db.memberships.add membership fresh } := by
  unfold Db.insertMembership! at done
  split at done
  · rename_i fresh
    split at done
    · cases done
    cases done
    exact ⟨fresh, rfl⟩
  · cases done

theorem heldWithin_role {held : HeldAssignment} {role : AssignedRole}
    (within : db.heldWithin ceiling held = .ok true) (known : held.role? = some role) :
    role.Within db.roles ceiling := by
  unfold Db.heldWithin at within
  unfold HeldAssignment.role? at known
  cases builtIn : held.builtInRole with
  | some name =>
    cases custom : held.roleId with
    | some =>
      rw [builtIn, custom] at known
      cases known
    | none =>
      rw [builtIn, custom] at known within
      obtain ⟨builtInRole, named, rfl⟩ := map_eq_some_iff.1 known
      simp only [ok.injEq, decide_eq_true_eq] at within
      obtain ⟨granted, member, same⟩ := mem_map.1 within
      have name' : builtInRole.name = name := by simpa using find?_some named
      have one : granted = builtInRole := by
        have := same.trans name'.symm
        revert this
        cases granted <;> cases builtInRole <;> decide
      exact one ▸ member
  | none =>
    cases custom : held.roleId with
    | none =>
      rw [builtIn, custom] at known
      cases known
    | some =>
      rw [builtIn, custom] at known within
      cases known
      simp only [ok.injEq] at within
      obtain ⟨_, found, covered⟩ := (any_eq_true _ _).1 within
      intro _ listed same
      subst same
      rw [get?_of_mem listed] at found
      cases found
      exact withinPermissions_iff covered

variable {applied : List HeldAssignment}

theorem restorable_within {helds : List HeldAssignment}
    (done : db.restorable membershipId ceiling now helds = .ok applied) :
    ∀ held ∈ applied, held.membershipId = membershipId ∧ db.heldWithin ceiling held = .ok true := by
  induction helds generalizing applied with
  | nil =>
    cases done
    intro held member
    cases member
  | cons _ _ ih =>
    simp only [Db.restorable, bind_eq_ok_iff, pure_eq_ok_iff] at done
    obtain ⟨restores, decided, _, done, rfl⟩ := done
    have tail := ih done
    cases restores with
    | false => exact tail
    | true =>
      intro held member
      rcases mem_cons.1 member with rfl | later
      · unfold Db.restores at decided
        split at decided
        · rename_i conditions
          exact ⟨conditions.1, decided⟩
        · cases decided
      · exact tail held later

theorem restoreEach_spec (within : ∀ held ∈ applied, held.membershipId = membershipId ∧
      db.heldWithin ceiling held = .ok true)
    (done : Db.restoreEach organizationId applied db = .ok db') :
    db' = { db with assignments := db'.assignments } ∧
      ∀ assignment ∈ db'.assignments, assignment ∈ db.assignments ∨
        assignment.membershipId = membershipId ∧ assignment.role.Within db.roles ceiling ∧
          db.references assignment = true := by
  induction applied generalizing db with
  | nil =>
    cases done
    exact ⟨rfl, fun _ stored => .inl stored⟩
  | cons held rest ih =>
    simp only [Db.restoreEach, Db.restoreAssignment!, bind_eq_ok_iff, ofOption_eq_ok_iff] at done
    obtain ⟨_, ⟨_, known, inserted⟩, done⟩ := done
    obtain ⟨fresh, references, rfl⟩ := insertAssignment!_eq_ok inserted
    obtain ⟨mine, covered⟩ := within held mem_cons_self
    have later : ∀ other ∈ rest, other.membershipId = membershipId ∧
        Db.heldWithin { db with assignments := db.assignments.add _ fresh } ceiling other
          = .ok true := fun other member => within other (mem_cons_of_mem _ member)
    obtain ⟨same, added⟩ := ih later done
    refine ⟨same, fun assignment stored => ?_⟩
    rcases added assignment stored with earlier | ⟨mine', role', references'⟩
    · rcases (mem_add fresh).1 earlier with old | rfl
      · exact .inl old
      · exact .inr ⟨mine, heldWithin_role covered known, references⟩
    · exact .inr ⟨mine', role', references'⟩

variable {inviter : Membership} {invitation : Invitation}

theorem inviter_add (fresh : db.memberships.get? membership.id = none)
    (found : db.inviter invitation = some inviter) :
    Db.inviter { db with memberships := db.memberships.add membership fresh } invitation
      = some inviter := by
  show (db.memberships.rows ++ [membership]).find? _ = some inviter
  rw [find?_append]
  exact or_eq_some_iff.2 (.inl found)

theorem enter_effect {userId : Uuid} {clock : AcceptanceClock}
    (found : db.inviter invitation = some inviter)
    (may : May (.of (db.rolesOf inviter clock.rolesAt)))
    (may' : May (.of (db.rolesOf inviter clock.restoredAt)))
    (role : invitation.role ∈ grantableRoles (db.rolesOf inviter clock.rolesAt))
    (done : enter texts db invitation userId newId clock = .ok db') :
    Effect db May now db'.grants := by
  unfold enter at done
  split at done
  · obtain ⟨fresh, rfl⟩ := insertMembership!_eq_ok done
    exact .joined _ _ (.of (db.rolesOf inviter clock.restoredAt)) may role fresh db.assignments
      fun _ stored => .inl stored
  simp only [restore, bind_eq_ok_iff, ofOption_eq_ok_iff, pure_eq_ok_iff] at done
  obtain ⟨_, _, _, _, _, _, _, inserted, _, found', _,
    restorable, final, restored, rfl⟩ := done
  obtain ⟨fresh, rfl⟩ := insertMembership!_eq_ok inserted
  rw [inviter_add fresh found] at found'
  cases found'
  obtain ⟨same, added⟩ := restoreEach_spec (restorable_within restorable) restored
  have grants : final.grants = { db.grants with
      memberships := db.memberships.add _ fresh
      assignments := final.assignments } := by
    rw [same]
    rfl
  show Effect db May now final.grants
  rw [grants]
  refine .joined _ _ (.of (db.rolesOf inviter clock.restoredAt)) may role fresh _
    fun assignment stored => ?_
  rcases added assignment stored with old | ⟨mine, within, references⟩
  · exact .inl old
  · exact .inr ⟨mine, may', within, references⟩

theorem acceptInvitation_effect {recipient : Recipient} {clock : AcceptanceClock}
    (byMember : ∀ invitation, db.invitation? tokenHash = some invitation →
      invitation.invitedByUserId ≠ none)
    (may : ∀ invitation inviter reading, db.invitation? tokenHash = some invitation →
      db.inviter invitation = some inviter → reading ∈ clock.readings →
      May (.of (db.rolesOf inviter reading)))
    (done : acceptInvitation texts db recipient tokenHash newId clock = .ok db') :
    Effect db May now db'.grants := by
  simp only [acceptInvitation, bind_eq_ok_iff, ofOption_eq_ok_iff, ensure_eq_ok,
    pure_eq_ok_iff] at done
  obtain ⟨invitation, found, _, _, _, _, _, _, _, _, _, _, _, grants, _, _, between, entered,
    rfl⟩ := done
  obtain ⟨_, invited⟩ := ne_none_iff_exists'.1 (byMember invitation found)
  rw [Db.inviterMayGrant, invited] at grants
  obtain ⟨inviter, known, covered⟩ := (any_eq_true _ _).1 grants
  rw [decide_eq_true_eq] at covered
  show Effect db May now between.grants
  exact enter_effect known
    (may invitation inviter _ found known (by simp [AcceptanceClock.readings]))
    (may invitation inviter _ found known (by simp [AcceptanceClock.readings]))
    covered.2.2 entered

theorem Clock.now_mem_readings (clock : Clock) : clock.now ∈ clock.readings := by
  simp [Clock.readings]

/-- **Every request has one of the effects.** -/
theorem perform_effect (byMember : op.ByMember db) (done : perform texts db op = .ok db') :
    ∃ now ∈ op.readings, Effect db (op.May db) now db'.grants := by
  cases op with
  | createRole _ _ _ clock =>
    exact ⟨_, clock.now_mem_readings,
      createRole_effect (fun _ granted => may_of_ceiling! granted rfl rfl) done⟩
  | updateRole _ _ _ clock =>
    exact ⟨_, clock.now_mem_readings,
      updateRole_effect (fun _ granted => may_of_ceiling! granted rfl rfl) done⟩
  | deleteRole _ _ clock =>
    exact ⟨_, clock.now_mem_readings, deleteRole_effect done⟩
  | assign _ _ _ _ clock =>
    exact ⟨_, clock.now_mem_readings,
      assign_effect (fun _ granted => may_of_ceiling! granted rfl rfl) done⟩
  | unassign _ _ clock =>
    exact ⟨_, clock.now_mem_readings, unassign_effect done⟩
  | changeRole _ _ _ clock =>
    exact ⟨_, clock.now_mem_readings,
      (changeRole_administered done).effect fun _ granted => may_of_ceiling! granted rfl rfl⟩
  | disableMember _ _ clock =>
    exact ⟨_, clock.now_mem_readings,
      (disableMember_administered done).effect fun _ granted => may_of_ceiling! granted rfl rfl⟩
  | enableMember _ _ clock =>
    exact ⟨_, clock.now_mem_readings,
      (enableMember_administered done).effect fun _ granted => may_of_ceiling! granted rfl rfl⟩
  | invite _ _ _ _ clock =>
    exact ⟨_, clock.now_mem_readings, (invite_keeps done).1 ▸ .kept⟩
  | inviteBack _ _ _ _ clock =>
    exact ⟨_, clock.now_mem_readings, (inviteBack_keeps done).1 ▸ .kept⟩
  | revokeInvitation _ _ clock =>
    exact ⟨_, clock.now_mem_readings, revokeInvitation_grants done ▸ .kept⟩
  | acceptInvitation _ _ _ clock =>
    refine ⟨clock.now, by simp [Op.readings, AcceptanceClock.readings],
      acceptInvitation_effect byMember ?_ done⟩
    intro _ inviter reading found known read
    refine ⟨inviter, reading, ?_, read, rfl⟩
    rw [Op.granter, found]
    exact known

end Renga.Access
