import Renga.Scim.Directory

/-!
# Reconciling grants

`reconcile!` brings the memberships of some people up to date: where a role is granted,
there is an active membership with it that names the connection, and where none is, a
membership SCIM has made is disabled.  A membership granted by hand is left alone.
`Reconciled` is all of that in one statement about lookups.
-/

namespace Renga.Scim

open KeyTable

open Renga.Access (BuiltInRole Membership)

inductive ScimType where
  | uniqueness
  | invalidValue
  | invalidSyntax
  | invalidPath
  | noTarget
  deriving DecidableEq

inductive Error where
  | access (error : Access.Error)
  | scim (type : ScimType) (detail : String)
  | changeset (errors : List (String × String))
  | notFound
  | alreadyConnected
  | providerUnavailable
  | lastSignInMethod
  | inactive
  | invalidClaims
  | emailInUse
  | signUpClosed
  | unverifiedEmail
  | alreadyLinked
  | linkedElsewhere
  | sessionFailed
  | purging
  | forbidden
  | refused
  | raised
  deriving DecidableEq

def lift {α : Type} : Except Access.Error α → Except Error α
  | .ok value => .ok value
  | .error error => .error (.access error)

@[simp] theorem lift_eq_ok_iff {α : Type} {result : Except Access.Error α} {value : α} :
    lift result = .ok value ↔ result = .ok value := by
  cases result with
  | ok => simp [lift]
  | error => simp [lift]

abbrev NewIds := Uuid → Uuid → Uuid

/-! ### The operation -/

namespace Db

variable (db : Db) (organizationId userId : Uuid)

def withMemberships (memberships : KeyTable Uuid Membership Access.Membership.id) : Db :=
  { db with access := { db.access with memberships } }

def applyGrant! (membership : Option Membership) (connection : Option Connection) (userId : Uuid)
    (role : Option BuiltInRole) (newId : Uuid) : Except Error Db :=
  match membership, role with
  | none, none => .ok db
  | none, some role => do
      let connection ← Except.ofOption connection .raised
      let access ← lift (db.access.insertMembership!
        { id := newId, organizationId, userId, role, status := .active
          scimConnectionId := some connection.id })
      return { db with access }
  | some membership, role =>
    -- A membership granted by hand takes precedence.
    if membership.scimConnectionId = none then .ok db
    else
      match role with
      | none =>
        if membership.status = .disabled then .ok db
        else .ok (db.withMemberships
          (db.access.memberships.put { membership with status := .disabled }))
      | some role =>
        if membership.status = .active ∧ membership.role = role then .ok db
        else do
          let connection ← Except.ofOption connection .raised
          return db.withMemberships (db.access.memberships.put
            { membership with role, status := .active, scimConnectionId := some connection.id })

def reconcileUser! (connection : Option Connection) (userId newId : Uuid) : Except Error Db :=
  db.applyGrant! organizationId (db.access.membership? organizationId userId) connection userId
    (db.desiredRole connection userId) newId

def reconcileEach (organizationId : Uuid) (connection : Option Connection) (newIds : NewIds) :
    List Uuid → Db → Except Error Db
  | [], db => .ok db
  | userId :: rest, db => do
      let db ← db.reconcileUser! organizationId connection userId (newIds organizationId userId)
      reconcileEach organizationId connection newIds rest db

def reconcile! (userIds : List Uuid) (newIds : NewIds) : Except Error Db :=
  reconcileEach organizationId (db.activeConnection organizationId) newIds
    (userIds.eraseDups.insertionSort (· ≤ ·)) db

/-! ### What people hold -/

def ByHand : Prop :=
  ∃ membership, db.access.membership? organizationId userId = some membership ∧
    membership.scimConnectionId = none

def Holds (role : BuiltInRole) : Prop :=
  ∃ membership, db.access.membership? organizationId userId = some membership ∧
    membership.status = .active ∧ membership.role = role

end Db

variable {db mid db' : Db} {organizationId userId : Uuid} {role : BuiltInRole}
  {connection : Option Connection} {newIds : NewIds}

/-- What an operation on the memberships of an organization does, if it is to leave people with
the roles `desired`. -/
structure Reconciled (db db' : Db) (organizationId : Uuid) (connection : Option Connection)
    (desired : Uuid → Option BuiltInRole) (people : Uuid → Prop) : Prop where
  rest : db' = db.withMemberships db'.access.memberships
  oneEach : db'.access.OneEach
  elsewhere : ∀ organizationId' userId, ¬ (organizationId' = organizationId ∧ people userId) →
    db'.access.membership? organizationId' userId = db.access.membership? organizationId' userId
  byHand : ∀ userId membership, membership.scimConnectionId = none →
    (db'.access.membership? organizationId userId = some membership ↔
      db.access.membership? organizationId userId = some membership)
  granted : ∀ userId, people userId → ¬ db.ByHand organizationId userId →
    ∀ role, db'.Holds organizationId userId role ↔ desired userId = some role
  named : ∀ userId membership connectionId,
    db'.access.membership? organizationId userId = some membership →
    membership.scimConnectionId = some connectionId →
    (∃ old, db.access.membership? organizationId userId = some old ∧
      old.scimConnectionId = some connectionId) ∨ connection.map (·.id) = some connectionId

theorem Db.byHand_iff
    (byHand : ∀ userId membership, membership.scimConnectionId = none →
      (db'.access.membership? organizationId userId = some membership ↔
        db.access.membership? organizationId userId = some membership)) {userId : Uuid} :
    db'.ByHand organizationId userId ↔ db.ByHand organizationId userId := by
  constructor
  · rintro ⟨membership, found, is⟩
    exact ⟨membership, (byHand userId membership is).1 found, is⟩
  rintro ⟨membership, found, is⟩
  exact ⟨membership, (byHand userId membership is).2 found, is⟩

/-! ### One person -/

variable {access : Access.Db} {membership : Membership}

theorem insertMembership!_membership? {access' : Access.Db} (oneEach : access.OneEach)
    (done : access.insertMembership! membership = .ok access') :
    access'.OneEach ∧ access' = { access with memberships := access'.memberships } ∧
      ∀ organizationId userId, access'.membership? organizationId userId =
        if organizationId = membership.organizationId ∧ userId = membership.userId then
          some membership
        else access.membership? organizationId userId := by
  unfold Access.Db.insertMembership! at done
  split at done
  case isFalse => cases done
  rename_i fresh
  split at done
  · cases done
  rename_i alone
  cases done
  have apart : ∀ other ∈ access.memberships,
      other.organizationId = membership.organizationId → other.userId ≠ membership.userId :=
    fun other stored home person => alone
      (List.any_eq_true.2 ⟨other, stored, decide_eq_true ⟨home, person⟩⟩)
  have oneEach' : Access.Db.OneEach
      { access with memberships := access.memberships.add membership fresh } := by
    intro one mem other mem' home person
    rcases (mem_add fresh).1 mem with old | rfl
    · rcases (mem_add fresh).1 mem' with old' | rfl
      · exact oneEach one old other old' home person
      · exact absurd person (apart one old home)
    rcases (mem_add fresh).1 mem' with old' | rfl
    · exact absurd person.symm (apart other old' home.symm)
    rfl
  refine ⟨oneEach', rfl, fun _ _ => ?_⟩
  split
  · rename_i its
    rw [Access.Db.membership?_eq_some_iff oneEach']
    exact ⟨(mem_add fresh).2 (.inr rfl), its.1.symm, its.2.symm⟩
  rename_i other
  refine Access.Db.membership?_congr oneEach oneEach' fun _ home person => ?_
  rw [mem_add fresh]
  refine ⟨fun either => either.resolve_right ?_, .inl⟩
  rintro rfl
  exact other ⟨home.symm, person.symm⟩

theorem put_membership? {old : Membership} (membership : Membership) (oneEach : access.OneEach)
    (found : access.membership? organizationId userId = some old) (same : membership.id = old.id)
    (home : membership.organizationId = old.organizationId)
    (person : membership.userId = old.userId) :
    Access.Db.OneEach { access with memberships := access.memberships.put membership } ∧
      ∀ organizationId' userId',
        Access.Db.membership? { access with memberships := access.memberships.put membership }
            organizationId' userId' =
          if organizationId' = organizationId ∧ userId' = userId then some membership
          else access.membership? organizationId' userId' := by
  obtain ⟨stored, rfl, rfl⟩ := (Access.Db.membership?_eq_some_iff oneEach).1 found
  have there : access.memberships.get? membership.id = some old :=
    same ▸ get?_of_mem stored
  have only : ∀ other ∈ access.memberships, other.id ≠ membership.id →
      other.organizationId = membership.organizationId → other.userId ≠ membership.userId := by
    intro other its differs home' person'
    refine differs ?_
    rw [oneEach other its old stored (home'.trans home) (person'.trans person), same]
  have mem_iff : ∀ other, other ∈ access.memberships.put membership ↔
      other = membership ∨ other ∈ access.memberships ∧ other.id ≠ membership.id := by
    intro other
    constructor
    · intro mem
      by_cases ours : other.id = membership.id
      · exact .inl (eq_of_key_eq mem (mem_put_self there) ours)
      rcases mem_put mem with rfl | ⟨its, -⟩
      · exact absurd rfl ours
      exact .inr ⟨its, ours⟩
    rintro (rfl | ⟨its, differs⟩)
    · exact mem_put_self there
    · exact mem_put_of_ne its differs
  have oneEach' : Access.Db.OneEach
      { access with memberships := access.memberships.put membership } := by
    intro one mem other mem' home' person'
    rcases (mem_iff one).1 mem with rfl | ⟨its, differs⟩
    · rcases (mem_iff other).1 mem' with rfl | ⟨its', differs'⟩
      · rfl
      exact absurd person'.symm (only other its' differs' home'.symm)
    rcases (mem_iff other).1 mem' with rfl | ⟨its', _⟩
    · exact absurd person' (only one its differs home')
    exact oneEach one its other its' home' person'
  refine ⟨oneEach', fun _ _ => ?_⟩
  split
  · rename_i its
    rw [Access.Db.membership?_eq_some_iff oneEach', home, person]
    exact ⟨mem_put_self there, its.1.symm, its.2.symm⟩
  rename_i other
  refine Access.Db.membership?_congr oneEach oneEach' fun one home' person' => ?_
  show one ∈ access.memberships.put membership ↔ _
  rw [mem_iff]
  constructor
  · rintro (rfl | ⟨its, -⟩)
    · exact absurd ⟨home'.symm.trans home, person'.symm.trans person⟩ other
    exact its
  intro its
  refine .inr ⟨its, fun ours => other ?_⟩
  obtain rfl := eq_of_key_eq its stored (ours.trans same)
  exact ⟨home'.symm, person'.symm⟩

namespace Reconciled

variable {desired : Uuid → Option BuiltInRole} {people people' : Uuid → Prop}

theorem refl (oneEach : db.access.OneEach) (none : ∀ userId, ¬ people userId) :
    Reconciled db db organizationId connection desired people where
  rest := rfl
  oneEach := oneEach
  elsewhere := fun _ _ _ => rfl
  byHand := fun _ _ _ => Iff.rfl
  granted := fun userId its => absurd its (none userId)
  named := fun _ membership _ found is => .inl ⟨membership, found, is⟩

theorem unchanged (db : Db) (oneEach : db.access.OneEach)
    (fits : ¬ db.ByHand organizationId userId →
      ∀ role, db.Holds organizationId userId role ↔ desired userId = some role) :
    Reconciled db db organizationId connection desired (· = userId) where
  rest := rfl
  oneEach := oneEach
  elsewhere := fun _ _ _ => rfl
  byHand := fun _ _ _ => Iff.rfl
  granted := fun _ its => its ▸ fits
  named := fun _ membership _ found is => .inl ⟨membership, found, is⟩

theorem written {connectionId : Uuid} (rest : db' = db.withMemberships db'.access.memberships)
    (oneEach : db'.access.OneEach)
    (lookup : ∀ organizationId' userId', db'.access.membership? organizationId' userId' =
      if organizationId' = organizationId ∧ userId' = userId then some membership
      else db.access.membership? organizationId' userId')
    (free : ¬ db.ByHand organizationId userId)
    (names : membership.scimConnectionId = some connectionId)
    (source : (∃ old, db.access.membership? organizationId userId = some old ∧
      old.scimConnectionId = some connectionId) ∨ connection.map (·.id) = some connectionId)
    (fits : ∀ role, membership.status = .active ∧ membership.role = role ↔
      desired userId = some role) :
    Reconciled db db' organizationId connection desired (· = userId) where
  rest := rest
  oneEach := oneEach
  elsewhere := by
    intro _ userId' other
    rw [lookup, if_neg other]
  byHand := by
    intro userId' membership' is
    rw [lookup]
    split
    · rename_i its
      obtain ⟨-, rfl⟩ := its
      constructor
      · intro same
        cases same
        rw [names] at is
        cases is
      · exact fun found => absurd ⟨membership', found, is⟩ free
    · rfl
  granted := by
    rintro _ rfl - role
    rw [← fits role]
    constructor
    · rintro ⟨found, same, holds⟩
      rw [lookup, if_pos ⟨rfl, rfl⟩] at same
      cases same
      exact holds
    intro holds
    exact ⟨membership, by rw [lookup, if_pos ⟨rfl, rfl⟩], holds⟩
  named := by
    intro _ found _ same is
    rw [lookup] at same
    split at same
    · rename_i its
      obtain ⟨-, rfl⟩ := its
      cases same
      rw [names] at is
      cases is
      exact source
    · exact .inl ⟨found, same, is⟩

theorem trans (first : Reconciled db mid organizationId connection desired people)
    (second : Reconciled mid db' organizationId connection desired people') :
    Reconciled db db' organizationId connection desired
      fun userId => people userId ∨ people' userId where
  rest := by
    rw [second.rest, first.rest]
    rfl
  oneEach := second.oneEach
  elsewhere := by
    intro organizationId' userId other
    rw [second.elsewhere organizationId' userId fun its => other ⟨its.1, .inr its.2⟩,
      first.elsewhere organizationId' userId fun its => other ⟨its.1, .inl its.2⟩]
  byHand := fun userId membership is =>
    (second.byHand userId membership is).trans (first.byHand userId membership is)
  granted := by
    intro userId its free role
    by_cases again : people' userId
    · refine second.granted userId again ?_ role
      rwa [Db.byHand_iff first.byHand]
    have same := second.elsewhere organizationId userId fun both => again both.2
    rw [Db.Holds, same]
    exact first.granted userId (its.resolve_right again) free role
  named := by
    intro userId membership connectionId found is
    rcases second.named userId membership connectionId found is with ⟨old, held, was⟩ | ours
    · exact first.named userId old connectionId held was
    · exact .inr ours

end Reconciled

@[simp] theorem Db.desiredRole_withMemberships
    {memberships : KeyTable Uuid Membership Access.Membership.id} :
    (db.withMemberships memberships).desiredRole connection userId =
      db.desiredRole connection userId := rfl

theorem Db.reconcileUser!_reconciled {newId : Uuid} (oneEach : db.access.OneEach)
    (done : db.reconcileUser! organizationId connection userId newId = .ok db') :
    Reconciled db db' organizationId connection (db.desiredRole connection) (· = userId) := by
  unfold Db.reconcileUser! applyGrant! at done
  split at done
  · rename_i absent nothing
    cases done
    refine .unchanged db oneEach fun _ role => ⟨?_, fun desired => ?_⟩
    · rintro ⟨membership, found, -⟩
      rw [absent] at found
      cases found
    rw [nothing] at desired
    cases desired
  · rename_i absent desired
    simp only [Except.bind_eq_ok_iff, Except.ofOption_eq_ok_iff, lift_eq_ok_iff,
      Except.pure_eq_ok_iff] at done
    obtain ⟨connection, rfl, _, inserted, rfl⟩ := done
    obtain ⟨oneEach', same, lookup⟩ := insertMembership!_membership? oneEach inserted
    refine .written (congrArg (fun access => { db with access }) same) oneEach' lookup ?_ rfl
      (.inr rfl) fun role => ?_
    · rintro ⟨membership, found, -⟩
      rw [absent] at found
      cases found
    rw [desired, Option.some.injEq]
    exact and_iff_right rfl
  rename_i membership found
  have holds_iff : ∀ role, db.Holds organizationId userId role ↔
      membership.status = .active ∧ membership.role = role := by
    intro role
    constructor
    · rintro ⟨other, same, holds⟩
      rw [found] at same
      cases same
      exact holds
    · exact fun holds => ⟨membership, found, holds⟩
  split at done
  · rename_i byHand
    cases done
    exact .unchanged db oneEach fun free => absurd ⟨membership, found, byHand⟩ free
  rename_i scim
  obtain ⟨_, names⟩ := Option.ne_none_iff_exists'.1 scim
  have free : ¬ db.ByHand organizationId userId := by
    rintro ⟨_, same, byHand⟩
    rw [found] at same
    cases same
    exact scim byHand
  split at done
  · rename_i nothing
    split at done
    · rename_i disabled
      cases done
      refine .unchanged db oneEach fun _ role => ?_
      rw [holds_iff, nothing, disabled]
      simp
    cases done
    obtain ⟨oneEach', lookup⟩ := put_membership?
      { membership with status := .disabled } oneEach found rfl rfl rfl
    refine .written rfl oneEach' lookup free names (.inl ⟨membership, found, names⟩)
      fun role => ?_
    rw [nothing]
    simp
  rename_i desired
  split at done
  · rename_i fits
    cases done
    refine .unchanged db oneEach fun _ role => ?_
    rw [holds_iff, desired, fits.1, fits.2]
    simp
  simp only [Except.bind_eq_ok_iff, Except.ofOption_eq_ok_iff,
    Except.pure_eq_ok_iff] at done
  obtain ⟨connection, rfl, rfl⟩ := done
  obtain ⟨oneEach', lookup⟩ := put_membership?
    { membership with role := _, status := .active
                      scimConnectionId := some connection.id }
    oneEach found rfl rfl rfl
  refine .written rfl oneEach' lookup free rfl (.inr rfl) fun _ => ?_
  rw [desired, Option.some.injEq]
  exact and_iff_right rfl

/-! ### Many people -/

variable {userIds : List Uuid}

theorem Db.reconcileEach_reconciled (oneEach : db.access.OneEach)
    (done : reconcileEach organizationId connection newIds userIds db = .ok db') :
    Reconciled db db' organizationId connection (db.desiredRole connection) (· ∈ userIds) := by
  induction userIds generalizing db with
  | nil =>
    cases done
    exact .refl oneEach fun _ => List.not_mem_nil
  | cons _ _ ih =>
    simp only [reconcileEach, Except.bind_eq_ok_iff] at done
    obtain ⟨mid, one, others⟩ := done
    have head := reconcileUser!_reconciled oneEach one
    have tail := ih head.oneEach others
    have same : mid.desiredRole connection = db.desiredRole connection := by
      funext userId
      rw [head.rest, desiredRole_withMemberships]
    rw [same] at tail
    simpa only [List.mem_cons] using head.trans tail

/-- **What a reconciliation does.**  It writes memberships of the people it is for, spares those
granted by hand, and leaves everybody else of them with the role that is granted. -/
theorem Db.reconcile!_reconciled (oneEach : db.access.OneEach)
    (done : db.reconcile! organizationId userIds newIds = .ok db') :
    Reconciled db db' organizationId (db.activeConnection organizationId)
      (db.grantedRole organizationId) (· ∈ userIds) := by
  have each := reconcileEach_reconciled oneEach done
  simp only [List.mem_insertionSort, List.mem_eraseDups] at each
  exact each

end Renga.Scim
