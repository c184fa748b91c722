import Renga.Scim.Sources

/-!
# Grants along runs

While an organization is not active its grants may be behind.  Nothing is carried along for
that case, because what resumes an organization reconciles everybody any of its connections
reaches or has granted to, and all others have neither an entry nor a membership of SCIM's.
Requests of `Renga.Access` may come in between; they write only memberships granted by hand.
-/

namespace Renga.Scim

open KeyTable Except

open Renga.Access (BuiltInRole Membership)

variable {env : Env} {db mid db' : Db} {op : Op} {organizationId userId : Uuid} {newIds : NewIds}

/-! ### The lifecycle of an organization -/

theorem Db.settledFor_of_no_source (sound : db.Sound)
    (apart : ∀ connection ∈ db.connections, connection.organizationId = organizationId →
      userId ∉ db.usersOfConnection connection.id) : db.SettledFor organizationId userId := by
  refine settledFor_of_unreached ?_ ?_
  · rintro _ ⟨connection, _, entitles, -⟩
    exact apart connection entitles.connected entitles.home
      (mem_usersOfConnection_of_entitles entitles)
  intro membership found
  obtain ⟨mem, home, person⟩ := (Access.Db.membership?_eq_some_iff sound.oneEach).1 found
  cases names : membership.scimConnectionId with
  | none => rfl
  | some =>
    obtain ⟨connection, connected, rfl, ours⟩ := sound.granted membership mem _ names
    exact absurd (mem_usersOfConnection.2 (Or.inr ⟨membership, mem, names, person⟩))
      (apart connection connected (ours.trans home))

theorem Db.reconcileSources!_settled (good : Good db)
    (done : db.reconcileSources! organizationId newIds = .ok db') :
    Good db' ∧ ∀ userId, db'.SettledFor organizationId userId := by
  have sound := good.sound
  have others : ∀ organizationId' userId, organizationId' ≠ organizationId →
      db.lockOrganization organizationId' = true → db'.SettledFor organizationId' userId :=
    fun organizationId' userId _ active => settledFor_reconcile! sound done
      fun _ => good.settled organizationId' active userId
  have here : ∀ userId, db'.SettledFor organizationId userId := by
    intro userId
    refine settledFor_reconcile! sound done fun apart => settledFor_of_no_source sound ?_
    intro connection connected home reached
    refine apart ⟨rfl, List.mem_flatMap.2 ⟨connection, ?_, reached⟩⟩
    exact List.mem_filter.2 ⟨connected, decide_eq_true home⟩
  refine ⟨⟨reconcile!_sound sound done, fun organizationId' active userId => ?_⟩, here⟩
  rw [reconcile!_lockOrganization sound done] at active
  by_cases same : organizationId' = organizationId
  · exact same ▸ here userId
  · exact others organizationId' userId same active

theorem Db.applyAttrs_good {organization : Organization}
    {attrs : Option OrganizationLifecycle.Attrs} (good : Good db)
    (found : db.access.organizations.get? organization.id = some organization)
    (done : db.applyAttrs organization newIds attrs = .ok db') : Good db' := by
  cases attrs with
  | none =>
    cases done
    exact good
  | some attrs =>
    obtain ⟨mid, sources, rfl⟩ := map_eq_ok_iff.1 done
    -- If the organization becomes active, it has been settled before.
    have settled : Good mid ∧ (attrs.status = .active →
        ∀ userId, mid.SettledFor organization.id userId) ∧
        mid.access.organizations = db.access.organizations := by
      split at sources
      · rename_i active
        obtain ⟨good', here⟩ := reconcileSources!_settled good sources
        refine ⟨good', fun _ => here, ?_⟩
        rw [(reconcile!_reconciled good.sound.oneEach sources).rest]
        rfl
      rename_i inactive
      cases sources
      exact ⟨good, fun active => absurd active inactive, rfl⟩
    obtain ⟨good', here, same⟩ := settled
    have sound := good'.sound
    refine ⟨{ sound with }, fun organizationId active userId => ?_⟩
    have before : mid.SettledFor organizationId userId := by
      rw [lockOrganization, Option.any_eq_true] at active
      obtain ⟨_, stored, active⟩ := active
      rw [get?_put] at stored
      by_cases ours : organizationId = organization.id
      · subst ours
        rw [OrganizationLifecycle.change_id, if_pos rfl, same, found] at stored
        cases stored
        exact here (of_decide_eq_true active) userId
      rw [OrganizationLifecycle.change_id, if_neg ours] at stored
      refine good'.settled organizationId ?_ userId
      rw [lockOrganization, stored]
      exact active
    exact before.of_agree rfl (.of_tables ⟨rfl, rfl, rfl⟩ rfl fun _ _ => Iff.rfl)

theorem Db.applyChange_good {id : Uuid} {action : OrganizationLifecycle.Action}
    {owner : Option Recovery} {now : Time} (good : Good db)
    (done : db.applyChange id action owner now newIds = .ok db') : Good db' := by
  simp only [applyChange, bind_eq_ok_iff, ofOption_eq_ok_iff] at done
  obtain ⟨_, found, _, _, _, _, done⟩ := done
  have named := key_of_get? found
  exact applyAttrs_good good (named.symm ▸ found) done

/-! ### Runs -/

/-- **Every transaction leaves the grants settled.** -/
theorem perform_good (good : Good db) (done : perform env db op = .ok db') : Good db' := by
  cases op with
  | createUser => exact Users.create_good good done
  | replaceUser | patchUser => exact Users.update_good good done
  | deleteUser => exact Users.delete_good good done
  | createGroup => exact Groups.create_good good done
  | replaceGroup => exact Groups.replace_good good done
  | patchGroup => exact Groups.patch_good good done
  | deleteGroup => exact Groups.delete_good good done
  | mapGroup => exact Db.mapGroup_good good done
  | updateDefaultRole =>
    exact Db.updateDefaultRole_good good done
  | createConnection => exact Db.createConnection_good good done
  | enableConnection => exact Db.enableConnection_good good done
  | disableConnection => exact Db.disableConnection_good good done
  | setEnabled =>
    simp only [perform, Db.setEnabled, Db.serialized, bind_eq_ok_iff, pure_eq_ok_iff] at done
    obtain ⟨after, ⟨_, _, saved⟩, _, _, rfl⟩ := done
    split at saved
    · cases saved
      exact good
    · exact Db.saveProvider_good good saved
  | removeProvider =>
    simp only [perform, Db.removeProvider, Db.serialized, bind_eq_ok_iff, pure_eq_ok_iff] at done
    obtain ⟨_, ⟨_, _, saved⟩, _, _, rfl⟩ := done
    exact Db.saveProvider_good good saved
  | providerSignIn => exact Db.providerSignIn_good good done
  | link =>
    simp only [perform, Db.link, bind_eq_ok_iff] at done
    obtain ⟨_, _, _, _, _, _, done⟩ := done
    split at done
    · cases done
    exact (Db.insertIdentity_good done good).1
  | unlink => exact Db.unlink_good good done
  | changeOrganization | cancelByOwner => exact Db.applyChange_good good done

theorem Good.access_effect {members : KeyTable Uuid Membership Access.Membership.id}
    (good : Good db) (effect : Access.MembersEffect db.access members) :
    Good (db.withMemberships members) := by
  have sound := good.sound
  obtain ⟨oneEach, lookup⟩ := lookup_of_effect effect sound.oneEach
  refine ⟨{ sound with oneEach, granted := ?_ }, ?_⟩
  · intro membership mem connectionId names
    have found := (Access.Db.membership?_eq_some_iff oneEach).2 ⟨mem, rfl, rfl⟩
    rcases lookup membership.organizationId membership.userId with same | ⟨other, byHand, found'⟩
    · obtain ⟨old, -, -⟩ := (Access.Db.membership?_eq_some_iff sound.oneEach).1 (same ▸ found)
      exact sound.granted membership old connectionId names
    obtain rfl := Option.some.inj (found'.symm.trans found)
    rw [byHand] at names
    cases names
  intro organizationId active userId free
  rcases lookup organizationId userId with same | ⟨other, byHand, found⟩
  · exact (good.settled organizationId active userId).of_agree same
      (.of_tables ⟨rfl, rfl, rfl⟩ rfl fun _ _ => Iff.rfl) free
  · exact absurd ⟨other, found, byHand⟩ free

theorem Good.of_members {access : Access.Db} (good : Good (db.withMemberships access.memberships))
    (organizations : access.organizations = db.access.organizations) :
    Good { db with access } := by
  have sound := good.sound
  refine ⟨{ sound with }, fun organizationId active userId => ?_⟩
  rw [Db.lockOrganization, organizations] at active
  exact (good.settled organizationId active userId).of_agree rfl
    (.of_tables ⟨rfl, rfl, rfl⟩ rfl fun _ _ => Iff.rfl)

theorem Good.step (good : Good db) {request : Request} : Good (request.step env db) := by
  cases request with
  | access op =>
    rcases Run.commit_cases db.access (Access.perform env.texts db.access op) with same | done
    · rw [Request.step, Access.step, same]
      exact good
    obtain ⟨effect, organizations⟩ := Access.perform_members done
    have written := good.access_effect effect
    exact written.of_members organizations
  | scim op =>
    rcases Run.commit_cases db (perform env db op) with same | done
    · rw [Request.step, Scim.step, same]
      exact good
    · exact perform_good good done

theorem Good.start (oneEach : db.access.OneEach)
    (byHand : ∀ membership ∈ db.access.memberships, membership.scimConnectionId = none)
    (connections : db.connections = .empty) (entries : db.directoryUsers = .empty)
    (groups : db.directoryGroups = .empty) (members : db.groupMembers = []) : Good db where
  sound :=
    { oneEach
      oneEnabled := by
        intro one mem
        rw [connections] at mem
        exact absurd mem (not_mem_empty one)
      granted := by
        intro membership mem _ names
        rw [byHand membership mem] at names
        cases names
      tenant := by
        intro entry mem
        rw [entries] at mem
        exact absurd mem (not_mem_empty entry)
      bound := by
        intro entry mem
        rw [entries] at mem
        exact absurd mem (not_mem_empty entry)
      grouped := by
        intro group mem
        rw [groups] at mem
        exact absurd mem (not_mem_empty group)
      joined := by
        intro _ mem
        rw [members] at mem
        exact absurd mem List.not_mem_nil }
  settled := by
    intro _ _ _
    refine Db.settledFor_of_unreached ?_ fun membership found => ?_
    · rintro role ⟨connection, _, entitles, -⟩
      have mem := entitles.connected
      rw [connections] at mem
      exact not_mem_empty connection mem
    obtain ⟨mem, -, -⟩ := (Access.Db.membership?_eq_some_iff oneEach).1 found
    exact byHand membership mem

/-- **Grants follow the directory.**  From a state with settled grants, whatever is requested and
in whatever order: in an active organization a person whose membership was not granted by hand has
an active membership with a role exactly if that is the highest role of the default role and of the
mapped group roles over their active, linked entries of the enabled connection with a usable
provider, and no transaction of SCIM changes a membership that was granted by hand. -/
theorem grants_follow_directory (env : Env) (db : Db) (good : Good db) (requests : List Request) :
    (∀ organizationId,
      (Run.run (Request.step env) db requests).lockOrganization organizationId = true →
      ∀ userId, ¬ (Run.run (Request.step env) db requests).ByHand organizationId userId →
      ∀ role, (Run.run (Request.step env) db requests).Holds organizationId userId role ↔
        (Run.run (Request.step env) db requests).Highest organizationId userId role) ∧
    ∀ op organizationId userId membership, membership.scimConnectionId = none →
      ((step env (Run.run (Request.step env) db requests) op).access.membership?
          organizationId userId = some membership ↔
        (Run.run (Request.step env) db requests).access.membership? organizationId userId =
          some membership) := by
  have after : Good (Run.run (Request.step env) db requests) :=
    Run.run_invariant (fun _ _ before => before.step) good requests
  refine ⟨fun organizationId active userId => after.settled organizationId active userId,
    fun op organizationId userId membership byHand => ?_⟩
  rcases Run.commit_cases _ (perform env (Run.run (Request.step env) db requests) op)
    with same | done
  · rw [step, same]
  · exact (perform_spares after.sound.oneEach done).byHand organizationId userId membership byHand

/-- An organization with an owner, and a provider that nobody has connected yet. -/
def founded : Db :=
  { access :=
      { organizations := .single { id := 1, status := .active }
        memberships := .single { id := 10, organizationId := 1, userId := 100, role := .owner } }
    providers := .single { id := "okta" } }

/-- The owner connects the provider, which creates an entry; a person signs in for it, and their
group is mapped to a role. -/
def onboarding : List Request :=
  let scope : Access.Scope := { organizationId := 1, userId := some 100, membershipId := some 10 }
  let newIds : NewIds := fun _ userId => 1000 + userId
  [.scim (.createConnection scope { providerId := some "okta", defaultRole := some "viewer" } 5 1),
    .scim (.createUser 5 (.ok { userName := "ann", externalId := some "a" }) 20),
    .scim (.providerSignIn
      { providerId := "okta", claims := fun claim => if claim = "sub" then some "a" else none
        email := some ("ann", true) } 101 30 2 newIds),
    .scim (.createGroup 5 (.ok ({ displayName := "Admins" }, [some 20])) 40),
    .scim (.mapGroup scope 40 (some "admin") 3 newIds)]

theorem founded_good : Good founded := by
  refine .start ?_ ?_ rfl rfl rfl rfl
  · show ∀ one ∈ founded.access.memberships.rows, ∀ other ∈ founded.access.memberships.rows,
      one.organizationId = other.organizationId → one.userId = other.userId → one = other
    decide
  show ∀ membership ∈ founded.access.memberships.rows, membership.scimConnectionId = none
  decide

theorem onboarding_follows_directory : Good founded ∧
    (Run.run (Request.step plainEnv) founded onboarding).access.membership? 1 101 =
      some { id := 1101, organizationId := 1, userId := 101, role := .admin
             scimConnectionId := some 5 } ∧
    (Run.run (Request.step plainEnv) founded onboarding).Highest 1 101 .admin := by
  have found : (Run.run (Request.step plainEnv) founded onboarding).access.membership? 1 101 =
      some { id := 1101, organizationId := 1, userId := 101, role := .admin
             scimConnectionId := some 5 } := by decide +kernel
  refine ⟨founded_good, found, ?_⟩
  have follows := (grants_follow_directory plainEnv founded founded_good onboarding).1 1
    (by decide +kernel) 101
  refine (follows ?_ .admin).1 ⟨_, found, rfl, rfl⟩
  rintro ⟨_, same, byHand⟩
  cases same
  cases byHand

theorem Db.reconcileUser!_settled (sound : db.Sound) (settled : db.SettledFor organizationId userId)
    (newId : Uuid) : db.reconcileUser! organizationId (db.activeConnection organizationId) userId
      newId = .ok db := by
  have granted := fun free role =>
    (settled free role).trans (grantedRole_eq_some_iff sound.oneEnabled).symm
  unfold reconcileUser! applyGrant!
  unfold ByHand Holds grantedRole at granted
  generalize db.desiredRole (db.activeConnection organizationId) userId = role at granted ⊢
  cases found : db.access.membership? organizationId userId with
  | none =>
    cases role with
    | none => rfl
    | some => simp [found] at granted
  | some membership =>
    dsimp only
    split
    · rfl
    cases role with
    | none => cases status : membership.status <;> simp_all
    | some => simp_all

theorem Db.reconcileEach_settled (sound : db.Sound)
    (settled : ∀ userId, db.SettledFor organizationId userId) {userIds : List Uuid} :
    reconcileEach organizationId (db.activeConnection organizationId) newIds userIds db
      = .ok db := by
  induction userIds with
  | nil => rfl
  | cons userId _ ih =>
    rw [reconcileEach, reconcileUser!_settled sound (settled userId)]
    exact ih

/-- **To reconcile again writes nothing.**  After any requests an active organization is as
`reconcile!` would leave it. -/
theorem run_leaves_reconciled (env : Env) (db : Db) (good : Good db) (requests : List Request) :
    let db' := Run.run (Request.step env) db requests
    ∀ organizationId userIds newIds, db'.lockOrganization organizationId = true →
      db'.reconcile! organizationId userIds newIds = .ok db' := by
  intro db' organizationId _ _ active
  have after : Good db' := Run.run_invariant (fun _ _ before => before.step) good requests
  exact Db.reconcileEach_settled after.sound (after.settled organizationId active)

theorem onboarding_leaves_reconciled :
    let db := Run.run (Request.step plainEnv) founded onboarding
    db.reconcile! 1 [101] (fun _ _ => 7) = .ok db :=
  run_leaves_reconciled plainEnv founded founded_good onboarding 1 _ _ (by decide +kernel)

end Renga.Scim
