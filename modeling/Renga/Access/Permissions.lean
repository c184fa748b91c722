import Mathlib.Data.List.Basic
import Mathlib.Order.Defs.LinearOrder

/-!
# Permissions, built-in roles and the grant ceiling

`Renga.Authorization`, the part that reads no table.  What a holder of a role may hand on,
its grant ceiling, is separate from what the role allows: `grantableRoles` bounds the
built-in roles, `grantablePermissions` the permissions of custom roles.  The organization
permissions are the owner's only, and no ceiling but the owner's reaches them; the reserved
ones never ride on a custom role.
-/

namespace Renga.Access

open List

/-- The catalogue of permissions, which organizations cannot add to. -/
inductive Permission where
  | inventoryRead
  | inventoryReconcile
  | inventoryEdit
  | findingsAct
  | requestsCreate
  | requestsDecide
  | catalogAuthor
  | catalogExpectations
  | dcimEdit
  | ipamEdit
  | topologyEdit
  | jobsRequest
  | queriesRun
  | queriesRunSensitive
  | viewsShare
  | teamsManage
  | groupsManage
  | triageRulesManage
  | intakeKeysManage
  | membersManage
  | rolesManage
  | organizationManage
  | organizationExport
  | scimManage
  deriving DecidableEq

namespace Permission

/-- The permission as the tables and the API write it. -/
def name : Permission → String
  | inventoryRead => "inventory.read"
  | inventoryReconcile => "inventory.reconcile"
  | inventoryEdit => "inventory.edit"
  | findingsAct => "findings.act"
  | requestsCreate => "requests.create"
  | requestsDecide => "requests.decide"
  | catalogAuthor => "catalog.author"
  | catalogExpectations => "catalog.expectations"
  | dcimEdit => "dcim.edit"
  | ipamEdit => "ipam.edit"
  | topologyEdit => "topology.edit"
  | jobsRequest => "jobs.request"
  | queriesRun => "queries.run"
  | queriesRunSensitive => "queries.run_sensitive"
  | viewsShare => "views.share"
  | teamsManage => "teams.manage"
  | groupsManage => "groups.manage"
  | triageRulesManage => "triage_rules.manage"
  | intakeKeysManage => "intake_keys.manage"
  | membersManage => "members.manage"
  | rolesManage => "roles.manage"
  | organizationManage => "organization.manage"
  | organizationExport => "organization.export"
  | scimManage => "scim.manage"

/-- `permissions/0`. -/
def all : List Permission :=
  [inventoryRead, inventoryReconcile, inventoryEdit, findingsAct, requestsCreate, requestsDecide,
    catalogAuthor, catalogExpectations, dcimEdit, ipamEdit, topologyEdit, jobsRequest, queriesRun,
    queriesRunSensitive, viewsShare, teamsManage, groupsManage, triageRulesManage,
    intakeKeysManage, membersManage, rolesManage, organizationManage, organizationExport,
    scimManage]

/-- The permission of a text: `none` is what `validate!/1` raises on. -/
def ofName? (name : String) : Option Permission := all.find? fun permission =>
  permission.name = name

variable {permission : Permission}

theorem mem_all : permission ∈ all := by
  cases permission <;> decide

theorem name_of_ofName? {name : String} (known : ofName? name = some permission) :
    permission.name = name := by
  simpa using find?_some known

theorem ofName?_name (permission : Permission) : ofName? permission.name = some permission := by
  cases permission <;> decide

theorem name_injective : Function.Injective name := by
  intro one other same
  have known := ofName?_name one
  rw [same, ofName?_name other] at known
  exact (Option.some.inj known).symm

/-- The everyday permissions of members, admins and owners. -/
def workflow : List Permission := [inventoryReconcile, findingsAct, catalogAuthor]

/-- What admins and owners hold beyond a member. -/
def management : List Permission :=
  [inventoryEdit, requestsDecide, catalogExpectations, dcimEdit, ipamEdit, topologyEdit,
    jobsRequest, viewsShare, teamsManage, groupsManage, triageRulesManage, intakeKeysManage,
    membersManage, rolesManage]

/-- What only owners hold. -/
def organization : List Permission := [organizationManage, organizationExport, scimManage]

/-- The permissions that would let a custom role hand out roles. -/
def reserved : List Permission := [membersManage, rolesManage, scimManage]

/-- Operational access to hosts: no built-in role includes it. -/
def explicit : List Permission := [queriesRun, queriesRunSensitive]

end Permission

/-- The base role of a membership. -/
inductive BuiltInRole where
  | owner
  | admin
  | member
  | viewer
  deriving DecidableEq

namespace BuiltInRole

/-- `built_in_roles/0`, most privileged first. -/
def roleOrder : List BuiltInRole := [owner, admin, member, viewer]

/-- The role as the tables write it. -/
def name : BuiltInRole → String
  | owner => "owner"
  | admin => "admin"
  | member => "member"
  | viewer => "viewer"

/-- The built-in role of a text. -/
def ofName? (name : String) : Option BuiltInRole := roleOrder.find? fun role => role.name = name

/-- `role_permissions/1`. -/
def rolePermissions : BuiltInRole → List Permission
  | owner =>
    [.inventoryRead] ++ Permission.workflow ++ Permission.management ++ Permission.organization
  | admin => [.inventoryRead] ++ Permission.workflow ++ Permission.management
  | member => [.inventoryRead] ++ Permission.workflow ++ [.requestsCreate]
  | viewer => [.inventoryRead]

end BuiltInRole

/-- `roles_granting/1`. -/
def rolesGranting (permission : Permission) : List BuiltInRole :=
  BuiltInRole.roleOrder.filter fun role => permission ∈ role.rolePermissions

/-- The built-in roles that a holder of the role may hand on. -/
def BuiltInRole.grantableRoles : BuiltInRole → List BuiltInRole
  | owner => roleOrder
  | admin => [admin, member, viewer]
  | _ => []

/-- The ceiling of a membership: what any of its roles reaches. -/
def grantableRoles (roles : List BuiltInRole) : List BuiltInRole :=
  BuiltInRole.roleOrder.filter fun role => role ∈ roles.flatMap BuiltInRole.grantableRoles

/-- `custom_role_permissions/0`. -/
def customRolePermissions : List Permission := Permission.all.diff Permission.reserved

/-- The permissions of custom roles that a holder of the role may hand on. -/
def BuiltInRole.grantablePermissions : BuiltInRole → List Permission
  | owner => customRolePermissions
  | admin => customRolePermissions.diff Permission.organization
  | _ => []

/-- What any of the roles reaches, in the order of the catalogue. -/
def grantablePermissions (roles : List BuiltInRole) : List Permission :=
  customRolePermissions.filter fun permission =>
    permission ∈ roles.flatMap BuiltInRole.grantablePermissions

/-! ### What a ceiling reaches -/

variable {permission : Permission}

/-- An organization permission comes with the owner role only. -/
theorem eq_owner_of_organization {role : BuiltInRole}
    (organization : permission ∈ Permission.organization)
    (granted : permission ∈ role.rolePermissions) : role = .owner := by
  revert granted
  revert organization
  cases role <;> cases permission <;> decide

variable {roles : List BuiltInRole}

/-- **Only an owner makes an owner.** -/
theorem owner_not_mem_grantableRoles (unowned : .owner ∉ roles) :
    .owner ∉ grantableRoles roles := by
  intro granted
  obtain ⟨_, reached⟩ := mem_filter.1 granted
  obtain ⟨role, held, grants⟩ := mem_flatMap.1 (of_decide_eq_true reached)
  cases role with
  | owner => exact unowned held
  | admin | member | viewer => exact absurd grants (by decide)

/-- **Only an owner hands on an organization permission.** -/
theorem organization_not_mem_grantablePermissions (unowned : .owner ∉ roles)
    (organization : permission ∈ Permission.organization) :
    permission ∉ grantablePermissions roles := by
  intro granted
  obtain ⟨_, reached⟩ := mem_filter.1 granted
  obtain ⟨role, held, grants⟩ := mem_flatMap.1 (of_decide_eq_true reached)
  cases role with
  | owner => exact unowned held
  | admin =>
    revert grants
    revert organization
    cases permission <;> decide
  | member | viewer => cases grants

theorem reserved_not_mem_customRolePermissions
    (carried : permission ∈ customRolePermissions) : permission ∉ Permission.reserved := by
  revert carried
  cases permission <;> decide

end Renga.Access
