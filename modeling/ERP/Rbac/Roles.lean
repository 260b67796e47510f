import ERP.Lib.Rows
import ERP.Lib.Transaction
import ERP.Schema

/-!
# Roles and permissions

`RolesService`, `RolePermissionsService`, `UserRolesService`, `TenantRolePolicyService`,
`UsersService.setStatus` and `UsersInvitationsService`, call by call.  A user row holds its
`UserRole` rows and a role row the codes of its `RolePermission` rows; names, passwords
and the outlets of users are left out.
-/

namespace ERP
namespace Rbac

open Lib Tx

def USER_MANAGE : String := "user.manage"

def USER_ROLE_MANAGE : String := "rbac.user.role.manage"

def USER_OUTLET_MANAGE : String := "rbac.user.outlet.manage"

def TENANT_ASSIGNABLE_PERMISSION_CODES : List String :=
  ["product.create", "product.read", "product.update", "product.delete", "order.create",
   "order.read", "order.update", "inventory.read", "inventory.adjust", "report.read",
   "payment.create", "payment.read", "analytics.read", "kitchen.read", "kitchen.update",
   "recipe.create", "recipe.read", "recipe.update", "ingredient.create", "ingredient.read",
   "ingredient.update", "ingredient.delete", "warehouse.read", "warehouse.update",
   "warehouse.create", "warehouse.delete", "supplier.create", "supplier.read", "supplier.update",
   "supplier.delete", "stock.create", "stock.read", "stock.update", "stock.delete",
   "purchase_order.create", "purchase_order.read", "purchase_order.update",
   "purchase_order.delete", "purchase_order.approve", "purchase_order.receive",
   "rbac.permission.read", "rbac.role.read", "rbac.role.create", "rbac.role.update",
   "rbac.role.delete", "rbac.role.permission.manage", "rbac.user.role.manage",
   "rbac.user.outlet.manage", "user.read", "user.manage", "outlet.read", "outlet.create",
   "outlet.update", "outlet.delete", "feature-flag.read", "feature-flag.create",
   "feature-flag.update", "feature-flag.delete", "feature-flag.evaluate", "business.read",
   "business.create", "business.update", "business.delete", "business.manage",
   "business.restore", "subscription.read", "subscription.create", "subscription.update",
   "subscription.cancel", "plan.read", "plan.create", "plan.update", "plan.delete",
   "invoice.read", "invoice.create", "billing.read", "billing.execute", "audit-log.read"]

def isTenantAssignablePermission (code : String) : Bool :=
  code ∈ TENANT_ASSIGNABLE_PERMISSION_CODES

structure UserRole where
  roleId : Id
  tenantId : Id
  deletedAt : Option Int
  deriving DecidableEq, Repr

structure User where
  id : Id
  email : String
  tenantId : Id
  isActive : Bool
  deletedAt : Option Int
  userRoles : Rows UserRole UserRole.roleId

structure Role where
  id : Id
  tenantId : Id
  isSystem : Bool
  permissionCodes : List String
  deriving DecidableEq, Repr

structure Outlet where
  id : Id
  tenantId : Id
  deletedAt : Option Int
  deriving DecidableEq, Repr

/-- The rows of its roles carry its tenant. -/
structure UserInvitation where
  id : Id
  email : String
  tenantId : Id
  invitedByUserId : Id
  tokenHash : String
  expiresAt : Int
  acceptedAt : Option Int
  revokedAt : Option Int
  roleIds : List Id
  outletIds : List Id
  deriving DecidableEq, Repr

structure RbacStore where
  users : Rows User User.id
  roles : Rows Role Role.id
  /-- The codes of the table `Permission`. -/
  permissions : List String
  outlets : Rows Outlet Outlet.id
  invitations : Rows UserInvitation UserInvitation.id

inductive RbacFailure where
  | roleNotFound
  | rolesNotFound
  | systemRolePermissions
  | systemRole
  | notAssignable
  | permissionNotFound (code : String)
  | cannotGrant
  | mustRetainRole
  | userNotFound
  | administratorMustRemain
  | ownAccount
  | lastAdministrator
  | roleReferenced
  | accountExists
  | outletsNotFound
  | deliveryFailed
  | deliveryFailedNotRevoked
  | invitationNotFound
  | passwordTooLong
  | invitationInvalid
  | uniqueViolation
  deriving DecidableEq, Repr

def RbacFailure.message : RbacFailure → String
  | .roleNotFound => "Role not found"
  | .rolesNotFound => "One or more roles not found"
  | .systemRolePermissions => "System role permissions cannot be changed"
  | .systemRole => "System roles cannot be changed or deleted"
  | .notAssignable => "Permission code is not assignable to tenant roles"
  | .permissionNotFound code => "Permission not found for code: " ++ code
  | .cannotGrant => "You cannot grant permissions you do not have"
  | .mustRetainRole => "An active user must retain at least one role"
  | .userNotFound => "User not found"
  | .administratorMustRemain => "At least one active user administrator must remain assigned"
  | .ownAccount => "You cannot deactivate your own account"
  | .lastAdministrator => "The last active user administrator cannot be deactivated"
  | .roleReferenced => "This role cannot be deleted while it is assigned or invited"
  | .accountExists => "An account already exists for this email"
  | .outletsNotFound => "One or more outlets not found"
  | .deliveryFailed => "Invitation email could not be delivered; the invitation was canceled"
  | .deliveryFailedNotRevoked => "Invitation delivery failed and its token could not be revoked"
  | .invitationNotFound => "Invitation not found"
  | .passwordTooLong => "Password exceeds the supported length"
  | .invitationInvalid => "Invitation is invalid or expired"
  | .uniqueViolation => "Unique constraint failed"

abbrev RbacTx := Tx RbacStore RbacFailure

namespace RbacStore

variable (s : RbacStore)

def rolePermissions (roleId : Id) : List String :=
  match s.roles.get roleId with
  | some role => role.permissionCodes
  | none => []

/-- The codes of the roles that the user holds in the tenant, through rows that are not
deleted. -/
def permissionsOf (tenantId userId : Id) : List String :=
  match s.users.get userId with
  | some user =>
      (user.userRoles.toList.filter fun row => row.tenantId = tenantId ∧
        row.deletedAt = none).flatMap
        fun row => s.rolePermissions row.roleId
  | none => []

/-- An active administrator of the tenant, as `setUserRoles` and `setStatus` count them. -/
def isAdministrator (tenantId : Id) (user : User) : Bool :=
  user.tenantId = tenantId ∧ user.deletedAt = none ∧ user.isActive ∧
    user.userRoles.toList.any fun row => row.tenantId = tenantId ∧ row.deletedAt = none ∧
      (s.rolePermissions row.roleId).any fun code => code ∈ [USER_MANAGE, USER_ROLE_MANAGE]

/-- `deleteMany` of the role's permissions and `createMany` of the codes that are known. -/
def replacePermissions (roleId : Id) (codes : List String) : RbacStore where
  users := s.users
  roles :=
    s.roles.updateMany (fun role => role.id = roleId)
      (fun role => { role with permissionCodes := s.permissions.filter (· ∈ codes) }) fun _ => rfl
  permissions := s.permissions
  outlets := s.outlets
  invitations := s.invitations

def setUser (userId : Id) (f : User → User) (hf : ∀ user, (f user).id = user.id) : RbacStore :=
  { s with users := s.users.updateMany (fun user => user.id = userId) f hf }

end RbacStore

namespace TenantRolePolicyService

def assertCanGrantPermissions (tenantId actorUserId : Id) (permissionCodes : List String) :
    RbacTx Unit := do
  let s ← get
  require (permissionCodes.all fun code => code ∈ s.permissionsOf tenantId actorUserId) .cannotGrant

def assertCanAssignRoles (tenantId actorUserId : Id) (roleIds : List Id) : RbacTx Unit := do
  let s ← get
  let roles := s.roles.toList.filter fun role => role.id ∈ roleIds ∧ role.tenantId = tenantId
  require (roles.length = roleIds.length) .rolesNotFound
  assertCanGrantPermissions tenantId actorUserId (roles.flatMap Role.permissionCodes).eraseDups

end TenantRolePolicyService

open TenantRolePolicyService

/-- `new Set(codes)`, all of them assignable and known. -/
def validatePermissionCodes (codes : List String) : RbacTx (List String) := do
  let uniqueCodes := codes.eraseDups
  require (uniqueCodes.all isTenantAssignablePermission) .notAssignable
  let s ← get
  match uniqueCodes.find? fun code => code ∉ s.permissions with
  | some code => throw (.permissionNotFound code)
  | none => pure uniqueCodes

def RolePermissionsService.setRolePermissions (tenantId actorUserId roleId : Id)
    (permissionCodes : List String) : RbacTx Unit := do
  let s ← get
  let role ← expect (s.roles.findFirst fun role => role.id = roleId ∧ role.tenantId = tenantId)
    .roleNotFound
  require (role.isSystem = false) .systemRolePermissions
  let uniqueCodes ← validatePermissionCodes permissionCodes
  assertCanGrantPermissions tenantId actorUserId uniqueCodes
  modify fun s => s.replacePermissions roleId uniqueCodes

namespace RolesService

def create (tenantId actorUserId id : Id) (codes : Option (List String)) : RbacTx Unit := do
  let permissionCodes ← validatePermissionCodes (codes.getD [])
  assertCanGrantPermissions tenantId actorUserId permissionCodes
  let s ← get
  require (s.roles.get id = none) .uniqueViolation
  set { s with roles := s.roles.insert ⟨id, tenantId, false, permissionCodes⟩ }

def getEditable (tenantId roleId : Id) : RbacTx Role := do
  let s ← get
  let role ← expect (s.roles.findFirst fun role => role.id = roleId ∧ role.tenantId = tenantId)
    .roleNotFound
  require (role.isSystem = false) .systemRole
  pure role

/-- Without `permissionCodes` only the name and the description change. -/
def update (tenantId actorUserId roleId : Id) (codes : Option (List String)) : RbacTx Unit := do
  let _ ← getEditable tenantId roleId
  match codes with
  | none => pure ()
  | some codes =>
      let permissionCodes ← validatePermissionCodes codes
      assertCanGrantPermissions tenantId actorUserId permissionCodes
      modify fun s => s.replacePermissions roleId permissionCodes

def isPending (now : Int) (invitation : UserInvitation) : Bool :=
  invitation.acceptedAt = none ∧ invitation.revokedAt = none ∧ now < invitation.expiresAt

/-- What `remove` looks for: the role is assigned or invited. -/
def referenced (s : RbacStore) (now : Int) (roleId : Id) : Bool :=
  s.users.toList.any (fun user => user.userRoles.toList.any fun row =>
    row.roleId = roleId ∧ row.deletedAt = none) ||
  s.invitations.toList.any fun invitation => isPending now invitation ∧ roleId ∈ invitation.roleIds

/-- The deletion of the role, which cascades to `UserRole` and `UserInvitationRole`. -/
def deleteRole (s : RbacStore) (roleId : Id) : RbacStore where
  users :=
    s.users.updateMany (fun _ => true)
      (fun user => { user with userRoles := user.userRoles.deleteMany (·.roleId = roleId) })
      fun _ => rfl
  roles := s.roles.deleteMany fun role => role.id = roleId
  permissions := s.permissions
  outlets := s.outlets
  invitations :=
    s.invitations.updateMany (fun _ => true)
      (fun invitation => { invitation with roleIds := invitation.roleIds.filter (· ≠ roleId) })
      fun _ => rfl

def remove (tenantId roleId : Id) (now : Int) : RbacTx Unit := do
  let _ ← getEditable tenantId roleId
  let s ← get
  require (referenced s now roleId = false) .roleReferenced
  set (deleteRole s roleId)

end RolesService

namespace UserRolesService

/-- The rows that `uniqueRoleIds` does not name are deleted. -/
def retainRoles (tenantId : Id) (uniqueRoleIds : List Id) (now : Int)
    (rows : Rows UserRole UserRole.roleId) : Rows UserRole UserRole.roleId :=
  rows.updateMany
    (fun row => row.tenantId = tenantId ∧ row.deletedAt = none ∧ row.roleId ∉ uniqueRoleIds)
    (fun row => { row with deletedAt := some now }) fun _ => rfl

/-- One round of the loop over `uniqueRoleIds`. -/
def assignRole (tenantId : Id) (rows : Rows UserRole UserRole.roleId) (roleId : Id) :
    Except RbacFailure (Rows UserRole UserRole.roleId) :=
  match rows.get roleId with
  | some existing =>
      if existing.tenantId ≠ tenantId then .error .rolesNotFound
      else .ok (rows.updateMany (fun row => row.roleId = roleId)
        (fun row => { row with deletedAt := none }) fun _ => rfl)
  | none => .ok (rows.insert ⟨roleId, tenantId, none⟩)

def setUserRoles (tenantId actorUserId userId : Id) (roleIds : List Id) (now : Int) :
    RbacTx Unit := do
  let uniqueRoleIds := roleIds.eraseDups
  require (uniqueRoleIds ≠ []) .mustRetainRole
  let s ← get
  let user ← expect (s.users.findFirst fun user =>
    user.id = userId ∧ user.tenantId = tenantId ∧ user.deletedAt = none) .userNotFound
  assertCanAssignRoles tenantId actorUserId uniqueRoleIds
  let rows ← liftM (uniqueRoleIds.foldlM (assignRole tenantId)
    (retainRoles tenantId uniqueRoleIds now user.userRoles))
  modify fun s => s.setUser userId (fun user => { user with userRoles := rows }) fun _ => rfl
  let s ← get
  require (s.users.count (s.isAdministrator tenantId) ≠ 0) .administratorMustRemain

end UserRolesService

/-- The refresh tokens and sessions it revokes are those of `Auth`. -/
def UsersService.setStatus (tenantId actorUserId userId : Id) (isActive : Bool) : RbacTx Unit := do
  require (¬ (isActive = false ∧ actorUserId = userId)) .ownAccount
  let s ← get
  let user ← expect (s.users.findFirst fun user =>
    user.id = userId ∧ user.tenantId = tenantId ∧ user.deletedAt = none) .userNotFound
  if user.isActive = isActive then pure ()
  else do
    if isActive = false then
      require (s.users.count (fun user => user.id ≠ userId ∧ s.isAdministrator tenantId user) ≠ 0)
        .lastAdministrator
    modify fun s => s.setUser userId (fun user => { user with isActive := isActive }) fun _ => rfl

end Rbac
end ERP
