import ERP.Rbac.Roles

/-!
# Invitations, and the calls one after another

`UsersInvitationsService`, and a run of calls of the services of roles, users and
invitations.  Each call is one transaction behind reads that nothing changes meanwhile,
except that `create` revokes the invitation it has committed when the email is not sent.
-/

namespace ERP
namespace Rbac

open Lib Tx TenantRolePolicyService

def INVITATION_LIFETIME_MS : Int := 7 * 24 * 60 * 60 * 1000

/-- `crypto`'s digest, and the string functions the emails go through. -/
structure InvitationRuntime where
  sha256 : String → String
  trim : String → String
  toLowerCase : String → String

/-- The input of `create`, with the id and the token that are generated. -/
structure InvitationInput where
  id : Id
  token : String
  email : String
  roleIds : List Id
  outletIds : List Id
  deriving DecidableEq, Repr

namespace UsersInvitationsService

/-- `equals` with `mode: 'insensitive'`. -/
def sameEmail (rt : InvitationRuntime) (a b : String) : Bool := rt.toLowerCase a = rt.toLowerCase b

/-- The pending invitations of the email are revoked and the new one is inserted. -/
def replaceInvitation (rt : InvitationRuntime) (s : RbacStore) (invitation : UserInvitation)
    (now : Int) : RbacStore where
  users := s.users
  roles := s.roles
  permissions := s.permissions
  outlets := s.outlets
  invitations :=
    (s.invitations.updateMany
      (fun row => row.tenantId = invitation.tenantId ∧ sameEmail rt row.email invitation.email ∧
        row.revokedAt = none ∧ row.acceptedAt = none)
      (fun row => { row with revokedAt := some now }) fun _ => rfl).insert invitation

/-- What `create` commits before the email is sent. -/
def createInvitation (rt : InvitationRuntime) (tenantId invitedByUserId : Id)
    (input : InvitationInput) (now : Int) : RbacTx Unit := do
  let email := rt.toLowerCase (rt.trim input.email)
  let roleIds := input.roleIds.eraseDups
  let outletIds := input.outletIds.eraseDups
  let s ← get
  require (s.users.findFirst (fun user => sameEmail rt user.email email) |>.isNone) .accountExists
  let roles := s.roles.toList.filter fun role => role.id ∈ roleIds ∧ role.tenantId = tenantId
  require (roles.length = roleIds.length) .rolesNotFound
  assertCanAssignRoles tenantId invitedByUserId roleIds
  if outletIds ≠ [] then do
    assertCanGrantPermissions tenantId invitedByUserId [USER_OUTLET_MANAGE]
    let outlets := s.outlets.toList.filter fun outlet =>
      outlet.id ∈ outletIds ∧ outlet.tenantId = tenantId ∧ outlet.deletedAt = none
    require (outlets.length = outletIds.length) .outletsNotFound
  let tokenHash := rt.sha256 input.token
  require (s.invitations.get input.id = none ∧
    s.invitations.toList.all fun row => row.tokenHash ≠ tokenHash) .uniqueViolation
  set (replaceInvitation rt s
    ⟨input.id, email, tenantId, invitedByUserId, tokenHash,
      now + INVITATION_LIFETIME_MS, none, none,
      roleIds, outletIds⟩ now)

/-- The condition of the updates that revoke an invitation. -/
def isOpen (id : Id) (row : UserInvitation) : Bool :=
  row.id = id ∧ row.acceptedAt = none ∧ row.revokedAt = none

def revokeOpen (s : RbacStore) (p : UserInvitation → Bool) (now : Int) : RbacStore where
  users := s.users
  roles := s.roles
  permissions := s.permissions
  outlets := s.outlets
  invitations :=
    s.invitations.updateMany p (fun row => { row with revokedAt := some now }) fun _ => rfl

/-- `create`; `sent` tells whether the email could be delivered. -/
def create (rt : InvitationRuntime) (tenantId invitedByUserId : Id) (input : InvitationInput)
    (sent : Bool) (now : Int) (s : RbacStore) : Except RbacFailure Unit × RbacStore :=
  match createInvitation rt tenantId invitedByUserId input now s with
  | .error e => (.error e, s)
  | .ok (_, s') =>
      if sent then (.ok (), s')
      else
        (.error (if s'.invitations.count (isOpen input.id) = 1 then .deliveryFailed
          else .deliveryFailedNotRevoked), revokeOpen s' (isOpen input.id) now)

def revoke (tenantId invitationId : Id) (now : Int) : RbacTx Unit := do
  let s ← get
  let p (row : UserInvitation) : Bool := row.tenantId = tenantId ∧ isOpen invitationId row
  require (s.invitations.count p = 1) .invitationNotFound
  set (revokeOpen s p now)

/-- `findUnique` by the hash of the token. -/
def findByToken (rt : InvitationRuntime) (s : RbacStore) (token : String) : Option UserInvitation :=
  s.invitations.findFirst fun row => row.tokenHash = rt.sha256 token

/-- The `UserRole` rows of a new user. -/
def invitedRoles (invitation : UserInvitation) : Rows UserRole UserRole.roleId :=
  invitation.roleIds.foldl (fun rows roleId => rows.insert ⟨roleId, invitation.tenantId, none⟩)
    Rows.empty

/-- `accept`, with the id that the new user gets. -/
def accept (rt : InvitationRuntime) (token password : String) (userId : Id) (now : Int) :
    RbacTx Unit := do
  require (password.utf8ByteSize ≤ 72) .passwordTooLong
  let s ← get
  let invitation ← expect (findByToken rt s token) .invitationInvalid
  require (RolesService.isPending now invitation) .invitationInvalid
  require (s.users.findFirst (fun user => sameEmail rt user.email invitation.email) |>.isNone)
    .accountExists
  require (s.users.get userId |>.isNone) .accountExists
  let claimed := s.invitations.updateMany (·.id = invitation.id)
    (fun row => { row with acceptedAt := some now }) fun _ => rfl
  let user : User :=
    ⟨userId, invitation.email, invitation.tenantId, true, none, invitedRoles invitation⟩
  set { s with invitations := claimed, users := s.users.insert user }

end UsersInvitationsService

inductive RbacRequest where
  | createRole (id : Id) (permissionCodes : Option (List String))
  | updateRole (roleId : Id) (permissionCodes : Option (List String))
  | removeRole (roleId : Id)
  | setRolePermissions (roleId : Id) (permissionCodes : List String)
  | setUserRoles (userId : Id) (roleIds : List Id)
  | setStatus (userId : Id) (isActive : Bool)
  | createInvitation (input : InvitationInput) (sent : Bool)
  | revokeInvitation (invitationId : Id)
  | acceptInvitation (token password : String) (userId : Id)
  deriving DecidableEq, Repr

/-- A request, the tenant and the user it is made for, and when. -/
structure RbacCall where
  tenantId : Id
  actorUserId : Id
  now : Int
  request : RbacRequest
  deriving DecidableEq, Repr

/-- The result of a transaction, and the store it leaves. -/
def conclude (m : RbacTx Unit) (s : RbacStore) : Except RbacFailure Unit × RbacStore :=
  match m s with
  | .ok (_, s') => (.ok (), s')
  | .error e => (.error e, s)

def RbacCall.perform (rt : InvitationRuntime) (call : RbacCall) (s : RbacStore) :
    Except RbacFailure Unit × RbacStore :=
  match call.request with
  | .createRole id codes => conclude (RolesService.create call.tenantId call.actorUserId id codes) s
  | .updateRole roleId codes =>
      conclude (RolesService.update call.tenantId call.actorUserId roleId codes) s
  | .removeRole roleId => conclude (RolesService.remove call.tenantId roleId call.now) s
  | .setRolePermissions roleId codes =>
      conclude (RolePermissionsService.setRolePermissions call.tenantId call.actorUserId
        roleId codes) s
  | .setUserRoles userId roleIds =>
      conclude
        (UserRolesService.setUserRoles call.tenantId call.actorUserId userId roleIds call.now) s
  | .setStatus userId isActive =>
      conclude (UsersService.setStatus call.tenantId call.actorUserId userId isActive) s
  | .createInvitation input sent =>
      UsersInvitationsService.create rt call.tenantId call.actorUserId input sent call.now s
  | .revokeInvitation invitationId =>
      conclude (UsersInvitationsService.revoke call.tenantId invitationId call.now) s
  | .acceptInvitation token password userId =>
      conclude (UsersInvitationsService.accept rt token password userId call.now) s

end Rbac
end ERP
