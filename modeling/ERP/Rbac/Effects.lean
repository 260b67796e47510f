import ERP.Rbac.Invitations

/-!
# What a call that succeeds has checked and changed
-/

namespace ERP
namespace Rbac

open Lib Tx TenantRolePolicyService

variable {s : RbacStore} {tenantId actorUserId : Id}

theorem rolePermissions_of_get {role : Role} {roleId : Id} (h : s.roles.get roleId = some role) :
    s.rolePermissions roleId = role.permissionCodes := by
  simp only [RbacStore.rolePermissions, h]

theorem mem_permissionsOf {userId : Id} {code : String} :
    code ∈ s.permissionsOf tenantId userId ↔ ∃ user, s.users.get userId = some user ∧
      ∃ row ∈ user.userRoles.toList, row.tenantId = tenantId ∧ row.deletedAt = none ∧
        code ∈ s.rolePermissions row.roleId := by
  cases huser : s.users.get userId with
  | none => simp [RbacStore.permissionsOf, huser]
  | some user => simp [RbacStore.permissionsOf, huser, and_assoc]

theorem isAdministrator_iff {user : User} :
    s.isAdministrator tenantId user = true ↔
      user.tenantId = tenantId ∧ user.deletedAt = none ∧ user.isActive = true ∧
        ∃ row ∈ user.userRoles.toList, row.tenantId = tenantId ∧ row.deletedAt = none ∧
          ∃ code ∈ s.rolePermissions row.roleId, code ∈ [USER_MANAGE, USER_ROLE_MANAGE] := by
  simp [RbacStore.isAdministrator]

theorem assertCanGrantPermissions_post {codes : List String} :
    Post (assertCanGrantPermissions tenantId actorUserId codes) s
      (fun _ s' => s' = s ∧ ∀ code ∈ codes, code ∈ s.permissionsOf tenantId actorUserId)
      fun _ => True := by
  simp only [assertCanGrantPermissions, post_bind, post_get, post_require]
  refine ⟨fun h => ⟨trivial, fun code hcode => ?_⟩, fun _ => trivial⟩
  simpa using List.all_eq_true.mp h code hcode

theorem assertCanAssignRoles_post {roleIds : List Id} :
    Post (assertCanAssignRoles tenantId actorUserId roleIds) s
      (fun _ s' => s' = s ∧ ∀ roleId ∈ roleIds, ∀ code ∈ s.rolePermissions roleId,
        code ∈ s.permissionsOf tenantId actorUserId)
      fun _ => True := by
  simp only [assertCanAssignRoles, post_bind, post_get, post_require]
  refine ⟨fun hlen => ?_, fun _ => trivial⟩
  refine assertCanGrantPermissions_post.mono (fun _ s' h => ⟨h.1, ?_⟩) fun _ _ => trivial
  intro roleId hroleId code hcode
  obtain ⟨role, hrole, hp, hid⟩ := Rows.exists_of_length (t := s.roles)
    (p := fun role => decide (role.id ∈ roleIds ∧ role.tenantId = tenantId))
      (fun role h => (of_decide_eq_true h).1) hlen hroleId
  have hget : s.roles.get roleId = some role := by
    rw [← hid]
    exact Rows.get_of_mem hrole
  rw [rolePermissions_of_get hget] at hcode
  refine h.2 code (List.mem_eraseDups.mpr (List.mem_flatMap.mpr ⟨role, ?_, hcode⟩))
  exact List.mem_filter.mpr ⟨hrole, hp⟩

theorem validatePermissionCodes_post {codes : List String} :
    Post (validatePermissionCodes codes) s
      (fun uniqueCodes s' => s' = s ∧ (∀ code, code ∈ uniqueCodes ↔ code ∈ codes) ∧
        ∀ code ∈ codes, code ∈ s.permissions)
      fun _ => True := by
  simp only [validatePermissionCodes, post_bind, post_get, post_require]
  refine ⟨fun _ => ?_, fun _ => trivial⟩
  cases hfind : codes.eraseDups.find? fun code => code ∉ s.permissions with
  | some code => exact trivial
  | none =>
      refine ⟨rfl, fun code => List.mem_eraseDups, fun code hcode => ?_⟩
      have hknown := List.find?_eq_none.mp hfind code (List.mem_eraseDups.mpr hcode)
      simpa using hknown

/-- The role is found by id, whatever else the query asks for. -/
theorem get_of_findFirst {role : Role} {roleId : Id}
    (h : (s.roles.findFirst fun role => role.id = roleId ∧ role.tenantId = tenantId) = some role) :
    s.roles.get roleId = some role := by
  have hsat := Rows.sat_of_findFirst h
  rw [← (of_decide_eq_true hsat).1]
  exact Rows.get_of_mem (Rows.mem_of_findFirst h)

/-- The codes of an existing role are replaced by known ones that the actor holds. -/
structure Replaced (s : RbacStore) (tenantId actorUserId roleId : Id) (codes : List String)
    (s' : RbacStore) : Prop where
  found : (s.roles.get roleId).isSome
  known : ∀ code ∈ codes, code ∈ s.permissions
  granted : ∀ code ∈ codes, code ∈ s.permissionsOf tenantId actorUserId
  users : s'.users = s.users
  invitations : s'.invitations = s.invitations
  codes_eq : ∀ code, code ∈ s'.rolePermissions roleId ↔ code ∈ codes
  others : ∀ id, id ≠ roleId → s'.rolePermissions id = s.rolePermissions id

theorem replaced {roleId : Id} {codes uniqueCodes : List String} {role : Role}
    (hrole : s.roles.get roleId = some role) (hcodes : ∀ code, code ∈ uniqueCodes ↔ code ∈ codes)
    (hknown : ∀ code ∈ codes, code ∈ s.permissions)
    (hgranted : ∀ code ∈ uniqueCodes, code ∈ s.permissionsOf tenantId actorUserId) :
    Replaced s tenantId actorUserId roleId codes (s.replacePermissions roleId uniqueCodes) where
  found := by
    rw [hrole]
    rfl
  known := hknown
  granted := fun code hcode => hgranted code ((hcodes code).mpr hcode)
  users := rfl
  invitations := rfl
  codes_eq := by
    intro code
    have hget : (s.replacePermissions roleId uniqueCodes).roles.get roleId =
        some { role with permissionCodes := s.permissions.filter (· ∈ uniqueCodes) } := by
      simp [RbacStore.replacePermissions, hrole, Rows.key_of_get hrole]
    rw [rolePermissions_of_get hget, List.mem_filter, decide_eq_true_eq, hcodes]
    exact ⟨fun h => h.2, fun h => ⟨hknown code h, h⟩⟩
  others := by
    intro id hid
    have hget : (s.replacePermissions roleId uniqueCodes).roles.get id = s.roles.get id := by
      cases hr : s.roles.get id with
      | none => simp [RbacStore.replacePermissions, hr]
      | some r =>
          have hne : ¬ r.id = roleId := fun h => hid ((Rows.key_of_get hr).symm.trans h)
          simp [RbacStore.replacePermissions, hr, hne]
    simp only [RbacStore.rolePermissions, hget]

theorem setRolePermissions_post {roleId : Id} {codes : List String} :
    Post (RolePermissionsService.setRolePermissions tenantId actorUserId roleId codes) s
      (fun _ s' => Replaced s tenantId actorUserId roleId codes s') fun _ => True := by
  simp only [RolePermissionsService.setRolePermissions, post_bind, post_get, post_expect,
    post_require]
  refine ⟨fun role hrole => ⟨fun _ => ?_, fun _ => trivial⟩, fun _ => trivial⟩
  refine validatePermissionCodes_post.mono (fun uniqueCodes s₁ h => ?_) fun _ _ => trivial
  obtain ⟨rfl, hcodes, hknown⟩ := h
  refine assertCanGrantPermissions_post.mono (fun _ s₂ h => ?_) fun _ _ => trivial
  obtain ⟨rfl, hgranted⟩ := h
  exact replaced (get_of_findFirst hrole) hcodes hknown hgranted

theorem getEditable_post {roleId : Id} :
    Post (RolesService.getEditable tenantId roleId) s
      (fun role s' => s' = s ∧ s.roles.get roleId = some role) fun _ => True := by
  simp only [RolesService.getEditable, post_bind, post_get, post_expect, post_require, post_pure]
  exact ⟨fun role hrole => ⟨fun _ => ⟨trivial, get_of_findFirst hrole⟩, fun _ => trivial⟩,
    fun _ => trivial⟩

theorem updateRole_post {roleId : Id} {codes : Option (List String)} :
    Post (RolesService.update tenantId actorUserId roleId codes) s
      (fun _ s' => match codes with
        | none => s' = s
        | some codes => Replaced s tenantId actorUserId roleId codes s') fun _ => True := by
  simp only [RolesService.update, post_bind]
  refine getEditable_post.mono (fun role s₁ h => ?_) fun _ _ => trivial
  obtain ⟨rfl, hrole⟩ := h
  cases codes with
  | none => rfl
  | some codes =>
      simp only [post_bind, post_modify]
      refine validatePermissionCodes_post.mono (fun uniqueCodes s₁ h => ?_) fun _ _ => trivial
      obtain ⟨rfl, hcodes, hknown⟩ := h
      refine assertCanGrantPermissions_post.mono (fun _ s₂ h => ?_) fun _ _ => trivial
      obtain ⟨rfl, hgranted⟩ := h
      exact replaced hrole hcodes hknown hgranted

/-- A new role with codes that the actor holds. -/
structure RoleAdded (s : RbacStore) (tenantId actorUserId id : Id) (s' : RbacStore) : Prop where
  fresh : s.roles.get id = none
  users : s'.users = s.users
  invitations : s'.invitations = s.invitations
  granted : ∀ code ∈ s'.rolePermissions id, code ∈ s.permissionsOf tenantId actorUserId
  others : ∀ roleId, roleId ≠ id → s'.rolePermissions roleId = s.rolePermissions roleId

theorem createRole_post {id : Id} {codes : Option (List String)} :
    Post (RolesService.create tenantId actorUserId id codes) s
      (fun _ s' => RoleAdded s tenantId actorUserId id s') fun _ => True := by
  simp only [RolesService.create, post_bind]
  refine validatePermissionCodes_post.mono (fun uniqueCodes s₁ h => ?_) fun _ _ => trivial
  obtain ⟨rfl, -, -⟩ := h
  refine assertCanGrantPermissions_post.mono (fun _ s₂ h => ?_) fun _ _ => trivial
  obtain ⟨rfl, hgranted⟩ := h
  simp only [post_get, post_require, post_set]
  refine ⟨fun hfresh => ?_, fun _ => trivial⟩
  have hget (roleId : Id) : (s₂.roles.insert ⟨id, tenantId, false, uniqueCodes⟩).get roleId =
      if id = roleId then some ⟨id, tenantId, false, uniqueCodes⟩ else s₂.roles.get roleId :=
    Rows.get_insert_of_none hfresh roleId
  refine ⟨hfresh, rfl, rfl, fun code hcode => ?_, fun roleId hne => ?_⟩
  · have hnew := hget id
    rw [if_pos rfl] at hnew
    rw [rolePermissions_of_get hnew] at hcode
    exact hgranted code hcode
  · simp only [RbacStore.rolePermissions, hget, if_neg (Ne.symm hne)]

/-- A role that no user holds any more is deleted with all that names it. -/
theorem removeRole_post {roleId : Id} {now : Int} :
    Post (RolesService.remove tenantId roleId now) s
      (fun _ s' => RolesService.referenced s now roleId = false ∧
        s' = RolesService.deleteRole s roleId) fun _ => True := by
  simp only [RolesService.remove, post_bind]
  refine getEditable_post.mono (fun role s₁ h => ?_) fun _ _ => trivial
  obtain ⟨rfl, -⟩ := h
  simp only [post_get, post_require, post_set]
  exact ⟨fun h => ⟨h, trivial⟩, fun _ => trivial⟩

/-- The rows that are live in the tenant are of roles that `allowed` names. -/
def LiveIn (tenantId : Id) (rows : Rows UserRole UserRole.roleId) (allowed : List Id) : Prop :=
  ∀ row ∈ rows.toList, row.tenantId = tenantId → row.deletedAt = none → row.roleId ∈ allowed

theorem liveIn_retainRoles {allowed : List Id} {now : Int} (rows : Rows UserRole UserRole.roleId) :
    LiveIn tenantId (UserRolesService.retainRoles tenantId allowed now rows) allowed := by
  intro row hrow htenant hlive
  obtain ⟨old, -, hold⟩ := Rows.mem_updateMany.mp hrow
  by_cases hp : old.tenantId = tenantId ∧ old.deletedAt = none ∧ old.roleId ∉ allowed
  · rw [if_pos (decide_eq_true hp)] at hold
    rw [← hold] at hlive
    cases hlive
  · rw [if_neg (by simpa using hp)] at hold
    rw [hold] at hp
    by_contra hnot
    exact hp ⟨htenant, hlive, hnot⟩

theorem LiveIn.assignRole {rows rows' : Rows UserRole UserRole.roleId} {allowed : List Id}
    (h : LiveIn tenantId rows allowed) {roleId : Id} (hroleId : roleId ∈ allowed)
    (hassign : UserRolesService.assignRole tenantId rows roleId = .ok rows') :
    LiveIn tenantId rows' allowed := by
  simp only [UserRolesService.assignRole] at hassign
  cases hget : rows.get roleId with
  | some existing =>
      rw [hget] at hassign
      by_cases htenant : existing.tenantId ≠ tenantId
      · simp only [if_pos htenant] at hassign
        cases hassign
      · simp only [if_neg htenant] at hassign
        cases hassign
        intro row hrow htenant hlive
        obtain ⟨old, hmem, hold⟩ := Rows.mem_updateMany.mp hrow
        by_cases hid : old.roleId = roleId
        · rw [if_pos (decide_eq_true hid)] at hold
          rw [← hold]
          show old.roleId ∈ allowed
          rw [hid]
          exact hroleId
        · rw [if_neg (by simpa using hid)] at hold
          rw [hold] at hmem
          exact h row hmem htenant hlive
  | none =>
      rw [hget] at hassign
      cases hassign
      intro row hrow htenant hlive
      obtain hold | hnew := Rows.mem_insert hrow
      · exact h row hold htenant hlive
      · rw [hnew]
        exact hroleId

theorem LiveIn.assignRoles {allowed : List Id} (roleIds : List Id) :
    ∀ {rows rows' : Rows UserRole UserRole.roleId}, LiveIn tenantId rows allowed →
      (∀ roleId ∈ roleIds, roleId ∈ allowed) →
      roleIds.foldlM (UserRolesService.assignRole tenantId) rows = .ok rows' →
      LiveIn tenantId rows' allowed := by
  induction roleIds with
  | nil =>
      intro rows rows' h _ hrun
      cases hrun
      exact h
  | cons roleId rest ih =>
      intro rows rows' h hmem hrun
      rw [List.foldlM_cons] at hrun
      cases hassign : UserRolesService.assignRole tenantId rows roleId with
      | error e =>
          rw [hassign] at hrun
          cases hrun
      | ok rows₁ =>
          rw [hassign] at hrun
          exact ih (h.assignRole (hmem roleId List.mem_cons_self) hassign)
            (fun id hid => hmem id (List.mem_cons_of_mem _ hid)) hrun

def HasAdministrator (s : RbacStore) (tenantId : Id) : Prop :=
  ∃ user ∈ s.users.toList, s.isAdministrator tenantId user = true

theorem hasAdministrator_of_count (h : s.users.count (s.isAdministrator tenantId) ≠ 0) :
    HasAdministrator s tenantId :=
  List.countP_pos_iff.mp (Nat.pos_of_ne_zero h)

theorem user_of_findFirst {user : User} {userId : Id}
    (h : (s.users.findFirst fun user =>
      user.id = userId ∧ user.tenantId = tenantId ∧ user.deletedAt = none) = some user) :
    s.users.get userId = some user ∧ user.tenantId = tenantId := by
  have hsat := Rows.sat_of_findFirst h
  obtain ⟨hid, htenant, -⟩ := of_decide_eq_true hsat
  refine ⟨?_, htenant⟩
  rw [← hid]
  exact Rows.get_of_mem (Rows.mem_of_findFirst h)

/-- The roles of a user of the tenant are replaced by roles whose codes the actor holds. -/
structure RolesSet (s : RbacStore) (tenantId actorUserId userId : Id) (s' : RbacStore) : Prop where
  roles : s'.roles = s.roles
  invitations : s'.invitations = s.invitations
  user : ∃ user rows, s.users.get userId = some user ∧ user.tenantId = tenantId ∧
    s'.users = s.users.updateMany (fun user => user.id = userId)
      (fun user => { user with userRoles := rows }) (fun _ => rfl) ∧
    ∀ row ∈ rows.toList, row.tenantId = tenantId → row.deletedAt = none →
      ∀ code ∈ s.rolePermissions row.roleId, code ∈ s.permissionsOf tenantId actorUserId
  administrator : HasAdministrator s' tenantId

theorem setUserRoles_post {userId : Id} {roleIds : List Id} {now : Int} :
    Post (UserRolesService.setUserRoles tenantId actorUserId userId roleIds now) s
      (fun _ s' => RolesSet s tenantId actorUserId userId s') fun _ => True := by
  simp only [UserRolesService.setUserRoles, post_bind, post_get, post_expect, post_require]
  refine ⟨fun _ => ⟨fun user huser => ?_, fun _ => trivial⟩, fun _ => trivial⟩
  obtain ⟨hget, htenant⟩ := user_of_findFirst huser
  refine assertCanAssignRoles_post.mono (fun _ s₁ h => ?_) fun _ _ => trivial
  obtain ⟨rfl, hgranted⟩ := h
  refine post_liftM.mpr ⟨fun rows hrows => ?_, fun _ _ => trivial⟩
  simp only [post_modify]
  refine ⟨fun hcount => ⟨rfl, rfl, ⟨user, rows, hget, htenant, rfl, ?_⟩,
    hasAdministrator_of_count hcount⟩, fun _ => trivial⟩
  have hlive := LiveIn.assignRoles _ (liveIn_retainRoles user.userRoles) (fun _ h => h) hrows
  exact fun row hrow ht hl => hgranted row.roleId (hlive row hrow ht hl)

/-- The status of a user of the tenant changes; who is deactivated leaves another
administrator. -/
structure StatusSet (s : RbacStore) (tenantId userId : Id) (isActive : Bool) (s' : RbacStore) :
    Prop where
  roles : s'.roles = s.roles
  invitations : s'.invitations = s.invitations
  users : s'.users = s.users.updateMany (fun user => user.id = userId)
    (fun user => { user with isActive := isActive }) fun _ => rfl
  tenant : ∃ user, s.users.get userId = some user ∧ user.tenantId = tenantId
  another : isActive = false →
    ∃ user ∈ s.users.toList, user.id ≠ userId ∧ s.isAdministrator tenantId user = true

theorem setStatus_post {userId : Id} {isActive : Bool} :
    Post (UsersService.setStatus tenantId actorUserId userId isActive) s
      (fun _ s' => s' = s ∨ StatusSet s tenantId userId isActive s') fun _ => True := by
  simp only [UsersService.setStatus, post_bind, post_get, post_expect, post_require, post_ite,
    post_modify, post_pure]
  refine ⟨fun _ => ⟨fun user huser => ⟨fun _ => .inl trivial, fun _ => ⟨fun hoff => ?_, ?_⟩⟩,
    fun _ => trivial⟩, fun _ => trivial⟩
  · refine ⟨fun hcount => .inr ⟨rfl, rfl, rfl, ⟨user, user_of_findFirst huser⟩, fun _ => ?_⟩,
      fun _ => trivial⟩
    obtain ⟨other, hmem, hother⟩ := List.countP_pos_iff.mp (Nat.pos_of_ne_zero hcount)
    exact ⟨other, hmem, of_decide_eq_true hother⟩
  · intro hon
    exact .inr ⟨rfl, rfl, rfl, ⟨user, user_of_findFirst huser⟩, fun hoff => absurd hoff hon⟩

/-- Every invitation has no other roles than one of the same id had. -/
def NoMoreRoles (old new : Rows UserInvitation UserInvitation.id) : Prop :=
  ∀ row ∈ new.toList, ∃ row' ∈ old.toList, row'.id = row.id ∧ row.roleIds ⊆ row'.roleIds

theorem noMoreRoles_updateMany (rows : Rows UserInvitation UserInvitation.id)
    (p : UserInvitation → Bool) {f : UserInvitation → UserInvitation}
    (hf : ∀ row, (f row).id = row.id) (hroles : ∀ row, (f row).roleIds ⊆ row.roleIds) :
    NoMoreRoles rows (rows.updateMany p f hf) := by
  intro row hrow
  obtain ⟨old, hold, rfl⟩ := Rows.mem_updateMany.mp hrow
  refine ⟨old, hold, ?_⟩
  by_cases hp : p old = true
  · rw [if_pos hp]
    exact ⟨(hf old).symm, hroles old⟩
  · rw [if_neg hp]
    exact ⟨rfl, List.Subset.refl _⟩

theorem noMoreRoles_revoke (rows : Rows UserInvitation UserInvitation.id)
    (p : UserInvitation → Bool) (now : Int) :
    NoMoreRoles rows (rows.updateMany p (fun row => { row with revokedAt := some now })
      fun _ => rfl) :=
  noMoreRoles_updateMany rows p _ fun _ => List.Subset.refl _

/-- A new invitation to roles whose codes the actor holds. -/
structure Invited (s : RbacStore) (tenantId actorUserId id : Id) (s' : RbacStore) : Prop where
  users : s'.users = s.users
  roles : s'.roles = s.roles
  fresh : s.invitations.get id = none
  invitations : ∀ row ∈ s'.invitations.toList,
    (∃ old ∈ s.invitations.toList, old.id = row.id ∧ row.roleIds ⊆ old.roleIds) ∨
      row.id = id ∧ ∀ roleId ∈ row.roleIds, ∀ code ∈ s.rolePermissions roleId,
        code ∈ s.permissionsOf tenantId actorUserId

variable {rt : InvitationRuntime}

theorem invited {invitation : UserInvitation} {id : Id} {now : Int} (hid : invitation.id = id)
    (hfresh : s.invitations.get id = none)
    (hgranted : ∀ roleId ∈ invitation.roleIds, ∀ code ∈ s.rolePermissions roleId,
      code ∈ s.permissionsOf tenantId actorUserId) :
    Invited s tenantId actorUserId id
      (UsersInvitationsService.replaceInvitation rt s invitation now) where
  users := rfl
  roles := rfl
  fresh := hfresh
  invitations := by
    intro row hrow
    have hget := Rows.get_of_mem hrow
    simp only [UsersInvitationsService.replaceInvitation] at hget
    rw [Rows.get_insert_of_none (by rw [Rows.get_updateMany, hid, hfresh]; rfl)] at hget
    by_cases hnew : invitation.id = row.id
    · rw [if_pos hnew] at hget
      cases hget
      exact .inr ⟨hid, hgranted⟩
    · rw [if_neg hnew] at hget
      exact .inl (noMoreRoles_revoke s.invitations _ now row (Rows.mem_of_get hget))

theorem createInvitation_post {input : InvitationInput} {now : Int} :
    Post (UsersInvitationsService.createInvitation rt tenantId actorUserId input now) s
      (fun _ s' => Invited s tenantId actorUserId input.id s') fun _ => True := by
  simp only [UsersInvitationsService.createInvitation, post_bind, post_get, post_require]
  refine ⟨fun _ => ⟨fun _ => ?_, fun _ => trivial⟩, fun _ => trivial⟩
  refine assertCanAssignRoles_post.mono (fun _ s₁ h => ?_) fun _ _ => trivial
  obtain ⟨rfl, hgranted⟩ := h
  rw [post_ite]
  constructor
  · intro _
    simp only [post_bind, post_require, post_set]
    refine assertCanGrantPermissions_post.mono (fun _ s₂ h => ?_) fun _ _ => trivial
    obtain ⟨rfl, -⟩ := h
    exact ⟨fun _ => ⟨fun h => invited rfl h.1 hgranted, fun _ => trivial⟩, fun _ => trivial⟩
  · intro _
    simp only [post_bind, post_require, post_set]
    exact ⟨fun h => invited rfl h.1 hgranted, fun _ => trivial⟩

theorem createInvitation_cases (rt : InvitationRuntime) (s : RbacStore) (tenantId actorUserId : Id)
    (input : InvitationInput) (sent : Bool) (now : Int) :
    (∃ e, (UsersInvitationsService.create rt tenantId actorUserId input sent now s).1 = .error e) ∧
        (UsersInvitationsService.create rt tenantId actorUserId input sent now s).2 = s ∨
      Invited s tenantId actorUserId input.id
        (UsersInvitationsService.create rt tenantId actorUserId input sent now s).2 := by
  have hpost : Post (UsersInvitationsService.createInvitation rt tenantId actorUserId input now) s
      (fun _ s' => Invited s tenantId actorUserId input.id s') fun _ => True :=
    createInvitation_post
  simp only [UsersInvitationsService.create]
  cases hrun : UsersInvitationsService.createInvitation rt tenantId actorUserId input now s with
  | error e => exact .inl ⟨⟨e, rfl⟩, rfl⟩
  | ok p =>
      have hinvited := hpost.of_ok hrun
      cases sent with
      | true => exact .inr hinvited
      | false =>
          refine .inr ⟨hinvited.users, hinvited.roles, hinvited.fresh, fun row hrow => ?_⟩
          obtain ⟨old, hold, hid, hroles⟩ := noMoreRoles_revoke p.2.invitations _ now row hrow
          obtain ⟨older, holder, hid', hroles'⟩ | ⟨hid', hgranted⟩ := hinvited.invitations old hold
          · exact .inl ⟨older, holder, hid'.trans hid, List.Subset.trans hroles hroles'⟩
          · exact .inr ⟨hid.symm.trans hid', fun roleId hroleId => hgranted roleId (hroles hroleId)⟩

theorem revoke_post {invitationId : Id} {now : Int} :
    Post (UsersInvitationsService.revoke tenantId invitationId now) s
      (fun _ s' => s'.users = s.users ∧ s'.roles = s.roles ∧
        NoMoreRoles s.invitations s'.invitations) fun _ => True := by
  simp only [UsersInvitationsService.revoke, post_bind, post_get, post_require, post_set]
  exact ⟨fun _ => ⟨rfl, rfl, noMoreRoles_revoke s.invitations _ now⟩, fun _ => trivial⟩

/-- A new user with the roles of an invitation. -/
structure Accepted (s : RbacStore) (userId : Id) (invitation : UserInvitation) (s' : RbacStore) :
    Prop where
  found : invitation ∈ s.invitations.toList
  fresh : s.users.get userId = none
  roles : s'.roles = s.roles
  invitations : NoMoreRoles s.invitations s'.invitations
  user : ∃ user, user.id = userId ∧ s'.users = s.users.insert user ∧
    ∀ row ∈ user.userRoles.toList, row.roleId ∈ invitation.roleIds

theorem mem_invitedRoles {invitation : UserInvitation} {row : UserRole}
    (h : row ∈ (UsersInvitationsService.invitedRoles invitation).toList) :
    row.roleId ∈ invitation.roleIds := by
  have hfold (roleIds : List Id) : ∀ rows : Rows UserRole UserRole.roleId,
      (∀ row ∈ rows.toList, row.roleId ∈ invitation.roleIds) →
      (∀ roleId ∈ roleIds, roleId ∈ invitation.roleIds) →
      ∀ row ∈ (roleIds.foldl (fun rows roleId =>
        rows.insert ⟨roleId, invitation.tenantId, none⟩) rows).toList,
        row.roleId ∈ invitation.roleIds := by
    induction roleIds with
    | nil => exact fun rows hrows _ => hrows
    | cons roleId rest ih =>
        intro rows hrows hmem
        refine ih _ (fun row hrow => ?_) fun id hid => hmem id (List.mem_cons_of_mem _ hid)
        obtain hold | hnew := Rows.mem_insert hrow
        · exact hrows row hold
        · rw [hnew]
          exact hmem roleId List.mem_cons_self
  exact hfold _ _ (fun row hrow => absurd hrow List.not_mem_nil) (fun _ h => h) row h

theorem accept_post {token password : String} {userId : Id} {now : Int} :
    Post (UsersInvitationsService.accept rt token password userId now) s
      (fun _ s' => ∃ invitation, UsersInvitationsService.findByToken rt s token = some invitation ∧
        Accepted s userId invitation s') fun _ => True := by
  simp only [UsersInvitationsService.accept, post_bind, post_get, post_expect, post_require,
    post_set]
  refine ⟨fun _ => ⟨fun invitation hfound => ⟨fun _ => ⟨fun _ => ⟨fun hfresh => ?_,
    fun _ => trivial⟩, fun _ => trivial⟩, fun _ => trivial⟩, fun _ => trivial⟩, fun _ => trivial⟩
  exact ⟨invitation, hfound, Rows.mem_of_findFirst hfound, Option.isNone_iff_eq_none.mp hfresh, rfl,
    noMoreRoles_updateMany s.invitations _
      (f := fun row => { row with acceptedAt := some now }) (fun _ => rfl)
      fun _ => List.Subset.refl _, _, rfl, rfl, fun row hrow => mem_invitedRoles hrow⟩

/-- A transaction succeeds and leaves what it has written, or fails and changes nothing. -/
theorem conclude_cases {m : RbacTx Unit} {Q : RbacStore → Prop}
    (h : Post m s (fun _ => Q) fun _ => True) :
    (conclude m s).1 = .ok () ∧ Q (conclude m s).2 ∨
      (∃ e, (conclude m s).1 = .error e) ∧ (conclude m s).2 = s := by
  unfold conclude
  cases hm : m s with
  | ok p => exact .inl ⟨rfl, h.of_ok hm⟩
  | error e => exact .inr ⟨⟨e, rfl⟩, rfl⟩

end Rbac
end ERP
