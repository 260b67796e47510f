import ERP.Rbac.Effects

/-!
# The last administrator of a tenant

`setUserRoles` and `setStatus` leave an administrator, and a role that is assigned is not
removed.  Replacing the codes of a role asks for nothing: it leaves an administrator if
and only if one is left through another role, or the codes have one that administers.
-/

namespace ERP
namespace Rbac

open Lib Tx

/-- One call after the other; a call that is rejected changes nothing, or what it says. -/
def runCalls (rt : InvitationRuntime) (s : RbacStore) (calls : List RbacCall) : RbacStore :=
  calls.foldl (fun s call => (call.perform rt s).2) s

/-- An administrator of the tenant through another role. -/
def AdministersWithout (s : RbacStore) (tenantId roleId : Id) (user : User) : Prop :=
  user.tenantId = tenantId ∧ user.deletedAt = none ∧ user.isActive = true ∧
    ∃ row ∈ user.userRoles.toList, row.roleId ≠ roleId ∧ row.tenantId = tenantId ∧
      row.deletedAt = none ∧
      ∃ code ∈ s.rolePermissions row.roleId, code ∈ [USER_MANAGE, USER_ROLE_MANAGE]

/-- The role whose codes the request replaces, and by which. -/
def RbacRequest.replaces : RbacRequest → Option (Id × List String)
  | .setRolePermissions roleId codes => some (roleId, codes)
  | .updateRole roleId codes => codes.map fun codes => (roleId, codes)
  | _ => none

/-- A call that is accepted and leaves a role without an administering code leaves an
administrator through another role. -/
def LeavesAnother (rt : InvitationRuntime) (tenantId : Id) (s : RbacStore) (call : RbacCall) :
    Prop :=
  ∀ roleId codes, call.request.replaces = some (roleId, codes) →
    (call.perform rt s).1 = .ok () →
    (∀ code ∈ codes, code ∉ [USER_MANAGE, USER_ROLE_MANAGE]) →
    ∃ user ∈ s.users.toList, AdministersWithout s tenantId roleId user

variable {rt : InvitationRuntime} {s s' : RbacStore} {tenantId : Id}

theorem Replaced.hasAdministrator_iff {callTenant actorUserId roleId : Id} {codes : List String}
    (h : Replaced s callTenant actorUserId roleId codes s') (hs : HasAdministrator s tenantId) :
    HasAdministrator s' tenantId ↔
      ((∀ code ∈ codes, code ∉ [USER_MANAGE, USER_ROLE_MANAGE]) →
        ∃ user ∈ s.users.toList, AdministersWithout s tenantId roleId user) := by
  constructor
  · intro hs' hnone
    obtain ⟨user, hmem, hadmin⟩ := hs'
    obtain ⟨ht, hd, ha, row, hrow, hrt, hrd, code, hcode, hcodes⟩ := isAdministrator_iff.mp hadmin
    rw [h.users] at hmem
    have hne : row.roleId ≠ roleId := by
      intro hid
      rw [hid, h.codes_eq] at hcode
      exact hnone code hcode hcodes
    rw [h.others _ hne] at hcode
    exact ⟨user, hmem, ht, hd, ha, row, hrow, hne, hrt, hrd, code, hcode, hcodes⟩
  · intro hleaves
    by_cases hnone : ∀ code ∈ codes, code ∉ [USER_MANAGE, USER_ROLE_MANAGE]
    · obtain ⟨user, hmem, ht, hd, ha, row, hrow, hne, hrt, hrd, code, hcode, hcodes⟩ :=
        hleaves hnone
      rw [← h.others _ hne] at hcode
      refine ⟨user, ?_, isAdministrator_iff.mpr
        ⟨ht, hd, ha, row, hrow, hrt, hrd, code, hcode, hcodes⟩⟩
      rw [h.users]
      exact hmem
    · push Not at hnone
      obtain ⟨code, hcode, hcodes⟩ := hnone
      obtain ⟨user, hmem, hadmin⟩ := hs
      obtain ⟨ht, hd, ha, row, hrow, hrt, hrd, old, hold, holds⟩ := isAdministrator_iff.mp hadmin
      refine ⟨user, ?_, isAdministrator_iff.mpr ⟨ht, hd, ha, row, hrow, hrt, hrd, ?_⟩⟩
      · rw [h.users]
        exact hmem
      · by_cases hid : row.roleId = roleId
        · rw [hid]
          exact ⟨code, (h.codes_eq code).mpr hcode, hcodes⟩
        · rw [h.others _ hid]
          exact ⟨old, hold, holds⟩

/-- An administrator stays one where he is kept as he is and his roles keep their codes. -/
theorem HasAdministrator.mono (hs : HasAdministrator s tenantId)
    (husers : ∀ user ∈ s.users.toList, s.isAdministrator tenantId user = true →
      user ∈ s'.users.toList)
    (hcodes : ∀ roleId code, code ∈ s.rolePermissions roleId → code ∈ s'.rolePermissions roleId) :
    HasAdministrator s' tenantId := by
  obtain ⟨user, hmem, hadmin⟩ := hs
  obtain ⟨ht, hd, ha, row, hrow, hrt, hrd, code, hcode, hadminister⟩ :=
    isAdministrator_iff.mp hadmin
  exact ⟨user, husers user hmem hadmin, isAdministrator_iff.mpr
    ⟨ht, hd, ha, row, hrow, hrt, hrd, code, hcodes _ code hcode, hadminister⟩⟩

theorem rolePermissions_congr (h : s'.roles = s.roles) (roleId : Id) :
    s'.rolePermissions roleId = s.rolePermissions roleId := by
  simp only [RbacStore.rolePermissions, h]

theorem isAdministrator_congr (h : s'.roles = s.roles) (user : User) :
    s'.isAdministrator tenantId user = s.isAdministrator tenantId user := by
  simp only [RbacStore.isAdministrator, rolePermissions_congr h]

theorem HasAdministrator.addRole {callTenant actorUserId id : Id} (hs : HasAdministrator s tenantId)
    (h : RoleAdded s callTenant actorUserId id s') : HasAdministrator s' tenantId := by
  refine hs.mono (fun user hmem _ => ?_) fun roleId code hcode => ?_
  · rw [h.users]
    exact hmem
  · by_cases hid : roleId = id
    · rw [hid] at hcode
      simp only [RbacStore.rolePermissions, h.fresh] at hcode
      cases hcode
    · rw [h.others _ hid]
      exact hcode

theorem HasAdministrator.removeRole {roleId : Id} {now : Int} (hs : HasAdministrator s tenantId)
    (h : RolesService.referenced s now roleId = false) :
    HasAdministrator (RolesService.deleteRole s roleId) tenantId := by
  obtain ⟨user, hmem, hadmin⟩ := hs
  obtain ⟨ht, hd, ha, row, hrow, hrt, hrd, code, hcode, hcodes⟩ := isAdministrator_iff.mp hadmin
  -- the role he administers through is assigned, so it is another one
  have hne : row.roleId ≠ roleId := by
    intro hid
    have hnone := (Bool.or_eq_false_iff.mp h).1
    rw [List.any_eq_false] at hnone
    refine hnone user hmem (List.any_eq_true.mpr ⟨row, hrow, ?_⟩)
    exact decide_eq_true ⟨hid, hrd⟩
  refine ⟨{ user with userRoles := user.userRoles.deleteMany (·.roleId = roleId) }, ?_, ?_⟩
  · simp only [RolesService.deleteRole, Rows.mem_updateMany]
    exact ⟨user, hmem, rfl⟩
  · refine isAdministrator_iff.mpr ⟨ht, hd, ha, row, ?_, hrt, hrd, code, ?_, hcodes⟩
    · exact Rows.mem_deleteMany.mpr ⟨hrow, decide_eq_false hne⟩
    · have hget : (RolesService.deleteRole s roleId).roles.get row.roleId =
          s.roles.get row.roleId := Rows.get_deleteMany_of_ne fun role hp hid =>
        hne (hid.symm.trans (of_decide_eq_true hp))
      simp only [RbacStore.rolePermissions, hget]
      exact hcode

theorem ne_of_tenant {user other : User} {userId callTenant : Id}
    (hget : s.users.get userId = some other) (hother : other.tenantId = callTenant)
    (hmem : user ∈ s.users.toList) (huser : user.tenantId ≠ callTenant) : user.id ≠ userId := by
  rintro rfl
  rw [Rows.get_of_mem hmem] at hget
  cases hget
  exact huser hother

theorem HasAdministrator.setRoles {callTenant actorUserId userId : Id}
    (hs : HasAdministrator s tenantId) (h : RolesSet s callTenant actorUserId userId s') :
    HasAdministrator s' tenantId := by
  by_cases htenant : tenantId = callTenant
  · rw [htenant]
    exact h.administrator
  · obtain ⟨other, rows, hget, hother, husers, -⟩ := h.user
    refine hs.mono (fun user hmem hadmin => ?_) fun roleId code hcode => ?_
    · have hne := ne_of_tenant hget hother hmem
        (by rw [(isAdministrator_iff.mp hadmin).1]; exact htenant)
      rw [husers]
      exact Rows.mem_updateMany_of_not hmem (by simpa using hne)
    · rw [rolePermissions_congr h.roles]
      exact hcode

theorem HasAdministrator.setStatus {callTenant userId : Id} {isActive : Bool}
    (hs : HasAdministrator s tenantId) (h : StatusSet s callTenant userId isActive s') :
    HasAdministrator s' tenantId := by
  have hkept {user : User} (hmem : user ∈ s.users.toList) (hne : user.id ≠ userId)
      (hadmin : s.isAdministrator tenantId user = true) : HasAdministrator s' tenantId := by
    refine ⟨user, ?_, (isAdministrator_congr h.roles user).trans hadmin⟩
    rw [h.users]
    exact Rows.mem_updateMany_of_not hmem (by simpa using hne)
  obtain ⟨user, hmem, hadmin⟩ := hs
  by_cases hid : user.id = userId
  · cases isActive with
    | true =>
        -- activating who is active
        obtain ⟨ht, hd, -, hrows⟩ := isAdministrator_iff.mp hadmin
        refine ⟨{ user with isActive := true }, ?_, ?_⟩
        · rw [h.users, Rows.mem_updateMany]
          exact ⟨user, hmem, if_pos (decide_eq_true hid)⟩
        · rw [isAdministrator_congr h.roles]
          exact isAdministrator_iff.mpr ⟨ht, hd, rfl, hrows⟩
    | false =>
        obtain ⟨other, hother, hne, hotherAdmin⟩ := h.another rfl
        obtain ⟨found, hget, hfound⟩ := h.tenant
        rw [← hid, Rows.get_of_mem hmem] at hget
        cases hget
        rw [← hfound, (isAdministrator_iff.mp hadmin).1] at hotherAdmin
        exact hkept hother hne hotherAdmin
  · exact hkept hmem hid hadmin

theorem HasAdministrator.keepUsers (hs : HasAdministrator s tenantId) (hroles : s'.roles = s.roles)
    (husers : ∀ user ∈ s.users.toList, user ∈ s'.users.toList) : HasAdministrator s' tenantId := by
  refine hs.mono (fun user hmem _ => husers user hmem) fun roleId code hcode => ?_
  rw [rolePermissions_congr hroles]
  exact hcode

/-- A call leaves an administrator if and only if, in case it replaces the codes of a role,
it leaves another. -/
theorem perform_hasAdministrator_iff (rt : InvitationRuntime) (hs : HasAdministrator s tenantId)
    (call : RbacCall) :
    HasAdministrator (call.perform rt s).2 tenantId ↔ LeavesAnother rt tenantId s call := by
  have hother (h : call.request.replaces = none)
      (hkept : HasAdministrator (call.perform rt s).2 tenantId) :
      HasAdministrator (call.perform rt s).2 tenantId ↔ LeavesAnother rt tenantId s call := by
    refine ⟨fun _ roleId codes hreplaces => ?_, fun _ => hkept⟩
    rw [h] at hreplaces
    cases hreplaces
  have hreplace {roleId : Id} {codes : List String} {m : RbacTx Unit}
      (h : call.request.replaces = some (roleId, codes))
        (hperform : call.perform rt s = conclude m s)
      (hpost : Post m s (fun _ => Replaced s call.tenantId call.actorUserId roleId codes)
        fun _ => True) :
      HasAdministrator (call.perform rt s).2 tenantId ↔ LeavesAnother rt tenantId s call := by
    rw [LeavesAnother, hperform]
    obtain ⟨hok, hreplaced⟩ | ⟨⟨e, herror⟩, hsame⟩ := conclude_cases hpost
    · rw [hreplaced.hasAdministrator_iff hs]
      constructor
      · intro hleaves roleId' codes' h' _
        rw [h] at h'
        cases h'
        exact hleaves
      · exact fun hleaves => hleaves roleId codes h hok
    · rw [hsame]
      refine ⟨fun _ _ _ _ hok => ?_, fun _ => hs⟩
      rw [herror] at hok
      cases hok
  have hconclude {m : RbacTx Unit} {Q : RbacStore → Prop}
    (hpost : Post m s (fun _ => Q) fun _ => True)
      (hkept : ∀ s', Q s' → HasAdministrator s' tenantId) :
      HasAdministrator (conclude m s).2 tenantId := by
    obtain ⟨-, hq⟩ | ⟨-, hsame⟩ := conclude_cases hpost
    · exact hkept _ hq
    · rw [hsame]
      exact hs
  obtain ⟨callTenant, actorUserId, now, request⟩ := call
  cases request with
  | createRole id codes =>
      exact hother rfl (hconclude createRole_post fun _ h => hs.addRole h)
  | updateRole roleId codes =>
      cases codes with
      | none =>
          refine hother rfl (hconclude updateRole_post fun s' h => ?_)
          rw [h]
          exact hs
      | some codes => exact hreplace rfl rfl updateRole_post
  | removeRole roleId =>
      refine hother rfl (hconclude removeRole_post fun s' h => ?_)
      rw [h.2]
      exact hs.removeRole h.1
  | setRolePermissions roleId codes => exact hreplace rfl rfl setRolePermissions_post
  | setUserRoles userId roleIds =>
      exact hother rfl (hconclude setUserRoles_post fun _ h => hs.setRoles h)
  | setStatus userId isActive =>
      refine hother rfl (hconclude setStatus_post fun s' h => ?_)
      obtain rfl | hset := h
      · exact hs
      · exact hs.setStatus hset
  | createInvitation input sent =>
      refine hother rfl ?_
      obtain ⟨-, hsame⟩ | hinvited :=
        createInvitation_cases rt s callTenant actorUserId input sent now
      · exact hsame.symm ▸ hs
      · refine hs.keepUsers hinvited.roles fun user hmem => ?_
        show user ∈ (UsersInvitationsService.create rt callTenant actorUserId input sent now
          s).2.users.toList
        rw [hinvited.users]
        exact hmem
  | revokeInvitation invitationId =>
      refine hother rfl (hconclude revoke_post fun s' h => ?_)
      refine hs.keepUsers h.2.1 fun user hmem => ?_
      rw [h.1]
      exact hmem
  | acceptInvitation token password userId =>
      refine hother rfl (hconclude accept_post fun s' h => ?_)
      obtain ⟨invitation, -, haccepted⟩ := h
      obtain ⟨user, -, husers, -⟩ := haccepted.user
      refine hs.keepUsers haccepted.roles fun old hmem => ?_
      rw [husers]
      exact Rows.mem_insert_of_mem hmem user

/-- Every state of a run has an administrator if and only if every call of it that is
accepted and leaves a role without an administering code leaves one through another role. -/
theorem last_administrator_kept_iff (rt : InvitationRuntime) (tenantId : Id)
    (calls : List RbacCall) :
    ∀ start : RbacStore, HasAdministrator start tenantId →
      ((∀ before after, calls = before ++ after →
        HasAdministrator (runCalls rt start before) tenantId) ↔
      ∀ before call after, calls = before ++ call :: after →
        LeavesAnother rt tenantId (runCalls rt start before) call) := by
  induction calls with
  | nil =>
      intro start hstart
      constructor
      · intro _ before call after hsplit
        cases before <;> cases hsplit
      · intro _ before after hsplit
        obtain ⟨rfl, -⟩ := List.append_eq_nil_iff.mp hsplit.symm
        exact hstart
  | cons call rest ih =>
      intro start hstart
      have hstep := perform_hasAdministrator_iff rt hstart call
      constructor
      · intro h before c after hsplit
        have hafter : HasAdministrator (call.perform rt start).2 tenantId := h [call] rest rfl
        cases before with
        | nil =>
            obtain ⟨rfl, -⟩ := List.cons_eq_cons.mp hsplit
            exact hstep.mp hafter
        | cons first before =>
            obtain ⟨rfl, hrest⟩ := List.cons_eq_cons.mp hsplit
            refine ((ih _ hafter).mp fun before' after' hsplit' => ?_) before c after hrest
            exact h (call :: before') after' (congrArg (call :: ·) hsplit')
      · intro h before after hsplit
        have hafter := hstep.mpr (h [] call rest rfl)
        cases before with
        | nil => exact hstart
        | cons first before =>
            obtain ⟨rfl, hrest⟩ := List.cons_eq_cons.mp hsplit
            refine ((ih _ hafter).mpr fun before' c after' hsplit' => ?_) before after hrest
            exact h (call :: before') c after' (congrArg (call :: ·) hsplit')

def someRuntime : InvitationRuntime := ⟨id, id, id⟩

/-- Two users: one administers through role 1, the other through role 1 and role 2. -/
def twoAdministrators : RbacStore where
  users :=
    { toList :=
        [⟨1, "a", 1, true, none, Rows.empty.insert ⟨1, 1, none⟩⟩,
          ⟨2, "b", 1, true, none, (Rows.empty.insert ⟨1, 1, none⟩).insert ⟨2, 1, none⟩⟩]
      nodup := by simp }
  roles :=
    { toList := [⟨1, 1, false, [USER_MANAGE]⟩, ⟨2, 1, false, [USER_ROLE_MANAGE]⟩]
      nodup := by simp }
  permissions := [USER_MANAGE, USER_ROLE_MANAGE]
  outlets := Rows.empty
  invitations := Rows.empty

theorem twoAdministrators_hasAdministrator : HasAdministrator twoAdministrators 1 :=
  ⟨_, List.mem_cons_self, by decide +kernel⟩

/-- The codes of role 1 are taken away: the second user administers through role 2. -/
theorem last_administrator_kept_example :
    (∀ before after, [(⟨1, 1, 0, .setRolePermissions 1 []⟩ : RbacCall)] = before ++ after →
      HasAdministrator (runCalls someRuntime twoAdministrators before) 1) ↔
    ∀ before call after, [(⟨1, 1, 0, .setRolePermissions 1 []⟩ : RbacCall)] =
        before ++ call :: after →
      LeavesAnother someRuntime 1 (runCalls someRuntime twoAdministrators before) call :=
  last_administrator_kept_iff someRuntime 1 _ twoAdministrators twoAdministrators_hasAdministrator

/-- The codes of both roles are taken away, by users who hold them. -/
theorem administrators_lost :
    HasAdministrator twoAdministrators 1 ∧
      ¬ HasAdministrator (runCalls someRuntime twoAdministrators
        [⟨1, 1, 0, .setRolePermissions 1 []⟩, ⟨1, 2, 0, .updateRole 2 (some [])⟩]) 1 := by
  refine ⟨twoAdministrators_hasAdministrator, ?_⟩
  rintro ⟨user, hmem, hadmin⟩
  have hnone : (runCalls someRuntime twoAdministrators [⟨1, 1, 0, .setRolePermissions 1 []⟩,
      ⟨1, 2, 0, .updateRole 2 (some [])⟩]).users.toList.all fun user =>
        !(runCalls someRuntime twoAdministrators [⟨1, 1, 0, .setRolePermissions 1 []⟩,
          ⟨1, 2, 0, .updateRole 2 (some [])⟩]).isAdministrator 1 user := by decide +kernel
  have hnot := List.all_eq_true.mp hnone user hmem
  rw [hadmin] at hnot
  cases hnot

end Rbac
end ERP
