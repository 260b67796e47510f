import ERP.Rbac.Administrators

/-!
# Permissions of users who act together

Some users of a tenant and the users they invite make calls, one after the other.  A role
is given codes only by who holds them, and assigned or invited to only by who holds its
codes, so what any of them holds at any time one of the first held at the start.
-/

namespace ERP
namespace Rbac

open Lib Tx

/-- The store, the invitations that the calls have issued, and the users created by
accepting one of them. -/
structure Collusion where
  store : RbacStore
  issued : List Id
  created : List Id

namespace Collusion

/-- `call` issues an invitation: it is committed and sent. -/
def issues (call : RbacCall) (result : Except RbacFailure Unit) : Option Id :=
  match call.request, result with
  | .createInvitation input _, .ok () => some input.id
  | _, _ => none

/-- `call` creates a user by accepting an invitation that was issued in the run. -/
def creates (rt : InvitationRuntime) (w : Collusion) (call : RbacCall)
    (result : Except RbacFailure Unit) : Option Id :=
  match call.request, result with
  | .acceptInvitation token _ userId, .ok () =>
      if (UsersInvitationsService.findByToken rt w.store token).any (·.id ∈ w.issued) then
        some userId
      else none
  | _, _ => none

def step (rt : InvitationRuntime) (w : Collusion) (call : RbacCall) : Collusion where
  store := (call.perform rt w.store).2
  issued := (issues call (call.perform rt w.store).1).toList ++ w.issued
  created := (creates rt w call (call.perform rt w.store).1).toList ++ w.created

def run (rt : InvitationRuntime) (w : Collusion) (calls : List RbacCall) : Collusion :=
  calls.foldl (step rt) w

def start (store : RbacStore) : Collusion := ⟨store, [], []⟩

/-- The users of `S`, and those created in the run. -/
def member (S : Set Id) (w : Collusion) (userId : Id) : Prop := userId ∈ S ∨ userId ∈ w.created

/-- Accepting an invitation is public; every other call is made by a member. -/
def Allowed (S : Set Id) (tenantId : Id) (w : Collusion) (call : RbacCall) : Prop :=
  match call.request with
  | .acceptInvitation _ _ _ => True
  | _ => call.tenantId = tenantId ∧ w.member S call.actorUserId

def ActTogether (rt : InvitationRuntime) (S : Set Id) (tenantId : Id) :
    Collusion → List RbacCall → Prop
  | _, [] => True
  | w, call :: rest => w.Allowed S tenantId call ∧ ActTogether rt S tenantId (w.step rt call) rest

end Collusion

open Collusion

/-- The members exist and hold only codes of `held`, and the invitations they issued are to
roles with such codes. -/
structure Contained (S : Set Id) (tenantId : Id) (held : Set String) (w : Collusion) : Prop where
  exist : ∀ userId, w.member S userId → (w.store.users.get userId).isSome
  codes : ∀ userId, w.member S userId → ∀ code ∈ w.store.permissionsOf tenantId userId, code ∈ held
  invited : ∀ invitation ∈ w.store.invitations.toList, invitation.id ∈ w.issued →
    ∀ roleId ∈ invitation.roleIds, ∀ code ∈ w.store.rolePermissions roleId, code ∈ held

/-- Roles gain only codes of `held`, users and invitations no role. -/
structure Tame (held : Set String) (s s' : RbacStore) : Prop where
  codes : ∀ roleId, ∀ code ∈ s'.rolePermissions roleId,
    code ∈ s.rolePermissions roleId ∨ code ∈ held
  users : ∀ userId user', s'.users.get userId = some user' →
    ∃ user, s.users.get userId = some user ∧
    ∀ row ∈ user'.userRoles.toList, row ∈ user.userRoles.toList
  kept : ∀ userId, (s.users.get userId).isSome → (s'.users.get userId).isSome
  invitations : NoMoreRoles s.invitations s'.invitations

variable {rt : InvitationRuntime} {S : Set Id} {tenantId : Id} {held : Set String}
  {w w' : Collusion} {s s' : RbacStore}

theorem Tame.refl (s : RbacStore) : Tame held s s where
  codes := fun _ _ h => .inl h
  users := fun _ user' h => ⟨user', h, fun _ hrow => hrow⟩
  kept := fun _ h => h
  invitations := fun row hrow => ⟨row, hrow, rfl, List.Subset.refl _⟩

theorem Tame.contained (w' : Collusion) (h : Tame held w.store w'.store)
    (hw : Contained S tenantId held w)
    (hissued : w'.issued = w.issued) (hcreated : w'.created = w.created) :
    Contained S tenantId held w' where
  exist := by
    intro userId hmember
    rw [member, hcreated] at hmember
    exact h.kept userId (hw.exist userId hmember)
  codes := by
    intro userId hmember code hcode
    rw [member, hcreated] at hmember
    obtain ⟨user', huser', row, hrow, hrt, hrd, hcode⟩ := mem_permissionsOf.mp hcode
    obtain ⟨user, huser, hrows⟩ := h.users userId user' huser'
    obtain hold | hnew := h.codes row.roleId code hcode
    · exact hw.codes userId hmember code
        (mem_permissionsOf.mpr ⟨user, huser, row, hrows row hrow, hrt, hrd, hold⟩)
    · exact hnew
  invited := by
    intro invitation hinvitation hid roleId hroleId code hcode
    rw [hissued] at hid
    obtain ⟨old, hold, holdId, hroles⟩ := h.invitations invitation hinvitation
    obtain hcode | hnew := h.codes roleId code hcode
    · exact hw.invited old hold (by rw [holdId]; exact hid) roleId (hroles hroleId) code hcode
    · exact hnew

theorem tame_of_same (hroles : s'.roles = s.roles) (husers : s'.users = s.users)
    (hinvitations : NoMoreRoles s.invitations s'.invitations) : Tame held s s' where
  codes := fun roleId code hcode => .inl (by rwa [rolePermissions_congr hroles] at hcode)
  users := fun userId user' h => ⟨user', by rwa [husers] at h, fun _ hrow => hrow⟩
  kept := fun userId h => by rwa [husers]
  invitations := hinvitations

theorem Replaced.tame {actorUserId roleId : Id} {codes : List String}
    (h : Replaced s tenantId actorUserId roleId codes s')
    (hactor : ∀ code ∈ s.permissionsOf tenantId actorUserId, code ∈ held) : Tame held s s' where
  codes := by
    intro id code hcode
    by_cases hid : id = roleId
    · rw [hid, h.codes_eq] at hcode
      exact .inr (hactor code (h.granted code hcode))
    · rw [h.others id hid] at hcode
      exact .inl hcode
  users := fun userId user' huser => ⟨user', by rwa [h.users] at huser, fun _ hrow => hrow⟩
  kept := fun userId huser => by rwa [h.users]
  invitations := by
    rw [h.invitations]
    exact fun row hrow => ⟨row, hrow, rfl, List.Subset.refl _⟩

theorem RoleAdded.tame {actorUserId id : Id} (h : RoleAdded s tenantId actorUserId id s')
    (hactor : ∀ code ∈ s.permissionsOf tenantId actorUserId, code ∈ held) : Tame held s s' where
  codes := by
    intro roleId code hcode
    by_cases hid : roleId = id
    · rw [hid] at hcode
      exact .inr (hactor code (h.granted code hcode))
    · rw [h.others roleId hid] at hcode
      exact .inl hcode
  users := fun userId user' huser => ⟨user', by rwa [h.users] at huser, fun _ hrow => hrow⟩
  kept := fun userId huser => by rwa [h.users]
  invitations := by
    rw [h.invitations]
    exact fun row hrow => ⟨row, hrow, rfl, List.Subset.refl _⟩

theorem tame_deleteRole (roleId : Id) : Tame held s (RolesService.deleteRole s roleId) where
  codes := by
    intro id code hcode
    simp only [RbacStore.rolePermissions] at hcode ⊢
    cases hget : (RolesService.deleteRole s roleId).roles.get id with
    | none =>
        rw [hget] at hcode
        cases hcode
    | some role =>
        rw [hget] at hcode
        have hmem := (Rows.mem_deleteMany.mp (Rows.mem_of_get hget)).1
        have hid : s.roles.get id = some role := by
          rw [← Rows.key_of_get hget]
          exact Rows.get_of_mem hmem
        rw [hid]
        exact .inl hcode
  users := by
    intro userId user' huser'
    simp only [RolesService.deleteRole, Rows.get_updateMany] at huser'
    cases huser : s.users.get userId with
    | none =>
        rw [huser] at huser'
        cases huser'
    | some user =>
        rw [huser] at huser'
        cases huser'
        exact ⟨user, rfl, fun row hrow => (Rows.mem_deleteMany.mp hrow).1⟩
  kept := by
    intro userId huser
    simp only [RolesService.deleteRole, Rows.get_updateMany, Option.isSome_map]
    exact huser
  invitations := noMoreRoles_updateMany s.invitations _
    (f := fun row => { row with roleIds := row.roleIds.filter (· ≠ roleId) }) (fun _ => rfl)
    fun _ => List.filter_sublist.subset

theorem StatusSet.tame {callTenant userId : Id} {isActive : Bool}
    (h : StatusSet s callTenant userId isActive s') : Tame held s s' where
  codes := fun roleId code hcode => .inl (by rwa [rolePermissions_congr h.roles] at hcode)
  users := by
    intro id user' huser'
    rw [h.users, Rows.get_updateMany] at huser'
    cases huser : s.users.get id with
    | none =>
        rw [huser] at huser'
        cases huser'
    | some user =>
        rw [huser] at huser'
        cases huser'
        refine ⟨user, rfl, fun row hrow => ?_⟩
        dsimp only at hrow
        split at hrow <;> exact hrow
  kept := by
    intro id huser
    rw [h.users, Rows.get_updateMany, Option.isSome_map]
    exact huser
  invitations := by
    rw [h.invitations]
    exact fun row hrow => ⟨row, hrow, rfl, List.Subset.refl _⟩

theorem Contained.setRoles {actorUserId userId : Id} (hw : Contained S tenantId held w)
    (h : RolesSet w.store tenantId actorUserId userId w'.store)
    (hactor : ∀ code ∈ w.store.permissionsOf tenantId actorUserId, code ∈ held)
    (hissued : w'.issued = w.issued) (hcreated : w'.created = w.created) :
    Contained S tenantId held w' := by
  obtain ⟨user, rows, huser, -, husers, hgranted⟩ := h.user
  refine ⟨fun id hmember => ?_, fun id hmember code hcode => ?_,
    fun invitation hinvitation hid roleId hroleId code hcode => ?_⟩
  · rw [member, hcreated] at hmember
    rw [husers, Rows.get_updateMany, Option.isSome_map]
    exact hw.exist id hmember
  · rw [member, hcreated] at hmember
    obtain ⟨found, hfound, row, hrow, hrt, hrd, hcode⟩ := mem_permissionsOf.mp hcode
    rw [rolePermissions_congr h.roles] at hcode
    rw [husers, Rows.get_updateMany] at hfound
    cases hold : w.store.users.get id with
    | none =>
        rw [hold] at hfound
        cases hfound
    | some old =>
        rw [hold] at hfound
        cases hfound
        dsimp only at hrow
        by_cases hid : old.id = userId
        · rw [if_pos (decide_eq_true hid)] at hrow
          exact hactor code (hgranted row hrow hrt hrd code hcode)
        · rw [if_neg (by simpa using hid)] at hrow
          exact hw.codes id hmember code
            (mem_permissionsOf.mpr ⟨old, hold, row, hrow, hrt, hrd, hcode⟩)
  · rw [h.invitations] at hinvitation
    rw [hissued] at hid
    rw [rolePermissions_congr h.roles] at hcode
    exact hw.invited invitation hinvitation hid roleId hroleId code hcode

theorem Contained.invite {actorUserId id : Id} (hw : Contained S tenantId held w)
    (h : Invited w.store tenantId actorUserId id w'.store)
    (hactor : ∀ code ∈ w.store.permissionsOf tenantId actorUserId, code ∈ held)
    (hissued : ∀ i ∈ w'.issued, i = id ∨ i ∈ w.issued) (hcreated : w'.created = w.created) :
    Contained S tenantId held w' := by
  refine ⟨fun userId hmember => ?_, fun userId hmember code hcode => ?_,
    fun invitation hinvitation hid roleId hroleId code hcode => ?_⟩
  · rw [member, hcreated] at hmember
    rw [h.users]
    exact hw.exist userId hmember
  · rw [member, hcreated] at hmember
    obtain ⟨user, huser, row, hrow, hrt, hrd, hcode⟩ := mem_permissionsOf.mp hcode
    rw [h.users] at huser
    rw [rolePermissions_congr h.roles] at hcode
    exact hw.codes userId hmember code
      (mem_permissionsOf.mpr ⟨user, huser, row, hrow, hrt, hrd, hcode⟩)
  · rw [rolePermissions_congr h.roles] at hcode
    obtain ⟨old, hold, holdId, hroles⟩ | ⟨-, hgranted⟩ := h.invitations invitation hinvitation
    · -- an invitation that was there has another id than the new one
      have hne : invitation.id ≠ id := by
        intro heq
        have hget := Rows.get_of_mem hold
        rw [holdId, heq, h.fresh] at hget
        cases hget
      have hold' : old.id ∈ w.issued := by
        rw [holdId]
        exact (hissued _ hid).resolve_left hne
      exact hw.invited old hold hold' roleId (hroles hroleId) code hcode
    · exact hactor code (hgranted roleId hroleId code hcode)

theorem Contained.accept {userId : Id} {invitation : UserInvitation}
    (hw : Contained S tenantId held w) (h : Accepted w.store userId invitation w'.store)
    (hissued : w'.issued = w.issued)
    (hcreated : ∀ i ∈ w'.created, i ∈ w.created ∨ i = userId ∧ invitation.id ∈ w.issued) :
    Contained S tenantId held w' := by
  obtain ⟨user, huserId, husers, hrows⟩ := h.user
  have hfresh : w.store.users.get user.id = none := by
    rw [huserId]
    exact h.fresh
  have hget (id : Id) : w'.store.users.get id =
      if user.id = id then some user else w.store.users.get id := by
    rw [husers, Rows.get_insert_of_none hfresh]
  have hold {id : Id} (hmember : w.member S id) : w'.store.users.get id = w.store.users.get id := by
    rw [hget, if_neg]
    intro heq
    have hsome := hw.exist id hmember
    rw [← heq, hfresh] at hsome
    cases hsome
  have hmembers {id : Id} (hmember : w'.member S id) :
      w.member S id ∨ id = userId ∧ invitation.id ∈ w.issued := by
    obtain hS | hnew := hmember
    · exact .inl (.inl hS)
    · exact (hcreated id hnew).imp_left .inr
  refine ⟨fun id hmember => ?_, fun id hmember code hcode => ?_,
    fun row hrow hid roleId hroleId code hcode => ?_⟩
  · obtain hmember | ⟨rfl, -⟩ := hmembers hmember
    · rw [hold hmember]
      exact hw.exist id hmember
    · rw [hget, if_pos huserId]
      rfl
  · obtain ⟨found, hfound, row, hrow, hrt, hrd, hcode⟩ := mem_permissionsOf.mp hcode
    rw [rolePermissions_congr h.roles] at hcode
    obtain hmember | ⟨rfl, hinvited⟩ := hmembers hmember
    · rw [hold hmember] at hfound
      exact hw.codes id hmember code
        (mem_permissionsOf.mpr ⟨found, hfound, row, hrow, hrt, hrd, hcode⟩)
    · rw [hget, if_pos huserId] at hfound
      cases hfound
      exact hw.invited invitation h.found hinvited row.roleId (hrows row hrow) code hcode
  · obtain ⟨old, holdRow, holdId, hroles⟩ := h.invitations row hrow
    rw [hissued, ← holdId] at hid
    rw [rolePermissions_congr h.roles] at hcode
    exact hw.invited old holdRow hid roleId (hroles hroleId) code hcode

/-- A call that issues no invitation and creates no member. -/
theorem Contained.tame {call : RbacCall} (hw : Contained S tenantId held w)
    (h : Tame held w.store (call.perform rt w.store).2)
    (hissues : issues call (call.perform rt w.store).1 = none)
    (hcreates : creates rt w call (call.perform rt w.store).1 = none) :
    Contained S tenantId held (w.step rt call) := by
  refine Tame.contained (w.step rt call) h hw ?_ ?_
  · simp only [Collusion.step, hissues]
    rfl
  · simp only [Collusion.step, hcreates]
    rfl

theorem Contained.step (hw : Contained S tenantId held w) (call : RbacCall)
    (hallowed : w.Allowed S tenantId call) : Contained S tenantId held (w.step rt call) := by
  obtain ⟨callTenant, actorUserId, now, request⟩ := call
  have hactor (h : callTenant = tenantId ∧ w.member S actorUserId) :
      ∀ code ∈ w.store.permissionsOf callTenant actorUserId, code ∈ held := by
    rw [h.1]
    exact hw.codes actorUserId h.2
  have htame {m : RbacTx Unit} {Q : RbacStore → Prop}
      (hpost : Post m w.store (fun _ => Q) fun _ => True)
      (hq : ∀ s', Q s' → Tame held w.store s') : Tame held w.store (conclude m w.store).2 := by
    obtain ⟨-, h⟩ | ⟨-, hsame⟩ := conclude_cases hpost
    · exact hq _ h
    · rw [hsame]
      exact Tame.refl _
  cases request with
  | createRole id codes =>
      exact hw.tame (htame createRole_post fun _ h => h.tame (hactor hallowed)) rfl rfl
  | updateRole roleId codes =>
      refine hw.tame (htame updateRole_post fun s' h => ?_) rfl rfl
      cases codes with
      | none =>
          rw [h]
          exact Tame.refl _
      | some codes => exact h.tame (hactor hallowed)
  | removeRole roleId =>
      refine hw.tame (htame removeRole_post fun s' h => ?_) rfl rfl
      rw [h.2]
      exact tame_deleteRole roleId
  | setRolePermissions roleId codes =>
      exact hw.tame (htame setRolePermissions_post fun _ h => h.tame (hactor hallowed)) rfl rfl
  | setUserRoles userId roleIds =>
      have hpost : Post
          (UserRolesService.setUserRoles callTenant actorUserId userId roleIds now) w.store
          (fun _ => RolesSet w.store callTenant actorUserId userId) fun _ => True :=
        setUserRoles_post
      obtain ⟨-, h⟩ | ⟨-, hsame⟩ := conclude_cases hpost
      · have hcodes := hactor hallowed
        have htenant : callTenant = tenantId := hallowed.1
        subst htenant
        exact hw.setRoles h hcodes rfl rfl
      · exact hw.tame (hsame.symm ▸ Tame.refl _) rfl rfl
  | setStatus userId isActive =>
      refine hw.tame (htame setStatus_post fun s' h => ?_) rfl rfl
      obtain rfl | hset := h
      · exact Tame.refl _
      · exact hset.tame
  | createInvitation input sent =>
      obtain ⟨⟨e, herror⟩, hsame⟩ | h :=
        createInvitation_cases rt w.store callTenant actorUserId input sent now
      · refine hw.tame (hsame.symm ▸ Tame.refl _) ?_ rfl
        show issues _ (UsersInvitationsService.create rt callTenant actorUserId input sent now
          w.store).1 = none
        rw [herror]
        rfl
      · have hcodes := hactor hallowed
        have htenant : callTenant = tenantId := hallowed.1
        subst htenant
        refine hw.invite h hcodes (fun i hi => ?_) rfl
        obtain hnew | hold := List.mem_append.mp hi
        · left
          simp only [issues] at hnew
          split at hnew
          · next h₁ _ =>
              cases h₁
              simpa using hnew
          · cases hnew
        · exact .inr hold
  | revokeInvitation invitationId =>
      exact hw.tame (htame revoke_post fun s' h => tame_of_same h.2.1 h.1 h.2.2) rfl rfl
  | acceptInvitation token password userId =>
      have hpost : Post (UsersInvitationsService.accept rt token password userId now) w.store
          (fun _ s' => ∃ invitation,
            UsersInvitationsService.findByToken rt w.store token = some invitation ∧
              Accepted w.store userId invitation s') fun _ => True := accept_post
      obtain ⟨-, h⟩ | ⟨⟨e, herror⟩, hsame⟩ := conclude_cases hpost
      · obtain ⟨invitation, hfound, h⟩ := h
        refine hw.accept h rfl fun i hi => ?_
        obtain hnew | hold := List.mem_append.mp hi
        · right
          simp only [creates] at hnew
          split at hnew
          · next h₁ _ =>
              cases h₁
              rw [hfound] at hnew
              by_cases hissued : invitation.id ∈ w.issued
              · exact ⟨by simpa [hissued] using hnew, hissued⟩
              · simp [hissued] at hnew
          · cases hnew
        · exact .inl hold
      · refine hw.tame (hsame.symm ▸ Tame.refl _) rfl ?_
        show creates rt w _ (conclude (UsersInvitationsService.accept rt token password userId now)
          w.store).1 = none
        rw [herror]
        rfl

theorem Contained.run (calls : List RbacCall) :
    ∀ {w : Collusion}, Contained S tenantId held w → ActTogether rt S tenantId w calls →
      Contained S tenantId held (w.run rt calls) := by
  induction calls with
  | nil => exact fun hw _ => hw
  | cons call rest ih => exact fun hw h => ih (hw.step call h.1) h.2

/-- What a user of `S`, or a user created in the run, holds at its end was held at the start
by a user of `S`. -/
theorem no_escalation_by_collusion (rt : InvitationRuntime) (tenantId : Id) (store : RbacStore)
    (S : Set Id)
    (hS : ∀ userId ∈ S, ∃ user, store.users.get userId = some user ∧ user.tenantId = tenantId)
    (calls : List RbacCall) (hcalls : ActTogether rt S tenantId (start store) calls) (userId : Id)
    (hmember : ((start store).run rt calls).member S userId) :
    ∀ code ∈ ((start store).run rt calls).store.permissionsOf tenantId userId,
      ∃ userId' ∈ S, code ∈ store.permissionsOf tenantId userId' := by
  have hstart : Contained S tenantId
      {code | ∃ userId' ∈ S, code ∈ store.permissionsOf tenantId userId'} (start store) := by
    have hmember {id : Id} (h : (start store).member S id) : id ∈ S :=
      h.resolve_right List.not_mem_nil
    refine ⟨fun id h => ?_, fun id h code hcode => ⟨id, hmember h, hcode⟩,
      fun _ _ hid => absurd hid List.not_mem_nil⟩
    obtain ⟨user, huser, -⟩ := hS id (hmember h)
    exact Option.isSome_iff_exists.mpr ⟨user, huser⟩
  exact (hstart.run calls hcalls).codes userId hmember

/-- User 1 invites to a new role, and the user who accepts widens it by a code of his. -/
def inviteThenWiden : List RbacCall :=
  [⟨1, 1, 0, .createRole 3 (some [USER_MANAGE])⟩,
    ⟨1, 1, 0, .createInvitation ⟨1, "token", "c", [3], []⟩ true⟩,
    ⟨1, 0, 1, .acceptInvitation "token" "secret" 3⟩,
    ⟨1, 3, 2, .setRolePermissions 3 [USER_MANAGE]⟩]

/-- The invited user holds the code in the end, and user 1 held it at the start. -/
theorem no_escalation_by_collusion_example :
    USER_MANAGE ∈ ((start twoAdministrators).run someRuntime inviteThenWiden).store.permissionsOf
        1 3 ∧
      ∀ code ∈ ((start twoAdministrators).run someRuntime inviteThenWiden).store.permissionsOf 1 3,
        ∃ userId' ∈ ({1} : Set Id), code ∈ twoAdministrators.permissionsOf 1 userId' := by
  refine ⟨by decide +kernel, ?_⟩
  refine no_escalation_by_collusion someRuntime 1 twoAdministrators {1} ?_ inviteThenWiden ?_ 3
    (.inr (by decide +kernel))
  · rintro userId rfl
    exact ⟨_, rfl, rfl⟩
  · exact ⟨⟨rfl, .inl rfl⟩, ⟨rfl, .inl rfl⟩, trivial, ⟨rfl, .inr (by decide +kernel)⟩, trivial⟩

end Rbac
end ERP
