import Mathlib.Data.List.Forall2
import ERP.Platform.TenantLifecycle

/-!
# Runs of tenant actions

A tenant is deactivated exactly while it has a time of deletion, also when a save of the
registry overwrites what another call has just committed.  The audit log of a tenant that no
such save has touched is the path of its status.
-/

namespace ERP
namespace Platform

open Lib

abbrev LifecycleStore := GuardedStore String TenantRow LifecycleLog

abbrev LifecycleWorld :=
  World LifecycleStore (GuardedCall LifecycleLog LifecycleRequest LifecyclePlan)

abbrev LifecycleRun := List (Event LifecycleRequest Int Empty)

/-- What the calls of both services make of a database with these tenants. -/
def lifecycleAfter (rows : List TenantRow) (log : List LifecycleLog) (es : LifecycleRun) :
    LifecycleWorld :=
  lifecycle.system.run (.idle (.opening TenantRow.id rows log)) es

def TenantRow.Agrees (t : TenantRow) : Prop := t.status = .deactivated ↔ t.deletedAt.isSome

instance (t : TenantRow) : Decidable t.Agrees := inferInstanceAs (Decidable (_ ↔ _))

namespace Business

def Agrees (b : Business) : Prop := b.status = .archived ↔ b.deletedAt.isSome

variable {b b' : Business}

theorem agrees_toAggregate {t : TenantRow} (h : t.Agrees) :
    (BusinessRegistryRepository.toAggregate t).Agrees := by
  obtain ⟨id, name, businessType, email, phone, address, status, deletedAt⟩ := t
  cases status with
  | active => exact iff_of_false nofun fun hd => nomatch h.mpr hd
  | suspended => exact iff_of_false nofun fun hd => nomatch h.mpr hd
  | deactivated => exact iff_of_true rfl (h.mp rfl)

theorem agrees_toRow (h : b.Agrees) : (BusinessRegistryRepository.toRow b).Agrees := by
  obtain ⟨id, name, businessType, email, phone, address, status, deletedAt, events⟩ := b
  cases status with
  | active => exact iff_of_false nofun fun hd => nomatch h.mpr hd
  | suspended => exact iff_of_false nofun fun hd => nomatch h.mpr hd
  | archived => exact iff_of_true rfl (h.mp rfl)

/-- Fields that say nothing about the life of the business. -/
theorem Agrees.congr (h : b.Agrees) (hstatus : b'.status = b.status)
    (hdeleted : b'.deletedAt = b.deletedAt) : b'.Agrees := by
  unfold Agrees
  rw [hstatus, hdeleted]
  exact h

theorem Agrees.setBusinessType (h : b.Agrees) (businessType : BusinessType) :
    (b.setBusinessType businessType).Agrees := by
  unfold Business.setBusinessType
  split
  · exact h
  · exact h.congr rfl rfl

theorem Agrees.updateName (h : b.Agrees) {name : Option String} {changes : List String}
    (hb' : b.updateName name = .ok (b', changes)) : b'.Agrees := by
  unfold Business.updateName at hb'
  cases name with
  | none =>
      cases hb'
      exact h
  | some name =>
      dsimp only at hb'
      split at hb'
      · cases hb'
        exact h
      · split at hb'
        · cases hb'
        · cases hb'
          exact h.congr rfl rfl

theorem Agrees.update (h : b.Agrees) {data : UpdateBusiness} (hb' : b.update data = .ok b') :
    b'.Agrees := by
  unfold Business.update at hb'
  split at hb'
  · cases hb'
  · cases hname : b.updateName data.name with
    | error e =>
        rw [hname] at hb'
        cases hb'
    | ok named =>
        obtain ⟨named, changes⟩ := named
        rw [hname] at hb'
        dsimp only at hb'
        have hnamed : named.Agrees := h.updateName hname
        have htyped : ((data.businessType.map named.setBusinessType).getD named).Agrees := by
          cases data.businessType with
          | none => exact hnamed
          | some businessType => exact hnamed.setBusinessType businessType
        cases hb'
        split
        · exact htyped.congr rfl rfl
        · exact htyped.congr rfl rfl

/-- Who is not archived and not deleted may change between the two other statuses. -/
theorem agrees_of_deletedAt (hstatus : b'.status ≠ .archived) (hdeleted : ¬ b'.deletedAt.isSome) :
    b'.Agrees :=
  iff_of_false hstatus hdeleted

theorem Agrees.apply (h : b.Agrees) {op : BusinessOperation} {now : Int}
    (hb' : op.apply now b = .ok b') : b'.Agrees := by
  cases op with
  | update data => exact h.update hb'
  | activate =>
      change b.activate = .ok b' at hb'
      unfold Business.activate at hb'
      split at hb'
      · cases hb'
        exact h
      · split at hb'
        · cases hb'
        · rename_i hdeleted
          cases hb'
          exact agrees_of_deletedAt nofun hdeleted
  | suspend reason =>
      change b.suspend reason = .ok b' at hb'
      unfold Business.suspend at hb'
      split at hb'
      · cases hb'
        exact h
      · split at hb'
        · cases hb'
        · rename_i hdeleted
          cases hb'
          exact agrees_of_deletedAt nofun hdeleted
  | archive =>
      cases hb'
      unfold Business.archive
      split
      · exact h
      · exact iff_of_true rfl rfl
  | restore =>
      cases hb'
      unfold Business.restore
      split
      · exact h
      · exact agrees_of_deletedAt nofun nofun
  | changeBusinessType newBusinessType =>
      change b.changeBusinessType newBusinessType = .ok b' at hb'
      unfold Business.changeBusinessType at hb'
      split at hb'
      · cases hb'
      · cases hb'
        exact h.setBusinessType newBusinessType

end Business

/-- What the write of a plan needs: an aggregate was made from a row that agrees. -/
def LifecyclePlan.Agrees : LifecyclePlan → Prop
  | .columns _ _ => True
  | .aggregate b => b.Agrees

theorem prepare_agrees {r : LifecycleRequest} {now : Int} {row : Option TenantRow}
    {c : LifecyclePlan} (hrow : ∀ t, row = some t → t.Agrees) (h : r.prepare now row = .ok c) :
    c.Agrees := by
  cases r with
  | platform actor tenantId action =>
      unfold LifecycleRequest.prepare at h
      cases row with
      | none => cases h
      | some t =>
          dsimp only at h
          split at h
          · cases h
          · cases hdecide : action.decide now (.forTarget actor t.status t.deletedAt) with
            | error e =>
                rw [hdecide] at h
                cases h
            | ok a =>
                rw [hdecide] at h
                cases h
                exact trivial
  | business tenantId id op =>
      unfold LifecycleRequest.prepare at h
      dsimp only at h
      cases hfind : BusinessRegistryRepository.findById id tenantId row with
      | none =>
          rw [hfind] at h
          cases h
      | some b =>
          rw [hfind] at h
          dsimp only at h
          have hb : b.Agrees := by
            unfold BusinessRegistryRepository.findById at hfind
            split at hfind
            · obtain ⟨t, ht, rfl⟩ := Option.map_eq_some_iff.mp hfind
              exact Business.agrees_toAggregate (hrow t ht)
            · cases hfind
          cases happly : op.apply now b with
          | error e =>
              rw [happly] at h
              cases h
          | ok b' =>
              rw [happly] at h
              cases h
              exact hb.apply happly
  | createBusiness tenantId input =>
      unfold LifecycleRequest.prepare at h
      dsimp only at h
      cases hfind : BusinessRegistryRepository.findById tenantId tenantId row with
      | some b =>
          rw [hfind] at h
          cases h
      | none =>
          rw [hfind] at h
          cases h
          exact iff_of_false nofun nofun

/-- A write of columns is that of a platform action on a row that meets its condition. -/
theorem write_columns {r : LifecycleRequest} {now : Int} {events : List LifecycleEvent}
    {row : Option TenantRow} {t' : TenantRow} (h : r.write (.columns now events) row = some t') :
    ∃ actor tenantId action t, r = .platform actor tenantId action ∧ row = some t ∧
      action.requires t = true ∧ t' = action.data now t := by
  cases r with
  | platform actor tenantId action =>
      obtain ⟨t, ht, rfl⟩ := Option.map_eq_some_iff.mp h
      obtain ⟨hrow, hrequires⟩ := Option.filter_eq_some_iff.mp ht
      exact ⟨actor, tenantId, action, t, rfl, hrow, hrequires, rfl⟩
  | business tenantId id op => cases h
  | createBusiness tenantId input => cases h

theorem data_agrees {action : PlatformAction} {now : Int} {t : TenantRow}
    (h : action.requires t = true) : (action.data now t).Agrees := by
  cases action with
  | activate =>
      obtain ⟨-, hdeleted⟩ := Bool.and_eq_true_iff.mp h
      have hnone : t.deletedAt = none := by simpa using hdeleted
      exact iff_of_false nofun (by simp [PlatformAction.data, hnone])
  | suspend reason =>
      obtain ⟨-, hdeleted⟩ := Bool.and_eq_true_iff.mp h
      have hnone : t.deletedAt = none := by simpa using hdeleted
      exact iff_of_false nofun (by simp [PlatformAction.data, hnone])
  | deactivate reason => exact iff_of_true rfl rfl
  | restore => exact iff_of_false nofun nofun

theorem write_agrees {r : LifecycleRequest} {c : LifecyclePlan} {row : Option TenantRow}
    {t : TenantRow} (hc : c.Agrees) (h : r.write c row = some t) : t.Agrees := by
  cases c with
  | columns now events =>
      obtain ⟨-, -, action, t₀, -, -, hrequires, rfl⟩ := write_columns h
      exact data_agrees hrequires
  | aggregate b =>
      have ht : t = BusinessRegistryRepository.toRow b := by
        cases r with
        | platform actor tenantId action => exact (Option.some.inj h).symm
        | business tenantId id op => exact (Option.some.inj h).symm
        | createBusiness tenantId input => exact (Option.some.inj h).symm
      rw [ht]
      exact Business.agrees_toRow hc

theorem toOption_eq_some {α ε : Type} {x : Except ε α} {a : α} (h : x.toOption = some a) :
    x = .ok a := by
  cases x with
  | error e => cases h
  | ok a' =>
      cases h
      rfl

/-- However the calls of both services interleave and crash, a tenant is deactivated exactly when
it has a time of deletion. -/
theorem deactivated_iff_deleted (rows : List TenantRow) (hrows : ∀ t ∈ rows, t.Agrees)
    (log : List LifecycleLog) (es : LifecycleRun) (tenantId : String) (t : TenantRow)
    (ht : (lifecycleAfter rows log es).store.row tenantId = some t) :
    t.status = .deactivated ↔ t.deletedAt.isSome := by
  obtain ⟨-, -, -, hkeep⟩ := lifecycle.linearized
    (P := fun _ row => ∀ t, row = some t → t.Agrees) (Q := fun _ c => c.Agrees)
    (fun r now row c hrow hc => prepare_agrees hrow (toOption_eq_some hc))
    (fun r c row t hc _ hwrite t' ht' => by
      cases ht'
      exact write_agrees hc hwrite)
    (.opening TenantRow.id rows log)
    (fun k t ht => hrows t (List.mem_of_find?_eq_some ht)) (fun _ => rfl) rfl es
  exact hkeep tenantId t ht

/-- A tenant that is active. -/
def activeTenant : TenantRow := ⟨"t", "Cafe", .cafe, none, none, none, .active, none⟩

/-- The registry loads the tenant to rename it and saves it after it was deactivated. -/
def renameAcross : LifecycleRun :=
  [.spawn 0 (.business "t" "t" (.update ⟨some "Bar", none, none, none, none⟩)), .step 0 1] ++
    .spawn 1 (SuperAdminService.deactivateTenant "admin" "t" none) ::
      (List.replicate 5 2).map (.step 1) ++ (List.replicate 3 3).map (.step 0)

theorem deactivated_iff_deleted_across :
    (lifecycleAfter [activeTenant] [] renameAcross).store.row "t" =
        some { activeTenant with name := "Bar" } ∧
      (({ activeTenant with name := "Bar" } : TenantRow).status = .deactivated ↔
        ({ activeTenant with name := "Bar" } : TenantRow).deletedAt.isSome) := by
  have hrow : (lifecycleAfter [activeTenant] [] renameAcross).store.row "t" =
      some { activeTenant with name := "Bar" } := by decide +kernel
  refine ⟨hrow, deactivated_iff_deleted [activeTenant] ?_ [] renameAcross "t" _ hrow⟩
  intro t ht
  rw [List.mem_singleton.mp ht]
  decide

/-! ## The audit log as a path -/

/-- The audit entry of a platform action. -/
def auditEntry (actor tenantId : String) (action : PlatformAction) :
    PlatformAuditLog TenantMetadata :=
  .create actor action.auditAction "TENANT" tenantId (some tenantId) action.metadata

/-- The audit entries about a tenant. -/
def auditsOf (tenantId : String) (log : List LifecycleLog) :
    List (PlatformAuditLog TenantMetadata) :=
  log.filterMap fun
    | .audit entry => if entry.targetTenantId = some tenantId then some entry else none
    | .outbox _ => none

/-- What an audited action makes of which status. -/
def auditMoves : List (String × TenantStatus × TenantStatus) :=
  [("super-admin.tenant.activated", .suspended, .active),
    ("super-admin.tenant.suspended", .active, .suspended),
    ("super-admin.tenant.deactivated", .active, .deactivated),
    ("super-admin.tenant.deactivated", .suspended, .deactivated),
    ("super-admin.tenant.restored", .deactivated, .active)]

def auditStep (status : TenantStatus) (entry : PlatformAuditLog TenantMetadata) :
    Option TenantStatus :=
  (auditMoves.find? fun move => move.1 = entry.action && move.2.1 = status).map fun move => move.2.2

/-- The status a list of audit entries leads to, if each of them may follow. -/
def replayAudit (status : TenantStatus) (audits : List (PlatformAuditLog TenantMetadata)) :
    Option TenantStatus :=
  audits.foldlM auditStep status

theorem auditStep_entry {actor tenantId : String} {action : PlatformAction} (now : Int)
    {t : TenantRow} (h : action.requires t = true) :
    auditStep t.status (auditEntry actor tenantId action) = some (action.data now t).status := by
  cases action with
  | activate =>
      have hstatus := of_decide_eq_true (Bool.and_eq_true_iff.mp h).1
      rw [hstatus]
      rfl
  | suspend reason =>
      have hstatus := of_decide_eq_true (Bool.and_eq_true_iff.mp h).1
      rw [hstatus]
      rfl
  | deactivate reason =>
      obtain hactive | hsuspended := Bool.or_eq_true_iff.mp (Bool.and_eq_true_iff.mp h).1
      · rw [of_decide_eq_true hactive]
        rfl
      · rw [of_decide_eq_true hsuspended]
        rfl
  | restore =>
      have hstatus := of_decide_eq_true (Bool.and_eq_true_iff.mp h).1
      rw [hstatus]
      rfl

/-- A platform action, with the columns it writes. -/
def IsPlatform (tenantId : String) (d : Effect LifecycleRequest LifecyclePlan) : Prop :=
  ∃ actor action now events, d.request = .platform actor tenantId action ∧
    d.plan = .columns now events

theorem auditsOf_append (tenantId : String) (log more : List LifecycleLog) :
    auditsOf tenantId (log ++ more) = auditsOf tenantId log ++ auditsOf tenantId more :=
  List.filterMap_append

theorem auditsOf_publish (tenantId id : String) (events : List LifecycleEvent) :
    auditsOf tenantId (events.map (publish id)) = [] := by
  unfold auditsOf
  rw [List.filterMap_map, List.filterMap_eq_nil_iff]
  exact fun _ _ => rfl

theorem auditsOf_platform {actor id tenantId : String} {action : PlatformAction} {now : Int}
    {events : List LifecycleEvent} :
    auditsOf tenantId ((LifecycleRequest.platform actor id action).entries (.columns now events)) =
      if id = tenantId then [auditEntry actor id action] else [] := by
  have hentries : (LifecycleRequest.platform actor id action).entries (.columns now events) =
      [.audit (auditEntry actor id action)] ++ events.map (publish id) := rfl
  rw [hentries, auditsOf_append, auditsOf_publish, List.append_nil]
  unfold auditsOf
  by_cases hid : id = tenantId
  · have htarget : (auditEntry actor id action).targetTenantId = some tenantId :=
      congrArg some hid
    rw [if_pos hid, List.filterMap_cons_some (by exact if_pos htarget)]
    rfl
  · have htarget : (auditEntry actor id action).targetTenantId ≠ some tenantId :=
      fun h => hid (Option.some.inj h)
    rw [if_neg hid, List.filterMap_cons_none (by exact if_neg htarget)]
    rfl

variable {tenantId : String} {history : List (Effect LifecycleRequest LifecyclePlan)}

/-- The registry writes no audit entries. -/
theorem auditsOf_business {r : LifecycleRequest} {c : LifecyclePlan}
    (h : ∀ actor id action, r ≠ .platform actor id action) :
    auditsOf tenantId (r.entries c) = [] := by
  cases c with
  | columns now events =>
      cases r with
      | platform actor id action => exact absurd rfl (h actor id action)
      | business id id' op => rfl
      | createBusiness id input => rfl
  | aggregate b =>
      have hentries : r.entries (.aggregate b) = b.domainEvents.map (publish r.tenantId) := by
        cases r with
        | platform actor id action => rfl
        | business id id' op => rfl
        | createBusiness id input => rfl
      rw [hentries, auditsOf_publish]

/-- The calls and the audit entries of a tenant that only platform actions have changed. -/
theorem auditsOf_history
    (hcolumns : ∀ d ∈ history, ∀ actor id action, d.request = .platform actor id action →
      ∃ now events, d.plan = .columns now events)
    (hplatform : ∀ d ∈ lifecycle.on tenantId history, IsPlatform tenantId d) :
    List.Forall₂ (fun d entry => ∃ actor action, d.request = .platform actor tenantId action ∧
        entry = auditEntry actor tenantId action) (lifecycle.on tenantId history)
      (auditsOf tenantId (history.flatMap fun d => d.request.entries d.plan)) := by
  induction history with
  | nil => exact .nil
  | cons d rest ih =>
      have hrest := ih (fun d' hd' => hcolumns d' (List.mem_cons_of_mem d hd'))
        fun d' hd' => hplatform d' (by
          unfold GuardedWrite.on at hd' ⊢
          rw [List.mem_filter] at hd' ⊢
          exact ⟨List.mem_cons_of_mem d hd'.1, hd'.2⟩)
      have hkey : lifecycle.key d.request = d.request.tenantId := rfl
      unfold GuardedWrite.on at hrest hplatform ⊢
      rw [List.flatMap_cons, auditsOf_append]
      by_cases hd : d.request.tenantId = tenantId
      · have hmem : (decide (lifecycle.key d.request = tenantId)) = true := by simpa [hkey] using hd
        rw [List.filter_cons_of_pos (by simpa using hmem)] at hplatform ⊢
        obtain ⟨actor, action, now, events, hrequest, hplan⟩ := hplatform d List.mem_cons_self
        rw [hrequest, hplan, auditsOf_platform, if_pos rfl]
        exact .cons ⟨actor, action, hrequest, rfl⟩ hrest
      · rw [List.filter_cons_of_neg (by simpa [hkey] using hd)]
        have hnone : auditsOf tenantId (d.request.entries d.plan) = [] := by
          cases hrequest : d.request with
          | platform actor id action =>
              obtain ⟨now, events, hplan⟩ := hcolumns d List.mem_cons_self actor id action hrequest
              rw [hrequest] at hd
              have hid : id ≠ tenantId := hd
              rw [hplan, auditsOf_platform, if_neg hid]
          | business id id' op => exact auditsOf_business nofun
          | createBusiness id input => exact auditsOf_business nofun
        rw [hnone]
        exact hrest

/-- The audit entries lead from the status of the first row to that of the last. -/
theorem replayAudit_of_replays {t₀ : TenantRow} {row : Option TenantRow}
    {audits : List (PlatformAuditLog TenantMetadata)}
    (h : lifecycle.Replays (some t₀) history row)
    (hplatform : ∀ d ∈ history, IsPlatform tenantId d)
    (haudits : List.Forall₂ (fun d entry => ∃ actor action,
      d.request = LifecycleRequest.platform actor tenantId action ∧
        entry = auditEntry actor tenantId action) history audits) :
    ∃ t, row = some t ∧ replayAudit t₀.status audits = some t.status := by
  induction haudits generalizing t₀ with
  | nil => exact ⟨t₀, h, rfl⟩
  | @cons d entry rest audits hd _ ih =>
      obtain ⟨t₁, hwrite, hrest⟩ := h
      obtain ⟨actor, action, hrequest, rfl⟩ := hd
      obtain ⟨actor', action', now, events, hrequest', hplan⟩ := hplatform d List.mem_cons_self
      change d.request.write d.plan (some t₀) = some t₁ at hwrite
      rw [hplan] at hwrite
      obtain ⟨actor₁, id₁, action₁, t, hrequest₁, ht, hrequires, rfl⟩ := write_columns hwrite
      rw [hrequest] at hrequest₁
      cases hrequest₁
      cases ht
      obtain ⟨t, hrow, hreplay⟩ := ih hrest fun d' hd' => hplatform d' (List.mem_cons_of_mem d hd')
      refine ⟨t, hrow, ?_⟩
      unfold replayAudit at hreplay ⊢
      rw [List.foldlM_cons, auditStep_entry now hrequires]
      exact hreplay

theorem prepare_platform {actor id : String} {action : PlatformAction} {now : Int}
    {row : Option TenantRow} {c : LifecyclePlan}
    (h : (LifecycleRequest.platform actor id action).prepare now row = .ok c) :
    ∃ events, c = .columns now events := by
  unfold LifecycleRequest.prepare at h
  cases row with
  | none => cases h
  | some t =>
      dsimp only at h
      split at h
      · cases h
      · cases hdecide : action.decide now (.forTarget actor t.status t.deletedAt) with
        | error e =>
            rw [hdecide] at h
            cases h
        | ok a =>
            rw [hdecide] at h
            cases h
            exact ⟨_, rfl⟩

/-- However the calls interleave and crash: when the accepted calls on a tenant are platform
actions, the audit log has gained one entry for each of them, in the order of their commits, and
its entries lead step by step from the status the tenant had to the one it has. -/
theorem audit_path (rows : List TenantRow) (log : List LifecycleLog) (es : LifecycleRun)
    (tenantId : String) (t₀ : TenantRow) (ht₀ : rows.find? (·.id = tenantId) = some t₀)
    (hplatform : ∀ p r c, (lifecycleAfter rows log es).at_ p = some (.done r c) →
      r.tenantId = tenantId → ∃ actor action, r = .platform actor tenantId action) :
    ∃ calls audits t, calls.Nodup ∧
      (∀ p, p ∈ calls ↔ ∃ r c, (lifecycleAfter rows log es).at_ p = some (.done r c) ∧
        r.tenantId = tenantId) ∧
      List.Forall₂ (fun p entry => ∃ actor action c,
        (lifecycleAfter rows log es).at_ p = some (.done (.platform actor tenantId action) c) ∧
          entry = auditEntry actor tenantId action) calls audits ∧
      auditsOf tenantId (lifecycleAfter rows log es).store.log.committed =
        auditsOf tenantId log ++ audits ∧
      (lifecycleAfter rows log es).store.row tenantId = some t ∧
      replayAudit t₀.status audits = some t.status := by
  obtain ⟨history, h, hplans, -⟩ := lifecycle.linearized (P := fun _ _ => True)
    (Q := fun r c => ∀ actor id action, r = .platform actor id action →
      ∃ now events, c = .columns now events)
    (fun r now row c _ hc actor id action hr => by
      subst hr
      exact ⟨now, prepare_platform (toOption_eq_some hc)⟩)
    (fun _ _ _ _ _ _ _ => trivial) (.opening TenantRow.id rows log) (fun _ => trivial)
    (fun _ => rfl) rfl es
  have hmem {d : Effect LifecycleRequest LifecyclePlan} :
      d ∈ lifecycle.on tenantId history ↔
        (lifecycleAfter rows log es).at_ d.call = some (.done d.request d.plan) ∧
          d.request.tenantId = tenantId := by
    have hdone := h.done d.call d.request d.plan
    have hkey : lifecycle.key d.request = d.request.tenantId := rfl
    unfold GuardedWrite.on
    rw [List.mem_filter, hkey, decide_eq_true_iff]
    exact and_congr_left fun _ => hdone.symm
  have hplat : ∀ d ∈ lifecycle.on tenantId history, IsPlatform tenantId d := by
    intro d hd
    obtain ⟨hdone, hid⟩ := hmem.mp hd
    obtain ⟨actor, action, hrequest⟩ := hplatform _ _ _ hdone hid
    obtain ⟨now, events, hplan⟩ := hplans d ((h.done _ _ _).mp hdone) actor tenantId action hrequest
    exact ⟨actor, action, now, events, hrequest, hplan⟩
  have haudits := auditsOf_history (fun d hd => hplans d hd) hplat
  have hstart : (GuardedStore.opening TenantRow.id rows log).row tenantId = some t₀ := ht₀
  have hreplays := h.row tenantId
  rw [hstart] at hreplays
  obtain ⟨t, hrow, hreplay⟩ := replayAudit_of_replays hreplays hplat haudits
  refine ⟨(lifecycle.on tenantId history).map Effect.call, _, t, ?_, ?_, ?_, ?_, hrow, hreplay⟩
  · exact h.nodup.sublist (List.Sublist.map _ List.filter_sublist)
  · intro p
    rw [List.mem_map]
    constructor
    · rintro ⟨d, hd, rfl⟩
      exact ⟨_, _, hmem.mp hd⟩
    · rintro ⟨r, c, hdone, hid⟩
      exact ⟨⟨p, r, c⟩, hmem.mpr ⟨hdone, hid⟩, rfl⟩
  · rw [List.forall₂_map_left_iff]
    refine List.Forall₂.imp ?_ ((List.forall₂_and_left _ _).mpr
      ⟨fun d hd => (hmem.mp hd).1, haudits⟩)
    rintro d entry ⟨hdone, actor, action, hrequest, hentry⟩
    rw [hrequest] at hdone
    exact ⟨actor, action, d.plan, hdone, hentry⟩
  · exact (congrArg (auditsOf tenantId) h.log).trans (auditsOf_append tenantId log _)

/-- A suspension and a deactivation that read the same status; a third action is refused. -/
def threeActions : LifecycleRun :=
  [.spawn 0 (SuperAdminService.suspendTenant "a" "t" (some "fraud")),
    .spawn 1 (SuperAdminService.deactivateTenant "b" "t" none),
    .spawn 2 (SuperAdminService.suspendTenant "c" "t" none), .step 0 1, .step 1 2, .step 2 3] ++
    (List.replicate 4 4).map (.step 0) ++ (List.replicate 4 5).map (.step 1) ++ [.step 2 6]

theorem audit_path_three :
    (lifecycleAfter [activeTenant] [] threeActions).at_ 2 = some .rejected ∧
      ∃ audits t, (lifecycleAfter [activeTenant] [] threeActions).store.row "t" = some t ∧
        replayAudit .active audits = some t.status := by
  have honly : ∀ p r c, (lifecycleAfter [activeTenant] [] threeActions).at_ p = some (.done r c) →
      r.tenantId = "t" → ∃ actor action, r = .platform actor "t" action := by
    intro p r c hdone _
    have hp : p = 0 ∨ p = 1 ∨ p = 2 ∨ 2 < p := by omega
    obtain rfl | rfl | rfl | hp := hp
    · have hat : (lifecycleAfter [activeTenant] [] threeActions).at_ 0 =
          some (.done (SuperAdminService.suspendTenant "a" "t" (some "fraud"))
            (.columns 1 [.tenantSuspended "a" (some "fraud")])) := by decide +kernel
      rw [hat] at hdone
      cases hdone
      exact ⟨"a", _, rfl⟩
    · have hat : (lifecycleAfter [activeTenant] [] threeActions).at_ 1 =
          some (.done (SuperAdminService.deactivateTenant "b" "t" none)
            (.columns 2 [.tenantDeactivated "b" none])) := by decide +kernel
      rw [hat] at hdone
      cases hdone
      exact ⟨"b", _, rfl⟩
    · have hat : (lifecycleAfter [activeTenant] [] threeActions).at_ 2 = some .rejected := by
        decide +kernel
      rw [hat] at hdone
      cases hdone
    · have hnone : (lifecycleAfter [activeTenant] [] threeActions).at_ p = none := by
        refine lifecycle.system.run_at_none _ rfl fun r hr => ?_
        have hle : ∀ e ∈ threeActions, ∀ q r, e = .spawn q r → q ≤ 2 := by
          intro e he q r hq
          subst hq
          simp [threeActions] at he
          omega
        have := hle _ hr p r rfl
        omega
      rw [hnone] at hdone
      cases hdone
  obtain ⟨-, audits, t, -, -, -, -, hrow, hreplay⟩ :=
    audit_path [activeTenant] [] threeActions "t" activeTenant (by decide) honly
  exact ⟨by decide +kernel, audits, t, hrow, hreplay⟩

end Platform
end ERP
