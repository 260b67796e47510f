import ERP.Billing.SubscriptionCalls
import ERP.Billing.SubscriptionRuns

/-!
# Subscription changes in some order

A call takes its turn at the step that writes, or at the read that decided that
there is nothing to write.  As long as no save overwrites a row that was changed
since it was loaded, the tables are at every moment what the calls that took their
turn make of them one after the other.
-/

namespace ERP
namespace Billing

open Lib Lib.Tx

variable {db db' : BillingDB} {a a' : SubscriptionAggregate} {i id tenantId : Id}
  {request : ChangeRequest}

/-- No tenant has two subscriptions: the column is unique. -/
def OnePerTenant (db : BillingDB) : Prop :=
  ∀ r ∈ db.subscriptions.toList, ∀ r' ∈ db.subscriptions.toList,
    r.tenantId = r'.tenantId → r.id = r'.id

/-- The columns that no operation changes. -/
def Subscription.owner (row : Subscription) : Id × Bool := (row.tenantId, row.deleted)

/-- The subscriptions are still those of the same tenants, and the plans the same. -/
structure SameOwners (db db' : BillingDB) : Prop where
  plans : db'.plans = db.plans
  owners : ∀ i, (db'.subscriptions.get i).map Subscription.owner =
    (db.subscriptions.get i).map Subscription.owner

namespace SameOwners

theorem refl (db : BillingDB) : SameOwners db db := ⟨rfl, fun _ => rfl⟩

theorem trans {db'' : BillingDB} (h : SameOwners db db') (h' : SameOwners db' db'') :
    SameOwners db db'' :=
  ⟨h'.plans.trans h.plans, fun i => (h'.owners i).trans (h.owners i)⟩

/-- Tables with the same plans and subscriptions. -/
theorem of_eq (hplans : db'.plans = db.plans) (hsub : db'.subscriptions = db.subscriptions) :
    SameOwners db db' := ⟨hplans, fun i => by rw [hsub]⟩

theorem update (db : BillingDB) {p : Subscription → Bool} {f : Subscription → Subscription}
    (hf : ∀ r, (f r).id = r.id) (howner : ∀ r, (f r).owner = r.owner) :
    SameOwners db (db.updateSubscriptions p f hf) := by
  refine ⟨rfl, fun i => ?_⟩
  have hget := Rows.get_updateMany db.subscriptions p f hf i
  refine (congrArg (Option.map Subscription.owner) hget).trans ?_
  rw [Option.map_map]
  congr 1
  funext r
  show (if p r then f r else r).owner = r.owner
  split
  · exact howner r
  · rfl

theorem save (db : BillingDB) (a : SubscriptionAggregate) : SameOwners db (db.save a) := by
  have hrow := SameOwners.update db (p := fun row => row.id = a.props.id)
    (f := fun row => { row with
      status := a.props.status
      planId := a.props.planId
      pendingPlanId := a.props.pendingPlanId
      endedAt := a.props.endedAt }) (fun _ => rfl) fun _ => rfl
  exact hrow.trans (SameOwners.of_eq rfl rfl)

theorem setSubscriptionStatus (db : BillingDB) (status : SubscriptionStatus) :
    SameOwners db (db.setSubscriptionStatus id tenantId status) :=
  SameOwners.update db (f := fun row => { row with status }) (fun _ => rfl) fun _ => rfl

theorem recordPaid (db : BillingDB) (invoice : Invoice) :
    SameOwners db (db.recordPaid invoice) := by
  unfold BillingDB.recordPaid
  cases invoice.subscriptionId with
  | none => exact SameOwners.of_eq rfl rfl
  | some id => exact (setSubscriptionStatus db .active).trans (SameOwners.of_eq rfl rfl)

theorem recordFailed (db : BillingDB) (invoice : Invoice) (reason : Option String) :
    SameOwners db (db.recordFailed invoice reason) := by
  have hpublish (event : BillingEvent) (tables : BillingDB) :
      SameOwners tables (tables.publish event) := SameOwners.of_eq rfl rfl
  unfold BillingDB.recordFailed
  dsimp only
  split
  · exact (hpublish _ _).trans ((setSubscriptionStatus _ .pastDue).trans (hpublish _ _))
  · exact hpublish _ _

/-- A subscription as it was, in the tables as they are. -/
theorem row_of_get (h : SameOwners db db') {row : Subscription}
    (hget : db'.subscriptions.get i = some row) :
    ∃ old, db.subscriptions.get i = some old ∧ old.owner = row.owner := by
  have howner := h.owners i
  rw [hget, Option.map_some] at howner
  exact Option.map_eq_some_iff.mp howner.symm

theorem onePerTenant (h : SameOwners db db') (hone : OnePerTenant db) : OnePerTenant db' := by
  intro r hr r' hr' htenant
  obtain ⟨old, hold, howner⟩ := h.row_of_get (Rows.get_of_mem hr)
  obtain ⟨old', hold', howner'⟩ := h.row_of_get (Rows.get_of_mem hr')
  have hsame : old.tenantId = old'.tenantId :=
    (congrArg Prod.fst howner).trans (htenant.trans (congrArg Prod.fst howner').symm)
  have hid := hone old (Rows.mem_of_get hold) old' (Rows.mem_of_get hold') hsame
  rw [Rows.key_of_get hold, Rows.key_of_get hold'] at hid
  exact hid

end SameOwners

/-! ## Loading again -/

theorem toAggregate_congr (h : db'.plans = db.plans) (row : Subscription) :
    db'.toAggregate row = db.toAggregate row := by
  unfold BillingDB.toAggregate BillingDB.planById
  rw [h]

theorem offeredPlan_congr (h : db'.plans = db.plans) (planId : Id) :
    db'.offeredPlan planId = db.offeredPlan planId := by
  unfold BillingDB.offeredPlan
  rw [h]

/-- A load that finds the row as it was returns what it returned. -/
theorem requireSubscription_again {missing : BillingFailure}
    (h : db.requireSubscription missing id tenantId = .ok a) (hplans : db'.plans = db.plans)
    (hget : db'.subscriptions.get a.props.id = some a.props) :
    db'.requireSubscription missing id tenantId = .ok a := by
  obtain ⟨hid, htenant, hdeleted, hload⟩ := requireSubscription_loaded h
  have hfind : db'.subscriptionById id tenantId = some a.props := by
    rw [hid] at hget
    refine Rows.findFirst_of_get hget (decide_eq_true ⟨hid, htenant, hdeleted⟩) fun r hr => ?_
    rw [decide_eq_true_iff] at hr
    exact hr.1
  unfold BillingDB.requireSubscription
  rw [hfind]
  exact (toAggregate_congr hplans a.props).trans hload

/-- A change made again on the row as it was saves what it saved. -/
theorem changeSubscription_again {missing : BillingFailure}
    {method : SubscriptionAggregate → Except BillingFailure SubscriptionAggregate}
    (h : db.requireSubscription missing id tenantId = .ok a) (hplans : db'.plans = db.plans)
    (hget : db'.subscriptions.get a.props.id = some a.props) (hmethod : method a = .ok a') :
    (db'.changeSubscription missing id tenantId method).toOption.getD db' = db'.save a' := by
  rw [changeSubscription_of_load (requireSubscription_again h hplans hget), hmethod]
  rfl

/-! ## What a call has in hand -/

/-- Run alone on tables where the row of `a` is as it was loaded, the request does
`write`. -/
def Does (db : BillingDB) (request : ChangeRequest) (a : SubscriptionAggregate)
    (write : BillingDB → BillingDB) : Prop :=
  ∀ db', SameOwners db db' → db'.subscriptions.get a.props.id = some a.props →
    request.op.exec db' = write db'

/-- A tenant's subscription that the administration has read. -/
def ReadBy (db : BillingDB) (request : ChangeRequest) (subscription : Subscription)
    (newPlanId : Id) : Prop :=
  request = .changeTenantPlan subscription.tenantId newPlanId ∧ subscription.deleted = false ∧
    (db.subscriptions.get subscription.id).map Subscription.owner = some subscription.owner

namespace ChangeCall

/-- What a call knows of the tables it has read. -/
def Sound (db : BillingDB) : ChangeCall → Prop
  | .planning request a planId => ∀ newPlan a', db.offeredPlan planId = some newPlan →
      a.schedulePlanChange newPlan = .ok a' → Does db request a fun db' => db'.save a'
  | .saving request a a' => Does db request a fun db' => db'.save a'
  | .expiring request now due =>
      ∃ a, due = [a] ∧ Does db request a fun db' => db'.expireIfDue now a
  | .settling request invoiceId tenantId => request = .handlePaymentSuccess invoiceId tenantId
  | .choosing request subscription newPlanId => ReadBy db request subscription newPlanId
  | .scheduling request subscription newPlan => ∃ newPlanId,
      ReadBy db request subscription newPlanId ∧ db.offeredPlan newPlanId = some newPlan ∧
        subscription.nextPending newPlan ≠ subscription.pendingPlanId
  | _ => True

/-- The request of a call that has taken its turn.  The administration that finds the
plan already scheduled took it when it read the subscription. -/
def took (db : BillingDB) : ChangeCall → Option ChangeRequest
  | .done request => some request
  | .invoicing request => some request
  | .choosing request subscription newPlanId =>
      if (db.offeredPlan newPlanId).any fun newPlan =>
          subscription.nextPending newPlan = subscription.pendingPlanId then some request
      else none
  | _ => none

/-- Every save finds the row as its call loaded it, and no renewal that has saved the
subscription fails to create its invoice. -/
def Fresh (db : BillingDB) (answer : Option String) : ChangeCall → Prop
  | .saving _ a _ => db.subscriptions.get a.props.id = some a.props
  | .expiring _ _ (a :: _) => db.subscriptions.get a.props.id = some a.props
  | .invoicing _ => answer = none
  | _ => True

end ChangeCall

open ChangeCall

/-- A step either leaves the tables alone, or is the turn of the call. -/
def Advances (db : BillingDB) (s : BillingDB) (k k' : ChangeCall) (s' : BillingDB) : Prop :=
  k'.Sound db ∧ ((s' = s ∧ k'.took db = k.took db) ∨
    ∃ request, k.took db = none ∧ k'.took db = some request ∧ s' = request.op.exec s ∧
      SameOwners s s')

variable {s : BillingDB}

theorem Advances.fail {k : ChangeCall} (hk : k.took db = none) (message : String) :
    Advances db s k (.failed request message) s := ⟨trivial, .inl ⟨rfl, hk.symm⟩⟩

/-- A call that answers without a write took its turn just now. -/
theorem Advances.answer {k : ChangeCall} (hk : k.took db = none) (hexec : request.op.exec s = s) :
    Advances db s k (.done request) s :=
  ⟨trivial, .inr ⟨request, hk, rfl, hexec.symm, SameOwners.refl s⟩⟩

theorem Advances.change {k : ChangeCall} {loaded : Except BillingFailure SubscriptionAggregate}
    {method : SubscriptionAggregate → Except BillingFailure SubscriptionAggregate}
    (hk : k.took db = none)
    (hdoes : ∀ a a', loaded = .ok a → method a = .ok a' →
      Does db request a fun db' => db'.save a') :
    Advances db s k (ChangeCall.change request loaded method) s := by
  unfold ChangeCall.change
  cases loaded with
  | error e => exact Advances.fail hk _
  | ok a =>
      cases hmethod : method a with
      | error e =>
          simp only [hmethod]
          exact Advances.fail hk _
      | ok a' =>
          simp only [hmethod]
          exact ⟨hdoes a a' rfl hmethod, .inl ⟨rfl, hk.symm⟩⟩

/-! ## The first step -/

/-- The subscriptions a load of the whole tenant returns: one or none. -/
theorem loaded_of_tenant (hone : OnePerTenant db) {subs : List SubscriptionAggregate}
    (h : (db.subscriptions.toList.filter fun row =>
      row.tenantId = tenantId ∧ row.deleted = false).mapM db.toAggregate = .ok subs) :
    subs = [] ∨ ∃ a, subs = [a] ∧ a.props ∈ db.subscriptions.toList ∧
      a.props.tenantId = tenantId ∧ a.props.deleted = false ∧ db.toAggregate a.props = .ok a := by
  cases hrows : db.subscriptions.toList.filter fun row =>
      row.tenantId = tenantId ∧ row.deleted = false with
  | nil =>
      rw [hrows] at h
      exact .inl (Except.ok.inj h).symm
  | cons row rest =>
      have hmem : row ∈ db.subscriptions.toList.filter fun row =>
          row.tenantId = tenantId ∧ row.deleted = false := by
        rw [hrows]
        exact List.mem_cons_self
      obtain ⟨hrow, hsat⟩ := List.mem_filter.mp hmem
      have howner := of_decide_eq_true hsat
      have hsingle := Rows.filter_eq_singleton (p := fun row =>
          decide (row.tenantId = tenantId ∧ row.deleted = false)) hrow hsat fun r hr hsatr =>
        hone r hr row hrow ((of_decide_eq_true hsatr).1.trans howner.1.symm)
      rw [hsingle] at h
      right
      cases hload : db.toAggregate row with
      | error e =>
          rw [List.mapM_cons, hload] at h
          cases h
      | ok a =>
          rw [List.mapM_cons, hload] at h
          have hprops := (toAggregate_ok hload).1
          refine ⟨a, (Except.ok.inj h).symm, ?_⟩
          rw [hprops]
          exact ⟨hrow, howner.1, howner.2, hload⟩

/-- Loading the whole tenant again, where the row is as it was. -/
theorem load_tenant_again (hone : OnePerTenant db') (hplans : db'.plans = db.plans)
    (hget : db'.subscriptions.get a.props.id = some a.props) (hdeleted : a.props.deleted = false)
    (hload : db.toAggregate a.props = .ok a) :
    (db'.subscriptions.toList.filter fun row =>
      row.tenantId = a.props.tenantId ∧ row.deleted = false).mapM db'.toAggregate = .ok [a] := by
  have hrow := Rows.mem_of_get hget
  have hsingle := Rows.filter_eq_singleton (p := fun row =>
      decide (row.tenantId = a.props.tenantId ∧ row.deleted = false)) hrow
    (decide_eq_true ⟨rfl, hdeleted⟩) fun r hr hsat =>
      hone r hr a.props hrow (of_decide_eq_true hsat).1
  rw [hsingle, List.mapM_cons, toAggregate_congr hplans, hload]
  rfl

theorem expireIfDue_of_not_due {now : Int} (h : ¬ a.isDue now = true) :
    s.expireIfDue now a = s := by
  unfold BillingDB.expireIfDue
  exact if_neg h

theorem load_expired_advances (hsame : SameOwners db s) (hone : OnePerTenant db) (now : Int) :
    Advances db s (.loading (.handleExpiredSubscriptions tenantId now))
      (load s (.handleExpiredSubscriptions tenantId now)) s := by
  unfold load
  dsimp only
  cases hload : (s.subscriptions.toList.filter fun row =>
      row.tenantId = tenantId ∧ row.deleted = false).mapM s.toAggregate with
  | error e => exact Advances.fail rfl _
  | ok subs =>
      dsimp only
      have hexec : (SubscriptionOp.expire tenantId now).exec s =
          subs.foldl (BillingDB.expireIfDue now) s := by
        show (s.handleExpiredSubscriptions tenantId now).toOption.getD s = _
        unfold BillingDB.handleExpiredSubscriptions
        rw [hload]
        rfl
      rcases loaded_of_tenant (hsame.onePerTenant hone) hload with rfl
        | ⟨a, rfl, -, rfl, hdeleted, hagg⟩
      · exact Advances.answer rfl hexec
      · by_cases hdue : a.isDue now = true
        · rw [List.filter_cons_of_pos hdue, List.filter_nil]
          refine ⟨⟨a, rfl, fun db' hsame' hget => ?_⟩, .inl ⟨rfl, rfl⟩⟩
          rw [toAggregate_congr hsame.plans] at hagg
          have hagain := load_tenant_again (hsame'.onePerTenant hone) hsame'.plans hget hdeleted
            hagg
          show (db'.handleExpiredSubscriptions a.props.tenantId now).toOption.getD db' = _
          unfold BillingDB.handleExpiredSubscriptions
          rw [hagain]
          rfl
        · rw [List.filter_cons_of_neg hdue, List.filter_nil]
          exact Advances.answer rfl (hexec.trans (expireIfDue_of_not_due hdue))

/-- What `changeTenantPlan` does alone, by what it reads. -/
theorem changeTenantPlan_of_read {subscription : Subscription} {newPlan : Plan} {planId : Id}
    (hfind : (s.subscriptions.findFirst fun row =>
      row.tenantId = tenantId ∧ row.deleted = false) = some subscription)
    (hplan : s.offeredPlan planId = some newPlan) :
    s.changeTenantPlan tenantId planId =
      if subscription.nextPending newPlan = subscription.pendingPlanId then .ok s
      else if s.subscriptions.count subscription.isAsRead ≠ 1 then .error .planChanged
      else .ok (s.schedule subscription newPlan) := by
  unfold BillingDB.changeTenantPlan
  rw [hfind]
  dsimp only
  rw [hplan]
  rfl

theorem load_plan_advances (hsame : SameOwners db s) {planId : Id} :
    Advances db s (.loading (.changeTenantPlan tenantId planId))
      (load s (.changeTenantPlan tenantId planId)) s := by
  unfold load
  dsimp only
  cases hfind : s.subscriptions.findFirst fun row =>
      row.tenantId = tenantId ∧ row.deleted = false with
  | none => exact Advances.fail rfl _
  | some subscription =>
      dsimp only
      have hsat := Rows.sat_of_findFirst hfind
      rw [decide_eq_true_iff] at hsat
      have hget := Rows.get_of_mem (Rows.mem_of_findFirst hfind)
      have hread : ReadBy db (.changeTenantPlan tenantId planId) subscription planId := by
        refine ⟨by rw [hsat.1], hsat.2, ?_⟩
        rw [← hsame.owners, hget, Option.map_some]
      refine ⟨hread, ?_⟩
      by_cases hearly : (db.offeredPlan planId).any fun newPlan =>
          subscription.nextPending newPlan = subscription.pendingPlanId
      · -- nothing is left to write, whatever becomes of the row
        refine .inr ⟨.changeTenantPlan tenantId planId, rfl, if_pos hearly, ?_, SameOwners.refl s⟩
        obtain ⟨newPlan, hplan, hnext⟩ := (Option.any_eq_true _ _).mp hearly
        rw [← offeredPlan_congr hsame.plans] at hplan
        show s = (s.changeTenantPlan tenantId planId).toOption.getD s
        rw [changeTenantPlan_of_read hfind hplan, if_pos (of_decide_eq_true hnext)]
        rfl
      · exact .inl ⟨rfl, if_neg hearly⟩

theorem load_advances (hsame : SameOwners db s) (hone : OnePerTenant db)
    (request : ChangeRequest) : Advances db s (.loading request) (load s request) s := by
  have hplans (db' : BillingDB) (h : SameOwners db db') : db'.plans = s.plans :=
    h.plans.trans hsame.plans.symm
  cases request with
  | changePlan id tenantId planId now =>
      unfold load
      dsimp only
      cases hload : s.requireSubscription .subscriptionNotFound id tenantId with
      | error e => exact Advances.fail rfl _
      | ok a =>
          dsimp only
          split
          · rename_i hactive
            refine ⟨fun newPlan a' hoffered hmethod db' hsame' hget => ?_, .inl ⟨rfl, rfl⟩⟩
            refine changeSubscription_again hload (hplans db' hsame') hget ?_
            rw [if_pos hactive, offeredPlan_congr hsame'.plans, hoffered]
            exact hmethod
          · exact Advances.fail rfl _
  | cancelSubscription id tenantId =>
      exact Advances.change rfl fun a a' hload hmethod db' hsame' hget =>
        changeSubscription_again hload (hplans db' hsame') hget hmethod
  | suspendSubscription id tenantId =>
      exact Advances.change rfl fun a a' hload hmethod db' hsame' hget =>
        changeSubscription_again hload (hplans db' hsame') hget hmethod
  | resumeSubscription id tenantId now =>
      exact Advances.change rfl fun a a' hload hmethod db' hsame' hget =>
        changeSubscription_again hload (hplans db' hsame') hget hmethod
  | renewSubscription id tenantId periodStart periodEnd =>
      exact Advances.change rfl fun a a' hload hmethod db' hsame' hget =>
        changeSubscription_again hload (hplans db' hsame') hget hmethod
  | handleExpiredSubscriptions tenantId now => exact load_expired_advances hsame hone now
  | handlePaymentSuccess invoiceId tenantId =>
      unfold load
      dsimp only
      cases hfind : s.invoiceById invoiceId tenantId with
      | none => exact Advances.fail rfl _
      | some invoice =>
          dsimp only
          split
          · rename_i hpaid
            refine Advances.answer rfl ?_
            show s.handlePaymentSuccess invoiceId tenantId = s
            unfold BillingDB.handlePaymentSuccess
            rw [hfind]
            exact if_pos hpaid
          · exact ⟨rfl, .inl ⟨rfl, rfl⟩⟩
  | processXenditWebhookEvent key input => exact ⟨trivial, .inl ⟨rfl, rfl⟩⟩
  | changeTenantPlan tenantId planId => exact load_plan_advances hsame

/-! ## The steps after it -/

/-- A transaction that is what the request does alone. -/
theorem finish_advances {α : Type} {m : BillingTx α} {k : ChangeCall} (hk : k.took db = none)
    (hexec : commit m s = request.op.exec s)
    (hok : ∀ x s', m s = .ok (x, s') → SameOwners s s') :
    Advances db s k (finish request m s).1 (finish request m s).2 := by
  unfold finish
  cases hm : m s with
  | error e => exact Advances.fail hk _
  | ok result =>
      rw [commit_of_ok hm] at hexec
      exact ⟨trivial, .inr ⟨request, hk, rfl, hexec, hok _ _ hm⟩⟩

theorem webhook_sameOwners {key : String} {input : XenditWebhookInput} {outcome : WebhookOutcome}
    {s' : BillingDB} (h : processXenditWebhookEvent key input s = .ok (outcome, s')) :
    SameOwners s s' := by
  rcases (processXenditWebhookEvent_post s key input).of_ok h with
    ⟨-, -, hs'⟩ | ⟨-, -, hs'⟩ | ⟨invoice, transition, -, -, -, -, -, -, -, hs'⟩
  · rw [hs']
    exact SameOwners.refl s
  · rw [hs']
    exact SameOwners.of_eq rfl rfl
  · rw [hs']
    have hinvoice (tables : BillingDB) (hsame : SameOwners s tables) :
        SameOwners s ((if transition = .paid then tables.recordPaid invoice
          else tables.recordFailed invoice input.status).setReceiptOutcome key .processed) := by
      have hreceipt (written : BillingDB) :
          SameOwners written (written.setReceiptOutcome key .processed) := SameOwners.of_eq rfl rfl
      split
      · exact (hsame.trans (SameOwners.recordPaid _ _)).trans (hreceipt _)
      · exact (hsame.trans (SameOwners.recordFailed _ _ _)).trans (hreceipt _)
    exact hinvoice _ (SameOwners.of_eq rfl rfl)

theorem settlePaid_sameOwners {invoiceId : Id} {settled : Option Invoice} {s' : BillingDB}
    (h : settlePaidInvoice invoiceId tenantId s = .ok (settled, s')) : SameOwners s s' := by
  rcases (settlePaidInvoice_post s invoiceId tenantId).of_ok h with
    ⟨-, hs'⟩ | ⟨invoice, -, -, hs'⟩
  · rw [hs']
    exact SameOwners.refl s
  · rw [hs']
    have hinvoice (tables : BillingDB) (hsame : SameOwners s tables) :
        SameOwners s (tables.recordPaid invoice) := hsame.trans (SameOwners.recordPaid _ _)
    exact hinvoice _ (SameOwners.of_eq rfl rfl)

/-- Settling without having read the invoice first comes to the same. -/
theorem commit_settlePaid (invoiceId tenantId : Id) :
    commit (settlePaidInvoice invoiceId tenantId) s =
    s.handlePaymentSuccess invoiceId tenantId := by
  obtain ⟨_, s', hm, h⟩ := (settlePaidInvoice_post s invoiceId tenantId).exists_ok
  have hcommit := commit_of_ok hm
  unfold BillingDB.handlePaymentSuccess
  cases hfind : s.invoiceById invoiceId tenantId with
  | none =>
      rcases h with ⟨-, rfl⟩ | ⟨invoice, hget, hpending, -⟩
      · exact hcommit
      · rw [invoiceById_of_isPending hget hpending] at hfind
        cases hfind
  | some invoice =>
      dsimp only
      split
      · rename_i hpaid
        rcases h with ⟨-, rfl⟩ | ⟨found, hget, hpending, -⟩
        · exact hcommit
        · rw [invoiceById_of_isPending hget hpending] at hfind
          cases hfind
          have hstatus := (isPending_iff.mp hpending).2.2.2
          rw [hpaid] at hstatus
          cases hstatus
      · rfl

/-- The administration's update finds its row with the plans it read, so alone it
would have read the same. -/
theorem schedule_advances (hsame : SameOwners db s) (hone : OnePerTenant db)
    {subscription : Subscription} {newPlan : Plan}
    (hsound : (ChangeCall.scheduling request subscription newPlan).Sound db)
    (hcount : s.subscriptions.count subscription.isAsRead = 1) :
    request.op.exec s = s.schedule subscription newPlan := by
  obtain ⟨planId, ⟨rfl, hdeleted, howner⟩, hplan, hnext⟩ := hsound
  rw [← offeredPlan_congr hsame.plans] at hplan
  have hkey (r : Subscription) (hr : subscription.isAsRead r = true) : r.id = subscription.id :=
    (of_decide_eq_true hr).1
  have hany : (s.subscriptions.get subscription.id).any subscription.isAsRead = true := by
    by_contra hnone
    have hzero := Rows.count_of_key s.subscriptions hkey
    rw [if_neg hnone, hcount] at hzero
    cases hzero
  obtain ⟨row, hget, hasRead⟩ := (Option.any_eq_true _ _).mp hany
  have hread : row.id = subscription.id ∧ row.planId = subscription.planId ∧
      row.pendingPlanId = subscription.pendingPlanId := of_decide_eq_true hasRead
  rw [← hsame.owners, hget, Option.map_some] at howner
  have htenant : row.tenantId = subscription.tenantId :=
    congrArg Prod.fst (Option.some.inj howner)
  have hkept : row.deleted = false :=
    (congrArg Prod.snd (Option.some.inj howner)).trans hdeleted
  have hfind : (s.subscriptions.findFirst fun r =>
      r.tenantId = subscription.tenantId ∧ r.deleted = false) = some row := by
    have hsingle := Rows.filter_eq_singleton (p := fun r =>
        decide (r.tenantId = subscription.tenantId ∧ r.deleted = false)) (Rows.mem_of_get hget)
      (decide_eq_true ⟨htenant, hkept⟩) fun r hr hsat =>
        hsame.onePerTenant hone r hr row (Rows.mem_of_get hget)
          ((of_decide_eq_true hsat).1.trans htenant.symm)
    refine List.head?_filter.symm.trans ?_
    rw [hsingle]
    rfl
  have hpending : row.nextPending newPlan = subscription.nextPending newPlan := by
    unfold Subscription.nextPending
    rw [hread.2.1]
  have hsameRead : row.isAsRead = subscription.isAsRead := by
    funext r
    unfold Subscription.isAsRead
    rw [hread.1, hread.2.1, hread.2.2]
  have hschedule : s.schedule row newPlan = s.schedule subscription newPlan := by
    unfold BillingDB.schedule
    simp only [hsameRead, hpending, hread.1, hread.2.1, hread.2.2]
  show (s.changeTenantPlan subscription.tenantId planId).toOption.getD s = _
  rw [changeTenantPlan_of_read hfind hplan, hpending, hread.2.2, if_neg hnext, hsameRead,
    if_neg (fun h => h hcount), hschedule]
  rfl

theorem schedule_sameOwners (subscription : Subscription) (newPlan : Plan) :
    SameOwners s (s.schedule subscription newPlan) := by
  have hrow := SameOwners.update s (p := subscription.isAsRead)
    (f := fun row => { row with pendingPlanId := subscription.nextPending newPlan })
    (fun _ => rfl) fun _ => rfl
  exact hrow.trans (SameOwners.of_eq rfl rfl)

theorem expireIfDue_sameOwners (now : Int) : SameOwners s (s.expireIfDue now a) := by
  unfold BillingDB.expireIfDue
  split
  · split
    · exact SameOwners.save s _
    · exact SameOwners.refl s
  · exact SameOwners.refl s

theorem took_saved (db : BillingDB) (request : ChangeRequest) :
    (saved request).took db = some request := by
  cases request <;> rfl

theorem sound_saved (db : BillingDB) (request : ChangeRequest) : (saved request).Sound db := by
  cases request <;> exact trivial

/-- What one step of a call does. -/
theorem next_advances (hsame : SameOwners db s) (hone : OnePerTenant db) {k : ChangeCall}
    (hsound : k.Sound db) {answer : Option String} (hfresh : k.Fresh s answer) :
    Advances db s k (next answer k s).1 (next answer k s).2 := by
  cases k with
  | loading request =>
      by_cases hwebhook : ∃ key input, request = .processXenditWebhookEvent key input
      · obtain ⟨key, input, rfl⟩ := hwebhook
        exact finish_advances rfl rfl fun _ _ h => webhook_sameOwners h
      · have hnext : next answer (.loading request) s = (load s request, s) := by
          cases request with
          | processXenditWebhookEvent key input => exact absurd ⟨key, input, rfl⟩ hwebhook
          | _ => rfl
        rw [hnext]
        exact load_advances hsame hone request
  | planning request a planId =>
      unfold next
      dsimp only
      cases hplan : s.offeredPlan planId with
      | none => exact Advances.fail rfl _
      | some newPlan =>
          rw [offeredPlan_congr hsame.plans] at hplan
          show Advances db s (.planning request a planId)
            (change request (.ok a) fun a => a.schedulePlanChange newPlan) s
          refine Advances.change (k := .planning request a planId) rfl fun b a' hload hmethod => ?_
          cases hload
          exact hsound newPlan a' hplan hmethod
  | saving request a a' =>
      exact ⟨sound_saved db request, .inr ⟨request, rfl, took_saved db request,
        (hsound s hsame hfresh).symm, SameOwners.save s a'⟩⟩
  | expiring request now due =>
      obtain ⟨a, rfl, hdoes⟩ := hsound
      exact ⟨trivial, .inr ⟨request, rfl, rfl, (hdoes s hsame hfresh).symm,
        expireIfDue_sameOwners now⟩⟩
  | invoicing request =>
      have hanswer : answer = none := hfresh
      rw [hanswer]
      exact ⟨trivial, .inl ⟨rfl, rfl⟩⟩
  | settling request invoiceId tenantId =>
      have hrequest : request = .handlePaymentSuccess invoiceId tenantId := hsound
      rw [hrequest]
      exact finish_advances rfl (commit_settlePaid invoiceId tenantId) fun _ _ h =>
        settlePaid_sameOwners h
  | choosing request subscription newPlanId =>
      unfold next
      dsimp only
      cases hplan : s.offeredPlan newPlanId with
      | none =>
          rw [offeredPlan_congr hsame.plans] at hplan
          have htook : (ChangeCall.choosing request subscription newPlanId).took db = none := by
            simp only [took, hplan]
            rfl
          exact Advances.fail htook _
      | some newPlan =>
          rw [offeredPlan_congr hsame.plans] at hplan
          have htook : (ChangeCall.choosing request subscription newPlanId).took db =
              if subscription.nextPending newPlan = subscription.pendingPlanId then some request
              else none := by
            simp only [took, hplan, Option.any_some, decide_eq_true_eq]
          dsimp only
          by_cases hearly : subscription.nextPending newPlan = subscription.pendingPlanId
          · rw [if_pos hearly] at htook ⊢
            exact ⟨trivial, .inl ⟨rfl, htook.symm⟩⟩
          · rw [if_neg hearly] at htook ⊢
            exact ⟨⟨newPlanId, hsound, hplan, hearly⟩, .inl ⟨rfl, htook.symm⟩⟩
  | scheduling request subscription newPlan =>
      unfold next
      dsimp only
      by_cases hcount : s.subscriptions.count subscription.isAsRead = 1
      · rw [if_neg (fun h => h hcount)]
        exact ⟨trivial, .inr ⟨request, rfl, rfl, (schedule_advances hsame hone hsound hcount).symm,
          schedule_sameOwners subscription newPlan⟩⟩
      · rw [if_pos hcount]
        exact Advances.fail rfl _
  | done request => exact ⟨trivial, .inl ⟨rfl, rfl⟩⟩
  | failed request message => exact ⟨trivial, .inl ⟨rfl, rfl⟩⟩

/-! ## Whole runs -/

/-- The step of a schedule that a call takes is fresh. -/
def FreshStep (w : World BillingDB ChangeCall) : ChangeEvent → Prop
  | .step p answer => ∀ k, w.at_ p = some k → k.Fresh w.store answer
  | _ => True

/-- The turns taken so far explain the tables. -/
structure Explained (db : BillingDB) (order : List Turn) (w : World BillingDB ChangeCall) :
    Prop where
  store : w.store = Turn.run db order
  owners : SameOwners db w.store
  once : ((order.filterMap Turn.made).map Prod.fst).Nodup
  turns : ∀ p request, (p, request) ∈ order.filterMap Turn.made ↔
    ∃ k, w.at_ p = some k ∧ k.took db = some request
  sound : ∀ p k, w.at_ p = some k → k.Sound db

namespace Explained

variable {order : List Turn} {w w' : World BillingDB ChangeCall} {p : Nat} {k k' : ChangeCall}

theorem congr (h : Explained db order w) (hstore : w'.store = w.store) (hat : w'.at_ = w.at_) :
    Explained db order w' where
  store := hstore.trans h.store
  owners := hstore ▸ h.owners
  once := h.once
  turns := hat ▸ h.turns
  sound := hat ▸ h.sound

/-- A call that was not there, or has not taken its turn, moves on without taking it,
or has taken it and stays so. -/
theorem move (h : Explained db order w) (hbefore : ((w.at_ p).bind fun k => k.took db) = k'.took db)
    (hsound : k'.Sound db) (hstore : w'.store = w.store)
    (hat : w'.at_ = Function.update w.at_ p (some k')) : Explained db order w' where
  store := hstore.trans h.store
  owners := hstore ▸ h.owners
  once := h.once
  turns q request := by
    rw [h.turns q request, hat]
    by_cases hq : q = p
    · rw [hq, Function.update_self]
      constructor
      · rintro ⟨k, hk, htook⟩
        rw [hk, Option.bind_some, htook] at hbefore
        exact ⟨k', rfl, hbefore.symm⟩
      · rintro ⟨k, hk, htook⟩
        cases hk
        rw [htook] at hbefore
        exact Option.bind_eq_some_iff.mp hbefore
    · rw [Function.update_of_ne hq]
  sound q k hk := by
    rw [hat] at hk
    by_cases hq : q = p
    · rw [hq, Function.update_self] at hk
      cases hk
      exact hsound
    · rw [Function.update_of_ne hq] at hk
      exact h.sound q k hk

theorem run_append (order : List Turn) (turn : Turn) :
    Turn.run db (order ++ [turn]) = Turn.exec (Turn.run db order) turn := by
  unfold Turn.run
  rw [List.foldl_append]
  rfl

/-- A call takes its turn. -/
theorem take (h : Explained db order w) (hk : w.at_ p = some k) (hnone : k.took db = none)
    {request : ChangeRequest} (htook : k'.took db = some request) (hsound : k'.Sound db)
    (hstore : w'.store = request.op.exec w.store) (howners : SameOwners w.store w'.store)
    (hat : w'.at_ = Function.update w.at_ p (some k')) :
    Explained db (order ++ [.call p request]) w' := by
  have hmade : (order ++ [Turn.call p request]).filterMap Turn.made =
      order.filterMap Turn.made ++ [(p, request)] := by
    rw [List.filterMap_append]
    rfl
  have hnew : p ∉ (order.filterMap Turn.made).map Prod.fst := by
    intro hp
    obtain ⟨⟨q, r⟩, hmem, rfl⟩ := List.mem_map.mp hp
    obtain ⟨found, hfound, hr⟩ := (h.turns q r).mp hmem
    rw [hk] at hfound
    cases hfound
    rw [hnone] at hr
    cases hr
  refine ⟨?_, h.owners.trans howners, ?_, fun q r => ?_, fun q k hq => ?_⟩
  · rw [run_append, ← h.store]
    exact hstore
  · rw [hmade, List.map_append, List.map_singleton]
    refine List.nodup_append.mpr ⟨h.once, List.nodup_singleton _, fun q hq q' hq' hqq => ?_⟩
    rw [List.mem_singleton.mp hq'] at hqq
    have hqp : q = p := hqq
    rw [hqp] at hq
    exact hnew hq
  · rw [hmade, List.mem_append, List.mem_singleton, hat]
    by_cases hq : q = p
    · subst hq
      rw [Function.update_self]
      constructor
      · rintro (hold | heq)
        · exact absurd (List.mem_map_of_mem hold) hnew
        · cases heq
          exact ⟨k', rfl, htook⟩
      · rintro ⟨found, hfound, hr⟩
        cases hfound
        rw [htook] at hr
        cases hr
        exact .inr rfl
    · rw [Function.update_of_ne hq, ← h.turns q r]
      exact ⟨fun hor => hor.resolve_right fun heq => hq (congrArg Prod.fst heq), .inl⟩
  · rw [hat] at hq
    by_cases hqp : q = p
    · rw [hqp, Function.update_self] at hq
      cases hq
      exact hsound
    · rw [Function.update_of_ne hqp] at hq
      exact h.sound q k hq

/-- A write elsewhere is a turn of its own. -/
theorem write (h : Explained db order w) (tables : BillingDB)
    (hstore : w'.store = w.store.elsewhere tables) (hat : w'.at_ = w.at_) :
    Explained db (order ++ [.elsewhere tables]) w' := by
  have hmade : (order ++ [Turn.elsewhere tables]).filterMap Turn.made =
      order.filterMap Turn.made := by
    rw [List.filterMap_append]
    exact List.append_nil _
  refine ⟨?_, ?_, ?_, fun q r => ?_, fun q k hq => h.sound q k (hat ▸ hq)⟩
  · rw [run_append, ← h.store]
    exact hstore
  · rw [hstore]
    exact h.owners.trans (SameOwners.of_eq rfl rfl)
  · rw [hmade]
    exact h.once
  · rw [hmade, hat]
    exact h.turns q r

end Explained

/-- One event of a fresh schedule. -/
theorem exec_explained (hone : OnePerTenant db) (order : List Turn)
    (w : World BillingDB ChangeCall) (e : ChangeEvent) (h : Explained db order w)
    (hfresh : FreshStep w e) :
    ∃ more, Explained db (order ++ more) (subscriptionCalls.exec w e) ∧
      more.filterMap Turn.tables = [e].filterMap written := by
  have hstay {w' : World BillingDB ChangeCall} (h' : Explained db order w')
      (he : written e = none) :
      ∃ more, Explained db (order ++ more) w' ∧
        more.filterMap Turn.tables = [e].filterMap written := by
    refine ⟨[], ?_, ?_⟩
    · rw [List.append_nil]
      exact h'
    · rw [List.filterMap_cons, he]
      rfl
  obtain ⟨p, r, rfl, hp, hs, ha⟩ | ⟨p, c, k, rfl, -, hk, hs, ha⟩ | ⟨tables, rfl, hs, ha⟩ |
    ⟨p, k, rfl, hk, hs, ha⟩ | ⟨hs, ha⟩ := subscriptionCalls.exec_cases w e
  · have hnone : ((w.at_ p).bind fun k => k.took db) = (ChangeCall.loading r).took db := by
      rw [hp]
      rfl
    exact hstay (h.move hnone trivial hs ha) rfl
  · obtain ⟨hsound, ⟨hsame, htook⟩ | ⟨request, hnone, htook, hexec, howners⟩⟩ :=
      next_advances h.owners hone (h.sound p k hk) (hfresh k hk)
    · have hbefore : ((w.at_ p).bind fun k => k.took db) = (next c k w.store).1.took db := by
        rw [hk]
        exact htook.symm
      exact hstay (h.move hbefore hsound (hs.trans hsame) ha) rfl
    · refine ⟨[.call p request], h.take hk hnone htook hsound (hs.trans hexec) ?_ ha, rfl⟩
      rw [hs]
      exact howners
  · exact ⟨[.elsewhere tables], h.write tables hs ha, rfl⟩
  · have hbefore : ((w.at_ p).bind fun k => k.took db) = k.took db := by
      rw [hk]
      rfl
    exact hstay (h.move hbefore (h.sound p k hk) hs ha) rfl
  · cases e with
    | act tables => exact ⟨[.elsewhere tables], h.write tables rfl rfl, rfl⟩
    | spawn p r => exact hstay (h.congr hs ha) rfl
    | step p c => exact hstay (h.congr hs ha) rfl
    | crash p => exact hstay (h.congr hs ha) rfl

/-- When every save of a run finds the row as its call loaded it and no renewal fails
after its save, then at the end, all calls having answered, the tables are what the
calls that reported success make of them one after another in some order. -/
theorem no_change_lost (db : BillingDB) (hone : OnePerTenant db) (es : List ChangeEvent)
    (hfresh : subscriptionCalls.Follows FreshStep (World.idle db) es)
    (hended : ∀ p k, (subscriptionCalls.run (World.idle db) es).at_ p = some k → k.ended) :
    ∃ order, SerialOrder (subscriptionCalls.run (World.idle db) es) es order ∧
      Turn.run db order = (subscriptionCalls.run (World.idle db) es).store := by
  have hstart : Explained db [] (World.idle db) := by
    refine ⟨rfl, SameOwners.refl db, List.nodup_nil, fun p request => ?_, fun p k hk => ?_⟩
    · refine iff_of_false List.not_mem_nil ?_
      rintro ⟨k, hk, -⟩
      cases hk
    · cases hk
  obtain ⟨order, h, hshown⟩ :=
    subscriptionCalls.follows_history (exec_explained hone) es hfresh hstart
  rw [List.nil_append] at h
  refine ⟨order, ⟨h.once, fun p request => (h.turns p request).trans ⟨?_, ?_⟩, hshown⟩,
    h.store.symm⟩
  · -- of the calls that took their turn, those that have ended are done
    rintro ⟨k, hk, htook⟩
    have hend := hended p k hk
    cases k with
    | done r =>
        cases htook
        exact hk
    | failed r message => cases htook
    | _ => cases hend
  · intro hk
    exact ⟨_, hk, rfl⟩

theorem firstSubscription_ids :
    ([⟨1, 1, 1, none, .active, none, false⟩].map Subscription.id).Nodup :=
  List.nodup_singleton 1

/-- A subscription of one tenant, and a plan it could change to. -/
def twoPlans : BillingDB where
  invoices := .empty
  attempts := .empty
  receipts := []
  subscriptions := ⟨[⟨1, 1, 1, none, .active, none, false⟩], firstSubscription_ids⟩
  plans := [⟨1, 250000, false⟩, ⟨2, 500000, false⟩]
  outbox := []

theorem twoPlans_onePerTenant : OnePerTenant twoPlans := by
  intro r hr r' hr' _
  rw [List.mem_singleton.mp hr, List.mem_singleton.mp hr']

/-- The administration reads the subscription, which is then suspended, and schedules
the plan. -/
def suspendWhileScheduling : List ChangeEvent :=
  [.spawn 0 (.suspendSubscription 1 1), .spawn 1 (.changeTenantPlan 1 2), .step 1 none,
    .step 1 none, .step 0 none, .step 0 none, .step 1 none]

/-- The customer changes the plan of a subscription, and before that is saved cancels it. -/
def cancelWhileChanging : List ChangeEvent :=
  [.spawn 0 (.changePlan 1 1 2 0), .spawn 1 (.cancelSubscription 1 1), .step 0 none,
    .step 0 none, .step 1 none, .step 1 none, .step 0 none]

theorem freshStep_of {w : World BillingDB ChangeCall} {p : Nat} {answer : Option String}
    {k : ChangeCall} (hk : w.at_ p = some k) (h : k.Fresh w.store answer) :
    FreshStep w (.step p answer) := by
  intro k' hk'
  rw [hk] at hk'
  cases hk'
  exact h

/-- No call but the two is there at the end. -/
theorem at_of_two {es : List ChangeEvent}
    (hes : es = suspendWhileScheduling ∨ es = cancelWhileChanging) {p : Nat} (h0 : p ≠ 0)
    (h1 : p ≠ 1) : (subscriptionCalls.run (World.idle twoPlans) es).at_ p = none := by
  rcases hes with rfl | rfl
  · simp only [suspendWhileScheduling, System.run_cons, System.run_nil,
      System.step_at_of_ne _ _ h0, System.step_at_of_ne _ _ h1, System.spawn_at_of_ne _ _ h0,
      System.spawn_at_of_ne _ _ h1, World.idle_at]
  · simp only [cancelWhileChanging, System.run_cons, System.run_nil,
      System.step_at_of_ne _ _ h0, System.step_at_of_ne _ _ h1, System.spawn_at_of_ne _ _ h0,
      System.spawn_at_of_ne _ _ h1, World.idle_at]

/-- The administration compares the plans only, and both changes are kept. -/
theorem no_change_lost_example :
    ∃ order, SerialOrder (subscriptionCalls.run (World.idle twoPlans) suspendWhileScheduling)
        suspendWhileScheduling order ∧
      Turn.run twoPlans order =
        (subscriptionCalls.run (World.idle twoPlans) suspendWhileScheduling).store := by
  refine no_change_lost twoPlans twoPlans_onePerTenant suspendWhileScheduling
    ⟨trivial, trivial, freshStep_of rfl trivial, freshStep_of rfl trivial,
      freshStep_of rfl trivial, freshStep_of rfl rfl, freshStep_of rfl trivial, trivial⟩ ?_
  intro p k hk
  by_cases h0 : p = 0
  · subst h0
    have hat : (subscriptionCalls.run (World.idle twoPlans) suspendWhileScheduling).at_ 0 =
        some (.done (.suspendSubscription 1 1)) := by decide +kernel
    rw [hat] at hk
    cases hk
    rfl
  by_cases h1 : p = 1
  · subst h1
    have hat : (subscriptionCalls.run (World.idle twoPlans) suspendWhileScheduling).at_ 1 =
        some (.done (.changeTenantPlan 1 2)) := by decide +kernel
    rw [hat] at hk
    cases hk
    rfl
  · rw [at_of_two (.inl rfl) h0 h1] at hk
    cases hk

/-- An order without writes elsewhere is one of calls. -/
theorem calls_of_tables {order : List Turn} (h : order.filterMap Turn.tables = []) :
    order = (order.filterMap Turn.made).map fun made => .call made.1 made.2 := by
  induction order with
  | nil => rfl
  | cons turn rest ih =>
      cases turn with
      | call p request => exact congrArg (Turn.call p request :: ·) (ih h)
      | elsewhere tables => cases h

theorem two_orders {α : Type} {l : List α} {x y : α} (h : l.Perm [x, y]) :
    l = [x, y] ∨ l = [y, x] := by
  obtain ⟨u, v, rfl⟩ := List.length_eq_two.mp h.length_eq
  have hu : u ∈ [x, y] := h.mem_iff.mp List.mem_cons_self
  simp only [List.mem_cons, List.not_mem_nil, or_false] at hu
  rcases hu with rfl | rfl
  · left
    rw [List.perm_singleton.mp (List.perm_cons u |>.mp h)]
  · right
    have hswap : ([u, v] : List α).Perm [u, x] := h.trans (List.Perm.swap u x [])
    rw [List.perm_singleton.mp (List.perm_cons u |>.mp hswap)]

/-- The cancellation is lost: both calls report success, the subscription ends ACTIVE
with the plan scheduled, and in either order it would end CANCELLED. -/
theorem cancellation_lost :
    (∀ p k, (subscriptionCalls.run (World.idle twoPlans) cancelWhileChanging).at_ p = some k →
        k.ended) ∧
      ¬ ∃ order,
        SerialOrder (subscriptionCalls.run (World.idle twoPlans) cancelWhileChanging)
          cancelWhileChanging order ∧
        (Turn.run twoPlans order).standing 1 =
          (subscriptionCalls.run (World.idle twoPlans) cancelWhileChanging).store.standing 1 := by
  have h0 : (subscriptionCalls.run (World.idle twoPlans) cancelWhileChanging).at_ 0 =
      some (.done (.changePlan 1 1 2 0)) := by decide +kernel
  have h1 : (subscriptionCalls.run (World.idle twoPlans) cancelWhileChanging).at_ 1 =
      some (.done (.cancelSubscription 1 1)) := by decide +kernel
  have hat (p : Nat) (hp0 : p ≠ 0) (hp1 : p ≠ 1) :
      (subscriptionCalls.run (World.idle twoPlans) cancelWhileChanging).at_ p = none :=
    at_of_two (.inr rfl) hp0 hp1
  refine ⟨fun p k hk => ?_, ?_⟩
  · by_cases hp0 : p = 0
    · rw [hp0, h0] at hk
      cases hk
      rfl
    by_cases hp1 : p = 1
    · rw [hp1, h1] at hk
      cases hk
      rfl
    · rw [hat p hp0 hp1] at hk
      cases hk
  · rintro ⟨order, hserial, hsame⟩
    have hperm : (order.filterMap Turn.made).Perm
        [(0, .changePlan 1 1 2 0), (1, .cancelSubscription 1 1)] := by
      refine (List.perm_ext_iff_of_nodup (List.Nodup.of_map _ hserial.once) (by decide)).mpr ?_
      rintro ⟨p, request⟩
      rw [hserial.reported p request]
      by_cases hp0 : p = 0
      · rw [hp0, h0]
        simp [eq_comm]
      by_cases hp1 : p = 1
      · rw [hp1, h1]
        simp [eq_comm]
      · rw [hat p hp0 hp1]
        simp [hp0, hp1]
    rw [calls_of_tables hserial.elsewhere] at hsame
    rcases two_orders hperm with heq | heq
    · rw [heq] at hsame
      revert hsame
      decide +kernel
    · rw [heq] at hsame
      revert hsame
      decide +kernel

end Billing
end ERP
