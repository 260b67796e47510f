import Mathlib.Data.List.Induction
import ERP.Billing.PaymentRequest
import ERP.Billing.Subscription

/-!
# A cancelled subscription

The aggregate refuses to activate or renew a CANCELLED subscription.  The other
writers do not ask: a failed payment makes it PAST_DUE and the end of its period
EXPIRED, from where the aggregate lets it come back, and a paid invoice sets it
ACTIVE whatever it was.  `Revives` is the condition of each operation under which
that happens, and it is exact.
-/

namespace ERP
namespace Billing

open Lib Lib.Tx

variable {db db' : BillingDB} {a a' : SubscriptionAggregate} {i id tenantId : Id}

def BillingDB.Active (db : BillingDB) (i : Id) : Prop :=
  ∃ row, db.subscriptions.get i = some row ∧ row.status = .active

/-- The invoice is one of the subscription, and of its tenant. -/
def BelongsTo (db : BillingDB) (i : Id) (invoice : Invoice) : Prop :=
  invoice.subscriptionId = some i ∧
    ∃ row, db.subscriptions.get i = some row ∧ row.tenantId = invoice.tenantId

/-- The operation sets the subscription ACTIVE, by what it finds. -/
def Revives (i : Id) (db : BillingDB) : SubscriptionOp → Prop
  | .resume id tenantId now =>
      id = i ∧ ∃ a, db.requireSubscription .subscriptionNotFound id tenantId = .ok a ∧
        a.canActivate now = true
  | .renew id tenantId periodStart periodEnd =>
      id = i ∧ periodStart < periodEnd ∧
        ∃ a, db.requireSubscription .renewalSubscriptionNotFound id tenantId = .ok a ∧
          a.props.status ≠ .cancelled
  | .paymentSuccess id tenantId =>
      ∃ invoice, db.invoices.get id = some invoice ∧ isPending id tenantId invoice = true ∧
        BelongsTo db i invoice
  | .webhook key input =>
      db.hasReceipt key = false ∧ ∃ invoice, resolveInvoice db input = .ok invoice ∧
        checkWebhook input invoice = .ok .paid ∧ invoice.status = .pending ∧
        identifiersFree db invoice input ∧ BelongsTo db i invoice
  | _ => False

/-! ## Through the aggregate -/

theorem active_congr (h : db'.subscriptions = db.subscriptions) : db'.Active i ↔ db.Active i := by
  unfold BillingDB.Active
  rw [h]

theorem get_save (db : BillingDB) (a : SubscriptionAggregate) (k : Id) :
    (db.save a).subscriptions.get k = (db.subscriptions.get k).map fun row =>
      if row.id = a.props.id then
        { row with
          status := a.props.status
          planId := a.props.planId
          pendingPlanId := a.props.pendingPlanId
          endedAt := a.props.endedAt }
      else row := by
  have h := Rows.get_updateMany db.subscriptions (fun row => row.id = a.props.id)
    (fun row => { row with
      status := a.props.status
      planId := a.props.planId
      pendingPlanId := a.props.pendingPlanId
      endedAt := a.props.endedAt }) (fun _ => rfl) k
  simp only [decide_eq_true_eq] at h
  exact h

/-- Saving makes no other subscription ACTIVE. -/
theorem active_of_save (h : (db.save a).Active i) :
    db.Active i ∨ (a.props.id = i ∧ a.props.status = .active) := by
  obtain ⟨row, hget, hactive⟩ := h
  rw [get_save] at hget
  obtain ⟨old, hold, hrow⟩ := Option.map_eq_some_iff.mp hget
  by_cases hid : old.id = a.props.id
  · rw [if_pos hid] at hrow
    rw [← hrow] at hactive
    exact .inr ⟨hid.symm.trans (Rows.key_of_get hold), hactive⟩
  · rw [if_neg hid] at hrow
    exact .inl ⟨old, hold, hrow ▸ hactive⟩

theorem active_save {row : Subscription} (hget : db.subscriptions.get a.props.id = some row)
    (hactive : a.props.status = .active) : (db.save a).Active a.props.id := by
  have hsaved := get_save db a a.props.id
  rw [hget, Option.map_some, if_pos (Rows.key_of_get hget)] at hsaved
  exact ⟨_, hsaved, hactive⟩

/-- An aggregate is made of the row, its plan and the plan it waits for. -/
theorem toAggregate_ok {row : Subscription} (h : db.toAggregate row = .ok a) :
    a.props = row ∧ db.planById row.planId = some a.plan ∧
      row.pendingPlanId.bind db.planById = a.pendingPlan := by
  unfold BillingDB.toAggregate at h
  split at h
  · cases h
  rename_i hplan
  split at h
  · rename_i hpending
    cases h
    exact ⟨rfl, hplan, by rw [hpending]; rfl⟩
  · rename_i hpending
    split at h
    · cases h
    · rename_i hfound
      cases h
      exact ⟨rfl, hplan, by rw [hpending]; exact hfound⟩

/-- What a load returns: the row, of that tenant and not deleted. -/
theorem requireSubscription_loaded {missing : BillingFailure}
    (h : db.requireSubscription missing id tenantId = .ok a) :
    a.props.id = id ∧ a.props.tenantId = tenantId ∧ a.props.deleted = false ∧
      db.toAggregate a.props = .ok a := by
  unfold BillingDB.requireSubscription at h
  split at h
  · cases h
  rename_i row hfind
  have hsat := Rows.sat_of_findFirst hfind
  rw [decide_eq_true_iff] at hsat
  have hprops := (toAggregate_ok h).1
  rw [hprops]
  exact ⟨hsat.1, hsat.2.1, hsat.2.2, h⟩

/-- What was loaded is the row of the subscription, with the plan it waits for. -/
theorem requireSubscription_ok {missing : BillingFailure}
    (h : db.requireSubscription missing id tenantId = .ok a) :
    db.subscriptions.get id = some a.props ∧ a.props.deleted = false ∧
      (a.props.pendingPlanId.isSome → a.pendingPlan.isSome) := by
  unfold BillingDB.requireSubscription at h
  split at h
  · cases h
  rename_i row hfind
  have hsat := Rows.sat_of_findFirst hfind
  rw [decide_eq_true_iff] at hsat
  have hget := Rows.get_of_mem (Rows.mem_of_findFirst hfind)
  rw [hsat.1] at hget
  unfold BillingDB.toAggregate at h
  split at h
  · cases h
  split at h
  · rename_i hpending
    cases h
    refine ⟨hget, hsat.2.2, fun hsome => ?_⟩
    rw [hpending] at hsome
    cases hsome
  · split at h
    · cases h
    · cases h
      exact ⟨hget, hsat.2.2, fun _ => rfl⟩

section Change

variable {missing : BillingFailure}
  {change : SubscriptionAggregate → Except BillingFailure SubscriptionAggregate}

theorem changeSubscription_of_load (hload : db.requireSubscription missing id tenantId = .ok a) :
    db.changeSubscription missing id tenantId change = (change a).map db.save := by
  unfold BillingDB.changeSubscription
  rw [hload]
  show (change a >>= fun a' => pure (db.save a')) = _
  cases change a with
  | error e => rfl
  | ok a' => rfl

/-- A change that keeps the id makes the subscription ACTIVE when what it saves is. -/
theorem changeSubscription_active (hi : ¬ db.Active i)
    (hid : ∀ a a', change a = .ok a' → a'.props.id = a.props.id) :
    ((db.changeSubscription missing id tenantId change).toOption.getD db).Active i ↔
      id = i ∧ ∃ a a', db.requireSubscription missing id tenantId = .ok a ∧
        change a = .ok a' ∧ a'.props.status = .active := by
  cases hload : db.requireSubscription missing id tenantId with
  | error e =>
      have hrun : db.changeSubscription missing id tenantId change = .error e := by
        unfold BillingDB.changeSubscription
        rw [hload]
        rfl
      rw [hrun]
      exact ⟨fun h => absurd h hi, fun ⟨_, _, _, h, _⟩ => by cases h⟩
  | ok a =>
      obtain ⟨hget, -, -⟩ := requireSubscription_ok hload
      have hkey : a.props.id = id := Rows.key_of_get hget
      cases hchange : change a with
      | error e =>
          rw [changeSubscription_of_load hload, hchange]
          refine ⟨fun h => absurd h hi, fun ⟨_, b, b', hb, hb', _⟩ => ?_⟩
          cases hb
          rw [hchange] at hb'
          cases hb'
      | ok a' =>
          have hkey' : a'.props.id = id := (hid a a' hchange).trans hkey
          rw [changeSubscription_of_load hload, hchange]
          show (db.save a').Active i ↔ _
          constructor
          · intro h
            rcases active_of_save h with hbefore | ⟨hsame, hactive⟩
            · exact absurd hbefore hi
            · exact ⟨hkey'.symm.trans hsame, a, a', rfl, hchange, hactive⟩
          · rintro ⟨rfl, b, b', hb, hb', hactive⟩
            cases hb
            rw [hchange] at hb'
            cases hb'
            have hsaved := active_save (hkey'.symm ▸ hget) hactive
            rw [hkey'] at hsaved
            exact hsaved

/-- A change that sets no status ACTIVE that was not. -/
theorem changeSubscription_inactive (hi : ¬ db.Active i)
    (hid : ∀ a a', change a = .ok a' → a'.props.id = a.props.id)
    (hstatus : ∀ a a', change a = .ok a' → a'.props.status = .active → a.props.status = .active) :
    ¬ ((db.changeSubscription missing id tenantId change).toOption.getD db).Active i := by
  rw [changeSubscription_active hi hid]
  rintro ⟨rfl, a, a', hload, hchange, hactive⟩
  exact hi ⟨a.props, (requireSubscription_ok hload).1, hstatus a a' hchange hactive⟩

end Change

theorem activate_id {now : Int} (h : a.activate now = .ok a') : a'.props.id = a.props.id := by
  unfold SubscriptionAggregate.activate at h
  split at h
  · cases h
    rfl
  split at h
  · cases h
  split at h
  · cases h
  split at h
  · cases h
  · cases h
    rfl

theorem applyPendingPlan_id (a : SubscriptionAggregate) :
    a.applyPendingPlan.props.id = a.props.id := by
  unfold SubscriptionAggregate.applyPendingPlan
  split
  · rfl
  · rfl

theorem renew_id {periodStart periodEnd : Int} (h : a.renew periodStart periodEnd = .ok a') :
    a'.props.id = a.props.id := by
  unfold SubscriptionAggregate.renew at h
  split at h
  · cases h
  split at h
  · cases h
  split at h
  · cases h
  split at h
  · cases h
    rfl
  split at h
  · cases h
  · cases h
    exact applyPendingPlan_id a

/-- A subscription that can be activated is, once it was activated. -/
theorem activate_of_canActivate {now : Int} (h : a.canActivate now = true) :
    ∃ a', a.activate now = .ok a' ∧ a'.props.status = .active := by
  unfold SubscriptionAggregate.canActivate at h
  simp only [Bool.and_eq_true, Bool.or_eq_true, decide_eq_true_eq, Bool.not_eq_true'] at h
  obtain ⟨⟨hstatus, hdeleted⟩, hexpired⟩ := h
  refine ⟨a.setStatus .active (.subscriptionActivated a.props.id), ?_, rfl⟩
  unfold SubscriptionAggregate.activate
  rcases hstatus with (h | h) | h
  · simp [h, hdeleted, hexpired]
  · simp [h, hdeleted, hexpired]
  · simp [h, hdeleted, hexpired]

/-- Renewing activates, unless the subscription is cancelled or deleted. -/
theorem renew_active {periodStart periodEnd : Int} (hstatus : a.props.status ≠ .cancelled)
    (hinactive : a.props.status ≠ .active) (hdeleted : a.props.deleted = false)
    (hplan : a.props.pendingPlanId.isSome → a.pendingPlan.isSome)
    (hperiod : periodStart < periodEnd) :
    ∃ a', a.renew periodStart periodEnd = .ok a' ∧ a'.props.status = .active := by
  have hmissing : ¬ (a.props.pendingPlanId.isSome && a.pendingPlan.isNone) = true := by
    intro h
    rw [Bool.and_eq_true] at h
    have hsome := hplan h.1
    rw [Option.isNone_iff_eq_none.mp h.2] at hsome
    cases hsome
  have hrun : a.renew periodStart periodEnd = .ok { a.applyPendingPlan with
      props := { a.applyPendingPlan.props with status := .active, endedAt := some periodEnd }
      events := a.applyPendingPlan.events ++ [.subscriptionRenewed a.props.id] } := by
    unfold SubscriptionAggregate.renew
    rw [if_neg hstatus, if_neg (by simp [hdeleted]), if_neg (by omega),
      if_neg (by simp [hinactive]), if_neg hmissing]
  exact ⟨_, hrun, rfl⟩

theorem renew_ok {periodStart periodEnd : Int} (h : a.renew periodStart periodEnd = .ok a') :
    a.props.status ≠ .cancelled ∧ periodStart < periodEnd := by
  unfold SubscriptionAggregate.renew at h
  split at h
  · cases h
  rename_i hstatus
  split at h
  · cases h
  split at h
  · cases h
  · exact ⟨hstatus, by omega⟩

theorem cancel_ok (h : a.cancel = .ok a') : a'.props.id = a.props.id ∧
    a'.props.status = .cancelled := by
  unfold SubscriptionAggregate.cancel at h
  split at h
  · cases h
    exact ⟨rfl, ‹_›⟩
  split at h
  · cases h
  · cases h
    exact ⟨rfl, rfl⟩

theorem suspend_ok (h : a.suspend = .ok a') :
    a'.props.id = a.props.id ∧ a'.props.status = .suspended := by
  unfold SubscriptionAggregate.suspend at h
  split at h
  · cases h
    exact ⟨rfl, ‹_›⟩
  split at h
  · cases h
  split at h
  · cases h
  · cases h
    exact ⟨rfl, rfl⟩

theorem expire_ok (h : a.expire = .ok a') :
    a'.props.id = a.props.id ∧ a'.props.status = .expired := by
  unfold SubscriptionAggregate.expire at h
  split at h
  · cases h
    exact ⟨rfl, ‹_›⟩
  · cases h
    exact ⟨rfl, rfl⟩

theorem schedulePlanChange_ok {plan : Plan} (h : a.schedulePlanChange plan = .ok a') :
    a'.props.id = a.props.id ∧ a'.props.status = a.props.status := by
  unfold SubscriptionAggregate.schedulePlanChange at h
  generalize (if plan.id = a.plan.id then none else some plan) = next at h
  dsimp only at h
  split at h
  · cases h
    exact ⟨rfl, rfl⟩
  · cases h
    exact ⟨rfl, rfl⟩

/-! ## Past the aggregate -/

theorem active_setSubscriptionStatus (status : SubscriptionStatus) (hi : ¬ db.Active i) :
    (db.setSubscriptionStatus id tenantId status).Active i ↔
      status = .active ∧ id = i ∧
        ∃ row, db.subscriptions.get i = some row ∧ row.tenantId = tenantId := by
  have hget := Rows.get_updateMany db.subscriptions
    (fun row => decide (row.id = id ∧ row.tenantId = tenantId))
    (fun row => { row with status }) (fun _ => rfl) i
  constructor
  · rintro ⟨row, hrow, hactive⟩
    obtain ⟨old, hold, heq⟩ := Option.map_eq_some_iff.mp (hget.symm.trans hrow)
    by_cases hmatch : old.id = id ∧ old.tenantId = tenantId
    · rw [if_pos (decide_eq_true hmatch)] at heq
      rw [← heq] at hactive
      exact ⟨hactive, hmatch.1.symm.trans (Rows.key_of_get hold), old, hold, hmatch.2⟩
    · rw [if_neg (by simpa using hmatch)] at heq
      exact absurd ⟨old, hold, heq ▸ hactive⟩ hi
  · rintro ⟨rfl, rfl, row, hrow, htenant⟩
    rw [hrow, Option.map_some, if_pos (decide_eq_true ⟨Rows.key_of_get hrow, htenant⟩)] at hget
    exact ⟨_, hget, rfl⟩

theorem active_recordPaid {invoice : Invoice} (hi : ¬ db.Active i) :
    (db.recordPaid invoice).Active i ↔ BelongsTo db i invoice := by
  unfold BillingDB.recordPaid BelongsTo
  cases invoice.subscriptionId with
  | none => exact ⟨fun h => absurd h hi, fun h => nomatch h.1⟩
  | some id =>
      refine (active_setSubscriptionStatus .active hi).trans ?_
      simp only [true_and, Option.some.injEq]

theorem inactive_recordFailed {invoice : Invoice} (reason : Option String) (hi : ¬ db.Active i) :
    ¬ (db.recordFailed invoice reason).Active i := by
  unfold BillingDB.recordFailed
  dsimp only
  split
  · intro h
    have hi' : ¬ (db.publish
        (.invoiceFailed invoice.id invoice.subscriptionId reason)).Active i := hi
    exact nomatch ((active_setSubscriptionStatus .pastDue hi').mp h).1
  · exact hi

theorem invoiceById_of_isPending {invoice : Invoice} (hget : db.invoices.get id = some invoice)
    (hpending : isPending id tenantId invoice = true) :
    db.invoiceById id tenantId = some invoice := by
  obtain ⟨hid, htenant, hdeleted, -⟩ := isPending_iff.mp hpending
  refine Rows.findFirst_of_get hget (decide_eq_true ⟨hid, htenant, hdeleted⟩) fun r hr => ?_
  rw [decide_eq_true_iff] at hr
  exact hr.1

theorem active_settlePaidInvoice (hi : ¬ db.Active i) :
    (commit (settlePaidInvoice id tenantId) db).Active i ↔
      Revives i db (.paymentSuccess id tenantId) := by
  obtain ⟨_, db', hm, h⟩ := (settlePaidInvoice_post db id tenantId).exists_ok
  rw [commit_of_ok hm]
  rcases h with ⟨hnone, rfl⟩ | ⟨invoice, hget, hpending, rfl⟩
  · refine iff_of_false hi fun ⟨invoice, hget, hpending, _⟩ => ?_
    have hfound := Rows.findFirst_of_get hget hpending fun r hr => (isPending_iff.mp hr).1
    rw [hnone] at hfound
    cases hfound
  · refine Iff.trans (active_recordPaid hi) ⟨fun h => ⟨invoice, hget, hpending, h⟩, ?_⟩
    rintro ⟨other, hother, -, hbelongs⟩
    rw [hget] at hother
    cases hother
    exact hbelongs

theorem active_handlePaymentSuccess (hi : ¬ db.Active i) :
    (db.handlePaymentSuccess id tenantId).Active i ↔
      Revives i db (.paymentSuccess id tenantId) := by
  unfold BillingDB.handlePaymentSuccess
  cases hfind : db.invoiceById id tenantId with
  | none =>
      refine iff_of_false hi fun ⟨invoice, hget, hpending, _⟩ => ?_
      rw [invoiceById_of_isPending hget hpending] at hfind
      cases hfind
  | some found =>
      dsimp only
      split
      · rename_i hpaid
        refine iff_of_false hi fun ⟨invoice, hget, hpending, _⟩ => ?_
        rw [invoiceById_of_isPending hget hpending] at hfind
        cases hfind
        have hstatus := (isPending_iff.mp hpending).2.2.2
        rw [hpaid] at hstatus
        cases hstatus
      · exact active_settlePaidInvoice hi

theorem active_webhookSettled {key : String} {input : XenditWebhookInput} {invoice : Invoice}
    {transition : Transition} (hi : ¬ db.Active i) :
    (webhookSettled db key input invoice transition).Active i ↔
      transition = .paid ∧ BelongsTo db i invoice := by
  have hrecord (settled : BillingDB) (hsame : settled.subscriptions = db.subscriptions) :
      (settled.recordPaid invoice).Active i ↔ BelongsTo db i invoice := by
    refine (active_recordPaid (mt (active_congr hsame).mp hi)).trans ?_
    unfold BelongsTo
    rw [hsame]
  have hreceipt (settled : BillingDB) :
      (settled.setReceiptOutcome key .processed).Active i ↔ settled.Active i := active_congr rfl
  by_cases hpaid : transition = .paid
  · simp only [webhookSettled, if_pos hpaid]
    refine (hreceipt _).trans (Iff.trans (hrecord _ ?_) ⟨fun h => ⟨hpaid, h⟩, And.right⟩)
    rfl
  · simp only [webhookSettled, if_neg hpaid]
    exact iff_of_false (inactive_recordFailed _ hi) fun h => hpaid h.1

theorem active_webhook (key : String) (input : XenditWebhookInput) (hi : ¬ db.Active i) :
    (commit (processXenditWebhookEvent key input) db).Active i ↔
      Revives i db (.webhook key input) := by
  -- an event that revives is processed, so every other outcome is on neither side
  have hprocessed (h : Revives i db (.webhook key input)) :
      ∃ db', processXenditWebhookEvent key input db = .ok (.processed, db') := by
    obtain ⟨hnew, invoice, hres, hcheck, hpending, hfree, -⟩ := h
    exact ⟨_, processXenditWebhookEvent_processed hnew hres hcheck nofun hpending hfree⟩
  cases hm : processXenditWebhookEvent key input db with
  | error e =>
      rw [commit_of_error hm]
      refine iff_of_false hi fun h => ?_
      obtain ⟨_, hok⟩ := hprocessed h
      rw [hm] at hok
      cases hok
  | ok result =>
      rw [commit_of_ok hm]
      have hother (houtcome : result.1 ≠ .processed) : ¬ Revives i db (.webhook key input) := by
        intro h
        obtain ⟨_, hok⟩ := hprocessed h
        rw [hm] at hok
        cases hok
        exact houtcome rfl
      rcases (processXenditWebhookEvent_post db key input).of_ok hm with
        ⟨hout, -, hdb⟩ | ⟨hout, -, hdb⟩ |
          ⟨invoice, transition, -, hnew, hres, hcheck, -, hpending, hfree, hdb⟩
      · rw [hdb]
        exact iff_of_false hi (hother (by rw [hout]; exact nofun))
      · rw [hdb]
        exact iff_of_false hi (hother (by rw [hout]; exact nofun))
      · rw [hdb]
        refine (active_webhookSettled hi).trans ⟨?_, ?_⟩
        · rintro ⟨rfl, hbelongs⟩
          exact ⟨hnew, invoice, hres, hcheck, hpending, hfree, hbelongs⟩
        · rintro ⟨-, other, hother', hcheck', -, -, hbelongs⟩
          rw [hres] at hother'
          cases hother'
          rw [hcheck] at hcheck'
          cases hcheck'
          exact ⟨rfl, hbelongs⟩

theorem inactive_handlePaymentFailure (reason : Option String) (hi : ¬ db.Active i) :
    ¬ (db.handlePaymentFailure id tenantId reason).Active i := by
  unfold BillingDB.handlePaymentFailure
  split
  · exact hi
  rename_i invoice _
  split
  · rename_i failed hm
    have hfailed : ¬ failed.Active i := by
      rcases (failPendingInvoice_post db id tenantId).of_ok hm with ⟨-, rfl⟩ | ⟨_, -, -, -, rfl⟩
      · exact hi
      · exact hi
    dsimp only
    split
    · exact hfailed
    · rename_i subscriptionId _
      have hpast : ∀ told : BillingDB, ¬ told.Active i →
          ¬ ((told.changeSubscription .subscriptionNotFound subscriptionId tenantId fun a =>
            a.markPastDue invoice.amountCents).toOption.getD told).Active i :=
        fun told htold => changeSubscription_inactive htold (fun a a' h => by cases h; rfl)
          fun a a' h hactive => by cases h; cases hactive
      have hpast := hpast (failed.publish
        (.invoiceFailed invoice.id invoice.subscriptionId reason)) hfailed
      split
      · rename_i hok
        rw [hok] at hpast
        exact hpast
      · exact hfailed
  · exact hi

theorem inactive_expireIfDue (now : Int) (hi : ¬ db.Active i) :
    ¬ (BillingDB.expireIfDue now db a).Active i := by
  unfold BillingDB.expireIfDue
  split
  · split
    · rename_i hexpire
      intro h
      rcases active_of_save h with hbefore | ⟨-, hactive⟩
      · exact hi hbefore
      · rw [(expire_ok hexpire).2] at hactive
        cases hactive
    · exact hi
  · exact hi

theorem inactive_handleExpired (now : Int) (hi : ¬ db.Active i) :
    ¬ ((db.handleExpiredSubscriptions tenantId now).toOption.getD db).Active i := by
  unfold BillingDB.handleExpiredSubscriptions
  generalize (db.subscriptions.toList.filter fun row =>
    row.tenantId = tenantId ∧ row.deleted = false).mapM db.toAggregate = loaded
  cases loaded with
  | error e => exact hi
  | ok subs =>
      show ¬ (subs.foldl (BillingDB.expireIfDue now) db).Active i
      induction subs generalizing db with
      | nil => exact hi
      | cons a rest ih => exact ih (inactive_expireIfDue now hi)

/-- An update that leaves every status alone. -/
theorem active_updateSubscriptions {p : Subscription → Bool} {f : Subscription → Subscription}
    (hf : ∀ r, (f r).id = r.id) (hstatus : ∀ r, (f r).status = r.status)
    (h : (db.updateSubscriptions p f hf).Active i) : db.Active i := by
  obtain ⟨row, hget, hactive⟩ := h
  obtain ⟨old, hold, hrow⟩ := Option.map_eq_some_iff.mp
    ((Rows.get_updateMany db.subscriptions p f hf i).symm.trans hget)
  refine ⟨old, hold, ?_⟩
  rw [← hactive, ← hrow]
  split
  · exact (hstatus old).symm
  · rfl

theorem inactive_changeTenantPlan (planId : Id) (hi : ¬ db.Active i) :
    ¬ ((db.changeTenantPlan tenantId planId).toOption.getD db).Active i := by
  unfold BillingDB.changeTenantPlan
  split
  · exact hi
  rename_i subscription _
  split
  · exact hi
  rename_i newPlan _
  generalize (if newPlan.id = subscription.planId then none else some newPlan.id) = pending
  dsimp only
  split
  · exact hi
  split
  · exact hi
  · intro h
    exact hi (active_updateSubscriptions (f := fun row => { row with pendingPlanId := pending })
      (fun _ => rfl) (fun _ => rfl) h)

/-! ## Whole runs -/

/-- One operation on a subscription that is not ACTIVE. -/
theorem exec_active (op : SubscriptionOp) (hi : ¬ db.Active i) :
    (op.exec db).Active i ↔ Revives i db op := by
  cases op with
  | resume id tenantId now =>
      refine (changeSubscription_active hi fun a a' h => ?_).trans ?_
      · split at h
        · exact activate_id h
        · cases h
      · refine and_congr_right fun _ => ⟨?_, ?_⟩
        · rintro ⟨a, a', hload, hchange, -⟩
          split at hchange
          · exact ⟨a, hload, ‹_›⟩
          · cases hchange
        · rintro ⟨a, hload, hcan⟩
          obtain ⟨a', hactivate, hactive⟩ := activate_of_canActivate hcan
          exact ⟨a, a', hload, by rw [if_pos hcan, hactivate], hactive⟩
  | renew id tenantId periodStart periodEnd =>
      refine (changeSubscription_active hi fun a a' h => renew_id h).trans ⟨?_, ?_⟩
      · rintro ⟨rfl, a, a', hload, hrenew, -⟩
        exact ⟨rfl, (renew_ok hrenew).2, a, hload, (renew_ok hrenew).1⟩
      · rintro ⟨rfl, hperiod, a, hload, hstatus⟩
        obtain ⟨hget, hdeleted, hplan⟩ := requireSubscription_ok hload
        have hinactive : a.props.status ≠ .active := fun h => hi ⟨a.props, hget, h⟩
        obtain ⟨a', hrenew, hactive⟩ := renew_active hstatus hinactive hdeleted hplan hperiod
        exact ⟨rfl, a, a', hload, hrenew, hactive⟩
  | cancel id tenantId =>
      refine iff_of_false (changeSubscription_inactive hi (fun a a' h => (cancel_ok h).1)
        fun a a' h hactive => ?_) not_false
      rw [(cancel_ok h).2] at hactive
      cases hactive
  | suspend id tenantId =>
      refine iff_of_false (changeSubscription_inactive hi (fun a a' h => (suspend_ok h).1)
        fun a a' h hactive => ?_) not_false
      rw [(suspend_ok h).2] at hactive
      cases hactive
  | expire tenantId now => exact iff_of_false (inactive_handleExpired now hi) not_false
  | changePlan id tenantId planId now =>
      refine iff_of_false (changeSubscription_inactive hi (fun a a' h => ?_)
        fun a a' h hactive => ?_) not_false
      · split at h
        · split at h
          · cases h
          · exact (schedulePlanChange_ok h).1
        · cases h
      · split at h
        · split at h
          · cases h
          · exact (schedulePlanChange_ok h).2 ▸ hactive
        · cases h
  | changeTenantPlan tenantId planId =>
      exact iff_of_false (inactive_changeTenantPlan planId hi) not_false
  | paymentFailure id tenantId reason =>
      exact iff_of_false (inactive_handlePaymentFailure reason hi) not_false
  | paymentSuccess id tenantId => exact active_handlePaymentSuccess hi
  | webhook key input => exact active_webhook key input hi
  | elsewhere tables => exact iff_of_false hi not_false

/-- Every operation of the run leaves the subscription alone or not ACTIVE, by what it
finds when its turn comes. -/
def NeverRevived (i : Id) (db : BillingDB) (ops : List SubscriptionOp) : Prop :=
  ∀ prior op rest, ops = prior ++ op :: rest → ¬ Revives i (SubscriptionOp.run db prior) op

/-- A cancelled subscription is never ACTIVE again in a run if and only if no
operation of the run, in the state it finds, takes a payment for an invoice of the
subscription, resumes it while it can be activated or renews it while it is not
CANCELLED any more. -/
theorem cancelled_stays_inactive_iff (db : BillingDB) (i : Id) (row : Subscription)
    (hrow : db.subscriptions.get i = some row) (hcancelled : row.status = .cancelled)
    (ops : List SubscriptionOp) :
    (∀ prior, prior <+: ops → ¬ (SubscriptionOp.run db prior).Active i) ↔
      NeverRevived i db ops := by
  have hstart : ¬ db.Active i := by
    rintro ⟨found, hfound, hactive⟩
    rw [hrow] at hfound
    cases hfound
    rw [hcancelled] at hactive
    cases hactive
  constructor
  · rintro hnever prior op rest rfl hrevives
    have hbefore := hnever prior (List.prefix_append _ _)
    refine hnever (prior ++ [op]) ⟨rest, by simp⟩ ?_
    rw [SubscriptionOp.run, List.foldl_append]
    exact (exec_active op hbefore).mpr hrevives
  · rintro hnever prior ⟨rest, rfl⟩
    -- by induction on the operations done, the last of which is not the one that revives
    induction prior using List.reverseRecOn generalizing rest with
    | nil => exact hstart
    | append_singleton done op ih =>
        have hbefore := ih (op :: rest) (by simpa using hnever)
        rw [SubscriptionOp.run, List.foldl_append]
        exact fun h => hnever done op rest (by simp) ((exec_active op hbefore).mp h)

/-- A subscription with one pending invoice. -/
def oneSubscription : BillingDB where
  invoices := ⟨[.opened 1 1 (some 1) "INV-202601-000001" 250000 "IDR"], List.nodup_singleton _⟩
  attempts := ⟨[], List.nodup_nil⟩
  receipts := []
  subscriptions := ⟨[⟨1, 1, 1, none, .active, none, false⟩], List.nodup_singleton _⟩
  plans := [⟨1, 250000, false⟩]
  outbox := []

/-- Once cancelled, the payment of its invoice fails, which makes it PAST_DUE, and it
is suspended. -/
theorem cancelled_stays_inactive_example :
    ¬ (SubscriptionOp.run (SubscriptionOp.run oneSubscription [.cancel 1 1])
      [.paymentFailure 1 1 none, .suspend 1 1]).Active 1 := by
  refine (cancelled_stays_inactive_iff _ 1 ⟨1, 1, 1, none, .cancelled, none, false⟩
    (by decide +kernel) rfl [.paymentFailure 1 1 none, .suspend 1 1]).mpr ?_ _ List.prefix_rfl
  intro prior op rest hops hrevives
  have hmem : op ∈ [SubscriptionOp.paymentFailure 1 1 none, .suspend 1 1] := by
    rw [hops]
    exact List.mem_append_right _ List.mem_cons_self
  simp only [List.mem_cons, List.not_mem_nil, or_false] at hmem
  rcases hmem with rfl | rfl
  · exact hrevives
  · exact hrevives

/-- A cancelled subscription comes back after a failed payment, by resuming it, and
when its invoice is paid after all. -/
theorem cancelled_subscription_revived :
    (SubscriptionOp.run oneSubscription [.cancel 1 1]).subscriptions.get 1 =
        some ⟨1, 1, 1, none, .cancelled, none, false⟩ ∧
      (SubscriptionOp.run oneSubscription
        [.cancel 1 1, .paymentFailure 1 1 none, .resume 1 1 0]).Active 1 ∧
      (SubscriptionOp.run oneSubscription [.cancel 1 1, .paymentSuccess 1 1]).Active 1 := by
  refine ⟨?_, ⟨⟨1, 1, 1, none, .active, none, false⟩, ?_, rfl⟩,
    ⟨⟨1, 1, 1, none, .active, none, false⟩, ?_, rfl⟩⟩
  · decide +kernel
  · decide +kernel
  · decide +kernel

end Billing
end ERP
