import ERP.Billing.Subscription
import ERP.Lib.Tasks

/-!
# Subscription calls that interleave

The service loads a subscription, changes the aggregate and saves all of its
columns, and between the load and the save other calls take their steps.
Settlement sets the status alone, in a transaction.  The platform's
administration updates the pending plan on the condition that the plans are still
the ones it read.
-/

namespace ERP
namespace Billing

open Lib Lib.Tx

/-- A request, with the times the call reads from the clock. -/
inductive ChangeRequest where
  | changePlan (id tenantId planId : Id) (now : Int)
  | cancelSubscription (id tenantId : Id)
  | suspendSubscription (id tenantId : Id)
  | resumeSubscription (id tenantId : Id) (now : Int)
  | handleExpiredSubscriptions (tenantId : Id) (now : Int)
  | renewSubscription (id tenantId : Id) (periodStart periodEnd : Int)
  | handlePaymentSuccess (invoiceId tenantId : Id)
  | processXenditWebhookEvent (key : String) (input : XenditWebhookInput)
  | changeTenantPlan (tenantId planId : Id)
  deriving DecidableEq, Repr

/-- The request as an operation that runs alone. -/
def ChangeRequest.op : ChangeRequest → SubscriptionOp
  | .changePlan id tenantId planId now => .changePlan id tenantId planId now
  | .cancelSubscription id tenantId => .cancel id tenantId
  | .suspendSubscription id tenantId => .suspend id tenantId
  | .resumeSubscription id tenantId now => .resume id tenantId now
  | .handleExpiredSubscriptions tenantId now => .expire tenantId now
  | .renewSubscription id tenantId periodStart periodEnd =>
      .renew id tenantId periodStart periodEnd
  | .handlePaymentSuccess invoiceId tenantId => .paymentSuccess invoiceId tenantId
  | .processXenditWebhookEvent key input => .webhook key input
  | .changeTenantPlan tenantId planId => .changeTenantPlan tenantId planId

/-- `newPlan.id === oldPlan.id ? null : newPlan.id`. -/
def Subscription.nextPending (subscription : Subscription) (newPlan : Plan) : Option Id :=
  if newPlan.id = subscription.planId then none else some newPlan.id

/-- `where` of the update of `changeTenantPlan`: the plans are those that were read. -/
def Subscription.isAsRead (subscription row : Subscription) : Bool :=
  row.id = subscription.id ∧ row.planId = subscription.planId ∧
    row.pendingPlanId = subscription.pendingPlanId

/-- The transaction of `changeTenantPlan`, once the update has found its row. -/
def BillingDB.schedule (db : BillingDB) (subscription : Subscription) (newPlan : Plan) :
    BillingDB :=
  (db.updateSubscriptions subscription.isAsRead
    (fun row => { row with pendingPlanId := subscription.nextPending newPlan })
    fun _ => rfl).publish (.subscriptionPlanChangeScheduled subscription.id
      subscription.planId subscription.pendingPlanId (subscription.nextPending newPlan))

/-- The turns of the loop of `handleExpiredSubscriptions` that save. -/
def SubscriptionAggregate.isDue (now : Int) (a : SubscriptionAggregate) : Bool :=
  a.isExpired now && a.props.status ≠ .expired

/-- Where a call stands.  `saving` has the aggregate as it was loaded and as it was
changed, `expiring` the aggregates still to be saved. -/
inductive ChangeCall where
  | loading (request : ChangeRequest)
  | planning (request : ChangeRequest) (a : SubscriptionAggregate) (planId : Id)
  | saving (request : ChangeRequest) (a a' : SubscriptionAggregate)
  | expiring (request : ChangeRequest) (now : Int) (due : List SubscriptionAggregate)
  | invoicing (request : ChangeRequest)
  | settling (request : ChangeRequest) (invoiceId tenantId : Id)
  | choosing (request : ChangeRequest) (subscription : Subscription) (newPlanId : Id)
  | scheduling (request : ChangeRequest) (subscription : Subscription) (newPlan : Plan)
  | done (request : ChangeRequest)
  | failed (request : ChangeRequest) (message : String)
  deriving DecidableEq, Repr

namespace ChangeCall

/-- The method of the aggregate, once it was loaded. -/
def change (request : ChangeRequest) (loaded : Except BillingFailure SubscriptionAggregate)
    (method : SubscriptionAggregate → Except BillingFailure SubscriptionAggregate) : ChangeCall :=
  match loaded with
  | .error e => .failed request e.message
  | .ok a =>
      match method a with
      | .error e => .failed request e.message
      | .ok a' => .saving request a a'

/-- The loop goes on with what is left to save. -/
def expireNext (request : ChangeRequest) (now : Int) : List SubscriptionAggregate → ChangeCall
  | [] => .done request
  | due => .expiring request now due

/-- A renewal that saved the subscription creates the invoice of the period; the
other calls return. -/
def saved : ChangeRequest → ChangeCall
  | .renewSubscription id tenantId periodStart periodEnd =>
      .invoicing (.renewSubscription id tenantId periodStart periodEnd)
  | request => .done request

/-- The first step, which reads. -/
def load (db : BillingDB) (request : ChangeRequest) : ChangeCall :=
  match request with
  | .changePlan id tenantId planId now =>
      match db.requireSubscription .subscriptionNotFound id tenantId with
      | .error e => .failed request e.message
      | .ok a =>
          if a.isActive now then .planning request a planId
          else .failed request BillingFailure.subscriptionNotActive.message
  | .cancelSubscription id tenantId =>
      change request (db.requireSubscription .subscriptionNotFound id tenantId)
        SubscriptionAggregate.cancel
  | .suspendSubscription id tenantId =>
      change request (db.requireSubscription .subscriptionNotFound id tenantId)
        SubscriptionAggregate.suspend
  | .resumeSubscription id tenantId now =>
      change request (db.requireSubscription .subscriptionNotFound id tenantId) fun a =>
        if a.canActivate now then a.activate now else .error .subscriptionNotResumable
  | .renewSubscription id tenantId periodStart periodEnd =>
      change request (db.requireSubscription .renewalSubscriptionNotFound id tenantId) fun a =>
        a.renew periodStart periodEnd
  | .handleExpiredSubscriptions tenantId now =>
      match (db.subscriptions.toList.filter fun row =>
          row.tenantId = tenantId ∧ row.deleted = false).mapM db.toAggregate with
      | .error e => .failed request e.message
      | .ok subs => expireNext request now (subs.filter (SubscriptionAggregate.isDue now))
  | .handlePaymentSuccess invoiceId tenantId =>
      match db.invoiceById invoiceId tenantId with
      | none => .failed request "Invoice not found"
      | some invoice =>
          if invoice.status = .paid then .done request else .settling request invoiceId tenantId
  | .processXenditWebhookEvent _ _ => .loading request
  | .changeTenantPlan tenantId newPlanId =>
      match db.subscriptions.findFirst fun row =>
          row.tenantId = tenantId ∧ row.deleted = false with
      | none => .failed request BillingFailure.tenantSubscriptionNotFound.message
      | some subscription => .choosing request subscription newPlanId

/-- A transaction that is the last step of a call. -/
def finish {α : Type} (request : ChangeRequest) (m : BillingTx α) (db : BillingDB) :
    ChangeCall × BillingDB :=
  match m db with
  | .ok (_, db') => (.done request, db')
  | .error e => (.failed request e.message, db)

/-- One step.  The answer is that of the transaction of a renewal's invoice: the
message of its exception, if it threw one. -/
def next (answer : Option String) (call : ChangeCall) (db : BillingDB) : ChangeCall × BillingDB :=
  match call with
  | .loading (.processXenditWebhookEvent key input) =>
      finish (.processXenditWebhookEvent key input) (processXenditWebhookEvent key input) db
  | .loading request => (load db request, db)
  | .planning request a planId =>
      match db.offeredPlan planId with
      | none => (.failed request BillingFailure.planNotFound.message, db)
      | some newPlan => (change request (.ok a) fun a => a.schedulePlanChange newPlan, db)
  | .saving request _ a' => (saved request, db.save a')
  | .expiring request _ [] => (.done request, db)
  | .expiring request now (a :: rest) => (expireNext request now rest, db.expireIfDue now a)
  | .invoicing request =>
      match answer with
      | none => (.done request, db)
      | some message => (.failed request message, db)
  | .settling request invoiceId tenantId =>
      finish request (settlePaidInvoice invoiceId tenantId) db
  | .choosing request subscription newPlanId =>
      match db.offeredPlan newPlanId with
      | none => (.failed request BillingFailure.targetPlanNotFound.message, db)
      | some newPlan =>
          if subscription.nextPending newPlan = subscription.pendingPlanId then
            (.done request, db)
          else (.scheduling request subscription newPlan, db)
  | .scheduling request subscription newPlan =>
      if db.subscriptions.count subscription.isAsRead ≠ 1 then
        (.failed request BillingFailure.planChanged.message, db)
      else (.done request, db.schedule subscription newPlan)
  | .done request => (.done request, db)
  | .failed request message => (.failed request message, db)

/-- The call has answered. -/
def ended : ChangeCall → Bool
  | .done _ => true
  | .failed _ _ => true
  | _ => false

end ChangeCall

/-- Whatever other code writes to the other tables, the invoices of renewals among
it.  The plans are not changed while the calls run. -/
def BillingDB.elsewhere (db tables : BillingDB) : BillingDB :=
  { tables with subscriptions := db.subscriptions, plans := db.plans }

def subscriptionCalls : System BillingDB ChangeRequest ChangeCall (Option String) BillingDB where
  start := .loading
  next := fun _ => ChangeCall.next
  act := fun tables db => db.elsewhere tables

abbrev ChangeEvent := Event ChangeRequest (Option String) BillingDB

/-! ## One after the other -/

/-- An entry of a serial order: a call with its request, or a write elsewhere. -/
inductive Turn where
  | call (p : Nat) (request : ChangeRequest)
  | elsewhere (tables : BillingDB)

namespace Turn

def made : Turn → Option (Nat × ChangeRequest)
  | .call p request => some (p, request)
  | .elsewhere _ => none

def tables : Turn → Option BillingDB
  | .call _ _ => none
  | .elsewhere tables => some tables

def exec (db : BillingDB) : Turn → BillingDB
  | .call _ request => request.op.exec db
  | .elsewhere tables => db.elsewhere tables

def run (db : BillingDB) (order : List Turn) : BillingDB := order.foldl exec db

end Turn

/-- The columns of a subscription that the operations change. -/
def BillingDB.standing (db : BillingDB) (i : Id) :
    Option (SubscriptionStatus × Id × Option Id × Option Int) :=
  (db.subscriptions.get i).map fun row => (row.status, row.planId, row.pendingPlanId, row.endedAt)

/-- The write elsewhere that an event is. -/
def written : ChangeEvent → Option BillingDB
  | .act tables => some tables
  | _ => none

/-- `order` has each call that reported success once and no other, and the writes
elsewhere as they came. -/
structure SerialOrder (w : World BillingDB ChangeCall) (es : List ChangeEvent)
    (order : List Turn) : Prop where
  once : ((order.filterMap Turn.made).map Prod.fst).Nodup
  reported : ∀ p request,
    (p, request) ∈ order.filterMap Turn.made ↔ w.at_ p = some (.done request)
  elsewhere : order.filterMap Turn.tables = es.filterMap written

end Billing
end ERP
