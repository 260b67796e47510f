import ERP.Billing.Settlement

/-!
# Subscriptions

The subscription aggregate, and the operations that write the status of a
subscription: those of the subscription service, and those of billing, some of
which go through the aggregate and some of which update the row.
-/

namespace ERP
namespace Billing

open Lib Lib.Tx

structure SubscriptionAggregate where
  props : Subscription
  plan : Plan
  pendingPlan : Option Plan
  events : List BillingEvent
  deriving DecidableEq, Repr

namespace SubscriptionAggregate

variable (a : SubscriptionAggregate) (now : Int)

def isExpired : Bool := a.props.endedAt.any fun endedAt => now > endedAt

def isActive : Bool :=
  a.props.status = .active && !a.props.deleted && !a.isExpired now

def canActivate : Bool :=
  (a.props.status = .trial || a.props.status = .pastDue || a.props.status = .suspended) &&
    !a.props.deleted && !a.isExpired now

def setStatus (status : SubscriptionStatus) (event : BillingEvent) : SubscriptionAggregate :=
  { a with props := { a.props with status }, events := a.events ++ [event] }

def activate : Except BillingFailure SubscriptionAggregate :=
  if a.props.status = .active then .ok a
  else if a.props.status = .cancelled then .error .activateCancelled
  else if a.props.status = .expired then .error .activateExpired
  else if a.props.deleted || a.isExpired now then .error .activateExpired
  else .ok (a.setStatus .active (.subscriptionActivated a.props.id))

/-- The plan that was scheduled, if any, becomes the plan. -/
def applyPendingPlan : SubscriptionAggregate :=
  match a.pendingPlan with
  | none => a
  | some plan =>
      { props := { a.props with planId := plan.id, pendingPlanId := none }
        plan
        pendingPlan := none
        events := a.events ++ [.subscriptionPlanChanged a.props.id a.plan.id plan.id] }

def renew (periodStart periodEnd : Int) : Except BillingFailure SubscriptionAggregate :=
  if a.props.status = .cancelled then .error .renewCancelled
  else if a.props.deleted then .error .renewDeleted
  else if periodStart ≥ periodEnd then .error .billingPeriodInvalid
  else if a.props.status = .active && a.props.endedAt.any fun endedAt => endedAt ≥ periodEnd then
    .ok a
  else if a.props.pendingPlanId.isSome && a.pendingPlan.isNone then
    .error (.pendingPlanMissing a.props.id)
  else
    let b := a.applyPendingPlan
    .ok { b with
      props := { b.props with status := .active, endedAt := some periodEnd }
      events := b.events ++ [.subscriptionRenewed a.props.id] }

def cancel : Except BillingFailure SubscriptionAggregate :=
  if a.props.status = .cancelled then .ok a
  else if a.props.status = .expired then .error .cancelExpired
  else .ok (a.setStatus .cancelled (.subscriptionCancelled a.props.id))

def expire : Except BillingFailure SubscriptionAggregate :=
  if a.props.status = .expired then .ok a
  else .ok (a.setStatus .expired (.subscriptionExpired a.props.id))

def suspend : Except BillingFailure SubscriptionAggregate :=
  if a.props.status = .suspended then .ok a
  else if a.props.status = .cancelled then .error .suspendCancelled
  else if a.props.status = .expired then .error .suspendExpired
  else .ok (a.setStatus .suspended (.subscriptionSuspended a.props.id))

def schedulePlanChange (newPlan : Plan) : Except BillingFailure SubscriptionAggregate :=
  let nextPendingPlan := if newPlan.id = a.plan.id then none else some newPlan
  let nextPendingPlanId := nextPendingPlan.map Plan.id
  if a.props.pendingPlanId = nextPendingPlanId then .ok a
  else
    .ok { a with
      props := { a.props with pendingPlanId := nextPendingPlanId }
      pendingPlan := nextPendingPlan
      events := a.events ++ [.subscriptionPlanChangeScheduled a.props.id a.props.planId
        a.props.pendingPlanId nextPendingPlanId] }

def markPastDue (dueAmountCents : Int) : Except BillingFailure SubscriptionAggregate :=
  .ok (a.setStatus .pastDue (.subscriptionPastDue a.props.id dueAmountCents))

end SubscriptionAggregate

namespace BillingDB

variable (db : BillingDB)

/-- The row with its plans.  A plan that is referred to is there, by the foreign
keys. -/
def toAggregate (row : Subscription) : Except BillingFailure SubscriptionAggregate :=
  match db.planById row.planId with
  | none => .error .planNotFound
  | some plan =>
      match row.pendingPlanId with
      | none => .ok ⟨row, plan, none, []⟩
      | some pendingPlanId =>
          match db.planById pendingPlanId with
          | none => .error (.pendingPlanUnknown row.id pendingPlanId)
          | some pendingPlan => .ok ⟨row, plan, some pendingPlan, []⟩

/-- `findById`, or the exception of the caller when there is no such subscription. -/
def requireSubscription (missing : BillingFailure) (id tenantId : Id) :
    Except BillingFailure SubscriptionAggregate :=
  match db.subscriptionById id tenantId with
  | none => .error missing
  | some row => db.toAggregate row

/-- `save`: the row and the events of the aggregate in one transaction.  The row was
loaded before, so the upsert updates it. -/
def save (a : SubscriptionAggregate) : BillingDB :=
  (db.updateSubscriptions (fun row => row.id = a.props.id)
    (fun row => { row with
      status := a.props.status
      planId := a.props.planId
      pendingPlanId := a.props.pendingPlanId
      endedAt := a.props.endedAt }) fun _ => rfl).publishAll a.events

/-- Load a subscription, change it through the aggregate and save it. -/
def changeSubscription (missing : BillingFailure) (id tenantId : Id)
    (change : SubscriptionAggregate → Except BillingFailure SubscriptionAggregate) :
    Except BillingFailure BillingDB := do
  let a ← db.requireSubscription missing id tenantId
  let a' ← change a
  pure (db.save a')

def resumeSubscription (id tenantId : Id) (now : Int) : Except BillingFailure BillingDB :=
  db.changeSubscription .subscriptionNotFound id tenantId fun a =>
    if a.canActivate now then a.activate now else .error .subscriptionNotResumable

def cancelSubscription (id tenantId : Id) : Except BillingFailure BillingDB :=
  db.changeSubscription .subscriptionNotFound id tenantId SubscriptionAggregate.cancel

def suspendSubscription (id tenantId : Id) : Except BillingFailure BillingDB :=
  db.changeSubscription .subscriptionNotFound id tenantId SubscriptionAggregate.suspend

def changePlan (id tenantId planId : Id) (now : Int) : Except BillingFailure BillingDB :=
  db.changeSubscription .subscriptionNotFound id tenantId fun a =>
    if a.isActive now then
      match db.offeredPlan planId with
      | none => .error .planNotFound
      | some newPlan => a.schedulePlanChange newPlan
    else .error .subscriptionNotActive

/-- The subscription part of `renewSubscription`; the invoice of the period is
another transaction. -/
def renewSubscription (id tenantId : Id) (periodStart periodEnd : Int) :
    Except BillingFailure BillingDB :=
  db.changeSubscription .renewalSubscriptionNotFound id tenantId fun a =>
    a.renew periodStart periodEnd

/-- One turn of the loop of `handleExpiredSubscriptions`. -/
def expireIfDue (now : Int) (db : BillingDB) (a : SubscriptionAggregate) : BillingDB :=
  if a.isExpired now && a.props.status ≠ .expired then
    match a.expire with
    | .ok a' => db.save a'
    | .error _ => db
  else db

def handleExpiredSubscriptions (tenantId : Id) (now : Int) : Except BillingFailure BillingDB := do
  let subs ← (db.subscriptions.toList.filter fun row =>
    row.tenantId = tenantId ∧ row.deleted = false).mapM db.toAggregate
  pure (subs.foldl (expireIfDue now) db)

/-- `changeTenantPlan` of the platform's administration. -/
def changeTenantPlan (tenantId newPlanId : Id) : Except BillingFailure BillingDB :=
  match db.subscriptions.findFirst fun row => row.tenantId = tenantId ∧ row.deleted = false with
  | none => .error .tenantSubscriptionNotFound
  | some subscription =>
      match db.offeredPlan newPlanId with
      | none => .error .targetPlanNotFound
      | some newPlan =>
          let pendingPlanId := if newPlan.id = subscription.planId then none else some newPlan.id
          if pendingPlanId = subscription.pendingPlanId then .ok db
          else
            let p (row : Subscription) : Bool := row.id = subscription.id ∧
              row.planId = subscription.planId ∧ row.pendingPlanId = subscription.pendingPlanId
            if db.subscriptions.count p ≠ 1 then .error .planChanged
            else
              .ok ((db.updateSubscriptions p (fun row => { row with pendingPlanId })
                fun _ => rfl).publish (.subscriptionPlanChangeScheduled subscription.id
                  subscription.planId subscription.pendingPlanId pendingPlanId))

/-- `handlePaymentFailure`: the invoice, its event and the subscription are written
one after the other. -/
def handlePaymentFailure (invoiceId tenantId : Id) (reason : Option String) : BillingDB :=
  match db.invoiceById invoiceId tenantId with
  | none => db
  | some invoice =>
      match failPendingInvoice invoiceId tenantId db with
      | .ok (some _, failed) =>
          let told := failed.publish (.invoiceFailed invoice.id invoice.subscriptionId reason)
          match invoice.subscriptionId with
          | none => told
          | some id =>
              match told.changeSubscription .subscriptionNotFound id tenantId fun a =>
                  a.markPastDue invoice.amountCents with
              | .ok db' => db'
              | .error _ => told
      | _ => db

/-- `handlePaymentSuccess`. -/
def handlePaymentSuccess (invoiceId tenantId : Id) : BillingDB :=
  match db.invoiceById invoiceId tenantId with
  | none => db
  | some invoice =>
      if invoice.status = .paid then db else commit (settlePaidInvoice invoiceId tenantId) db

end BillingDB

/-- The operations that write the status of a subscription or its plans, and
`elsewhere`, which is whatever other code writes to the other tables between two of
them. -/
inductive SubscriptionOp where
  | resume (id tenantId : Id) (now : Int)
  | renew (id tenantId : Id) (periodStart periodEnd : Int)
  | cancel (id tenantId : Id)
  | suspend (id tenantId : Id)
  | expire (tenantId : Id) (now : Int)
  | changePlan (id tenantId planId : Id) (now : Int)
  | changeTenantPlan (tenantId planId : Id)
  | paymentFailure (invoiceId tenantId : Id) (reason : Option String)
  | paymentSuccess (invoiceId tenantId : Id)
  | webhook (key : String) (input : XenditWebhookInput)
  | elsewhere (tables : BillingDB)

/-- The tables after an operation; one that throws leaves them as they were. -/
def SubscriptionOp.exec (db : BillingDB) : SubscriptionOp → BillingDB
  | .resume id tenantId now => (db.resumeSubscription id tenantId now).toOption.getD db
  | .renew id tenantId periodStart periodEnd =>
      (db.renewSubscription id tenantId periodStart periodEnd).toOption.getD db
  | .cancel id tenantId => (db.cancelSubscription id tenantId).toOption.getD db
  | .suspend id tenantId => (db.suspendSubscription id tenantId).toOption.getD db
  | .expire tenantId now => (db.handleExpiredSubscriptions tenantId now).toOption.getD db
  | .changePlan id tenantId planId now =>
      (db.changePlan id tenantId planId now).toOption.getD db
  | .changeTenantPlan tenantId planId => (db.changeTenantPlan tenantId planId).toOption.getD db
  | .paymentFailure id tenantId reason => db.handlePaymentFailure id tenantId reason
  | .paymentSuccess id tenantId => db.handlePaymentSuccess id tenantId
  | .webhook key input => commit (processXenditWebhookEvent key input) db
  | .elsewhere tables => { tables with subscriptions := db.subscriptions }

def SubscriptionOp.run (db : BillingDB) (ops : List SubscriptionOp) : BillingDB :=
  ops.foldl SubscriptionOp.exec db

end Billing
end ERP
