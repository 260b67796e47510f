import Mathlib.Data.Rat.Defs
import ERP.Schema
import ERP.Lib.Rows

/-!
# Billing rows

The tables that invoices, payment requests, provider webhooks and subscriptions
are kept in.  `deletedAt` is kept as whether it is set.  A column of text that the
code only compares with fixed words is an enumeration; a column a provider fills
is text.
-/

namespace ERP
namespace Billing

open Lib

inductive InvoiceStatus where
  | pending | paid | failed | cancelled
  deriving DecidableEq, Repr

inductive AttemptState where
  | inProgress | rejected | unknown | completed
  deriving DecidableEq, Repr

inductive SubscriptionStatus where
  | trial | active | pastDue | suspended | cancelled | expired
  deriving DecidableEq, Repr

inductive ReceiptOutcome where
  | processing | ignored | processed
  deriving DecidableEq, Repr

structure Invoice where
  id : Id
  tenantId : Id
  subscriptionId : Option Id
  invoiceNumber : String
  amountCents : Int
  currency : String
  status : InvoiceStatus
  providerReferenceId : Option String
  providerPaymentRequestId : Option String
  providerPaymentId : Option String
  providerStatus : Option String
  deleted : Bool
  deriving DecidableEq, Repr

structure XenditPaymentRequestAttempt where
  invoiceId : Id
  tenantId : Id
  state : AttemptState
  providerPaymentRequestId : Option String
  deriving DecidableEq, Repr

structure XenditWebhookReceipt where
  idempotencyKey : String
  outcome : ReceiptOutcome
  deriving DecidableEq, Repr

structure Plan where
  id : Id
  priceCents : Int
  deleted : Bool
  deriving DecidableEq, Repr

structure Subscription where
  id : Id
  tenantId : Id
  planId : Id
  pendingPlanId : Option Id
  status : SubscriptionStatus
  endedAt : Option Int
  deleted : Bool
  deriving DecidableEq, Repr

/-- The rows of `OutboxEvent` that billing and subscriptions write. -/
inductive BillingEvent where
  | invoicePaid (invoiceId : Id) (subscriptionId : Option Id) (amountCents : Int)
  | invoiceFailed (invoiceId : Id) (subscriptionId : Option Id) (reason : Option String)
  | invoiceCancelled (invoiceId : Id)
  | subscriptionActivated (subscriptionId : Id)
  | subscriptionRenewed (subscriptionId : Id)
  | subscriptionCancelled (subscriptionId : Id)
  | subscriptionExpired (subscriptionId : Id)
  | subscriptionSuspended (subscriptionId : Id)
  | subscriptionPastDue (subscriptionId : Id) (dueAmountCents : Int)
  | subscriptionPlanChanged (subscriptionId oldPlanId newPlanId : Id)
  | subscriptionPlanChangeScheduled (subscriptionId currentPlanId : Id)
      (previousPendingPlanId pendingPlanId : Option Id)
  deriving DecidableEq, Repr

structure BillingDB where
  invoices : Rows Invoice Invoice.id
  attempts : Rows XenditPaymentRequestAttempt XenditPaymentRequestAttempt.invoiceId
  receipts : List XenditWebhookReceipt
  subscriptions : Rows Subscription Subscription.id
  plans : List Plan
  outbox : List BillingEvent

/-- The messages of the exceptions that roll a billing transaction back. -/
inductive BillingFailure where
  | uniqueViolation
  | invoiceChanged
  | attemptNotAvailable
  | paymentNotCorrelated
  | identifiersDisagree
  | financialFieldsMissing
  | amountMismatch
  | currencyMismatch
  | correlationMismatch
  | unsupportedPair
  | cancelledInvoiceGone
  | subscriptionNotFound
  | renewalSubscriptionNotFound
  | tenantSubscriptionNotFound
  | subscriptionNotResumable
  | subscriptionNotActive
  | planNotFound
  | targetPlanNotFound
  | planChanged
  | pendingPlanUnknown (subscriptionId planId : Id)
  | activateCancelled
  | activateExpired
  | renewCancelled
  | renewDeleted
  | billingPeriodInvalid
  | pendingPlanMissing (subscriptionId : Id)
  | cancelExpired
  | suspendCancelled
  | suspendExpired
  deriving DecidableEq, Repr

def BillingFailure.message : BillingFailure → String
  | .uniqueViolation => "Unique constraint failed"
  | .invoiceChanged => "Invoice changed before Xendit payment correlation was persisted"
  | .attemptNotAvailable =>
      "Xendit payment-request creation attempt is not available to complete"
  | .paymentNotCorrelated => "Xendit payment ID is not pre-correlated to an ERP invoice"
  | .identifiersDisagree => "Xendit identifiers resolve to different ERP invoices"
  | .financialFieldsMissing =>
      "Xendit webhook is missing financial status, amount, or currency"
  | .amountMismatch => "Provider amount does not match ERP invoice"
  | .currencyMismatch => "Provider currency does not match ERP invoice"
  | .correlationMismatch => "Xendit identifiers do not match the existing ERP correlation"
  | .unsupportedPair => "Xendit event type and payment status are not a supported pair"
  | .cancelledInvoiceGone => "Cancelled invoice could not be reloaded"
  | .subscriptionNotFound => "Subscription not found"
  | .renewalSubscriptionNotFound => "Subscription not found for renewal"
  | .tenantSubscriptionNotFound => "No active subscription for this tenant"
  | .subscriptionNotResumable => "Subscription cannot be resumed"
  | .subscriptionNotActive => "Cannot change plan on a non-active subscription"
  | .planNotFound => "Plan not found"
  | .targetPlanNotFound => "Target plan not found"
  | .pendingPlanUnknown id planId =>
      "Subscription " ++ toString id ++ " references missing pending plan " ++ toString planId
  | .planChanged => "Subscription plan changed; retry the action"
  | .activateCancelled => "Cannot activate a cancelled subscription"
  | .activateExpired => "Cannot activate an expired subscription"
  | .renewCancelled => "Cannot renew a cancelled subscription"
  | .renewDeleted => "Cannot renew a deleted subscription"
  | .billingPeriodInvalid => "Billing period start must be before its end"
  | .pendingPlanMissing id =>
      "Subscription " ++ toString id ++ " has a pending plan ID without its plan"
  | .cancelExpired => "Cannot cancel an already expired subscription"
  | .suspendCancelled => "Cannot suspend a cancelled subscription"
  | .suspendExpired => "Cannot suspend an expired subscription"

abbrev BillingTx := Lib.Tx BillingDB BillingFailure

/-- A text the code tests with `if (text)`: absent and empty are both false. -/
def truthy (text : Option String) : Bool := text.any fun t => t ≠ ""

namespace BillingDB

variable (db : BillingDB)

def invoiceById (id tenantId : Id) : Option Invoice :=
  db.invoices.findFirst fun row => row.id = id ∧ row.tenantId = tenantId ∧ row.deleted = false

def attemptFor (invoiceId tenantId : Id) : Option XenditPaymentRequestAttempt :=
  db.attempts.findFirst fun row => row.invoiceId = invoiceId ∧ row.tenantId = tenantId

def subscriptionById (id tenantId : Id) : Option Subscription :=
  db.subscriptions.findFirst fun row =>
    row.id = id ∧ row.tenantId = tenantId ∧ row.deleted = false

/-- A plan a subscription refers to, also one that is not offered any more. -/
def planById (id : Id) : Option Plan := db.plans.find? fun row => row.id = id

def offeredPlan (id : Id) : Option Plan :=
  db.plans.find? fun row => row.id = id ∧ row.deleted = false

/-- `updateMany` on the invoices that satisfy `p`. -/
def updateInvoices (p : Invoice → Bool) (f : Invoice → Invoice) (hf : ∀ r, (f r).id = r.id) :
    BillingDB :=
  { db with invoices := db.invoices.updateMany p f hf }

/-- `createMany` with `skipDuplicates` on the unique invoice of an attempt. -/
def insertAttempt (row : XenditPaymentRequestAttempt) : BillingDB :=
  { db with attempts := db.attempts.insert row }

def updateAttempts (p : XenditPaymentRequestAttempt → Bool)
    (f : XenditPaymentRequestAttempt → XenditPaymentRequestAttempt)
    (hf : ∀ r, (f r).invoiceId = r.invoiceId) : BillingDB :=
  { db with attempts := db.attempts.updateMany p f hf }

def updateSubscriptions (p : Subscription → Bool) (f : Subscription → Subscription)
    (hf : ∀ r, (f r).id = r.id) : BillingDB :=
  { db with subscriptions := db.subscriptions.updateMany p f hf }

def publish (event : BillingEvent) : BillingDB := { db with outbox := db.outbox ++ [event] }

def publishAll (events : List BillingEvent) : BillingDB :=
  { db with outbox := db.outbox ++ events }

/-- Another invoice than `id` has `value` in a column that must be unique. -/
def invoiceTaken (column : Invoice → Option String) (id : Id) (value : Option String) : Bool :=
  value.isSome && db.invoices.toList.any fun row => row.id ≠ id ∧ column row = value

/-- Another attempt than that of `invoiceId` has the payment request id. -/
def attemptTaken (invoiceId : Id) (value : Option String) : Bool :=
  value.isSome &&
    db.attempts.toList.any fun row => row.invoiceId ≠ invoiceId ∧
      row.providerPaymentRequestId = value

end BillingDB

end Billing
end ERP
