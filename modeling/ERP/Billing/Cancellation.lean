import ERP.Billing.PaymentRequest
import ERP.Lib.RowLocks

/-!
# Cancelling an invoice while it is claimed

`cancelPendingInvoice` and `createXenditPaymentRequest` statement by statement,
under READ COMMITTED.  An `UPDATE` or a `SELECT … FOR UPDATE` is two steps: it
evaluates its condition on what is committed when it starts, and then takes the
row, waiting for the transaction that holds it.  If the row was changed meanwhile
the condition is evaluated again; if it was only locked, it is not.  The condition
of the cancelling update also looks at the attempt, which is another row.

Only the rows of the two tables are kept.  A statement may fail, and a commit may
go unacknowledged.
-/

namespace ERP
namespace Billing

open Lib

/-- The rows of the two tables. -/
structure BillingCells where
  invoices : Id → Cell Invoice
  attempts : Id → Cell XenditPaymentRequestAttempt

namespace BillingCells

variable (s : BillingCells) (p : Nat)

def setInvoice (i : Id) (c : Cell Invoice) : BillingCells :=
  { s with invoices := Function.update s.invoices i c }

def setAttempt (i : Id) (c : Cell XenditPaymentRequestAttempt) : BillingCells :=
  { s with attempts := Function.update s.attempts i c }

/-- The end of the transaction of call `p`. -/
def commit : BillingCells :=
  ⟨fun i => (s.invoices i).commit p, fun i => (s.attempts i).commit p⟩

def rollback : BillingCells :=
  ⟨fun i => (s.invoices i).release p, fun i => (s.attempts i).release p⟩

/-- A condition on an invoice, as call `p` sees it. -/
def invoiceMeets (i : Id) (cond : Invoice → Bool) : Bool := ((s.invoices i).visible p).any cond

def attemptMeets (i : Id) (cond : XenditPaymentRequestAttempt → Bool) : Bool :=
  ((s.attempts i).visible p).any cond

/-- The condition of the cancelling update: the invoice is PENDING without provider
ids, and it has no attempt or a REJECTED one. -/
def cancellable (i tenantId : Id) : Bool :=
  s.invoiceMeets p i (fun row => isPending i tenantId row &&
    row.providerPaymentRequestId = none && row.providerPaymentId = none) &&
  match (s.attempts i).visible p with
  | none => true
  | some attempt => attempt.state = .rejected

end BillingCells

/-- The request of a call and the number of the invoice it read. -/
structure ClaimContext where
  request : PaymentRequest
  invoiceNumber : String
  deriving DecidableEq, Repr

/-- The statement a call is about to send, or to finish once it has the row. -/
inductive LockCall where
  | cancelFind (invoiceId tenantId : Id)
  | cancelUpdate (invoiceId tenantId : Id)
  | cancelLock (invoiceId tenantId : Id) (version : Nat)
  | cancelReload (invoiceId tenantId : Id)
  | cancelCommit (invoiceId tenantId : Id)
  | findInvoice (request : PaymentRequest)
  | findAttempt (x : ClaimContext)
  | claimSelect (x : ClaimContext)
  | claimLock (x : ClaimContext)
  | insertAttempt (x : ClaimContext)
  | readAttempt (x : ClaimContext)
  | reclaimUpdate (x : ClaimContext)
  | reclaimLock (x : ClaimContext)
  | commitClaim (x : ClaimContext)
  | commitLost (x : ClaimContext)
  | findInvoiceAgain (x : ClaimContext)
  | findAttemptAgain (x : ClaimContext)
  | charge (x : ClaimContext)
  | await (x : ClaimContext)
  | recordUpdate (x : ClaimContext) (outcome : Outcome) (id : Option String)
  | recordLock (x : ClaimContext) (outcome : Outcome) (id : Option String)
  | completeInvoice (x : ClaimContext) (id : String) (recovers : Bool)
  | completeInvoiceLock (x : ClaimContext) (id : String) (recovers : Bool)
  | completeAttempt (x : ClaimContext) (id : String) (recovers : Bool)
  | completeAttemptLock (x : ClaimContext) (id : String) (recovers : Bool)
  | completeCommit (x : ClaimContext) (id : String) (recovers : Bool)
  | done
  | stopped
  deriving DecidableEq, Repr

namespace ClaimContext

variable (x : ClaimContext)

def i : Id := x.request.invoiceId

def claimable : Invoice → Bool := isClaimable x.i x.request.tenantId

end ClaimContext

/-- After `completeXenditPaymentRequest` has thrown: the recovering call gives up,
the charging one records what it knows. -/
def LockCall.notCompleted (x : ClaimContext) (id : String) (recovers : Bool) : LockCall :=
  if recovers then .done else .recordUpdate x .unknown (some id)

/-- After a read of the attempt, while no claim was tried or once it was lost. -/
def LockCall.afterAttempt (x : ClaimContext) (attempt : Option XenditPaymentRequestAttempt)
    (free : LockCall) : LockCall :=
  match attempt with
  | none => free
  | some attempt =>
      if truthy attempt.providerPaymentRequestId then
        .completeInvoice x (attempt.providerPaymentRequestId.getD "") true
      else if attempt.state ≠ .rejected then .done
      else free

/-- One step of either call.  A statement that fails, or a row that is not there
any more, ends the transaction. -/
def LockCall.next (hasGateway : Bool) (p : Nat) (reply : Reply) (k : LockCall)
    (s : BillingCells) : LockCall × BillingCells :=
  match k with
  | .cancelFind i tenantId =>
      match (s.invoices i).visible p with
      | none => (.done, s)
      | some invoice =>
          if invoice.tenantId ≠ tenantId ∨ invoice.deleted = true then (.done, s)
          else if invoice.status ≠ .pending then (.done, s)
          else if truthy invoice.providerPaymentRequestId || truthy invoice.providerPaymentId then
            (.done, s)
          else (.cancelUpdate i tenantId, s)
  | .cancelUpdate i tenantId =>
      if s.cancellable p i tenantId then (.cancelLock i tenantId (s.invoices i).version, s)
      else (.done, s)
  | .cancelLock i tenantId version =>
      if (s.invoices i).available p = false then (.cancelLock i tenantId version, s)
      else if reply.delivery = .failed then (.done, s)
      else
        match (s.invoices i).visible p with
        | none => (.done, s)
        | some invoice =>
            -- a row that was only locked meanwhile is not looked at again
            if (s.invoices i).version = version || s.cancellable p i tenantId then
              (.cancelReload i tenantId, s.setInvoice i
                ((s.invoices i).write p (some { invoice with status := .cancelled })))
            else (.done, s)
  | .cancelReload i tenantId =>
      match (s.invoices i).visible p with
      | none => (.done, s.rollback p)
      | some _ => (.cancelCommit i tenantId, s)
  | .cancelCommit _ _ =>
      if reply.delivery = .failed then (.done, s.rollback p) else (.done, s.commit p)
  | .findInvoice request =>
      match (s.invoices request.invoiceId).visible p with
      | none => (.done, s)
      | some invoice =>
          if invoice.tenantId ≠ request.tenantId ∨ invoice.deleted = true then (.done, s)
          else if invoice.status ≠ .pending then (.done, s)
          else if truthy invoice.providerPaymentRequestId then (.done, s)
          else if hasGateway = false then (.done, s)
          else (.findAttempt ⟨request, invoice.invoiceNumber⟩, s)
  | .findAttempt x =>
      (.afterAttempt x (((s.attempts x.i).visible p).filter fun a =>
        a.tenantId = x.request.tenantId) (.claimSelect x), s)
  | .claimSelect x =>
      if s.invoiceMeets p x.i x.claimable then (.claimLock x, s) else (.findInvoiceAgain x, s)
  | .claimLock x =>
      if (s.invoices x.i).available p = false then (.claimLock x, s)
      else if reply.delivery = .failed then (.done, s)
      else if s.invoiceMeets p x.i x.claimable then
        (.insertAttempt x, s.setInvoice x.i ((s.invoices x.i).hold p))
      else (.findInvoiceAgain x, s)
  | .insertAttempt x =>
      match (s.attempts x.i).committed with
      | some _ => (.readAttempt x, s)
      | none =>
          if (s.attempts x.i).available p = false then (.insertAttempt x, s)
          else if reply.delivery = .failed then (.done, s.rollback p)
          else
            (.commitClaim x, s.setAttempt x.i ((s.attempts x.i).write p
              (some ⟨x.i, x.request.tenantId, .inProgress, none⟩)))
  | .readAttempt x =>
      if s.attemptMeets p x.i (isReclaimable x.i x.request.tenantId) then (.reclaimUpdate x, s)
      else (.commitLost x, s)
  | .reclaimUpdate x =>
      if s.attemptMeets p x.i (isReclaimable x.i x.request.tenantId) then (.reclaimLock x, s)
      else (.commitLost x, s)
  | .reclaimLock x =>
      if (s.attempts x.i).available p = false then (.reclaimLock x, s)
      else if reply.delivery = .failed then (.done, s.rollback p)
      else
        match ((s.attempts x.i).visible p).filter (isReclaimable x.i x.request.tenantId) with
        | none => (.commitLost x, s)
        | some attempt =>
            (.commitClaim x, s.setAttempt x.i
              ((s.attempts x.i).write p (some attempt.reclaim)))
  | .commitClaim x =>
      match reply.delivery with
      | .acknowledged => (.charge x, s.commit p)
      | .failed => (.done, s.rollback p)
      | .unacknowledged => (.done, s.commit p)
  | .commitLost x => (.findInvoiceAgain x, s.commit p)
  | .findInvoiceAgain x =>
      match (s.invoices x.i).visible p with
      | none => (.findAttemptAgain x, s)
      | some invoice =>
          if truthy invoice.providerPaymentRequestId then (.done, s) else (.findAttemptAgain x, s)
  | .findAttemptAgain x =>
      (.afterAttempt x (((s.attempts x.i).visible p).filter fun a =>
        a.tenantId = x.request.tenantId) .done, s)
  | .charge x => (.await x, s)
  | .await x =>
      match reply with
      | .database _ => (.await x, s)
      | .gateway .rejected => (.recordUpdate x .rejected none, s)
      | .gateway .ambiguous => (.recordUpdate x .unknown none, s)
      | .gateway (.success id _) =>
          if truthy id then (.completeInvoice x (id.getD "") false, s)
          else (.recordUpdate x .unknown none, s)
  | .recordUpdate x outcome id =>
      if s.attemptMeets p x.i (isInProgress x.i x.request.tenantId) then
        (.recordLock x outcome id, s)
      else (.done, s)
  | .recordLock x outcome id =>
      if (s.attempts x.i).available p = false then (.recordLock x outcome id, s)
      else if reply.delivery = .failed then (.done, s)
      else
        match ((s.attempts x.i).visible p).filter (isInProgress x.i x.request.tenantId) with
        | none => (.done, s)
        | some attempt =>
            -- one statement is a transaction of its own
            (.done, s.setAttempt x.i (((s.attempts x.i).write p
              (some (attempt.record outcome.state id))).commit p))
  | .completeInvoice x id recovers =>
      if s.invoiceMeets p x.i x.claimable then (.completeInvoiceLock x id recovers, s)
      else (.notCompleted x id recovers, s)
  | .completeInvoiceLock x id recovers =>
      if (s.invoices x.i).available p = false then (.completeInvoiceLock x id recovers, s)
      else if reply.delivery = .failed then (.notCompleted x id recovers, s)
      else
        match ((s.invoices x.i).visible p).filter x.claimable with
        | none => (.notCompleted x id recovers, s)
        | some invoice =>
            (.completeAttempt x id recovers, s.setInvoice x.i
              ((s.invoices x.i).write p (some (invoice.correlate x.invoiceNumber id))))
  | .completeAttempt x id recovers =>
      if s.attemptMeets p x.i (isCompletable x.i x.request.tenantId id) then
        (.completeAttemptLock x id recovers, s)
      else (.notCompleted x id recovers, s.rollback p)
  | .completeAttemptLock x id recovers =>
      if (s.attempts x.i).available p = false then (.completeAttemptLock x id recovers, s)
      else if reply.delivery = .failed then (.notCompleted x id recovers, s.rollback p)
      else
        match ((s.attempts x.i).visible p).filter (isCompletable x.i x.request.tenantId id) with
        | none => (.notCompleted x id recovers, s.rollback p)
        | some attempt =>
            (.completeCommit x id recovers, s.setAttempt x.i
              ((s.attempts x.i).write p (some (attempt.complete id))))
  | .completeCommit x id recovers =>
      match reply.delivery with
      | .acknowledged => (.done, s.commit p)
      | .failed => (.notCompleted x id recovers, s.rollback p)
      | .unacknowledged => (.notCompleted x id recovers, s.commit p)
  | .done => (.done, s)
  | .stopped => (.stopped, s)

inductive LockRequest where
  | cancel (invoiceId tenantId : Id)
  | pay (request : PaymentRequest)
  deriving DecidableEq, Repr

/-- The two calls; a crash rolls back the transaction that is open. -/
def cancellation (hasGateway : Bool) : System BillingCells LockRequest LockCall Reply Empty where
  start := fun r =>
    match r with
    | .cancel i tenantId => .cancelFind i tenantId
    | .pay request => .findInvoice request
  next := LockCall.next hasGateway
  act := fun o => nomatch o
  stop := fun p _ s => (.stopped, s.rollback p)

abbrev LockEvent := Event LockRequest Reply Empty

end Billing
end ERP
