import ERP.Billing.Settlement
import ERP.Lib.Tasks

/-!
# Payment requests

`createXenditPaymentRequest` and the three writes it is made of: claiming the
right to charge an invoice, completing the request with the provider's id, and
recording an outcome that is no success.  The claim is a row of its own, so a
process that dies after it leaves the invoice claimed.

A call runs as a state machine with one state for each statement it is about to
send.  The provider and the database answer through the schedule: a charge may
succeed, be rejected, fail in an unclear way or never be answered, and a write may
fail, or commit without its caller learning so.
-/

namespace ERP
namespace Billing

open Lib Lib.Tx

structure ClaimResult where
  claimed : Bool
  state : Option AttemptState
  paymentRequestId : Option String
  deriving DecidableEq, Repr

/-- `where` of the locking read: PENDING, and no payment request yet. -/
def isClaimable (id tenantId : Id) (row : Invoice) : Bool :=
  isPending id tenantId row && row.providerPaymentRequestId = none

/-- `state` of the attempt of one invoice of one tenant. -/
def isAttempt (invoiceId tenantId : Id) (row : XenditPaymentRequestAttempt) : Bool :=
  row.invoiceId = invoiceId ∧ row.tenantId = tenantId

namespace XenditPaymentRequestAttempt

def reclaim (row : XenditPaymentRequestAttempt) : XenditPaymentRequestAttempt :=
  { row with state := .inProgress }

def complete (paymentRequestId : String) (row : XenditPaymentRequestAttempt) :
    XenditPaymentRequestAttempt :=
  { row with state := .completed, providerPaymentRequestId := some paymentRequestId }

/-- An id that is absent or empty leaves the stored one alone. -/
def record (state : AttemptState) (paymentRequestId : Option String)
    (row : XenditPaymentRequestAttempt) : XenditPaymentRequestAttempt :=
  { row with
    state
    providerPaymentRequestId :=
      if truthy paymentRequestId then paymentRequestId else row.providerPaymentRequestId }

end XenditPaymentRequestAttempt

def Invoice.correlate (referenceId paymentRequestId : String) (row : Invoice) : Invoice :=
  { row with
    providerReferenceId := some referenceId
    providerPaymentRequestId := some paymentRequestId
    providerStatus := some "PENDING" }

/-- The attempts that a claim may take up again. -/
def isReclaimable (invoiceId tenantId : Id) (row : XenditPaymentRequestAttempt) : Bool :=
  isAttempt invoiceId tenantId row && row.state = .rejected

/-- The body of `claimXenditPaymentRequest`. -/
def claimXenditPaymentRequest (invoiceId tenantId : Id) : BillingTx ClaimResult := do
  let db ← get
  if db.invoices.count (isClaimable invoiceId tenantId) ≠ 1 then pure ⟨false, none, none⟩
  else do
    -- `createMany` with `skipDuplicates`: the unique column is `invoiceId`
    if db.attempts.get invoiceId = none then do
      set (db.insertAttempt ⟨invoiceId, tenantId, .inProgress, none⟩)
      pure ⟨true, none, none⟩
    else
      match db.attemptFor invoiceId tenantId with
      | none => pure ⟨false, none, none⟩
      | some attempt => do
        if attempt.state = .rejected then do
          set (db.updateAttempts (isReclaimable invoiceId tenantId)
            XenditPaymentRequestAttempt.reclaim fun _ => rfl)
          if db.attempts.count (isReclaimable invoiceId tenantId) = 1 then pure ⟨true, none, none⟩
          else pure ⟨false, some attempt.state, attempt.providerPaymentRequestId⟩
        else pure ⟨false, some attempt.state, attempt.providerPaymentRequestId⟩

/-- The attempts that `completeXenditPaymentRequest` may complete. -/
def isCompletable (invoiceId tenantId : Id) (paymentRequestId : String)
    (row : XenditPaymentRequestAttempt) : Bool :=
  isAttempt invoiceId tenantId row && (row.state = .inProgress || row.state = .unknown) &&
    (row.providerPaymentRequestId = none || row.providerPaymentRequestId = some paymentRequestId)

/-- The body of `completeXenditPaymentRequest`. -/
def completeXenditPaymentRequest (invoiceId tenantId : Id) (referenceId paymentRequestId : String) :
    BillingTx Unit := do
  let db ← get
  require (db.invoices.count (isClaimable invoiceId tenantId) = 1) .invoiceChanged
  require (db.invoiceTaken Invoice.providerReferenceId invoiceId (some referenceId) = false ∧
      db.invoiceTaken Invoice.providerPaymentRequestId invoiceId (some paymentRequestId) = false)
    .uniqueViolation
  modify fun db => db.updateInvoices (isClaimable invoiceId tenantId)
    (Invoice.correlate referenceId paymentRequestId) fun _ => rfl
  require (db.attempts.count (isCompletable invoiceId tenantId paymentRequestId) = 1)
    .attemptNotAvailable
  require (db.attemptTaken invoiceId (some paymentRequestId) = false) .uniqueViolation
  modify fun db => db.updateAttempts (isCompletable invoiceId tenantId paymentRequestId)
    (XenditPaymentRequestAttempt.complete paymentRequestId) fun _ => rfl

/-- The states `recordXenditPaymentRequestOutcome` is called with. -/
inductive Outcome where
  | rejected | unknown
  deriving DecidableEq, Repr

def Outcome.state : Outcome → AttemptState
  | .rejected => .rejected
  | .unknown => .unknown

/-- `where: { invoiceId, tenantId, state: 'IN_PROGRESS' }`. -/
def isInProgress (invoiceId tenantId : Id) (row : XenditPaymentRequestAttempt) : Bool :=
  isAttempt invoiceId tenantId row && row.state = .inProgress

/-- `recordXenditPaymentRequestOutcome`; how many attempts were updated. -/
def recordXenditPaymentRequestOutcome (invoiceId tenantId : Id) (outcome : Outcome)
    (paymentRequestId : Option String) : BillingTx Nat := do
  let db ← get
  require (db.attempts.count (isInProgress invoiceId tenantId) = 0 ∨
    truthy paymentRequestId = false ∨ db.attemptTaken invoiceId paymentRequestId = false)
    .uniqueViolation
  set (db.updateAttempts (isInProgress invoiceId tenantId)
    (XenditPaymentRequestAttempt.record outcome.state paymentRequestId) fun _ => rfl)
  pure (db.attempts.count (isInProgress invoiceId tenantId))

/-! ## The call -/

structure PaymentRequest where
  invoiceId : Id
  tenantId : Id
  channelCode : String
  deriving DecidableEq, Repr

inductive PaymentStatusText where
  | paid | failed | pending
  deriving DecidableEq, Repr

/-- How `gateway.charge` ends, when it does. -/
inductive GatewayAnswer where
  | success (paymentRequestId : Option String) (status : PaymentStatusText)
  | rejected
  | ambiguous
  deriving DecidableEq, Repr

/-- What became of a statement. -/
inductive Delivery where
  | acknowledged
  | failed
  | unacknowledged
  deriving DecidableEq, Repr

inductive Reply where
  | database (delivery : Delivery)
  | gateway (answer : GatewayAnswer)
  deriving DecidableEq, Repr

inductive PaymentAnswer where
  | request (paymentRequestId : String) (status : PaymentStatusText)
  | invoiceNotFound
  | notPending
  | gatewayUnavailable
  | attemptConflict (state : Option AttemptState)
  | notLinked
  | outcomeUnknown
  | rejected
  | noRequestId
  | correlationFailed
  | databaseError
  deriving DecidableEq, Repr

/-- The statement a call is about to send.  After the first read the call works
with the invoice as it was then. -/
inductive PaymentCall where
  | findInvoice (request : PaymentRequest)
  | findAttempt (request : PaymentRequest) (invoice : Invoice)
  | recover (request : PaymentRequest) (invoice : Invoice) (paymentRequestId : String)
  | claim (request : PaymentRequest) (invoice : Invoice)
  | findInvoiceAgain (request : PaymentRequest) (invoice : Invoice)
  | findAttemptAgain (request : PaymentRequest) (invoice : Invoice)
  | charge (request : PaymentRequest) (invoice : Invoice)
  | await (request : PaymentRequest) (invoice : Invoice)
  | record (request : PaymentRequest) (invoice : Invoice) (outcome : Outcome)
      (paymentRequestId : Option String) (answer : PaymentAnswer)
  | complete (request : PaymentRequest) (invoice : Invoice) (paymentRequestId : String)
      (status : PaymentStatusText)
  | done (answer : PaymentAnswer)
  deriving DecidableEq, Repr

/-- What can be seen of the provider's side and of the recorded outcomes: a call
charged an invoice, the provider definitely rejected that charge, and the
rejection was persisted. -/
inductive Observation where
  | charged (call : Nat) (invoiceId : Id)
  | rejected (call : Nat) (invoiceId : Id)
  | persisted (call : Nat) (invoiceId : Id)
  deriving DecidableEq, Repr

structure BillingState where
  db : BillingDB
  trace : List Observation

def BillingState.observe (s : BillingState) (o : Observation) : BillingState :=
  { s with trace := s.trace ++ [o] }

/-- Send a transaction: what it leaves in the database, and what the caller gets. -/
def send {α : Type} (m : BillingTx α) (delivery : Delivery) (db : BillingDB) :
    BillingDB × Option (Except BillingFailure α) :=
  match delivery, m db with
  | .acknowledged, .ok (a, db') => (db', some (.ok a))
  | .acknowledged, .error e => (db, some (.error e))
  | .failed, _ => (db, none)
  | .unacknowledged, .ok (_, db') => (db', none)
  | .unacknowledged, .error _ => (db, none)

/-- What a reply says about the statement sent. -/
def Reply.delivery : Reply → Delivery
  | .database delivery => delivery
  | .gateway _ => .acknowledged

/-- One step of `createXenditPaymentRequest`. -/
def PaymentCall.next (hasGateway : Bool) (call : Nat) (reply : Reply) (k : PaymentCall)
    (s : BillingState) : PaymentCall × BillingState :=
  match k with
  | .findInvoice request =>
      match s.db.invoiceById request.invoiceId request.tenantId with
      | none => (.done .invoiceNotFound, s)
      | some invoice =>
          if invoice.status ≠ .pending then (.done .notPending, s)
          else if truthy invoice.providerPaymentRequestId then
            (.done (.request (invoice.providerPaymentRequestId.getD "") .pending), s)
          else if hasGateway = false then (.done .gatewayUnavailable, s)
          else (.findAttempt request invoice, s)
  | .findAttempt request invoice =>
      match s.db.attemptFor invoice.id request.tenantId with
      | none => (.claim request invoice, s)
      | some attempt =>
          if truthy attempt.providerPaymentRequestId then
            (.recover request invoice (attempt.providerPaymentRequestId.getD ""), s)
          else if attempt.state ≠ .rejected then
            (.done (.attemptConflict (some attempt.state)), s)
          else (.claim request invoice, s)
  | .recover request invoice id =>
      match send (completeXenditPaymentRequest invoice.id request.tenantId invoice.invoiceNumber
          id) reply.delivery s.db with
      | (db, some (.ok _)) => (.done (.request id .pending), { s with db })
      | (db, _) => (.done .notLinked, { s with db })
  | .claim request invoice =>
      match send (claimXenditPaymentRequest invoice.id request.tenantId) reply.delivery s.db with
      | (db, some (.ok result)) =>
          if result.claimed then (.charge request invoice, { s with db })
          else (.findInvoiceAgain request invoice, { s with db })
      | (db, _) => (.done .databaseError, { s with db })
  | .findInvoiceAgain request invoice =>
      match s.db.invoiceById invoice.id request.tenantId with
      | none => (.findAttemptAgain request invoice, s)
      | some current =>
          if truthy current.providerPaymentRequestId then
            (.done (.request (current.providerPaymentRequestId.getD "") .pending), s)
          else (.findAttemptAgain request invoice, s)
  | .findAttemptAgain request invoice =>
      match s.db.attemptFor invoice.id request.tenantId with
      | none => (.done (.attemptConflict none), s)
      | some attempt =>
          if truthy attempt.providerPaymentRequestId then
            (.recover request invoice (attempt.providerPaymentRequestId.getD ""), s)
          else (.done (.attemptConflict (some attempt.state)), s)
  | .charge request invoice => (.await request invoice, s.observe (.charged call invoice.id))
  | .await request invoice =>
      match reply with
      | .database _ => (.await request invoice, s)
      | .gateway .rejected =>
          (.record request invoice .rejected none .rejected,
            s.observe (.rejected call invoice.id))
      | .gateway .ambiguous => (.record request invoice .unknown none .outcomeUnknown, s)
      | .gateway (.success id status) =>
          if truthy id then (.complete request invoice (id.getD "") status, s)
          else (.record request invoice .unknown none .noRequestId, s)
  | .record request invoice outcome id answer =>
      match reply.delivery, recordXenditPaymentRequestOutcome invoice.id request.tenantId outcome
          id s.db with
      | .failed, _ => (.done answer, s)
      | _, .error _ => (.done answer, s)
      | _, .ok (count, db) =>
          if outcome = .rejected ∧ count = 1 then
            (.done answer, { s with db }.observe (.persisted call invoice.id))
          else (.done answer, { s with db })
  | .complete request invoice id status =>
      match send (completeXenditPaymentRequest invoice.id request.tenantId invoice.invoiceNumber
          id) reply.delivery s.db with
      | (db, some (.ok _)) => (.done (.request id status), { s with db })
      | (db, _) => (.record request invoice .unknown (some id) .correlationFailed, { s with db })
  | .done answer => (.done answer, s)

/-- The transactions that run beside the calls. -/
inductive BillingAction where
  | createInvoice (id tenantId : Id) (subscriptionId : Option Id) (invoiceNumber : String)
      (amountCents : Int) (currency : String)
  | webhook (key : String) (input : XenditWebhookInput)
  | settlePaid (invoiceId tenantId : Id)
  | cancel (invoiceId tenantId : Id)
  | fail (invoiceId tenantId : Id)
  deriving DecidableEq, Repr

/-- A new invoice is PENDING and has no provider identifier. -/
def Invoice.opened (id tenantId : Id) (subscriptionId : Option Id) (invoiceNumber : String)
    (amountCents : Int) (currency : String) : Invoice :=
  { id, tenantId, subscriptionId, invoiceNumber, amountCents, currency
    status := .pending
    providerReferenceId := none
    providerPaymentRequestId := none
    providerPaymentId := none
    providerStatus := none
    deleted := false }

/-- `insertInvoice`; the id and the number are no other invoice's. -/
def BillingDB.insertInvoice (db : BillingDB) (invoice : Invoice) : BillingDB :=
  if db.invoices.toList.any fun row => row.invoiceNumber = invoice.invoiceNumber then db
  else { db with invoices := db.invoices.insert invoice }

def BillingAction.act : BillingAction → BillingDB → BillingDB
  | .createInvoice id tenantId subscriptionId invoiceNumber amountCents currency => fun db =>
      db.insertInvoice
        (.opened id tenantId subscriptionId invoiceNumber amountCents currency)
  | .webhook key input => commit (processXenditWebhookEvent key input)
  | .settlePaid id tenantId => commit (settlePaidInvoice id tenantId)
  | .cancel id tenantId => commit (cancelPendingInvoice id tenantId)
  | .fail id tenantId => commit (failPendingInvoice id tenantId)

def paymentRequests (hasGateway : Bool) :
    System BillingState PaymentRequest PaymentCall Reply BillingAction where
  start := .findInvoice
  next := PaymentCall.next hasGateway
  act := fun action s => { s with db := action.act s.db }

abbrev PaymentEvent := Event PaymentRequest Reply BillingAction

/-! ## What the transactions do -/

variable {db db' : BillingDB}

theorem isClaimable_iff {id tenantId : Id} {row : Invoice} :
    isClaimable id tenantId row = true ↔
      isPending id tenantId row = true ∧ row.providerPaymentRequestId = none := by
  unfold isClaimable
  rw [Bool.and_eq_true, decide_eq_true_iff]

/-- A count of one on a condition that only one key meets finds that row. -/
theorem exists_of_count {α : Type} {key : α → Nat} {t : Rows α key} {p : α → Bool} {k : Nat}
    (hp : ∀ r, p r = true → key r = k) (h : t.count p = 1) :
    ∃ r, t.get k = some r ∧ p r = true := by
  rw [Rows.count_of_key t hp] at h
  by_cases hany : (t.get k).any p = true
  · exact (Option.any_eq_true _ _).mp hany
  · rw [if_neg hany] at h
    exact absurd h (by decide)

theorem claimable_of_count {id tenantId : Id}
    (h : db.invoices.count (isClaimable id tenantId) = 1) :
    ∃ row, db.invoices.get id = some row ∧ row.status = .pending ∧
      row.providerPaymentRequestId = none := by
  have hkey (r : Invoice) (hr : isClaimable id tenantId r = true) : r.id = id :=
    (isPending_iff.mp (isClaimable_iff.mp hr).1).1
  obtain ⟨row, hget, hrow⟩ := exists_of_count hkey h
  obtain ⟨hpending, hnone⟩ := isClaimable_iff.mp hrow
  exact ⟨row, hget, (isPending_iff.mp hpending).2.2.2, hnone⟩

/-- The attempt of invoice `i` becomes `attempt`; nothing else changes in the table. -/
def SetsAttempt (db db' : BillingDB) (i : Id) (attempt : XenditPaymentRequestAttempt) : Prop :=
  ∀ k, db'.attempts.get k = if k = i then some attempt else db.attempts.get k

/-- A claim succeeds on a pending invoice without a payment request whose attempt
was not made yet or was rejected, and leaves it in progress. -/
theorem claimXenditPaymentRequest_post (db : BillingDB) (i tenantId : Id) :
    Post (claimXenditPaymentRequest i tenantId) db
      (fun result db' => (result.claimed = false ∧ db' = db) ∨
        (result.claimed = true ∧ db'.invoices = db.invoices ∧
          (∃ row, db.invoices.get i = some row ∧ row.status = .pending ∧
            row.providerPaymentRequestId = none) ∧
          ∃ attempt, attempt.state = .inProgress ∧ SetsAttempt db db' i attempt ∧
            ((db.attempts.get i = none ∧ attempt.providerPaymentRequestId = none) ∨
              ∃ old, db.attempts.get i = some old ∧ old.state = .rejected ∧
                attempt.providerPaymentRequestId = old.providerPaymentRequestId)))
      (fun _ => False) := by
  unfold claimXenditPaymentRequest
  rw [post_bind, post_get, post_ite]
  refine ⟨fun _ => .inl ⟨rfl, rfl⟩, fun hcount => ?_⟩
  have hrow := claimable_of_count (not_not.mp hcount)
  rw [post_ite]
  refine ⟨fun hnone => ?_, fun hsome => ?_⟩
  · refine .inr ⟨rfl, rfl, hrow, ⟨i, tenantId, .inProgress, none⟩, rfl, fun k => ?_,
      .inl ⟨hnone, rfl⟩⟩
    have hget : (db.attempts.insert ⟨i, tenantId, .inProgress, none⟩).get k =
        if i = k then some ⟨i, tenantId, .inProgress, none⟩ else db.attempts.get k :=
      Rows.get_insert_of_none hnone k
    refine Eq.trans hget ?_
    by_cases hk : k = i
    · rw [if_pos hk, if_pos hk.symm]
    · rw [if_neg hk, if_neg (Ne.symm hk)]
  · cases hfind : db.attemptFor i tenantId with
    | none => exact .inl ⟨rfl, rfl⟩
    | some old =>
        dsimp only
        rw [post_ite]
        refine ⟨fun hrejected => ?_, fun _ => .inl ⟨rfl, rfl⟩⟩
        have hsat := Rows.sat_of_findFirst hfind
        rw [decide_eq_true_iff] at hsat
        have hget := Rows.get_of_mem (Rows.mem_of_findFirst hfind)
        rw [hsat.1] at hget
        have hsat' : isReclaimable i tenantId old = true := by
          simp [isReclaimable, isAttempt, hsat, hrejected]
        have hkey (r : XenditPaymentRequestAttempt) (hr : isReclaimable i tenantId r = true) :
            r.invoiceId = i := by
          rw [isReclaimable, Bool.and_eq_true, isAttempt, decide_eq_true_iff] at hr
          exact hr.1.1
        have hone : db.attempts.count (isReclaimable i tenantId) = 1 := by
          rw [Rows.count_of_key _ hkey, hget]
          simp [hsat']
        rw [post_bind, post_set, post_ite]
        refine ⟨fun _ => ?_, fun hne => absurd hone hne⟩
        refine .inr ⟨rfl, rfl, hrow, old.reclaim, rfl, fun k => ?_,
          .inr ⟨old, hget, hrejected, rfl⟩⟩
        exact Rows.get_updateMany_of_key (f := XenditPaymentRequestAttempt.reclaim) (fun _ => rfl)
          hget hsat' hkey k

/-- A request is completed on a pending invoice without a payment request whose
attempt is in progress or unknown. -/
theorem completeXenditPaymentRequest_post (db : BillingDB) (i tenantId : Id)
    (referenceId id : String) :
    Post (completeXenditPaymentRequest i tenantId referenceId id) db
      (fun _ db' => ∃ row row' old attempt,
        db.invoices.get i = some row ∧ row'.providerPaymentRequestId = some id ∧
        (∀ k, db'.invoices.get k = if k = i then some row' else db.invoices.get k) ∧
        db.attempts.get i = some old ∧ (old.state = .inProgress ∨ old.state = .unknown) ∧
        attempt.state = .completed ∧ SetsAttempt db db' i attempt)
      (fun _ => True) := by
  unfold completeXenditPaymentRequest
  rw [post_bind, post_get, post_bind, post_require]
  refine ⟨fun hcount => ?_, fun _ => trivial⟩
  rw [post_bind, post_require]
  refine ⟨fun _ => ?_, fun _ => trivial⟩
  rw [post_bind, post_modify, post_bind, post_require]
  refine ⟨fun hattempt => ?_, fun _ => trivial⟩
  rw [post_bind, post_require]
  refine ⟨fun _ => ?_, fun _ => trivial⟩
  rw [post_modify]
  have hkeyInvoice (r : Invoice) (hr : isClaimable i tenantId r = true) : r.id = i :=
    (isPending_iff.mp (isClaimable_iff.mp hr).1).1
  have hkeyAttempt (r : XenditPaymentRequestAttempt)
      (hr : isCompletable i tenantId id r = true) : r.invoiceId = i := by
    rw [isCompletable, Bool.and_eq_true, Bool.and_eq_true, isAttempt, decide_eq_true_iff] at hr
    exact hr.1.1.1
  obtain ⟨row, hrow, hclaim⟩ := exists_of_count hkeyInvoice hcount
  obtain ⟨old, hold, hcomplete⟩ := exists_of_count hkeyAttempt hattempt
  refine ⟨row, row.correlate referenceId id, old, old.complete id, hrow, rfl, fun k => ?_, hold,
    ?_, rfl, fun k => ?_⟩
  · exact Rows.get_updateMany_of_key (f := Invoice.correlate referenceId id) (fun _ => rfl)
      hrow hclaim hkeyInvoice k
  · rw [isCompletable, Bool.and_eq_true, Bool.and_eq_true, Bool.or_eq_true, decide_eq_true_iff,
      decide_eq_true_iff] at hcomplete
    exact hcomplete.1.2
  · exact Rows.get_updateMany_of_key (f := XenditPaymentRequestAttempt.complete id) (fun _ => rfl)
      hold hcomplete hkeyAttempt k

/-- An outcome is recorded on an attempt in progress, or not at all. -/
theorem recordXenditPaymentRequestOutcome_post (db : BillingDB) (i tenantId : Id)
    (outcome : Outcome) (id : Option String) :
    Post (recordXenditPaymentRequestOutcome i tenantId outcome id) db
      (fun count db' => (count ≠ 1 ∧ db' = db) ∨
        (count = 1 ∧ db'.invoices = db.invoices ∧
          ∃ old attempt, db.attempts.get i = some old ∧ old.state = .inProgress ∧
            attempt.state = outcome.state ∧
            (id = none → attempt.providerPaymentRequestId = old.providerPaymentRequestId) ∧
            SetsAttempt db db' i attempt))
      (fun _ => True) := by
  unfold recordXenditPaymentRequestOutcome
  rw [post_bind, post_get, post_bind, post_require]
  refine ⟨fun _ => ?_, fun _ => trivial⟩
  rw [post_bind, post_set, post_pure]
  have hkey (r : XenditPaymentRequestAttempt) (hr : isInProgress i tenantId r = true) :
      r.invoiceId = i := by
    rw [isInProgress, Bool.and_eq_true, isAttempt, decide_eq_true_iff] at hr
    exact hr.1.1
  have hcount := Rows.count_of_key db.attempts hkey
  by_cases hany : (db.attempts.get i).any (isInProgress i tenantId) = true
  · rw [if_pos hany] at hcount
    obtain ⟨old, hold, hsat⟩ := exists_of_count hkey hcount
    refine .inr ⟨hcount, rfl, old, old.record outcome.state id, hold, ?_, rfl, ?_, fun k => ?_⟩
    · rw [isInProgress, Bool.and_eq_true, decide_eq_true_iff] at hsat
      exact hsat.2
    · intro hid
      rw [hid]
      rfl
    · exact Rows.get_updateMany_of_key (f := XenditPaymentRequestAttempt.record outcome.state id)
        (fun _ => rfl) hold hsat hkey k
  · rw [if_neg hany] at hcount
    refine .inl ⟨by omega, ?_⟩
    exact congrArg (fun t => { db with attempts := t })
      (Rows.updateMany_eq_self (f := XenditPaymentRequestAttempt.record outcome.state id)
        (fun _ => rfl) hcount)

end Billing
end ERP
