import Mathlib.Data.List.Lex
import Mathlib.Data.List.ReduceOption
import ERP.Billing.Store
import ERP.Lib.Sorting
import ERP.Lib.Text

/-!
# Settling an invoice

The three transactions that take an invoice out of PENDING: the provider's
webhook, the settlement of a paid invoice and the cancellation of a pending one,
and the statement by which a payment failure is recorded.
-/

namespace ERP
namespace Billing

open Lib Lib.Tx

/-- A number of a JSON body: `Number(text)` may be no finite number. -/
inductive JsNumber where
  | finite (value : ℚ)
  | nonFinite
  deriving DecidableEq, Repr

/-- The authenticated webhook, as the controller hands it on. -/
structure XenditWebhookInput where
  eventType : String
  paymentRequestId : Option String
  referenceId : Option String
  paymentId : String
  amount : Option JsNumber
  currency : Option String
  status : Option String
  captureIds : List String
  deriving DecidableEq, Repr

inductive WebhookOutcome where
  | processed | duplicate | ignored
  deriving DecidableEq, Repr

/-- What an event asks for. -/
inductive Transition where
  | paid | failed | none
  deriving DecidableEq, Repr

/-- The text whose SHA-256 digest is the idempotency key. -/
def webhookFingerprint (input : XenditWebhookInput) : String :=
  String.intercalate "\x00"
    ["xendit-payments-v3", input.paymentId, input.eventType, input.status.getD "",
      String.intercalate "," (orderBy codeUnits input.captureIds)]

section Webhook

variable (db : BillingDB) (input : XenditWebhookInput)

/-- The four lookups, in the order of the source. -/
def webhookMatches : List (Option Invoice) :=
  [ if truthy input.paymentRequestId then
      db.invoices.findFirst fun row =>
        row.providerPaymentRequestId = input.paymentRequestId ∧ row.deleted = false
    else none,
    db.invoices.findFirst fun row =>
      row.providerPaymentId = some input.paymentId ∧ row.deleted = false,
    if truthy input.referenceId then
      db.invoices.findFirst fun row =>
        row.providerReferenceId = input.referenceId ∧ row.deleted = false
    else none,
    if truthy input.referenceId then
      db.invoices.findFirst fun row =>
        some row.invoiceNumber = input.referenceId ∧ row.deleted = false
    else none ]

/-- The invoice that the lookups agree on. -/
def resolveInvoice : Except BillingFailure Invoice :=
  if ((webhookMatches db input).take 2).reduceOption = [] then .error .paymentNotCorrelated
  else
    match (webhookMatches db input).reduceOption with
    | [] => .error .paymentNotCorrelated
    | invoice :: others =>
        if others.all fun other => other.id = invoice.id then .ok invoice
        else .error .identifiersDisagree

/-- `invoice.known && input.given !== invoice.known`. -/
def contradicts (known given : Option String) : Bool := truthy known && given ≠ known

def webhookTransition (eventType status : String) : Option Transition :=
  if eventType = "payment.capture" ∧ status = "SUCCEEDED" then some .paid
  else if eventType = "payment.failure" ∧ status ∈ ["FAILED", "EXPIRED", "CANCELED"] then
    some .failed
  else if eventType = "payment.authorization" ∧ status = "AUTHORIZED" then some .none
  else none

/-- The checks of the event against the invoice it resolved to. -/
def checkWebhook (invoice : Invoice) : Except BillingFailure Transition :=
  match input.amount, input.currency, input.status with
  | some (.finite amount), some currency, some status =>
      if currency = "" ∨ status = "" then .error .financialFieldsMissing
      else if (invoice.amountCents : ℚ) ≠ amount then .error .amountMismatch
      else if invoice.currency ≠ currency then .error .currencyMismatch
      else if contradicts invoice.providerPaymentRequestId input.paymentRequestId ||
          contradicts invoice.providerPaymentId (some input.paymentId) ||
          contradicts invoice.providerReferenceId input.referenceId then
        .error .correlationMismatch
      else
        match webhookTransition input.eventType status with
        | some transition => .ok transition
        | none => .error .unsupportedPair
  | _, _, _ => .error .financialFieldsMissing

end Webhook

/-- The invoice as the webhook leaves it.  An identifier the event does not carry
is `undefined` in the update and stays as it is. -/
def Invoice.settle (invoice : Invoice) (status : InvoiceStatus) (input : XenditWebhookInput) :
    Invoice :=
  { invoice with
    status
    providerReferenceId := input.referenceId.or invoice.providerReferenceId
    providerPaymentRequestId := input.paymentRequestId.or invoice.providerPaymentRequestId
    providerPaymentId := some input.paymentId
    providerStatus := input.status.or invoice.providerStatus }

/-- `where: { id, tenantId, deletedAt: null, status: 'PENDING' }`. -/
def isPending (id tenantId : Id) (row : Invoice) : Bool :=
  row.id = id ∧ row.tenantId = tenantId ∧ row.deleted = false ∧ row.status = .pending

namespace BillingDB

variable (db : BillingDB)

def insertReceipt (key : String) : BillingDB :=
  { db with receipts := db.receipts ++ [{ idempotencyKey := key, outcome := .processing }] }

def setReceiptOutcome (key : String) (outcome : ReceiptOutcome) : BillingDB :=
  { db with receipts := db.receipts.map fun row =>
      if row.idempotencyKey = key then { row with outcome } else row }

def hasReceipt (key : String) : Bool := db.receipts.any fun row => row.idempotencyKey = key

/-- `subscription.updateMany({ where: { id, tenantId }, data: { status } })`. -/
def setSubscriptionStatus (id tenantId : Id) (status : SubscriptionStatus) : BillingDB :=
  db.updateSubscriptions (fun row => row.id = id ∧ row.tenantId = tenantId)
    (fun row => { row with status }) fun _ => rfl

/-- The subscription becomes ACTIVE and the invoice's event is written. -/
def recordPaid (invoice : Invoice) : BillingDB :=
  let db := match invoice.subscriptionId with
    | some id => db.setSubscriptionStatus id invoice.tenantId .active
    | none => db
  db.publish (.invoicePaid invoice.id invoice.subscriptionId invoice.amountCents)

/-- The invoice's event is written; a subscription that is found becomes PAST_DUE. -/
def recordFailed (invoice : Invoice) (reason : Option String) : BillingDB :=
  let db := db.publish (.invoiceFailed invoice.id invoice.subscriptionId reason)
  match invoice.subscriptionId.bind fun id => db.subscriptionById id invoice.tenantId with
  | some subscription =>
      (db.setSubscriptionStatus subscription.id invoice.tenantId .pastDue).publish
        (.subscriptionPastDue subscription.id invoice.amountCents)
  | none => db

end BillingDB

/-- The body of `processXenditWebhookEvent`. -/
def processXenditWebhookEvent (key : String) (input : XenditWebhookInput) :
    BillingTx WebhookOutcome := do
  let db ← get
  if db.hasReceipt key then pure .duplicate
  else do
    set (db.insertReceipt key)
    match resolveInvoice db input with
    | .error e => throw e
    | .ok invoice =>
      match checkWebhook input invoice with
      | .error e => throw e
      | .ok transition => do
        if transition = .none ∨ invoice.status ≠ .pending then do
          modify fun db => db.setReceiptOutcome key .ignored
          pure .ignored
        else do
          let status : InvoiceStatus := if transition = .paid then .paid else .failed
          require (db.invoiceTaken Invoice.providerReferenceId invoice.id
            input.referenceId = false ∧
              db.invoiceTaken Invoice.providerPaymentRequestId invoice.id
                input.paymentRequestId = false ∧
              db.invoiceTaken Invoice.providerPaymentId invoice.id (some input.paymentId) = false)
            .uniqueViolation
          let count := db.invoices.count (isPending invoice.id invoice.tenantId)
          modify fun db => db.updateInvoices (isPending invoice.id invoice.tenantId)
            (fun row => row.settle status input) fun _ => rfl
          if count ≠ 1 then do
            modify fun db => db.setReceiptOutcome key .ignored
            pure .ignored
          else do
            if transition = .paid then modify fun db => db.recordPaid invoice
            else modify fun db => db.recordFailed invoice input.status
            modify fun db => db.setReceiptOutcome key .processed
            pure .processed

/-- The body of `settlePaidInvoice`; `none` when the invoice was not settled. -/
def settlePaidInvoice (id tenantId : Id) : BillingTx (Option Invoice) := do
  let db ← get
  match db.invoices.findFirst (isPending id tenantId) with
  | none => pure none
  | some invoice => do
    let count := db.invoices.count (isPending id tenantId)
    modify fun db => db.updateInvoices (isPending id tenantId)
      (fun row => { row with status := .paid }) fun _ => rfl
    if count ≠ 1 then pure none
    else do
      modify fun db => db.recordPaid invoice
      let db ← get
      pure (db.invoiceById id tenantId)

/-- `where` of the cancelling update: PENDING, no provider identifier, and no
attempt or a REJECTED one. -/
def isCancellable (db : BillingDB) (id tenantId : Id) (row : Invoice) : Bool :=
  isPending id tenantId row && row.providerPaymentRequestId = none &&
    row.providerPaymentId = none &&
    match db.attempts.get row.id with
    | none => true
    | some attempt => attempt.state = .rejected

/-- The body of `cancelPendingInvoice` of the repository. -/
def cancelPendingInvoice (id tenantId : Id) : BillingTx (Option Id) := do
  let db ← get
  let count := db.invoices.count (isCancellable db id tenantId)
  set (db.updateInvoices (isCancellable db id tenantId)
    (fun row => { row with status := .cancelled }) fun _ => rfl)
  if count ≠ 1 then pure none
  else do
    let db ← get
    let invoice ← expect (db.invoiceById id tenantId) .cancelledInvoiceGone
    set (db.publish (.invoiceCancelled invoice.id))
    pure (some invoice.id)

/-- `updateInvoiceStatus` as `handlePaymentFailure` calls it. -/
def failPendingInvoice (id tenantId : Id) : BillingTx (Option Invoice) := do
  let db ← get
  let count := db.invoices.count (isPending id tenantId)
  set (db.updateInvoices (isPending id tenantId) (fun row => { row with status := .failed })
    fun _ => rfl)
  if count ≠ 1 then pure none
  else do
    let db ← get
    pure (db.invoiceById id tenantId)

/-! ## What the transactions do -/

variable {db db' : BillingDB} {input : XenditWebhookInput} {invoice : Invoice}

theorem isPending_iff {id tenantId : Id} {row : Invoice} :
    isPending id tenantId row = true ↔
      row.id = id ∧ row.tenantId = tenantId ∧ row.deleted = false ∧ row.status = .pending := by
  unfold isPending
  exact decide_eq_true_iff

/-- Every lookup finds an invoice that is there and not deleted. -/
theorem mem_webhookMatches (h : some invoice ∈ webhookMatches db input) :
    invoice ∈ db.invoices.toList ∧ invoice.deleted = false := by
  have key (p : Invoice → Prop) [DecidablePred p]
      (hf : (db.invoices.findFirst fun row => p row ∧ row.deleted = false) = some invoice) :
      invoice ∈ db.invoices.toList ∧ invoice.deleted = false := by
    have hsat := Rows.sat_of_findFirst hf
    rw [decide_eq_true_iff] at hsat
    exact ⟨Rows.mem_of_findFirst hf, hsat.2⟩
  simp only [webhookMatches, List.mem_cons, List.not_mem_nil, or_false] at h
  rcases h with h | h | h | h
  · split at h
    · exact key _ h.symm
    · cases h
  · exact key _ h.symm
  · split at h
    · exact key _ h.symm
    · cases h
  · split at h
    · exact key _ h.symm
    · cases h

/-- The two provider lookups find an invoice by an identifier it carries. -/
theorem correlated_of_mem_take (h : some invoice ∈ (webhookMatches db input).take 2) :
    (∃ id, input.paymentRequestId = some id ∧ invoice.providerPaymentRequestId = some id) ∨
      invoice.providerPaymentId = some input.paymentId := by
  simp only [webhookMatches, List.take_succ_cons, List.take_zero, List.mem_cons,
    List.not_mem_nil, or_false] at h
  rcases h with h | h
  · split at h
    · rename_i hgiven
      have hsat := Rows.sat_of_findFirst h.symm
      rw [decide_eq_true_iff] at hsat
      cases hid : input.paymentRequestId with
      | none => simp [truthy, hid] at hgiven
      | some id => exact .inl ⟨id, rfl, hsat.1.trans hid⟩
    · cases h
  · have hsat := Rows.sat_of_findFirst h.symm
    rw [decide_eq_true_iff] at hsat
    exact .inr hsat.1

/-- The invoice an event resolves to is in the table, is not deleted, and carries
the event's payment request id or its payment id already. -/
theorem resolveInvoice_spec (h : resolveInvoice db input = .ok invoice) :
    db.invoices.get invoice.id = some invoice ∧ invoice.deleted = false ∧
      ((∃ id, input.paymentRequestId = some id ∧ invoice.providerPaymentRequestId = some id) ∨
        invoice.providerPaymentId = some input.paymentId) := by
  unfold resolveInvoice at h
  split at h
  · cases h
  rename_i hprovider
  split at h
  · cases h
  rename_i first others hmatch
  split at h
  · rename_i hall
    have hinvoice : first = invoice := by simpa using h
    rw [← hinvoice]
    have hfirst : some first ∈ webhookMatches db input := by
      rw [← List.reduceOption_mem_iff, hmatch]
      exact List.mem_cons_self
    have hget := Rows.get_of_mem (mem_webhookMatches hfirst).1
    -- one of the two provider lookups found something, and all lookups agree
    obtain ⟨found, hfound⟩ := List.exists_mem_of_ne_nil _ hprovider
    have htake : some found ∈ (webhookMatches db input).take 2 :=
      List.reduceOption_mem_iff.mp hfound
    have hfm : found ∈ first :: others := by
      rw [← hmatch]
      exact List.reduceOption_mem_iff.mpr (List.mem_of_mem_take htake)
    have hid : found.id = first.id := by
      rcases List.mem_cons.mp hfm with hf | hf
      · rw [hf]
      · simpa using List.all_eq_true.mp hall found hf
    have hsame : found = first := by
      have hgetf := Rows.get_of_mem (mem_webhookMatches (List.mem_of_mem_take htake)).1
      rw [hid, hget] at hgetf
      exact (Option.some.inj hgetf).symm
    exact ⟨hget, (mem_webhookMatches hfirst).2, hsame ▸ correlated_of_mem_take htake⟩
  · cases h

/-- An event that passes the checks names the invoice's amount and currency, and
contradicts no identifier the invoice carries. -/
structure Agrees (invoice : Invoice) (input : XenditWebhookInput) : Prop where
  amount : input.amount = some (.finite invoice.amountCents)
  currency : input.currency = some invoice.currency
  paymentRequestId : truthy invoice.providerPaymentRequestId →
    input.paymentRequestId = invoice.providerPaymentRequestId
  paymentId : truthy invoice.providerPaymentId → some input.paymentId = invoice.providerPaymentId
  referenceId : truthy invoice.providerReferenceId →
    input.referenceId = invoice.providerReferenceId

theorem not_contradicts {known given : Option String} (h : contradicts known given = false)
    (hknown : truthy known) : given = known := by
  unfold contradicts at h
  rw [hknown, Bool.true_and, decide_eq_false_iff_not, not_not] at h
  exact h

theorem checkWebhook_agrees {transition : Transition}
    (h : checkWebhook input invoice = .ok transition) : Agrees invoice input := by
  unfold checkWebhook at h
  split at h
  · rename_i amount currency status hamount hcurrency hstatus
    split at h
    · cases h
    split at h
    · cases h
    rename_i hsame
    split at h
    · cases h
    rename_i hcur
    split at h
    · cases h
    rename_i hids
    rw [Bool.not_eq_true, Bool.or_eq_false_iff, Bool.or_eq_false_iff] at hids
    rw [not_not] at hsame hcur
    exact
      { amount := by rw [hamount, hsame]
        currency := by rw [hcurrency, hcur]
        paymentRequestId := not_contradicts hids.1.1
        paymentId := not_contradicts hids.1.2
        referenceId := not_contradicts hids.2 }
  · cases h

/-- The row of a pending invoice, and that the condition on PENDING finds it alone. -/
theorem count_isPending (hget : db.invoices.get invoice.id = some invoice)
    (hdeleted : invoice.deleted = false) (hpending : invoice.status = .pending) :
    db.invoices.count (isPending invoice.id invoice.tenantId) = 1 := by
  have hkey (r : Invoice) (hr : isPending invoice.id invoice.tenantId r = true) :
      r.id = invoice.id := (isPending_iff.mp hr).1
  rw [Rows.count_of_key _ hkey, hget]
  have hp : isPending invoice.id invoice.tenantId invoice = true :=
    isPending_iff.mpr ⟨rfl, rfl, hdeleted, hpending⟩
  simp [hp]

/-- The tables after an event was processed. -/
def webhookSettled (db : BillingDB) (key : String) (input : XenditWebhookInput)
    (invoice : Invoice) (transition : Transition) : BillingDB :=
  let settled := (db.insertReceipt key).updateInvoices (isPending invoice.id invoice.tenantId)
    (fun row => row.settle (if transition = .paid then .paid else .failed) input) fun _ => rfl
  (if transition = .paid then settled.recordPaid invoice
    else settled.recordFailed invoice input.status).setReceiptOutcome key .processed

/-- The identifiers of the event are no other invoice's. -/
def identifiersFree (db : BillingDB) (invoice : Invoice) (input : XenditWebhookInput) : Prop :=
  db.invoiceTaken Invoice.providerReferenceId invoice.id input.referenceId = false ∧
  db.invoiceTaken Invoice.providerPaymentRequestId invoice.id input.paymentRequestId = false ∧
  db.invoiceTaken Invoice.providerPaymentId invoice.id (some input.paymentId) = false

/-- A webhook is a duplicate, is ignored, or settles the pending invoice it
resolves to and agrees with. -/
theorem processXenditWebhookEvent_post (db : BillingDB) (key : String)
    (input : XenditWebhookInput) :
    Post (processXenditWebhookEvent key input) db
      (fun outcome db' =>
        (outcome = .duplicate ∧ db.hasReceipt key = true ∧ db' = db) ∨
        (outcome = .ignored ∧ db.hasReceipt key = false ∧
          db' = (db.insertReceipt key).setReceiptOutcome key .ignored) ∨
        (∃ invoice transition, outcome = .processed ∧ db.hasReceipt key = false ∧
          resolveInvoice db input = .ok invoice ∧
          checkWebhook input invoice = .ok transition ∧ transition ≠ .none ∧
          invoice.status = .pending ∧ identifiersFree db invoice input ∧
          db' = webhookSettled db key input invoice transition))
      (fun _ => db.hasReceipt key = false) := by
  unfold processXenditWebhookEvent
  rw [post_bind, post_get, post_ite]
  refine ⟨fun hdup => .inl ⟨rfl, hdup, rfl⟩, fun hnew => ?_⟩
  rw [Bool.not_eq_true] at hnew
  rw [post_bind, post_set]
  cases hresolve : resolveInvoice db input with
  | error e => exact hnew
  | ok invoice =>
      obtain ⟨hget, hdeleted, -⟩ := resolveInvoice_spec hresolve
      dsimp only
      cases hcheck : checkWebhook input invoice with
      | error e => exact hnew
      | ok transition =>
          dsimp only
          rw [post_ite]
          refine ⟨fun _ => .inr (.inl ⟨rfl, hnew, rfl⟩), fun hgo => ?_⟩
          rw [not_or, not_not] at hgo
          rw [post_bind, post_require]
          refine ⟨fun hfree => ?_, fun _ => hnew⟩
          rw [post_bind, post_modify, post_ite]
          refine ⟨fun hcount => absurd (count_isPending hget hdeleted hgo.2) hcount, fun _ => ?_⟩
          refine post_ite.mpr ⟨fun hpaid => ?_, fun hfailed => ?_⟩
          · refine .inr (.inr ⟨invoice, transition, rfl, hnew, rfl, hcheck, hgo.1,
              hgo.2, hfree, ?_⟩)
            simp only [webhookSettled, if_pos hpaid]
          · refine .inr (.inr ⟨invoice, transition, rfl, hnew, rfl, hcheck, hgo.1,
              hgo.2, hfree, ?_⟩)
            simp only [webhookSettled, if_neg hfailed]

/-- An event that was not received before, resolves to a pending invoice and
passes the checks settles it. -/
theorem processXenditWebhookEvent_processed {key : String} {transition : Transition}
    (hnew : db.hasReceipt key = false) (hres : resolveInvoice db input = .ok invoice)
    (hcheck : checkWebhook input invoice = .ok transition) (hask : transition ≠ .none)
    (hpending : invoice.status = .pending) (hfree : identifiersFree db invoice input) :
    processXenditWebhookEvent key input db =
      .ok (.processed, webhookSettled db key input invoice transition) := by
  have hpost : Post (processXenditWebhookEvent key input) db (fun outcome _ => outcome = .processed)
      (fun _ => False) := by
    obtain ⟨hget, hdeleted, -⟩ := resolveInvoice_spec hres
    unfold processXenditWebhookEvent
    rw [post_bind, post_get, post_ite]
    refine ⟨fun hdup => absurd hdup (by rw [hnew]; exact Bool.false_ne_true), fun _ => ?_⟩
    rw [post_bind, post_set, hres]
    dsimp only
    rw [hcheck]
    dsimp only
    rw [post_ite]
    refine ⟨fun hstop => ?_, fun _ => ?_⟩
    · rcases hstop with h | h
      · exact absurd h hask
      · exact absurd hpending h
    rw [post_bind, post_require]
    refine ⟨fun _ => ?_, fun h => h hfree⟩
    rw [post_bind, post_modify, post_ite]
    refine ⟨fun hcount => absurd (count_isPending hget hdeleted hpending) hcount, fun _ => ?_⟩
    exact post_ite.mpr ⟨fun _ => rfl, fun _ => rfl⟩
  obtain ⟨outcome, db', hm, rfl⟩ := hpost.exists_ok
  rcases (processXenditWebhookEvent_post db key input).of_ok hm with ⟨hother, -⟩ | ⟨hother, -⟩ |
    ⟨found, asked, -, -, hfound, hasked, -, -, -, rfl⟩
  · cases hother
  · cases hother
  · obtain rfl : invoice = found := Except.ok.inj (hres.symm.trans hfound)
    obtain rfl : transition = asked := Except.ok.inj (hcheck.symm.trans hasked)
    exact hm

theorem settlePaidInvoice_post (db : BillingDB) (id tenantId : Id) :
    Post (settlePaidInvoice id tenantId) db
      (fun _ db' => (db.invoices.findFirst (isPending id tenantId) = none ∧ db' = db) ∨
        ∃ invoice, db.invoices.get id = some invoice ∧ isPending id tenantId invoice = true ∧
          db' = (db.updateInvoices (isPending id tenantId)
            (fun row => { row with status := .paid }) fun _ => rfl).recordPaid invoice)
      (fun _ => False) := by
  unfold settlePaidInvoice
  simp only [post_bind, post_get]
  cases hfind : db.invoices.findFirst (isPending id tenantId) with
  | none => exact .inl ⟨rfl, rfl⟩
  | some invoice =>
      have hsat := Rows.sat_of_findFirst hfind
      have hid : invoice.id = id := (isPending_iff.mp hsat).1
      have hget := Rows.get_of_mem (Rows.mem_of_findFirst hfind)
      rw [hid] at hget
      have hkey (r : Invoice) (hr : isPending id tenantId r = true) : r.id = id :=
        (isPending_iff.mp hr).1
      have hcount : db.invoices.count (isPending id tenantId) = 1 := by
        rw [Rows.count_of_key _ hkey, hget]
        simp [hsat]
      simp only [post_bind, post_modify, post_ite, post_pure, post_get]
      exact ⟨fun h => absurd hcount h, fun _ => .inr ⟨invoice, hget, hsat, rfl⟩⟩

theorem isCancellable_iff {id tenantId : Id} {row : Invoice} :
    isCancellable db id tenantId row = true ↔
      isPending id tenantId row = true ∧ row.providerPaymentRequestId = none ∧
        row.providerPaymentId = none ∧
        ∀ attempt, db.attempts.get row.id = some attempt → attempt.state = .rejected := by
  unfold isCancellable
  cases hget : db.attempts.get row.id with
  | none => simp [and_assoc]
  | some attempt => simp [and_assoc]

theorem cancelPendingInvoice_post (db : BillingDB) (id tenantId : Id) :
    Post (cancelPendingInvoice id tenantId) db
      (fun _ db' => db' = db ∨
        ∃ invoice, db.invoices.get id = some invoice ∧
          isCancellable db id tenantId invoice = true ∧
          db' = (db.updateInvoices (isCancellable db id tenantId)
            (fun row => { row with status := .cancelled }) fun _ => rfl).publish
              (.invoiceCancelled id))
      (fun _ => True) := by
  have hkey (r : Invoice) (hr : isCancellable db id tenantId r = true) : r.id = id :=
    (isPending_iff.mp (isCancellable_iff.mp hr).1).1
  unfold cancelPendingInvoice
  rw [post_bind, post_get, post_bind, post_set, post_ite]
  have hcount := Rows.count_of_key db.invoices hkey
  cases hany : (db.invoices.get id).any (isCancellable db id tenantId) with
  | false =>
      rw [hany] at hcount
      simp only [Bool.false_eq_true, if_false] at hcount
      refine ⟨fun _ => .inl ?_, fun h => absurd hcount (by omega)⟩
      exact congrArg (fun t => { db with invoices := t })
        (Rows.updateMany_eq_self (f := fun row => { row with status := .cancelled })
          (fun _ => rfl) hcount)
  | true =>
      rw [hany, if_pos rfl] at hcount
      refine ⟨fun h => absurd hcount h, fun _ => ?_⟩
      obtain ⟨invoice, hget, hsat⟩ := (Option.any_eq_true _ _).mp hany
      rw [post_bind, post_get, post_bind, post_expect]
      refine ⟨fun found hfound => .inr ⟨invoice, hget, hsat, ?_⟩, fun _ => trivial⟩
      have hid : found.id = id := by
        have hf := Rows.sat_of_findFirst hfound
        rw [decide_eq_true_iff] at hf
        exact hf.1
      rw [← hid]

theorem failPendingInvoice_post (db : BillingDB) (id tenantId : Id) :
    Post (failPendingInvoice id tenantId) db
      (fun updated db' => (updated = none ∧ db' = db) ∨
        ∃ invoice, updated = some { invoice with status := .failed } ∧
          db.invoices.get id = some invoice ∧ isPending id tenantId invoice = true ∧
          db' = db.updateInvoices (isPending id tenantId)
            (fun row => { row with status := .failed }) fun _ => rfl)
      (fun _ => False) := by
  have hkey (r : Invoice) (hr : isPending id tenantId r = true) : r.id = id :=
    (isPending_iff.mp hr).1
  unfold failPendingInvoice
  rw [post_bind, post_get, post_bind, post_set, post_ite]
  have hcount := Rows.count_of_key db.invoices hkey
  cases hany : (db.invoices.get id).any (isPending id tenantId) with
  | false =>
      rw [hany] at hcount
      simp only [Bool.false_eq_true, if_false] at hcount
      refine ⟨fun _ => .inl ⟨rfl, ?_⟩, fun h => absurd hcount (by omega)⟩
      exact congrArg (fun t => { db with invoices := t })
        (Rows.updateMany_eq_self (f := fun row => { row with status := .failed })
          (fun _ => rfl) hcount)
  | true =>
      rw [hany, if_pos rfl] at hcount
      refine ⟨fun h => absurd hcount h, fun _ => ?_⟩
      obtain ⟨invoice, hget, hsat⟩ := (Option.any_eq_true _ _).mp hany
      rw [post_bind, post_get, post_pure]
      refine .inr ⟨invoice, ?_, hget, hsat, rfl⟩
      -- the reload finds the row that was just written
      have hrow := Rows.get_updateMany_of_key (f := fun row => { row with status := .failed })
        (fun _ => rfl) hget hsat hkey id
      rw [if_pos rfl] at hrow
      obtain ⟨hid, htenant, hdeleted, -⟩ := isPending_iff.mp hsat
      refine Rows.findFirst_of_get hrow ?_ fun r hr => ?_
      · exact decide_eq_true ⟨hid, htenant, hdeleted⟩
      · rw [decide_eq_true_iff] at hr
        exact hr.1

/-- What an event says of an invoice. -/
def BillingEvent.tells : BillingEvent → Option (Id × InvoiceStatus)
  | .invoicePaid id _ _ => some (id, .paid)
  | .invoiceFailed id _ _ => some (id, .failed)
  | .invoiceCancelled id => some (id, .cancelled)
  | _ => none

/-- What the outbox says of invoices. -/
def BillingDB.told (db : BillingDB) : List (Id × InvoiceStatus) :=
  db.outbox.filterMap BillingEvent.tells

/-- A transaction that changes receipts at most. -/
structure Keeps (db db' : BillingDB) : Prop where
  invoices : db'.invoices = db.invoices
  attempts : db'.attempts = db.attempts
  subscriptions : db'.subscriptions = db.subscriptions
  told : db'.told = db.told

/-- A transaction that takes one invoice out of PENDING. -/
structure Leaves (db db' : BillingDB) (invoice row : Invoice) : Prop where
  found : db.invoices.get invoice.id = some invoice
  pending : invoice.status = .pending
  final : row.status ≠ .pending
  invoices : ∀ k, db'.invoices.get k = if k = invoice.id then some row else db.invoices.get k
  attempts : db'.attempts = db.attempts

/-- It also says so in the outbox, and touches no other subscription than the
invoice's own. -/
structure Settles (db db' : BillingDB) (invoice row : Invoice) : Prop
    extends Leaves db db' invoice row where
  told : db'.told = db.told ++ [(invoice.id, row.status)]
  subscriptions : ∀ k, invoice.subscriptionId ≠ some k →
    db'.subscriptions.get k = db.subscriptions.get k

theorem Keeps.refl (db : BillingDB) : Keeps db db := ⟨rfl, rfl, rfl, rfl⟩

/-- An update of the rows that `p` finds, where `p` finds PENDING rows of one id. -/
theorem leaves_updateInvoices {p : Invoice → Bool} {f : Invoice → Invoice}
    (hf : ∀ r, (f r).id = r.id) (hget : db.invoices.get invoice.id = some invoice)
    (hp : ∀ r, p r = true → r.id = invoice.id ∧ r.status = .pending)
    (hsat : p invoice = true) (hfinal : (f invoice).status ≠ .pending) :
    Leaves db (db.updateInvoices p f hf) invoice (f invoice) where
  found := hget
  pending := (hp invoice hsat).2
  final := hfinal
  invoices := Rows.get_updateMany_of_key hf hget hsat fun r hr => (hp r hr).1
  attempts := rfl

theorem told_publish (db : BillingDB) (event : BillingEvent) :
    (db.publish event).told = db.told ++ event.tells.toList := by
  show (db.outbox ++ [event]).filterMap BillingEvent.tells = _
  rw [List.filterMap_append]
  show _ = db.outbox.filterMap BillingEvent.tells ++ _
  cases ht : event.tells with
  | none => simp [ht]
  | some t => simp [ht]

theorem get_setSubscriptionStatus_of_ne (db : BillingDB) {id k : Id} (tenantId : Id)
    (status : SubscriptionStatus) (hk : id ≠ k) :
    (db.setSubscriptionStatus id tenantId status).subscriptions.get k =
      db.subscriptions.get k := by
  simp only [BillingDB.setSubscriptionStatus, BillingDB.updateSubscriptions, Rows.get_updateMany]
  cases hr : db.subscriptions.get k with
  | none => rfl
  | some r =>
      have hne : ¬ (r.id = id ∧ r.tenantId = tenantId) := fun h =>
        hk (h.1.symm.trans (Rows.key_of_get hr))
      rw [Option.map_some, if_neg (by simpa using hne)]

theorem recordPaid_settles {row : Invoice} (h : Leaves db db' invoice row)
    (hdb : db'.told = db.told) (hsub : db'.subscriptions = db.subscriptions)
    (hrow : row.status = .paid) : Settles db (db'.recordPaid invoice) invoice row := by
  unfold BillingDB.recordPaid
  cases hs : invoice.subscriptionId with
  | none =>
      refine { h with told := ?_, subscriptions := fun k _ => ?_ }
      · rw [told_publish, hdb, hrow]
        rfl
      · exact congrArg (fun t => t.get k) hsub
  | some id =>
      refine { h with told := ?_, subscriptions := fun k hk => ?_ }
      · rw [told_publish, hrow, ← hdb]
        rfl
      · rw [hs] at hk
        refine Eq.trans (get_setSubscriptionStatus_of_ne db' _ _
          (fun he => hk (congrArg some he))) ?_
        rw [hsub]

theorem recordFailed_settles {row : Invoice} (h : Leaves db db' invoice row)
    (hdb : db'.told = db.told) (hsub : db'.subscriptions = db.subscriptions)
    (reason : Option String) (hrow : row.status = .failed) :
    Settles db (db'.recordFailed invoice reason) invoice row := by
  have htold : (db'.publish (.invoiceFailed invoice.id invoice.subscriptionId reason)).told =
      db.told ++ [(invoice.id, row.status)] := by
    rw [told_publish, hdb, hrow]
    rfl
  unfold BillingDB.recordFailed
  dsimp only
  cases hs : invoice.subscriptionId.bind fun id =>
      (db'.publish (.invoiceFailed invoice.id invoice.subscriptionId reason)).subscriptionById id
        invoice.tenantId with
  | none =>
      exact { h with told := htold, subscriptions := fun k _ => congrArg (fun t => t.get k) hsub }
  | some subscription =>
      refine { h with told := ?_, subscriptions := fun k hk => ?_ }
      · rw [told_publish]
        show _ ++ [] = _
        rw [List.append_nil]
        exact htold
      · obtain ⟨id, hid, hfound⟩ := Option.bind_eq_some_iff.mp hs
        have hsat := Rows.sat_of_findFirst hfound
        rw [decide_eq_true_iff] at hsat
        refine Eq.trans (get_setSubscriptionStatus_of_ne _ _ _ fun he => hk ?_) ?_
        · rw [hid, ← he, hsat.1]
        · exact congrArg (fun t => t.get k) hsub

theorem webhookSettled_settles {key : String} {transition : Transition}
    (hget : db.invoices.get invoice.id = some invoice) (hdeleted : invoice.deleted = false)
    (hpending : invoice.status = .pending) :
    Settles db (webhookSettled db key input invoice transition) invoice
      (invoice.settle (if transition = .paid then .paid else .failed) input) := by
  have hp (r : Invoice) (hr : isPending invoice.id invoice.tenantId r = true) :
      r.id = invoice.id ∧ r.status = .pending :=
    ⟨(isPending_iff.mp hr).1, (isPending_iff.mp hr).2.2.2⟩
  have hsat : isPending invoice.id invoice.tenantId invoice = true :=
    isPending_iff.mpr ⟨rfl, rfl, hdeleted, hpending⟩
  have hget' : (db.insertReceipt key).invoices.get invoice.id = some invoice := hget
  have hleaves (status : InvoiceStatus) (hstatus : status ≠ .pending) :
      Leaves (db.insertReceipt key)
        ((db.insertReceipt key).updateInvoices (isPending invoice.id invoice.tenantId)
          (fun row => row.settle status input) fun _ => rfl) invoice
        (invoice.settle status input) :=
    leaves_updateInvoices (f := fun row => row.settle status input) (fun _ => rfl) hget' hp hsat
      hstatus
  by_cases hpaid : transition = .paid
  · have hsettles := recordPaid_settles (hleaves .paid (by decide)) rfl rfl rfl
    simp only [webhookSettled, if_pos hpaid]
    exact ⟨⟨hget, hpending, hsettles.final, hsettles.invoices, hsettles.attempts⟩,
      hsettles.told, hsettles.subscriptions⟩
  · have hsettles := recordFailed_settles (hleaves .failed (by decide)) rfl rfl input.status rfl
    simp only [webhookSettled, if_neg hpaid]
    exact ⟨⟨hget, hpending, hsettles.final, hsettles.invoices, hsettles.attempts⟩,
      hsettles.told, hsettles.subscriptions⟩

/-- A webhook that commits changes receipts at most, or settles an invoice that
agrees with the event and was correlated with it. -/
theorem webhook_settles (db : BillingDB) (key : String) (input : XenditWebhookInput) :
    Post (processXenditWebhookEvent key input) db
      (fun _ db' => Keeps db db' ∨ ∃ invoice row, Settles db db' invoice row ∧
        Agrees invoice input ∧
        (invoice.providerPaymentRequestId ≠ none ∨ invoice.providerPaymentId ≠ none))
      (fun _ => True) := by
  refine (processXenditWebhookEvent_post db key input).mono (fun outcome db' h => ?_)
    (fun _ _ => trivial)
  rcases h with ⟨-, -, rfl⟩ | ⟨-, -, rfl⟩ | ⟨invoice, transition, -, -, hres, hcheck, -,
    hpend, -, rfl⟩
  · exact .inl (Keeps.refl _)
  · exact .inl ⟨rfl, rfl, rfl, rfl⟩
  · obtain ⟨hget, hdeleted, hcor⟩ := resolveInvoice_spec hres
    refine .inr ⟨invoice, _, webhookSettled_settles hget hdeleted hpend,
      checkWebhook_agrees hcheck, ?_⟩
    rcases hcor with ⟨id, -, hid⟩ | hid
    · exact .inl (by rw [hid]; exact Option.some_ne_none id)
    · exact .inr (by rw [hid]; exact Option.some_ne_none _)

theorem settlePaidInvoice_settles (db : BillingDB) (id tenantId : Id) :
    Post (settlePaidInvoice id tenantId) db
      (fun _ db' => Keeps db db' ∨
        ∃ invoice, Settles db db' invoice { invoice with status := .paid })
      (fun _ => False) := by
  refine (settlePaidInvoice_post db id tenantId).mono (fun _ db' h => ?_) (fun _ h => h)
  rcases h with ⟨-, rfl⟩ | ⟨invoice, hget, hsat, rfl⟩
  · exact .inl (Keeps.refl _)
  · have hid : invoice.id = id := (isPending_iff.mp hsat).1
    have hp (r : Invoice) (hr : isPending id tenantId r = true) :
        r.id = invoice.id ∧ r.status = .pending :=
      ⟨(isPending_iff.mp hr).1.trans hid.symm, (isPending_iff.mp hr).2.2.2⟩
    have hleaves := leaves_updateInvoices (f := fun row => { row with status := .paid })
      (fun _ => rfl) (hid ▸ hget) hp hsat (fun h => InvoiceStatus.noConfusion h)
    exact .inr ⟨invoice, recordPaid_settles hleaves rfl rfl rfl⟩

theorem cancelPendingInvoice_settles (db : BillingDB) (id tenantId : Id) :
    Post (cancelPendingInvoice id tenantId) db
      (fun _ db' => Keeps db db' ∨
        ∃ invoice, Settles db db' invoice { invoice with status := .cancelled })
      (fun _ => True) := by
  refine (cancelPendingInvoice_post db id tenantId).mono (fun _ db' h => ?_) (fun _ _ => trivial)
  rcases h with rfl | ⟨invoice, hget, hsat, rfl⟩
  · exact .inl (Keeps.refl _)
  · have hid : invoice.id = id := (isPending_iff.mp (isCancellable_iff.mp hsat).1).1
    have hp (r : Invoice) (hr : isCancellable db id tenantId r = true) :
        r.id = invoice.id ∧ r.status = .pending := by
      have hr' := isPending_iff.mp (isCancellable_iff.mp hr).1
      exact ⟨hr'.1.trans hid.symm, hr'.2.2.2⟩
    have hleaves := leaves_updateInvoices (f := fun row => { row with status := .cancelled })
      (fun _ => rfl) (hid ▸ hget) hp hsat (fun h => InvoiceStatus.noConfusion h)
    refine .inr ⟨invoice, { hleaves with told := ?_, subscriptions := fun _ _ => rfl }⟩
    rw [told_publish, hid]
    rfl

end Billing
end ERP
