import ERP.Billing.Settlement
import ERP.Lib.Tasks

/-!
# An invoice is settled once

Webhook deliveries, reports of a successful payment and cancellations in any
interleaving.  A webhook is one transaction; the other two calls look the invoice
up first and run their transaction later, when it may have been settled already.
-/

namespace ERP
namespace Billing

open Lib Lib.Tx

inductive SettleRequest where
  | webhook (input : XenditWebhookInput)
  | paymentSuccess (invoiceId tenantId : Id)
  | cancel (invoiceId tenantId : Id)
  deriving DecidableEq, Repr

inductive SettleAnswer where
  | webhook (outcome : WebhookOutcome)
  | threw (failure : BillingFailure)
  | invoiceNotFound
  | alreadyPaid
  | settled (done : Bool)
  | notPending
  | providerPaymentActive
  | attemptUnresolved
  | cancelled
  deriving DecidableEq, Repr

/-- Where a call stands. -/
inductive SettleCall where
  | webhook (input : XenditWebhookInput)
  | paymentSuccess (invoiceId tenantId : Id)
  | settlePaid (invoiceId tenantId : Id)
  | cancel (invoiceId tenantId : Id)
  | cancelPending (invoiceId tenantId : Id)
  | done (answer : SettleAnswer)
  deriving DecidableEq, Repr

def SettleRequest.start : SettleRequest → SettleCall
  | .webhook input => .webhook input
  | .paymentSuccess id tenantId => .paymentSuccess id tenantId
  | .cancel id tenantId => .cancel id tenantId

/-- One step of `handleXenditWebhookEvent`, `handlePaymentSuccess` or
`cancelPendingInvoice` of the service. -/
def SettleCall.next (digest : String → String) (call : SettleCall) (db : BillingDB) :
    SettleCall × BillingDB :=
  match call with
  | .webhook input =>
      match processXenditWebhookEvent (digest (webhookFingerprint input)) input db with
      | .ok (outcome, db') => (.done (.webhook outcome), db')
      | .error e => (.done (.threw e), db)
  | .paymentSuccess id tenantId =>
      match db.invoiceById id tenantId with
      | none => (.done .invoiceNotFound, db)
      | some invoice =>
          if invoice.status = .paid then (.done .alreadyPaid, db)
          else (.settlePaid id tenantId, db)
  | .settlePaid id tenantId =>
      match settlePaidInvoice id tenantId db with
      | .ok (updated, db') => (.done (.settled updated.isSome), db')
      | .error e => (.done (.threw e), db)
  | .cancel id tenantId =>
      match db.invoiceById id tenantId with
      | none => (.done .invoiceNotFound, db)
      | some invoice =>
          if invoice.status ≠ .pending then (.done .notPending, db)
          else if truthy invoice.providerPaymentRequestId || truthy invoice.providerPaymentId then
            (.done .providerPaymentActive, db)
          else (.cancelPending id tenantId, db)
  | .cancelPending id tenantId =>
      match cancelPendingInvoice id tenantId db with
      | .ok (some _, db') => (.done .cancelled, db')
      | .ok (none, db') => (.done .attemptUnresolved, db')
      | .error e => (.done (.threw e), db)
  | .done answer => (.done answer, db)

def settlement (digest : String → String) :
    System BillingDB SettleRequest SettleCall Unit Empty where
  start := SettleRequest.start
  next := fun _ _ => SettleCall.next digest
  act := fun o => nomatch o

abbrev SettleEvent := Event SettleRequest Unit Empty

/-! ## One step -/

variable {digest : String → String} {db db' : BillingDB}

/-- A step changes receipts at most, or settles one invoice. -/
theorem next_settles (digest : String → String) (call : SettleCall) (db : BillingDB) :
    Keeps db (call.next digest db).2 ∨
      ∃ invoice row, Settles db (call.next digest db).2 invoice row := by
  cases call with
  | webhook input =>
      simp only [SettleCall.next]
      cases hm : processXenditWebhookEvent (digest (webhookFingerprint input)) input db with
      | error e => exact .inl (Keeps.refl db)
      | ok result =>
          rcases (webhook_settles db _ input).of_ok hm with hkeep | ⟨invoice, row, hs, -, -⟩
          · exact .inl hkeep
          · exact .inr ⟨invoice, row, hs⟩
  | paymentSuccess id tenantId =>
      refine .inl ?_
      simp only [SettleCall.next]
      split
      · exact Keeps.refl db
      · split
        · exact Keeps.refl db
        · exact Keeps.refl db
  | settlePaid id tenantId =>
      simp only [SettleCall.next]
      cases hm : settlePaidInvoice id tenantId db with
      | error e => exact .inl (Keeps.refl db)
      | ok result =>
          rcases (settlePaidInvoice_settles db id tenantId).of_ok hm with hkeep | ⟨invoice, hs⟩
          · exact .inl hkeep
          · exact .inr ⟨invoice, _, hs⟩
  | cancel id tenantId =>
      refine .inl ?_
      simp only [SettleCall.next]
      split
      · exact Keeps.refl db
      · split
        · exact Keeps.refl db
        · split
          · exact Keeps.refl db
          · exact Keeps.refl db
  | cancelPending id tenantId =>
      have hpost := cancelPendingInvoice_settles db id tenantId
      simp only [SettleCall.next]
      split
      · rename_i hm
        rcases hpost.of_ok hm with hkeep | ⟨invoice, hs⟩
        · exact .inl hkeep
        · exact .inr ⟨invoice, _, hs⟩
      · rename_i hm
        rcases hpost.of_ok hm with hkeep | ⟨invoice, hs⟩
        · exact .inl hkeep
        · exact .inr ⟨invoice, _, hs⟩
      · exact .inl (Keeps.refl db)
  | done answer => exact .inl (Keeps.refl db)

/-- So does one event of a run. -/
theorem exec_settles (digest : String → String) (w : World BillingDB SettleCall)
    (e : SettleEvent) :
    Keeps w.store ((settlement digest).exec w e).store ∨
      ∃ invoice row, Settles w.store ((settlement digest).exec w e).store invoice row := by
  obtain ⟨p, r, -, -, hs, -⟩ | ⟨p, c, k, -, -, -, hs, -⟩ | ⟨o, -, -⟩ |
    ⟨p, k, -, -, hs, -⟩ | ⟨hs, -⟩ := (settlement digest).exec_cases w e
  · rw [hs]
    exact .inl (Keeps.refl _)
  · rw [hs]
    exact next_settles digest k w.store
  · exact nomatch o
  · rw [hs]
    exact .inl (Keeps.refl _)
  · rw [hs]
    exact .inl (Keeps.refl _)

/-- The status of an invoice. -/
def BillingDB.statusOf (db : BillingDB) (id : Id) : Option InvoiceStatus :=
  (db.invoices.get id).map Invoice.status

theorem Keeps.statusOf (h : Keeps db db') (id : Id) : db'.statusOf id = db.statusOf id := by
  unfold BillingDB.statusOf
  rw [h.invoices]

theorem Leaves.statusOf {invoice row : Invoice} (h : Leaves db db' invoice row) (id : Id) :
    db'.statusOf id = if id = invoice.id then some row.status else db.statusOf id := by
  unfold BillingDB.statusOf
  rw [h.invoices]
  by_cases hid : id = invoice.id
  · rw [if_pos hid, if_pos hid]
    rfl
  · rw [if_neg hid, if_neg hid]

theorem Leaves.statusOf_before {invoice row : Invoice} (h : Leaves db db' invoice row) :
    db.statusOf invoice.id = some .pending := by
  unfold BillingDB.statusOf
  rw [h.found, Option.map_some, h.pending]

/-- A status other than PENDING is kept by every event. -/
theorem exec_terminal {w : World BillingDB SettleCall} {id : Id} {status : InvoiceStatus}
    (h : w.store.statusOf id = some status) (hstatus : status ≠ .pending) (e : SettleEvent) :
    ((settlement digest).exec w e).store.statusOf id = some status := by
  rcases exec_settles digest w e with hkeep | ⟨invoice, row, hs⟩
  · rw [hkeep.statusOf, h]
  · have hne : id ≠ invoice.id := by
      intro hid
      rw [hid, hs.statusOf_before] at h
      exact hstatus (Option.some.inj h).symm
    rw [hs.statusOf, if_neg hne, h]

theorem run_terminal {id : Id} {status : InvoiceStatus} (hstatus : status ≠ .pending) :
    ∀ (es : List SettleEvent) {w : World BillingDB SettleCall},
      w.store.statusOf id = some status →
      ((settlement digest).run w es).store.statusOf id = some status := by
  intro es
  induction es with
  | nil => exact fun h => h
  | cons e rest ih => exact fun h => ih (exec_terminal h hstatus e)

/-! ## Events -/

/-- What the outbox says of an invoice beyond what it said at the start is the
status the invoice left PENDING for. -/
def Told (start db : BillingDB) : Prop :=
  ∀ id status, status ≠ .pending →
    db.told.count (id, status) = start.told.count (id, status) +
      (if start.statusOf id = some .pending ∧ db.statusOf id = some status then 1 else 0) ∧
    (db.statusOf id = some .pending → start.statusOf id = some .pending)

theorem exec_told {start : BillingDB} {w : World BillingDB SettleCall} (h : Told start w.store)
    (e : SettleEvent) : Told start ((settlement digest).exec w e).store := by
  intro id status hstatus
  obtain ⟨hcount, hpending⟩ := h id status hstatus
  rcases exec_settles digest w e with hkeep | ⟨invoice, row, hs⟩
  · rw [hkeep.told, hkeep.statusOf]
    exact ⟨hcount, hpending⟩
  · rw [hs.told, List.count_append, hcount, hs.statusOf]
    by_cases hid : id = invoice.id
    · -- the invoice settled now was PENDING, so nothing was said of it before
      have hbefore : w.store.statusOf id = some .pending := hid ▸ hs.statusOf_before
      have hstart := hpending hbefore
      have hne : ¬ w.store.statusOf id = some status := by
        rw [hbefore]
        exact fun hp => hstatus (Option.some.inj hp).symm
      rw [if_neg (fun hp => hne hp.2), if_pos hid, hid]
      refine ⟨?_, fun hp => absurd (Option.some.inj hp) hs.final⟩
      by_cases hrow : row.status = status
      · have hboth : start.statusOf invoice.id = some .pending ∧ some row.status = some status :=
          ⟨hid ▸ hstart, congrArg some hrow⟩
        rw [if_pos hboth, hrow]
        simp
      · have hnot : ¬ (start.statusOf invoice.id = some .pending ∧
            some row.status = some status) := fun hp => hrow (Option.some.inj hp.2)
        rw [if_neg hnot]
        simp [hrow]
    · rw [if_neg hid]
      refine ⟨?_, hpending⟩
      have hother : [(invoice.id, row.status)].count (id, status) = 0 := by
        rw [List.count_eq_zero, List.mem_singleton]
        exact fun hp => hid (congrArg Prod.fst hp)
      rw [hother, Nat.add_zero]

theorem run_told {start : BillingDB} :
    ∀ (es : List SettleEvent) {w : World BillingDB SettleCall}, Told start w.store →
      Told start ((settlement digest).run w es).store := by
  intro es
  induction es with
  | nil => exact fun h => h
  | cons e rest ih => exact fun h => ih (exec_told h e)

theorem told_refl (start : BillingDB) : Told start start := by
  intro id status hstatus
  refine ⟨?_, fun h => h⟩
  have hnot : ¬ (start.statusOf id = some .pending ∧ start.statusOf id = some status) := by
    rintro ⟨h₁, h₂⟩
    rw [h₁] at h₂
    exact hstatus (Option.some.inj h₂).symm
  rw [if_neg hnot, Nat.add_zero]

/-! ## Whole runs -/

/-- The store and the calls after a schedule. -/
def reach (digest : String → String) (start : BillingDB) (es : List SettleEvent) :
    World BillingDB SettleCall :=
  (settlement digest).run (World.idle start) es

theorem reach_snoc (digest : String → String) (start : BillingDB) (es : List SettleEvent)
    (e : SettleEvent) :
    reach digest start (es ++ [e]) = (settlement digest).exec (reach digest start es) e :=
  (settlement digest).run_append _ _ _

/-- What holds of the state a schedule reaches. -/
structure SettledOnce (digest : String → String) (start : BillingDB) (es : List SettleEvent) :
    Prop where
  /-- Once an invoice has left PENDING its status is final. -/
  terminal : ∀ id status, (reach digest start es).store.statusOf id = some status →
    status ≠ .pending →
    ∀ fs, (reach digest start (es ++ fs)).store.statusOf id = some status
  /-- The outbox got one event for an invoice that left PENDING, of the kind it left
  PENDING for, and none otherwise. -/
  events : ∀ id status, status ≠ .pending →
    (reach digest start es).store.told.count (id, status) =
      start.told.count (id, status) +
        if start.statusOf id = some .pending ∧
          (reach digest start es).store.statusOf id = some status then 1 else 0
  /-- A step that changes a subscription settles an invoice of that subscription. -/
  subscriptions : ∀ e k,
    (reach digest start (es ++ [e])).store.subscriptions.get k ≠
      (reach digest start es).store.subscriptions.get k →
    ∃ invoice, (reach digest start es).store.invoices.get invoice.id = some invoice ∧
      invoice.subscriptionId = some k ∧ invoice.status = .pending ∧
      ∃ status, (reach digest start (es ++ [e])).store.statusOf invoice.id = some status ∧
        status ≠ .pending
  /-- An invoice that a webhook changes agrees with the event. -/
  agreement : ∀ p input, (reach digest start es).tasks p = some ⟨.webhook input, false⟩ →
    ∀ invoice, (reach digest start es).store.invoices.get invoice.id = some invoice →
      (reach digest start (es ++ [.step p ()])).store.invoices.get invoice.id ≠ some invoice →
      Agrees invoice input
  /-- A webhook that throws leaves the store as it was, so that no receipt keeps a
  corrected delivery with its key from settling the invoice. -/
  rejected : ∀ p input e, (reach digest start es).tasks p = some ⟨.webhook input, false⟩ →
    processXenditWebhookEvent (digest (webhookFingerprint input)) input
      (reach digest start es).store = .error e →
    (reach digest start (es ++ [.step p ()])).store = (reach digest start es).store ∧
    ∀ corrected invoice transition,
      digest (webhookFingerprint corrected) = digest (webhookFingerprint input) →
      resolveInvoice (reach digest start es).store corrected = .ok invoice →
      checkWebhook corrected invoice = .ok transition → transition ≠ .none →
      invoice.status = .pending →
      identifiersFree (reach digest start es).store invoice corrected →
      ∃ db', processXenditWebhookEvent (digest (webhookFingerprint corrected)) corrected
        (reach digest start es).store = .ok (.processed, db') ∧
          db'.statusOf invoice.id = some (if transition = .paid then .paid else .failed)

theorem exec_webhook {w : World BillingDB SettleCall} {p : Nat} {input : XenditWebhookInput}
    (h : w.tasks p = some ⟨.webhook input, false⟩) :
    ((settlement digest).exec w (.step p ())).store =
      ((SettleCall.webhook input).next digest w.store).2 := by
  simp only [System.exec, h]
  rfl

/-- A webhook changes no invoice it does not agree with. -/
theorem webhook_agrees {input : XenditWebhookInput} {invoice : Invoice}
    (hget : db.invoices.get invoice.id = some invoice)
    (h : ((SettleCall.webhook input).next digest db).2.invoices.get invoice.id ≠ some invoice) :
    Agrees invoice input := by
  simp only [SettleCall.next] at h
  cases hm : processXenditWebhookEvent (digest (webhookFingerprint input)) input db with
  | error e =>
      rw [hm] at h
      exact absurd hget h
  | ok result =>
      rw [hm] at h
      rcases (webhook_settles db _ input).of_ok hm with hkeep | ⟨settled, row, hs, hagree, -⟩
      · rw [hkeep.invoices] at h
        exact absurd hget h
      · rw [hs.invoices] at h
        by_cases hid : invoice.id = settled.id
        · have hsame : settled = invoice := by
            have hfound := hs.found
            rw [← hid, hget] at hfound
            exact (Option.some.inj hfound).symm
          exact hsame ▸ hagree
        · rw [if_neg hid] at h
          exact absurd hget h

theorem invoice_settled_once (digest : String → String) (start : BillingDB)
    (es : List SettleEvent) : SettledOnce digest start es where
  terminal := by
    intro id status h hstatus fs
    have happ : reach digest start (es ++ fs) =
        (settlement digest).run (reach digest start es) fs := (settlement digest).run_append _ _ _
    rw [happ]
    exact run_terminal hstatus fs h
  events := fun id status hstatus =>
    (run_told es (w := World.idle start) (told_refl start) id status hstatus).1
  subscriptions := by
    intro e k hne
    rw [reach_snoc] at hne ⊢
    rcases exec_settles digest (reach digest start es) e with hkeep | ⟨invoice, row, hs⟩
    · rw [hkeep.subscriptions] at hne
      exact absurd rfl hne
    · have hk : invoice.subscriptionId = some k := by
        by_contra hk
        exact hne (hs.subscriptions k hk)
      refine ⟨invoice, hs.found, hk, hs.pending, row.status, ?_, hs.final⟩
      rw [hs.statusOf, if_pos rfl]
  agreement := by
    intro p input htask invoice hget hne
    rw [reach_snoc, exec_webhook htask] at hne
    exact webhook_agrees hget hne
  rejected := by
    intro p input e htask hthrow
    refine ⟨?_, fun corrected invoice transition hkey hres hcheck hask hpending hfree => ?_⟩
    · rw [reach_snoc, exec_webhook htask]
      simp only [SettleCall.next, hthrow]
    · have hnew := (processXenditWebhookEvent_post _ _ input).of_error hthrow
      rw [← hkey] at hnew
      obtain ⟨hget, hdeleted, -⟩ := resolveInvoice_spec hres
      refine ⟨_, processXenditWebhookEvent_processed hnew hres hcheck hask hpending hfree, ?_⟩
      rw [(webhookSettled_settles hget hdeleted hpending).statusOf, if_pos rfl]
      rfl

/-- An invoice that a payment request was made for. -/
def requestedInvoice : BillingDB where
  invoices := ⟨[⟨1, 1, none, "INV-202601-000001", 250000, "IDR", .pending, none, some "pr-1", none,
    none, false⟩], List.nodup_singleton _⟩
  attempts := ⟨[], List.nodup_nil⟩
  receipts := []
  subscriptions := ⟨[], List.nodup_nil⟩
  plans := []
  outbox := []

def captureOf (amount : ℚ) : XenditWebhookInput :=
  ⟨"payment.capture", some "pr-1", none, "py-1", some (.finite amount), some "IDR",
    some "SUCCEEDED", []⟩

/-- A delivery with another amount, then the corrected one, which has the same key. -/
def wrongThenRight : List SettleEvent :=
  [.spawn 0 (.webhook (captureOf 25)), .step 0 (), .spawn 1 (.webhook (captureOf 250000)),
    .step 1 ()]

/-- The corrected delivery settles the invoice, once. -/
theorem invoice_settled_once_example :
    (reach id requestedInvoice wrongThenRight).store.statusOf 1 = some .paid ∧
      (reach id requestedInvoice wrongThenRight).store.told.count (1, .paid) = 1 := by
  have hpaid : (reach id requestedInvoice wrongThenRight).store.statusOf 1 = some .paid := by
    decide +kernel
  have honce := invoice_settled_once id requestedInvoice wrongThenRight
  have hcount := honce.events 1 .paid (by decide)
  rw [hpaid, if_pos ⟨rfl, rfl⟩] at hcount
  exact ⟨hpaid, hcount⟩

end Billing
end ERP
