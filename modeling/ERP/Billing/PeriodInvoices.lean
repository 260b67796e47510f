import ERP.Billing.PaymentRequest
import ERP.Billing.SubscriptionRuns

/-!
# Invoices of billing periods

Billing and renewal create the invoice of a month: one transaction takes the next
number of the counter, inserts the invoice under the unique key of its period and
writes its two events.  A renewal saves the subscription first, in a transaction of
its own, so a crash between the two leaves the period to be invoiced when the
renewal is called again.
-/

namespace ERP
namespace Billing

open Lib

/-- The months of the server's time zone, counted from month 0 of year 0:
`new Date(year, month, 1)` and the last millisecond of the month. -/
structure Calendar where
  monthOf : Int → Int
  start : Int → Int
  stop : Int → Int
  monthOf_start : ∀ m, monthOf (start m) = m

/-- `${subscription.id}:${year}-${month}`. -/
structure BillingPeriodKey where
  subscriptionId : Id
  month : Int
  deriving DecidableEq, Repr

/-- The two events of a new invoice. -/
inductive InvoiceNotice where
  | invoiceCreated (invoiceId : Id) (invoiceNumber : String) (subscriptionId : Id)
      (amountCents : Int) (currency : String)
  | paymentRequired (subscriptionId : Id) (amountCents : Int) (periodStart periodEnd : Int)
  deriving DecidableEq, Repr

/-- The billing tables with the column `billingPeriodKey` of the invoices that have
one, the counter of invoice numbers and the events of new invoices. -/
structure InvoicingDB extends BillingDB where
  periodKeys : List (Id × BillingPeriodKey)
  counter : Option Nat
  notices : List InvoiceNotice

inductive InvoicingFailure where
  | billing (failure : BillingFailure)
  | subscriptionNotFoundForBilling
  | subscriptionNotActive
  | counterNotInitialized
  deriving DecidableEq, Repr

def InvoicingFailure.message : InvoicingFailure → String
  | .billing failure => failure.message
  | .subscriptionNotFoundForBilling => "Subscription not found for billing"
  | .subscriptionNotActive => "Cannot bill a non-active subscription"
  | .counterNotInitialized => "Global invoice number counter is not initialized"

/-- `INV-${year}${month}-${sequence}`. -/
def invoiceNumber (month : Int) (sequence : Nat) : String :=
  "INV-" ++ toString (month / 12) ++ padStart 2 (month % 12 + 1).toNat ++ "-" ++
    padStart 6 sequence

namespace InvoicingDB

variable (cal : Calendar) (db : InvoicingDB)

def save (a : SubscriptionAggregate) : InvoicingDB :=
  { db with toBillingDB := db.toBillingDB.save a }

/-- The invoice, its key and its events. -/
def openPeriod (invoice : Invoice) (key : BillingPeriodKey) (start stop : Int) : InvoicingDB :=
  { db with
    toBillingDB := { db.toBillingDB with invoices := db.invoices.insert invoice }
    periodKeys := db.periodKeys ++ [(invoice.id, key)]
    counter := db.counter.map (· + 1)
    notices := db.notices ++
      [.invoiceCreated invoice.id invoice.invoiceNumber key.subscriptionId invoice.amountCents
          invoice.currency,
        .paymentRequired key.subscriptionId invoice.amountCents start stop] }

/-- `createInvoiceForPeriod`, with the transaction of `createInvoiceForBillingPeriod`.
The id is the one generated for the row; an id or a number that is taken violates
their unique columns, and then the key, looked up again, is still not there. -/
def createInvoiceForPeriod (a : SubscriptionAggregate) (tenantId : Id) (month now : Int)
    (newId : Id) : Except InvoicingFailure InvoicingDB :=
  if a.plan.priceCents ≤ 0 then .ok db
  else
    let key : BillingPeriodKey := ⟨a.props.id, cal.monthOf (cal.start month)⟩
    if key ∈ db.periodKeys.map Prod.snd then .ok db
    else
      match db.counter with
      | none => .error .counterNotInitialized
      | some value =>
          let number := invoiceNumber (cal.monthOf now) (value + 1)
          if newId ∈ db.invoices.toList.map Invoice.id ∨
              number ∈ db.invoices.toList.map Invoice.invoiceNumber then
            .error (.billing .uniqueViolation)
          else
            .ok (db.openPeriod
              (.opened newId tenantId (some a.props.id) number a.plan.priceCents "IDR") key
              (cal.start month) (cal.stop month))

end InvoicingDB

/-- A call, with the time it reads from the clock and the id generated for its
invoice.  A renewal may crash after it saved the subscription. -/
inductive BillingCall where
  | executeBilling (id tenantId : Id) (now : Int) (newId : Id)
  | renewSubscription (id tenantId : Id) (now : Int) (newId : Id) (crash : Bool)
  | changePlan (id tenantId planId : Id) (now : Int)
  deriving DecidableEq, Repr

inductive CallOutcome where
  | returned
  | threw (failure : InvoicingFailure)
  | crashed
  deriving DecidableEq, Repr

/-- What is left of a call's last transaction. -/
def InvoicingDB.finish (db : InvoicingDB) :
    Except InvoicingFailure InvoicingDB → CallOutcome × InvoicingDB
  | .ok db' => (.returned, db')
  | .error e => (.threw e, db)

/-- A call that runs alone. -/
def BillingCall.exec (cal : Calendar) (db : InvoicingDB) :
    BillingCall → CallOutcome × InvoicingDB
  | .executeBilling id tenantId now newId =>
      match db.requireSubscription .subscriptionNotFound id tenantId with
      | .error .subscriptionNotFound => (.threw .subscriptionNotFoundForBilling, db)
      | .error e => (.threw (.billing e), db)
      | .ok a =>
          if a.isActive now then
            db.finish (db.createInvoiceForPeriod cal a tenantId (cal.monthOf now) now newId)
          else (.threw .subscriptionNotActive, db)
  | .renewSubscription id tenantId now newId crash =>
      match db.requireSubscription .renewalSubscriptionNotFound id tenantId with
      | .error e => (.threw (.billing e), db)
      | .ok a =>
          let month := cal.monthOf now + 1
          match a.renew (cal.start month) (cal.stop month) with
          | .error e => (.threw (.billing e), db)
          | .ok renewed =>
              let saved := db.save renewed
              if crash then (.crashed, saved)
              else saved.finish (saved.createInvoiceForPeriod cal renewed tenantId month now newId)
  | .changePlan id tenantId planId now =>
      match db.toBillingDB.changePlan id tenantId planId now with
      | .error e => (.threw (.billing e), db)
      | .ok tables => (.returned, { db with toBillingDB := tables })

def BillingCall.run (cal : Calendar) (db : InvoicingDB) (calls : List BillingCall) :
    InvoicingDB :=
  calls.foldl (fun db call => (call.exec cal db).2) db

/-! ## What the events and the keys say of each other -/

/-- The invoice that an event says was created. -/
def InvoiceNotice.created : InvoiceNotice → Option Id
  | .invoiceCreated invoiceId _ _ _ _ => some invoiceId
  | .paymentRequired _ _ _ _ => none

/-- The period that an event asks a payment for. -/
def InvoiceNotice.required (cal : Calendar) : InvoiceNotice → Option BillingPeriodKey
  | .invoiceCreated _ _ _ _ _ => none
  | .paymentRequired subscriptionId _ start _ => some ⟨subscriptionId, cal.monthOf start⟩

namespace InvoicingDB

/-- The invoice has the key. -/
def HasKey (db : InvoicingDB) (key : BillingPeriodKey) (invoice : Invoice) : Prop :=
  invoice ∈ db.invoices.toList ∧ (invoice.id, key) ∈ db.periodKeys

/-- How many INVOICE_CREATED events name an invoice with the key. -/
def createdFor (db : InvoicingDB) (key : BillingPeriodKey) : Nat :=
  (db.notices.filterMap InvoiceNotice.created).countP fun id => (id, key) ∈ db.periodKeys

/-- How many PAYMENT_REQUIRED events ask for the period of the key. -/
def requiredFor (cal : Calendar) (db : InvoicingDB) (key : BillingPeriodKey) : Nat :=
  (db.notices.filterMap (InvoiceNotice.required cal)).count key

/-- Invoices of periods, their keys and their events are in step. -/
structure Invoiced (cal : Calendar) (db : InvoicingDB) : Prop where
  keyed : ∀ e ∈ db.periodKeys, ∃ invoice ∈ db.invoices.toList,
    invoice.id = e.1 ∧ invoice.subscriptionId = some e.2.subscriptionId
  once : (db.periodKeys.map Prod.snd).Nodup
  ids : (db.periodKeys.map Prod.fst).Nodup
  numbers : (db.invoices.toList.map Invoice.invoiceNumber).Nodup
  created : db.notices.filterMap InvoiceNotice.created = db.periodKeys.map Prod.fst
  required : db.notices.filterMap (InvoiceNotice.required cal) = db.periodKeys.map Prod.snd

/-- No period was invoiced yet. -/
structure Unbilled (db : InvoicingDB) : Prop where
  periodKeys : db.periodKeys = []
  notices : db.notices = []
  numbers : (db.invoices.toList.map Invoice.invoiceNumber).Nodup

end InvoicingDB

open InvoicingDB

variable {cal : Calendar} {db db' : InvoicingDB} {a a' : SubscriptionAggregate}
  {id tenantId newId : Id} {month now : Int}

/-! ## One call -/

/-- Invoicing a period leaves everything as it is, the period being free of charge or
invoiced already, or inserts one invoice at the price of the plan. -/
theorem createInvoiceForPeriod_ok
    (h : db.createInvoiceForPeriod cal a tenantId month now newId = .ok db') :
    (db' = db ∧ (a.plan.priceCents ≤ 0 ∨ ⟨a.props.id, month⟩ ∈ db.periodKeys.map Prod.snd)) ∨
    (∃ number, newId ∉ db.invoices.toList.map Invoice.id ∧
      number ∉ db.invoices.toList.map Invoice.invoiceNumber ∧
      (⟨a.props.id, month⟩ : BillingPeriodKey) ∉ db.periodKeys.map Prod.snd ∧
      db' = db.openPeriod
        (.opened newId tenantId (some a.props.id) number a.plan.priceCents "IDR")
        ⟨a.props.id, month⟩ (cal.start month) (cal.stop month)) := by
  unfold InvoicingDB.createInvoiceForPeriod at h
  split at h
  · rename_i hfree
    exact .inl ⟨(Except.ok.inj h).symm, .inl hfree⟩
  dsimp only at h
  rw [cal.monthOf_start] at h
  split at h
  · rename_i hkey
    exact .inl ⟨(Except.ok.inj h).symm, .inr hkey⟩
  rename_i hkey
  split at h
  · cases h
  split at h
  · cases h
  rename_i htaken
  rw [not_or] at htaken
  exact .inr ⟨_, htaken.1, htaken.2, hkey, (Except.ok.inj h).symm⟩

namespace InvoicingDB.Invoiced

/-- Other tables may change. -/
theorem congr (h : db.Invoiced cal) (hinvoices : db'.invoices = db.invoices)
    (hkeys : db'.periodKeys = db.periodKeys) (hnotices : db'.notices = db.notices) :
    db'.Invoiced cal where
  keyed := by rw [hkeys, hinvoices]; exact h.keyed
  once := by rw [hkeys]; exact h.once
  ids := by rw [hkeys]; exact h.ids
  numbers := by rw [hinvoices]; exact h.numbers
  created := by rw [hnotices, hkeys]; exact h.created
  required := by rw [hnotices, hkeys]; exact h.required

theorem of_unbilled (h : db.Unbilled) : db.Invoiced cal where
  keyed := by
    rw [h.periodKeys]
    exact fun e he => absurd he List.not_mem_nil
  once := by rw [h.periodKeys]; exact List.nodup_nil
  ids := by rw [h.periodKeys]; exact List.nodup_nil
  numbers := h.numbers
  created := by rw [h.notices, h.periodKeys]; rfl
  required := by rw [h.notices, h.periodKeys]; rfl

theorem toList_insert {invoice : Invoice} (h : invoice.id ∉ db.invoices.toList.map Invoice.id) :
    (db.invoices.insert invoice).toList = db.invoices.toList ++ [invoice] := by
  unfold Rows.insert
  rw [dif_neg h]

/-- A new invoice under a key that was free. -/
theorem openPeriod (h : db.Invoiced cal) {invoice : Invoice} {key : BillingPeriodKey}
    (hid : invoice.id ∉ db.invoices.toList.map Invoice.id)
    (hnumber : invoice.invoiceNumber ∉ db.invoices.toList.map Invoice.invoiceNumber)
    (hkey : key ∉ db.periodKeys.map Prod.snd)
    (hsub : invoice.subscriptionId = some key.subscriptionId) (stop : Int) :
    (db.openPeriod invoice key (cal.start key.month) stop).Invoiced cal where
  keyed e he := by
    show ∃ row ∈ (db.invoices.insert invoice).toList, _
    rw [toList_insert hid]
    rcases List.mem_append.mp he with he | he
    · obtain ⟨row, hrow, hrest⟩ := h.keyed e he
      exact ⟨row, List.mem_append_left _ hrow, hrest⟩
    · rw [List.mem_singleton.mp he]
      exact ⟨invoice, List.mem_append_right _ List.mem_cons_self, rfl, hsub⟩
  once := by
    show ((db.periodKeys ++ [(invoice.id, key)]).map Prod.snd).Nodup
    rw [List.map_append, List.map_singleton, ← List.concat_eq_append]
    exact h.once.concat hkey
  ids := by
    show ((db.periodKeys ++ [(invoice.id, key)]).map Prod.fst).Nodup
    rw [List.map_append, List.map_singleton, ← List.concat_eq_append]
    refine h.ids.concat fun hmem => ?_
    obtain ⟨e, he, heq⟩ := List.mem_map.mp hmem
    obtain ⟨row, hrow, hrid, -⟩ := h.keyed e he
    have hrowid : row.id = invoice.id := hrid.trans heq
    exact hid (hrowid ▸ List.mem_map_of_mem hrow)
  numbers := by
    show ((db.invoices.insert invoice).toList.map Invoice.invoiceNumber).Nodup
    rw [toList_insert hid, List.map_append, List.map_singleton, ← List.concat_eq_append]
    exact h.numbers.concat hnumber
  created := by
    show (db.notices ++ [_, _]).filterMap _ = (db.periodKeys ++ [(invoice.id, key)]).map Prod.fst
    rw [List.filterMap_append, List.map_append, h.created]
    rfl
  required := by
    show (db.notices ++ [_, _]).filterMap _ = (db.periodKeys ++ [(invoice.id, key)]).map Prod.snd
    rw [List.filterMap_append, List.map_append, h.required]
    simp only [List.filterMap_cons, InvoiceNotice.required, cal.monthOf_start, List.filterMap_nil,
      List.map_cons, List.map_nil]

end InvoicingDB.Invoiced

/-- Every new invoice has the price of the plan that its subscription has stored. -/
def Priced (db db' : InvoicingDB) : Prop :=
  ∀ invoice ∈ db'.invoices.toList, invoice ∉ db.invoices.toList →
    ∃ i row plan, invoice.subscriptionId = some i ∧ db'.subscriptions.get i = some row ∧
      db'.planById row.planId = some plan ∧ invoice.amountCents = plan.priceCents

theorem Priced.of_eq (h : db'.invoices = db.invoices) : Priced db db' := by
  intro invoice hnew hold
  rw [h] at hnew
  exact absurd hnew hold

/-- The aggregate is that of the row as it is stored. -/
def Stored (db : InvoicingDB) (a : SubscriptionAggregate) : Prop :=
  ∃ row, db.subscriptions.get a.props.id = some row ∧ db.planById row.planId = some a.plan

/-- What is left of a call once the period was invoiced, or could not be. -/
structure Closes (cal : Calendar) (db : InvoicingDB) (a : SubscriptionAggregate) (month : Int)
    (left : CallOutcome × InvoicingDB) : Prop where
  invoiced : left.2.Invoiced cal
  priced : Priced db left.2
  subscriptions : left.2.subscriptions = db.subscriptions
  plans : left.2.plans = db.plans
  key : left.1 = .returned → 0 < a.plan.priceCents →
    ∃ invoice, left.2.HasKey ⟨a.props.id, month⟩ invoice

theorem finish_closes (h : db.Invoiced cal) (hstored : Stored db a) :
    Closes cal db a month
      (db.finish (db.createInvoiceForPeriod cal a tenantId month now newId)) := by
  cases hcreate : db.createInvoiceForPeriod cal a tenantId month now newId with
  | error e => exact ⟨h, Priced.of_eq rfl, rfl, rfl, fun he => nomatch he⟩
  | ok db' =>
      rcases createInvoiceForPeriod_ok hcreate with ⟨rfl, hwhy⟩ | ⟨number, hid, hnumber, hkey, rfl⟩
      · refine ⟨h, Priced.of_eq rfl, rfl, rfl, fun _ hprice => ?_⟩
        rcases hwhy with hfree | hkey
        · omega
        · obtain ⟨e, he, hekey⟩ := List.mem_map.mp hkey
          obtain ⟨invoice, hmem, hid, -⟩ := h.keyed e he
          refine ⟨invoice, hmem, ?_⟩
          rw [hid, ← hekey]
          exact he
      · refine ⟨h.openPeriod hid hnumber hkey rfl _, ?_, rfl, rfl, fun _ _ => ?_⟩
        · intro invoice hnew hold
          have hlist : (db.invoices.insert (.opened newId tenantId (some a.props.id) number
              a.plan.priceCents "IDR")).toList = _ := InvoicingDB.Invoiced.toList_insert hid
          have hmem : invoice ∈ db.invoices.toList ++ [_] := hlist ▸ hnew
          rcases List.mem_append.mp hmem with hmem | hmem
          · exact absurd hmem hold
          · obtain ⟨row, hrow, hplan⟩ := hstored
            rw [List.mem_singleton.mp hmem]
            exact ⟨a.props.id, row, a.plan, rfl, hrow, hplan, rfl⟩
        · refine ⟨.opened newId tenantId (some a.props.id) number a.plan.priceCents "IDR", ?_, ?_⟩
          · have hlist : (db.invoices.insert (.opened newId tenantId (some a.props.id) number
                a.plan.priceCents "IDR")).toList = _ := InvoicingDB.Invoiced.toList_insert hid
            show _ ∈ (db.invoices.insert _).toList
            rw [hlist]
            exact List.mem_append_right _ List.mem_cons_self
          · exact List.mem_append_right _ List.mem_cons_self

theorem planById_id {tables : BillingDB} {planId : Id} {plan : Plan}
    (h : tables.planById planId = some plan) : plan.id = planId := by
  simpa using List.find?_some h

/-- A renewal leaves the aggregate as it is or applies the plan it waits for. -/
theorem renew_cases {periodStart periodEnd : Int} (h : a.renew periodStart periodEnd = .ok a') :
    a' = a ∨ (a.props.pendingPlanId.isSome → a.pendingPlan.isSome) ∧
      ∃ events, a' = { a.applyPendingPlan with
        props := { a.applyPendingPlan.props with status := .active, endedAt := some periodEnd }
        events } := by
  unfold SubscriptionAggregate.renew at h
  split at h
  · cases h
  split at h
  · cases h
  split at h
  · cases h
  split at h
  · exact .inl (Except.ok.inj h).symm
  split at h
  · cases h
  rename_i hmissing
  refine .inr ⟨fun hsome => ?_, _, (Except.ok.inj h).symm⟩
  by_contra hnone
  have hlost : a.pendingPlan = none := Option.not_isSome_iff_eq_none.mp hnone
  exact hmissing (by rw [hsome, hlost]; rfl)

/-- What a renewal makes of an aggregate that was just loaded. -/
theorem renew_plan {tables : BillingDB} {periodStart periodEnd : Int}
    (hload : tables.toAggregate a.props = .ok a) (h : a.renew periodStart periodEnd = .ok a') :
    tables.planById a'.props.planId = some a'.plan ∧
      (a'.props.endedAt ≠ a.props.endedAt → ∀ planId, a.props.pendingPlanId = some planId →
        a'.props.planId = planId ∧ a'.props.pendingPlanId = none) := by
  obtain ⟨-, hplan, hpending⟩ := toAggregate_ok hload
  rcases renew_cases h with rfl | ⟨hknown, events, rfl⟩
  · exact ⟨hplan, fun hmoved => absurd rfl hmoved⟩
  · cases hnext : a.pendingPlan with
    | none =>
        have happly : a.applyPendingPlan = a := by
          unfold SubscriptionAggregate.applyPendingPlan
          rw [hnext]
        simp only [happly]
        refine ⟨hplan, fun _ planId hwaits => ?_⟩
        rw [hwaits, hnext] at hknown
        exact absurd (hknown rfl) Bool.false_ne_true
    | some plan =>
        have happly : a.applyPendingPlan =
            { props := { a.props with planId := plan.id, pendingPlanId := none }
              plan
              pendingPlan := none
              events := a.events ++ [.subscriptionPlanChanged a.props.id a.plan.id plan.id] } := by
          unfold SubscriptionAggregate.applyPendingPlan
          rw [hnext]
        simp only [happly]
        rw [hnext] at hpending
        obtain ⟨planId, hwaits, hfound⟩ := Option.bind_eq_some_iff.mp hpending
        have hid := planById_id hfound
        refine ⟨hid ▸ hfound, fun _ other hother => ⟨?_, trivial⟩⟩
        rw [hwaits] at hother
        exact hid.trans (Option.some.inj hother)

/-- The row after an aggregate that was loaded from it is saved. -/
theorem get_saved (hget : db.subscriptions.get a.props.id = some a.props)
    (hid : a'.props.id = a.props.id) :
    ∃ row, (db.save a').subscriptions.get a'.props.id = some row ∧
      row.planId = a'.props.planId ∧ row.pendingPlanId = a'.props.pendingPlanId ∧
      row.endedAt = a'.props.endedAt := by
  have hsaved := get_save db.toBillingDB a' a'.props.id
  rw [hid, hget, Option.map_some, if_pos rfl] at hsaved
  refine ⟨_, (congrArg (db.save a').subscriptions.get hid).trans hsaved, rfl, rfl, rfl⟩

/-- What a renewal has saved is what it invoices. -/
theorem stored_of_renew {missing : BillingFailure} {periodStart periodEnd : Int}
    (hload : db.requireSubscription missing id tenantId = .ok a)
    (hrenew : a.renew periodStart periodEnd = .ok a') : Stored (db.save a') a' := by
  have hget := (requireSubscription_ok hload).1
  obtain ⟨hid, -, -, hagg⟩ := requireSubscription_loaded hload
  rw [← hid] at hget
  obtain ⟨row, hrow, hplanId, -⟩ := get_saved hget (renew_id hrenew)
  refine ⟨row, hrow, ?_⟩
  rw [hplanId]
  exact (renew_plan hagg hrenew).1

theorem changePlan_invoices {tables tables' : BillingDB} {planId : Id}
    (h : tables.changePlan id tenantId planId now = .ok tables') :
    tables'.invoices = tables.invoices := by
  unfold BillingDB.changePlan at h
  cases hload : tables.requireSubscription .subscriptionNotFound id tenantId with
  | error e =>
      unfold BillingDB.changeSubscription at h
      rw [hload] at h
      cases h
  | ok a =>
      rw [changeSubscription_of_load hload] at h
      generalize (if a.isActive now then _ else _ : Except BillingFailure SubscriptionAggregate) =
        changed at h
      cases changed with
      | error e => cases h
      | ok a' =>
          cases h
          rfl

/-- What a renewal that returned has brought about. -/
def Renewed (cal : Calendar) (db db' : InvoicingDB) (id : Id) (now : Int) : Prop :=
  ∃ before after plan, db.subscriptions.get id = some before ∧
    db'.subscriptions.get id = some after ∧ db'.planById after.planId = some plan ∧
    (0 < plan.priceCents → ∃ invoice, db'.HasKey ⟨id, cal.monthOf now + 1⟩ invoice) ∧
    (after.endedAt ≠ before.endedAt → ∀ planId, before.pendingPlanId = some planId →
      after.planId = planId ∧ after.pendingPlanId = none)

/-- One call keeps invoices, keys and events in step, and every invoice it inserts
has the price of the stored plan. -/
theorem exec_invoiced (h : db.Invoiced cal) (call : BillingCall) :
    (call.exec cal db).2.Invoiced cal ∧ Priced db (call.exec cal db).2 := by
  have hsame {tables : InvoicingDB} (hinvoices : tables.invoices = db.invoices)
      (hkeys : tables.periodKeys = db.periodKeys) (hnotices : tables.notices = db.notices) :
      tables.Invoiced cal ∧ Priced db tables :=
    ⟨h.congr hinvoices hkeys hnotices, Priced.of_eq hinvoices⟩
  cases call with
  | executeBilling id tenantId now newId =>
      unfold BillingCall.exec
      dsimp only
      split
      · exact hsame rfl rfl rfl
      · exact hsame rfl rfl rfl
      · rename_i a hload
        split
        · have hget := (requireSubscription_ok hload).1
          obtain ⟨hid, -, -, hagg⟩ := requireSubscription_loaded hload
          have hstored : Stored db a := ⟨a.props, by rw [hid]; exact hget,
            (toAggregate_ok hagg).2.1⟩
          have hcloses : Closes cal db a (cal.monthOf now) (db.finish
              (db.createInvoiceForPeriod cal a tenantId (cal.monthOf now) now newId)) :=
            finish_closes h hstored
          exact ⟨hcloses.invoiced, hcloses.priced⟩
        · exact hsame rfl rfl rfl
  | renewSubscription id tenantId now newId crash =>
      unfold BillingCall.exec
      dsimp only
      split
      · exact hsame rfl rfl rfl
      rename_i a hload
      split
      · exact hsame rfl rfl rfl
      rename_i renewed hrenew
      have hsaved : (db.save renewed).Invoiced cal ∧ Priced db (db.save renewed) :=
        hsame rfl rfl rfl
      split
      · exact hsaved
      · have hcloses : Closes cal (db.save renewed) renewed (cal.monthOf now + 1)
            ((db.save renewed).finish ((db.save renewed).createInvoiceForPeriod cal renewed tenantId
              (cal.monthOf now + 1) now newId)) :=
          finish_closes hsaved.1 (stored_of_renew hload hrenew)
        exact ⟨hcloses.invoiced, hcloses.priced⟩
  | changePlan id tenantId planId now =>
      unfold BillingCall.exec
      dsimp only
      split
      · exact hsame rfl rfl rfl
      · rename_i tables hchange
        exact hsame (changePlan_invoices hchange) rfl rfl

/-- A renewal that returns has invoiced the following month, unless the plan is free,
and has applied the plan that waited if it moved the end. -/
theorem renew_returned (h : db.Invoiced cal) {crash : Bool}
    (hreturned : ((BillingCall.renewSubscription id tenantId now newId crash).exec cal db).1 =
      .returned) :
    Renewed cal db ((BillingCall.renewSubscription id tenantId now newId crash).exec cal db).2 id
      now := by
  unfold BillingCall.exec at hreturned ⊢
  dsimp only at hreturned ⊢
  split at hreturned
  · cases hreturned
  rename_i a hload
  split at hreturned
  · cases hreturned
  rename_i renewed hrenew
  split at hreturned
  · cases hreturned
  rename_i hcrash
  rw [if_neg hcrash]
  have hget := (requireSubscription_ok hload).1
  obtain ⟨hid, -, -, hagg⟩ := requireSubscription_loaded hload
  have hrid := renew_id hrenew
  obtain ⟨hplan, hmoved⟩ := renew_plan hagg hrenew
  have hsaved : (db.save renewed).Invoiced cal := h.congr rfl rfl rfl
  have hcloses : Closes cal (db.save renewed) renewed (cal.monthOf now + 1)
      ((db.save renewed).finish ((db.save renewed).createInvoiceForPeriod cal renewed tenantId
        (cal.monthOf now + 1) now newId)) :=
    finish_closes hsaved (stored_of_renew hload hrenew)
  rw [← hid] at hget
  obtain ⟨row, hrow, hrowPlan, hrowPending, hrowEnded⟩ := get_saved hget hrid
  rw [hrid, hid] at hrow
  rw [hid] at hget
  refine ⟨a.props, row, renewed.plan, hget, ?_, ?_, fun hprice => ?_, fun hend => ?_⟩
  · rw [hcloses.subscriptions]
    exact hrow
  · rw [hrowPlan]
    unfold BillingDB.planById
    rw [hcloses.plans]
    exact hplan
  · have hkey := hcloses.key hreturned hprice
    rw [hrid, hid] at hkey
    exact hkey
  · rw [hrowPlan, hrowPending]
    rw [hrowEnded] at hend
    exact hmoved hend

/-! ## Whole runs -/

theorem run_invoiced (h : db.Invoiced cal) (calls : List BillingCall) :
    (BillingCall.run cal db calls).Invoiced cal := by
  induction calls generalizing db with
  | nil => exact h
  | cons call rest ih => exact ih (exec_invoiced h call).1

namespace InvoicingDB.Invoiced

/-- A key belongs to one invoice. -/
theorem hasKey_unique (h : db.Invoiced cal) {key : BillingPeriodKey} {i j : Invoice}
    (hi : db.HasKey key i) (hj : db.HasKey key j) : i = j := by
  have hpair : (i.id, key) = (j.id, key) :=
    List.inj_on_of_nodup_map h.once hi.2 hj.2 rfl
  have hget := Rows.get_of_mem hi.1
  rw [show i.id = j.id from congrArg Prod.fst hpair, Rows.get_of_mem hj.1] at hget
  exact (Option.some.inj hget).symm

theorem hasKey_iff (h : db.Invoiced cal) (key : BillingPeriodKey) :
    (∃ invoice, db.HasKey key invoice) ↔ key ∈ db.periodKeys.map Prod.snd := by
  constructor
  · rintro ⟨invoice, -, hkey⟩
    exact List.mem_map_of_mem hkey
  · intro hkey
    obtain ⟨e, he, rfl⟩ := List.mem_map.mp hkey
    obtain ⟨invoice, hmem, hid, -⟩ := h.keyed e he
    refine ⟨invoice, hmem, ?_⟩
    rw [hid]
    exact he

theorem requiredFor_eq (h : db.Invoiced cal) (key : BillingPeriodKey) :
    db.requiredFor cal key = (db.periodKeys.map Prod.snd).count key := by
  unfold InvoicingDB.requiredFor
  rw [h.required]

/-- The events that name an invoice of the key are as many as the entries of the key. -/
theorem createdFor_eq (h : db.Invoiced cal) (key : BillingPeriodKey) :
    db.createdFor key = (db.periodKeys.map Prod.snd).count key := by
  unfold InvoicingDB.createdFor
  rw [h.created, List.countP_map, List.count, List.countP_map]
  refine List.countP_congr fun e he => ?_
  show decide ((e.1, key) ∈ db.periodKeys) = true ↔ (e.2 == key) = true
  rw [decide_eq_true_iff, beq_iff_eq]
  constructor
  · intro hmem
    have heq : (e.1, key) = e := List.inj_on_of_nodup_map h.ids hmem he rfl
    exact (congrArg Prod.snd heq).symm
  · rintro rfl
    exact he

end InvoicingDB.Invoiced

/-- In every serial run of billing, renewals that may crash, and plan changes, with any
retries: a billing period has one invoice at most, has one exactly when one event of
each kind was written for it, numbers are distinct, every invoice was inserted at the
price of the stored plan, and a renewal that returned did its work. -/
theorem billing_period_invoices (cal : Calendar) (db : InvoicingDB) (hstart : db.Unbilled)
    (calls : List BillingCall) :
    (∀ key i j, (BillingCall.run cal db calls).HasKey key i →
      (BillingCall.run cal db calls).HasKey key j → i = j) ∧
    (∀ key, (∃ invoice, (BillingCall.run cal db calls).HasKey key invoice) ↔
      (BillingCall.run cal db calls).createdFor key = 1 ∧
        (BillingCall.run cal db calls).requiredFor cal key = 1) ∧
    ((BillingCall.run cal db calls).invoices.toList.map Invoice.invoiceNumber).Nodup ∧
    (∀ prior call rest, calls = prior ++ call :: rest →
      Priced (BillingCall.run cal db prior) (call.exec cal (BillingCall.run cal db prior)).2) ∧
    (∀ prior rest id tenantId now newId crash,
      calls = prior ++ .renewSubscription id tenantId now newId crash :: rest →
      ((BillingCall.renewSubscription id tenantId now newId crash).exec cal
        (BillingCall.run cal db prior)).1 = .returned →
      Renewed cal (BillingCall.run cal db prior)
        ((BillingCall.renewSubscription id tenantId now newId crash).exec cal
          (BillingCall.run cal db prior)).2 id now) := by
  have hrun (done : List BillingCall) : (BillingCall.run cal db done).Invoiced cal :=
    run_invoiced (InvoicingDB.Invoiced.of_unbilled hstart) done
  refine ⟨fun key i j => (hrun calls).hasKey_unique, fun key => ?_, (hrun calls).numbers,
    fun prior call rest _ => (exec_invoiced (hrun prior) call).2,
    fun prior rest id tenantId now newId crash _ => renew_returned (hrun prior)⟩
  rw [(hrun calls).hasKey_iff, (hrun calls).createdFor_eq, (hrun calls).requiredFor_eq, and_self]
  have hle := List.nodup_iff_count_le_one.mp (hrun calls).once key
  rw [← List.count_pos_iff]
  omega

/-- Months of thirty days. -/
def thirtyDays : Calendar where
  monthOf t := t / 2592000000
  start m := m * 2592000000
  stop m := m * 2592000000 + 2591999999
  monthOf_start m := Int.mul_ediv_cancel m (by decide)

/-- A subscription that waits for a plan at twice the price. -/
def waitingForPlan : InvoicingDB where
  invoices := .empty
  attempts := .empty
  receipts := []
  subscriptions := ⟨[⟨1, 1, 1, some 2, .active, none, false⟩], List.nodup_singleton _⟩
  plans := [⟨1, 250000, false⟩, ⟨2, 500000, false⟩]
  outbox := []
  periodKeys := []
  counter := some 0
  notices := []

/-- The renewal crashes after it saved the subscription, is called again, which finds
the subscription renewed already, and once more. -/
theorem billing_period_invoices_example :
    (BillingCall.run thirtyDays waitingForPlan
        [.renewSubscription 1 1 0 10 true, .renewSubscription 1 1 0 11 false,
          .renewSubscription 1 1 0 12 false]).createdFor ⟨1, 1⟩ = 1 ∧
      (BillingCall.run thirtyDays waitingForPlan
        [.renewSubscription 1 1 0 10 true, .renewSubscription 1 1 0 11 false,
          .renewSubscription 1 1 0 12 false]).requiredFor thirtyDays ⟨1, 1⟩ = 1 := by
  refine ((billing_period_invoices thirtyDays waitingForPlan ⟨rfl, rfl, List.nodup_nil⟩
    [.renewSubscription 1 1 0 10 true, .renewSubscription 1 1 0 11 false,
      .renewSubscription 1 1 0 12 false]).2.1 ⟨1, 1⟩).mp ⟨.opened 11 1 (some 1)
        "INV-001-000001" 500000 "IDR", ?_⟩
  constructor
  · decide +kernel
  · decide +kernel

end Billing
end ERP
