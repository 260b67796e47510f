import ERP.Orders.PaymentLedger

/-!
# Payments and their events

`pay` commits the payment in one transaction and writes its events in later ones, so
between the two the payment is there and its event is not; a crash leaves it so.  In
every other position of the calls the outbox says what the ledger says.
-/

namespace ERP
namespace Orders
namespace Payments

open Lib

variable {s s' : OrderStore} {calls : Nat → Option PaymentCall} {p q : Nat} {k k' : PaymentCall}
  {dto : CreatePaymentDto} {i : Id} {L L' : Ledger} {order : SalesOrder}

/-- An ORDER_PAYMENT_SUCCESS row naming the payment. -/
def PaymentEvent.names (paymentId : Nat) : PaymentEvent → Bool
  | .orderPaymentSuccess _ _ id _ => id = paymentId
  | .salesOrderPaid _ _ _ => false

/-- The committed payments of the order make it fully paid. -/
def FullyPaid (L : Ledger) (i : Id) : Prop :=
  ∃ order, L.orders i = some order ∧ 0 < order.totalAmount ∧
    ((L.paymentsOf i).map Payment.amount).sum = order.totalAmount

/-- The outbox says what the ledger says. -/
structure EventsComplete (s : OrderStore) : Prop where
  once : ∀ payment ∈ s.payments, ∃ isFullyPaid,
    s.outbox.filter (PaymentEvent.names payment.id) =
      [.orderPaymentSuccess payment.orderId payment.tenantId payment.id isFullyPaid]
  told : ∀ i, FullyPaid s.ledger i →
    ∃ tenantId paymentId, PaymentEvent.orderPaymentSuccess i tenantId paymentId true ∈ s.outbox
  true_of_told : ∀ i tenantId paymentId,
    PaymentEvent.orderPaymentSuccess i tenantId paymentId true ∈ s.outbox → FullyPaid s.ledger i

/-! ## Fully paid orders -/

def AllBooked (L : Ledger) : Prop :=
  ∀ i order, L.orders i = some order → Booked order (L.paymentsOf i)

theorem Booked.paid_iff {payments : List Payment} (h : Booked order payments) :
    order.paymentStatus = .paid ↔
      0 < order.totalAmount ∧ (payments.map Payment.amount).sum = order.totalAmount := by
  rw [h.status, h.sum, and_comm]

theorem Ledger.Step.allBooked (h : L.Step L') (hL : AllBooked L) : AllBooked L' := by
  intro i order hrow
  rcases h.cases_order i with ⟨horder, hpayments⟩ |
    ⟨payment, found, -, hfound, haccepts, horder, hpayments⟩ |
    ⟨u, found, hfound, -, horder, hpayments⟩
  · rw [hpayments]
    exact hL i order (horder.symm.trans hrow)
  · rw [hrow] at horder
    cases horder
    rw [hpayments]
    exact (hL i found hfound).pay haccepts
  · rw [hrow] at horder
    cases horder
    rw [hpayments]
    exact (hL i found hfound).change u

/-- A transaction that takes no payment for the order. -/
theorem fullyPaid_congr (hpayments : L'.paymentsOf i = L.paymentsOf i)
    (horder : ∀ total, (∃ order, L'.orders i = some order ∧ order.totalAmount = total) ↔
      ∃ order, L.orders i = some order ∧ order.totalAmount = total) :
    FullyPaid L' i ↔ FullyPaid L i := by
  unfold FullyPaid
  rw [hpayments]
  constructor
  · rintro ⟨order, hrow, hpositive, hsum⟩
    obtain ⟨found, hfound, htotal⟩ := (horder order.totalAmount).mp ⟨order, hrow, rfl⟩
    exact ⟨found, hfound, by omega, by omega⟩
  · rintro ⟨order, hrow, hpositive, hsum⟩
    obtain ⟨found, hfound, htotal⟩ := (horder order.totalAmount).mpr ⟨order, hrow, rfl⟩
    exact ⟨found, hfound, by omega, by omega⟩

theorem fullyPaid_updated (u : OrderUpdate) (hrow : L.orders i = some order) (j : Id) :
    FullyPaid (L.updated i (u.change order)) j ↔ FullyPaid L j := by
  refine fullyPaid_congr rfl fun total => ?_
  show (∃ row, Function.update L.orders i (some (u.change order)) j = some row ∧ _) ↔ _
  by_cases hj : j = i
  · subst hj
    rw [Function.update_self, hrow]
    simp only [Option.some.injEq, exists_eq_left', change_total]
  · rw [Function.update_of_ne hj]

theorem fullyPaid_paid_of_ne {payment : Payment} (hj : i ≠ payment.orderId) :
    FullyPaid (L.paid payment order) i ↔ FullyPaid L i := by
  refine fullyPaid_congr (paymentsOf_paid_of_ne L order hj) fun total => ?_
  show (∃ row, Function.update L.orders payment.orderId _ i = some row ∧ _) ↔ _
  rw [Function.update_of_ne hj]

/-- An order that takes a payment was not fully paid, and is if the payment sets its
status. -/
theorem fullyPaid_paid_self (payment : Payment) (hL : AllBooked L)
    (hrow : L.orders payment.orderId = some order)
    (haccepts : accepts order payment.amount = true) :
    ¬ FullyPaid L payment.orderId ∧
      (FullyPaid (L.paid payment order) payment.orderId ↔
        (pay order payment.amount).paymentStatus = .paid) := by
  have hbooked := hL _ order hrow
  have hunpaid : order.paymentStatus ≠ .paid := by
    intro hpaid
    simp [accepts, settled, hpaid] at haccepts
  constructor
  · rintro ⟨found, hfound, hpositive, hsum⟩
    rw [hrow] at hfound
    cases hfound
    exact hunpaid (hbooked.paid_iff.mpr ⟨hpositive, hsum⟩)
  · rw [(hbooked.pay haccepts).paid_iff]
    unfold FullyPaid
    rw [paymentsOf_paid_self]
    show (∃ row, Function.update L.orders payment.orderId _ payment.orderId = some row ∧ _) ↔ _
    rw [Function.update_self]
    simp only [Option.some.injEq, exists_eq_left']

/-! ## The calls and the outbox -/

/-- A call of `createPayment` that writes no event. -/
def PaymentCall.silent : PaymentCall → Bool
  | .select _ announces => !announces
  | .lock _ announces => !announces
  | .updateOrder _ announces _ => !announces
  | .insertPayment _ announces => !announces
  | .reload _ announces => !announces
  | .commitPayment _ announces _ => !announces
  | _ => false

/-- The payments and the events that call `p` has committed, by where it stands. -/
def Heard (s : OrderStore) (p : Nat) : Option PaymentCall → Prop
  | some (.publish dto _) =>
      s.payments.filter (fun payment => payment.id = p) = [dto.payment p] ∧
        s.outbox.filter (PaymentEvent.names p) = []
  | some (.publishPaid _) | some .paid =>
      ∃ payment isFullyPaid, s.payments.filter (fun payment => payment.id = p) = [payment] ∧
        s.outbox.filter (PaymentEvent.names p) =
          [.orderPaymentSuccess payment.orderId payment.tenantId p isFullyPaid]
  | _ =>
      s.payments.filter (fun payment => payment.id = p) = [] ∧
        s.outbox.filter (PaymentEvent.names p) = []

structure Announced (s : OrderStore) (calls : Nat → Option PaymentCall) : Prop where
  locks : LocksHeld s calls
  booked : AllBooked s.ledger
  loud : ∀ p k, calls p = some k → k.silent = false
  heard : ∀ p, Heard s p (calls p)
  told : ∀ i, FullyPaid s.ledger i →
    (∃ tenantId paymentId, PaymentEvent.orderPaymentSuccess i tenantId paymentId true ∈ s.outbox) ∨
      ∃ p dto, calls p = some (.publish dto true) ∧ dto.orderId = i
  true_of_told : ∀ i tenantId paymentId,
    PaymentEvent.orderPaymentSuccess i tenantId paymentId true ∈ s.outbox → FullyPaid s.ledger i
  true_of_publish : ∀ p dto, calls p = some (.publish dto true) → FullyPaid s.ledger dto.orderId

/-- A call that is about to write no event and has made no payment. -/
def PaymentCall.quiet : PaymentCall → Bool
  | .publish _ _ => false
  | .publishPaid _ => false
  | .paid => false
  | _ => true

theorem heard_quiet (hk : k.quiet = true) : Heard s p (some k) ↔ Heard s p none := by
  cases k with
  | publish dto isFullyPaid => cases hk
  | publishPaid dto => cases hk
  | paid => cases hk
  | _ => exact Iff.rfl

theorem heard_congr (hpayments : s'.payments.filter (fun payment => payment.id = p) =
      s.payments.filter (fun payment => payment.id = p))
    (houtbox : s'.outbox.filter (PaymentEvent.names p) = s.outbox.filter (PaymentEvent.names p))
    (call : Option PaymentCall) (h : Heard s p call) : Heard s' p call := by
  unfold Heard at h ⊢
  rw [hpayments, houtbox]
  exact h

theorem mem_outbox_iff {tenantId : Id} {isFullyPaid : Bool} :
    PaymentEvent.orderPaymentSuccess i tenantId p isFullyPaid ∈ s.outbox ↔
      PaymentEvent.orderPaymentSuccess i tenantId p isFullyPaid ∈
        s.outbox.filter (PaymentEvent.names p) := by
  rw [List.mem_filter]
  simp [PaymentEvent.names]

/-- A step that takes no payment and writes no success. -/
theorem Announced.calm (h : Announced s calls)
    (hlocks : LocksHeld s' (Function.update calls p (some k'))) (hbooked : AllBooked s'.ledger)
    (hfull : ∀ i, FullyPaid s'.ledger i ↔ FullyPaid s.ledger i)
    (hpayments : s'.payments = s.payments)
    (hnames : ∀ q, s'.outbox.filter (PaymentEvent.names q) = s.outbox.filter (PaymentEvent.names q))
    (hsilent : k'.silent = false) (hheard : Heard s p (some k'))
    (hold : ∀ dto isFullyPaid, calls p ≠ some (.publish dto isFullyPaid))
    (hnew : ∀ dto isFullyPaid, k' ≠ .publish dto isFullyPaid) :
    Announced s' (Function.update calls p (some k')) where
  locks := hlocks
  booked := hbooked
  loud := fun q k hk => by
    by_cases hq : q = p
    · subst hq
      rw [Function.update_self] at hk
      cases hk
      exact hsilent
    · rw [Function.update_of_ne hq] at hk
      exact h.loud q k hk
  heard := fun q => by
    refine heard_congr (by rw [hpayments]) (hnames q) _ ?_
    by_cases hq : q = p
    · subst hq
      rw [Function.update_self]
      exact hheard
    · rw [Function.update_of_ne hq]
      exact h.heard q
  told := fun i hi => by
    rcases h.told i ((hfull i).mp hi) with ⟨tenantId, id, hmem⟩ | ⟨q, dto, hq, hdto⟩
    · refine .inl ⟨tenantId, id, ?_⟩
      rw [mem_outbox_iff, hnames, ← mem_outbox_iff]
      exact hmem
    · refine .inr ⟨q, dto, ?_, hdto⟩
      rw [Function.update_of_ne]
      · exact hq
      · rintro rfl
        exact hold dto true hq
  true_of_told := fun i tenantId id hmem => by
    rw [mem_outbox_iff, hnames, ← mem_outbox_iff] at hmem
    exact (hfull i).mpr (h.true_of_told i tenantId id hmem)
  true_of_publish := fun q dto hq => by
    by_cases hqp : q = p
    · subst hqp
      rw [Function.update_self] at hq
      exact absurd (Option.some.inj hq) (hnew dto true)
    · rw [Function.update_of_ne hqp] at hq
      exact (hfull _).mpr (h.true_of_publish q dto hq)

/-- A call that has made no payment, until it commits one. -/
theorem next_quiet (hk : k.quiet = true)
    (hcommit : ∀ dto announces isFullyPaid, k ≠ .commitPayment dto announces isFullyPaid) :
    (k.next p s).1.quiet = true ∧ (k.next p s).2.payments = s.payments ∧
      (k.next p s).2.outbox = s.outbox := by
  cases k with
  | findOrder dto =>
      simp only [PaymentCall.next]
      split
      · exact ⟨rfl, rfl, rfl⟩
      · split
        · exact ⟨rfl, rfl, rfl⟩
        · exact ⟨rfl, rfl, rfl⟩
  | select dto announces =>
      simp only [PaymentCall.next]
      split
      · exact ⟨rfl, rfl, rfl⟩
      · exact ⟨rfl, rfl, rfl⟩
  | lock dto announces =>
      simp only [PaymentCall.next]
      split
      · exact ⟨rfl, rfl, rfl⟩
      · split
        · exact ⟨rfl, rfl, rfl⟩
        · split
          · exact ⟨rfl, rfl, rfl⟩
          · exact ⟨rfl, rfl, rfl⟩
  | updateOrder dto announces order =>
      simp only [PaymentCall.next]
      split
      · exact ⟨rfl, rfl, rfl⟩
      · exact ⟨rfl, rfl, rfl⟩
  | insertPayment dto announces => exact ⟨rfl, rfl, rfl⟩
  | reload dto announces => exact ⟨rfl, rfl, rfl⟩
  | commitPayment dto announces isFullyPaid => exact absurd rfl (hcommit dto announces isFullyPaid)
  | publish dto isFullyPaid => cases hk
  | publishPaid dto => cases hk
  | paid => cases hk
  | rejected failure => exact ⟨rfl, rfl, rfl⟩
  | update id tenantId u =>
      simp only [PaymentCall.next]
      split
      · exact ⟨rfl, rfl, rfl⟩
      · exact ⟨rfl, rfl, rfl⟩
  | updateLock id tenantId u =>
      simp only [PaymentCall.next]
      split
      · exact ⟨rfl, rfl, rfl⟩
      · split
        · exact ⟨rfl, rfl, rfl⟩
        · exact ⟨rfl, rfl, rfl⟩
  | updateCommit id tenantId u => exact ⟨rfl, rfl, rfl⟩
  | updated done => exact ⟨rfl, rfl, rfl⟩
  | stopped => exact ⟨rfl, rfl, rfl⟩

theorem next_loud (hk : k.silent = false) : (k.next p s).1.silent = false := by
  cases k with
  | findOrder dto =>
      simp only [PaymentCall.next]
      split
      · rfl
      · split
        · rfl
        · rfl
  | select dto announces =>
      simp only [PaymentCall.next]
      split
      · exact hk
      · rfl
  | lock dto announces =>
      simp only [PaymentCall.next]
      split
      · exact hk
      · split
        · rfl
        · split
          · exact hk
          · rfl
  | updateOrder dto announces order =>
      simp only [PaymentCall.next]
      split
      · rfl
      · exact hk
  | insertPayment dto announces => exact hk
  | reload dto announces => exact hk
  | commitPayment dto announces isFullyPaid =>
      cases announces with
      | false => rfl
      | true => rfl
  | publish dto isFullyPaid =>
      cases isFullyPaid with
      | false => rfl
      | true => rfl
  | publishPaid dto => rfl
  | paid => rfl
  | rejected failure => rfl
  | update id tenantId u =>
      simp only [PaymentCall.next]
      split
      · rfl
      · rfl
  | updateLock id tenantId u =>
      simp only [PaymentCall.next]
      split
      · rfl
      · split
        · rfl
        · rfl
  | updateCommit id tenantId u => rfl
  | updated done => rfl
  | stopped => rfl

/-- The statements before the commit of a payment, and those of the other calls. -/
theorem Announced.next_quiet (h : Announced s calls) (hk : calls p = some k)
    (hquiet : k.quiet = true)
    (hcommit : ∀ dto announces isFullyPaid, k ≠ .commitPayment dto announces isFullyPaid) :
    Announced (k.next p s).2 (Function.update calls p (some (k.next p s).1)) := by
  obtain ⟨hquiet', hpayments, houtbox⟩ := Payments.next_quiet (s := s) (p := p) hquiet hcommit
  obtain ⟨hlocks, hmoves⟩ := h.locks.next hk
  have hfull : (∀ i, FullyPaid (k.next p s).2.ledger i ↔ FullyPaid s.ledger i) ∧
      AllBooked (k.next p s).2.ledger := by
    rcases hmoves with hsame | ⟨_, _, _, hledger⟩
      | @⟨i, tenantId, u, order, hrow, happlies, hledger⟩
    · rw [hsame]
      exact ⟨fun _ => Iff.rfl, h.booked⟩
    · exact absurd rfl (hcommit _ _ _)
    · rw [hledger]
      exact ⟨fullyPaid_updated u hrow, (Ledger.Step.update hrow happlies).allBooked h.booked⟩
  refine h.calm hlocks hfull.2 hfull.1 hpayments (fun q => by rw [houtbox])
    (next_loud (h.loud p k hk)) ?_ ?_ ?_
  · have hheard := h.heard p
    rw [hk] at hheard
    exact (heard_quiet hquiet').mpr ((heard_quiet hquiet).mp hheard)
  · intro dto isFullyPaid hpublish
    rw [hk] at hpublish
    cases hpublish
    cases hquiet
  · intro dto isFullyPaid hpublish
    rw [hpublish] at hquiet'
    cases hquiet'

theorem Announced.next_commit {isFullyPaid : Bool} (h : Announced s calls)
    (hk : calls p = some (.commitPayment dto true isFullyPaid)) :
    Announced ((s.commit p).insertPayment (dto.payment p))
      (Function.update calls p (some (.publish dto isFullyPaid))) := by
  obtain ⟨hlocks, hmoves⟩ := h.locks.next hk
  obtain ⟨order, hrow, haccepts, hfull, hledger⟩ : ∃ order,
      s.ledger.orders dto.orderId = some order ∧ accepts order dto.amount = true ∧
        isFullyPaid = decide ((pay order dto.amount).paymentStatus = .paid) ∧
        ((s.commit p).insertPayment (dto.payment p)).ledger =
          s.ledger.paid (dto.payment p) order := by
    cases hmoves with
    | none hsame =>
        -- the payment is new, so the ledger has changed
        have hlength := congrArg (fun L => L.payments.length) hsame
        have hnew : (s.payments ++ [dto.payment p]).length = s.payments.length := hlength
        simp at hnew
    | pay hrow haccepts hfull hledger => exact ⟨_, hrow, haccepts, hfull, hledger⟩
  have hself : ¬ FullyPaid s.ledger dto.orderId ∧
      (FullyPaid (s.ledger.paid (dto.payment p) order) dto.orderId ↔
        (pay order dto.amount).paymentStatus = .paid) :=
    fullyPaid_paid_self (dto.payment p) h.booked hrow haccepts
  have hkeeps (j : Id) (hj : FullyPaid s.ledger j) :
      FullyPaid (s.ledger.paid (dto.payment p) order) j := by
    have hne : j ≠ (dto.payment p).orderId := by
      rintro rfl
      exact hself.1 hj
    exact (fullyPaid_paid_of_ne hne).mpr hj
  have hstep : s.ledger.Step (s.ledger.paid (dto.payment p) order) := .pay hrow haccepts
  have hquiet := h.heard p
  rw [hk] at hquiet
  exact
    { locks := hlocks
      booked := by
        rw [hledger]
        exact hstep.allBooked h.booked
      loud := fun q k hq => by
        by_cases hqp : q = p
        · subst hqp
          rw [Function.update_self] at hq
          cases hq
          rfl
        · rw [Function.update_of_ne hqp] at hq
          exact h.loud q k hq
      heard := fun q => by
        by_cases hqp : q = p
        · subst hqp
          rw [Function.update_self]
          refine ⟨?_, hquiet.2⟩
          show (s.payments ++ [dto.payment q]).filter _ = _
          rw [List.filter_append, hquiet.1]
          simp [CreatePaymentDto.payment]
        · rw [Function.update_of_ne hqp]
          refine heard_congr (s := s) ?_ ?_ _ (h.heard q)
          · show (s.payments ++ [dto.payment p]).filter _ = _
            rw [List.filter_append]
            simp [CreatePaymentDto.payment, Ne.symm hqp]
          · rfl
      told := fun i hi => by
        rw [hledger] at hi
        by_cases hio : i = dto.orderId
        · subst hio
          refine .inr ⟨p, dto, ?_, rfl⟩
          rw [Function.update_self, hfull, decide_eq_true (hself.2.mp hi)]
        · rcases h.told i ((fullyPaid_paid_of_ne hio).mp hi) with hmem | ⟨q, other, hq, hother⟩
          · exact .inl hmem
          · refine .inr ⟨q, other, ?_, hother⟩
            rw [Function.update_of_ne]
            · exact hq
            · rintro rfl
              rw [hk] at hq
              cases hq
      true_of_told := fun i tenantId id hmem => by
        rw [hledger]
        exact hkeeps i (h.true_of_told i tenantId id hmem)
      true_of_publish := fun q other hq => by
        rw [hledger]
        by_cases hqp : q = p
        · subst hqp
          rw [Function.update_self] at hq
          cases hq
          exact hself.2.mpr (of_decide_eq_true hfull.symm)
        · rw [Function.update_of_ne hqp] at hq
          exact hkeeps _ (h.true_of_publish q other hq) }

theorem Announced.next_publish {isFullyPaid : Bool} (h : Announced s calls)
    (hk : calls p = some (.publish dto isFullyPaid)) :
    Announced (s.publish (.orderPaymentSuccess dto.orderId dto.tenantId p isFullyPaid))
      (Function.update calls p
        (some (if isFullyPaid then .publishPaid dto else .paid))) := by
  obtain ⟨hlocks, -⟩ := h.locks.next hk
  have hpublish := h.heard p
  rw [hk] at hpublish
  have hmade :
      (s.publish (.orderPaymentSuccess dto.orderId dto.tenantId p isFullyPaid)).outbox =
      s.outbox ++ [.orderPaymentSuccess dto.orderId dto.tenantId p isFullyPaid] := rfl
  exact
    { locks := hlocks
      booked := h.booked
      loud := fun q k hq => by
        by_cases hqp : q = p
        · subst hqp
          rw [Function.update_self] at hq
          cases hq
          cases isFullyPaid with
          | false => rfl
          | true => rfl
        · rw [Function.update_of_ne hqp] at hq
          exact h.loud q k hq
      heard := fun q => by
        by_cases hqp : q = p
        · subst hqp
          rw [Function.update_self]
          have hone : (s.publish (.orderPaymentSuccess dto.orderId dto.tenantId q
              isFullyPaid)).outbox.filter (PaymentEvent.names q) =
              [.orderPaymentSuccess dto.orderId dto.tenantId q isFullyPaid] := by
            rw [hmade, List.filter_append, hpublish.2]
            simp [PaymentEvent.names]
          cases isFullyPaid with
          | false => exact ⟨dto.payment q, false, hpublish.1, hone⟩
          | true => exact ⟨dto.payment q, true, hpublish.1, hone⟩
        · rw [Function.update_of_ne hqp]
          refine heard_congr (s := s) ?_ ?_ _ (h.heard q)
          · rfl
          · rw [hmade, List.filter_append]
            simp [PaymentEvent.names, Ne.symm hqp]
      told := fun i hi => by
        rcases h.told i hi with ⟨tenantId, id, hmem⟩ | ⟨q, other, hq, hother⟩
        · exact .inl ⟨tenantId, id, List.mem_append_left _ hmem⟩
        · by_cases hqp : q = p
          · subst hqp
            rw [hk] at hq
            cases hq
            subst hother
            exact .inl ⟨dto.tenantId, q, List.mem_append_right _ List.mem_cons_self⟩
          · exact .inr ⟨q, other, by rw [Function.update_of_ne hqp]; exact hq, hother⟩
      true_of_told := fun i tenantId id hmem => by
        rw [hmade] at hmem
        rcases List.mem_append.mp hmem with hmem | hmem
        · exact h.true_of_told i tenantId id hmem
        · rw [List.mem_singleton] at hmem
          cases hmem
          exact h.true_of_publish p dto hk
      true_of_publish := fun q other hq => by
        by_cases hqp : q = p
        · subst hqp
          rw [Function.update_self] at hq
          cases isFullyPaid with
          | false => cases hq
          | true => cases hq
        · rw [Function.update_of_ne hqp] at hq
          exact h.true_of_publish q other hq }

theorem Announced.next (h : Announced s calls) (hk : calls p = some k) :
    Announced (k.next p s).2 (Function.update calls p (some (k.next p s).1)) := by
  cases k with
  | commitPayment dto announces isFullyPaid =>
      have hloud := h.loud p _ hk
      cases announces with
      | false => cases hloud
      | true => exact h.next_commit hk
  | publish dto isFullyPaid => exact h.next_publish hk
  | publishPaid dto =>
      have hheard := h.heard p
      rw [hk] at hheard
      refine h.calm (h.locks.next hk).1 h.booked (fun _ => Iff.rfl) rfl (fun q => ?_) rfl hheard
        (fun _ _ hq => by rw [hk] at hq; cases hq) nofun
      show (s.outbox ++ [_]).filter _ = _
      rw [List.filter_append]
      simp [PaymentEvent.names]
  | paid =>
      have hheard := h.heard p
      rw [hk] at hheard
      exact h.calm (h.locks.next hk).1 h.booked (fun _ => Iff.rfl) rfl (fun _ => rfl) rfl hheard
        (fun _ _ hq => by rw [hk] at hq; cases hq) nofun
  | findOrder dto => exact h.next_quiet hk rfl nofun
  | select dto announces => exact h.next_quiet hk rfl nofun
  | lock dto announces => exact h.next_quiet hk rfl nofun
  | updateOrder dto announces order => exact h.next_quiet hk rfl nofun
  | insertPayment dto announces => exact h.next_quiet hk rfl nofun
  | reload dto announces => exact h.next_quiet hk rfl nofun
  | rejected failure => exact h.next_quiet hk rfl nofun
  | update id tenantId u => exact h.next_quiet hk rfl nofun
  | updateLock id tenantId u => exact h.next_quiet hk rfl nofun
  | updateCommit id tenantId u => exact h.next_quiet hk rfl nofun
  | updated done => exact h.next_quiet hk rfl nofun
  | stopped => exact h.next_quiet hk rfl nofun

/-! ## Whole runs -/

/-- The schedule makes no payment past the service. -/
def OnlyPays (_ : World OrderStore PaymentCall) (e : PaymentRunEvent) : Prop :=
  ∀ p dto, e ≠ .spawn p (.createPayment dto)

theorem Announced.spawn {r : PaymentRequest} (h : Announced s calls) (hp : calls p = none)
    (hr : ∀ dto, r ≠ .createPayment dto) :
    Announced s (Function.update calls p (some (payments.start r))) := by
  have hheard := h.heard p
  rw [hp] at hheard
  have hquiet : (payments.start r).quiet = true ∧ (payments.start r).silent = false := by
    cases r with
    | pay dto => exact ⟨rfl, rfl⟩
    | createPayment dto => exact absurd rfl (hr dto)
    | update id tenantId u => exact ⟨rfl, rfl⟩
  refine h.calm (h.locks.spawn hp (start_stands r s p)) h.booked (fun _ => Iff.rfl) rfl
    (fun _ => rfl) hquiet.2 ((heard_quiet hquiet.1).mpr hheard)
    (fun _ _ hq => by rw [hp] at hq; cases hq) fun dto isFullyPaid hpublish => ?_
  rw [hpublish] at hquiet
  cases hquiet.1

/-- A crash rolls back what is not committed; of a call that has no transaction open
it changes nothing. -/
theorem Announced.crash (h : Announced s calls) (hk : calls p = some k) :
    Announced (s.rollback p) (Function.update calls p (some (payments.stop p k s).1)) := by
  have hlocks := h.locks.rollback (stop_stands k s p)
  have hledger := ledger_rollback s p
  have hstop : (payments.stop p k s).1 = if k.holds = none then k else .stopped := rfl
  rw [hstop] at hlocks ⊢
  split
  · rename_i hfree
    rw [if_pos hfree] at hlocks
    rw [← hk, Function.update_eq_self] at hlocks ⊢
    exact
      { locks := hlocks
        booked := by rw [hledger]; exact h.booked
        loud := h.loud
        heard := fun q => heard_congr (s := s) rfl rfl _ (h.heard q)
        told := fun i hi => h.told i (by rw [hledger] at hi; exact hi)
        true_of_told := fun i tenantId id hmem => by
          rw [hledger]
          exact h.true_of_told i tenantId id hmem
        true_of_publish := fun q dto hq => by
          rw [hledger]
          exact h.true_of_publish q dto hq }
  · rename_i hheld
    rw [if_neg hheld] at hlocks
    have hquiet : k.quiet = true := by
      cases k with
      | publish dto isFullyPaid => exact absurd rfl hheld
      | publishPaid dto => exact absurd rfl hheld
      | paid => exact absurd rfl hheld
      | _ => rfl
    have hheard := h.heard p
    rw [hk] at hheard
    refine h.calm hlocks (by rw [hledger]; exact h.booked) (fun i => by rw [hledger]) rfl
      (fun _ => rfl) rfl ((heard_quiet hquiet).mp hheard) (fun _ _ hq => ?_) nofun
    rw [hk] at hq
    cases hq
    exact hheld rfl

theorem exec_announced {w : World OrderStore PaymentCall} {e : PaymentRunEvent}
    (h : Announced w.store w.at_) (he : OnlyPays w e) :
    Announced (payments.exec w e).store (payments.exec w e).at_ := by
  obtain ⟨p, r, rfl, hp, hs, ha⟩ | ⟨p, c, k, -, -, hk, hs, ha⟩ | ⟨o, -⟩ | ⟨p, k, -, hk, hs, ha⟩ |
    ⟨hs, ha⟩ := payments.exec_cases w e
  · rw [hs, ha]
    exact h.spawn hp fun dto hr => he p dto (hr ▸ rfl)
  · rw [hs, ha]
    exact h.next hk
  · exact nomatch o
  · rw [hs, ha]
    exact h.crash hk
  · rw [hs, ha]
    exact h

theorem announced_opened {orders : Id → Option SalesOrder} (hopened : Opened orders) :
    Announced (.opened orders) fun _ => none where
  locks := locksHeld_opened orders
  booked := fun _ _ hrow => hopened.booked hrow
  loud := fun p k hk => by cases hk
  heard := fun p => ⟨rfl, rfl⟩
  told := fun i ⟨order, _, hpositive, hsum⟩ => by
    have hzero : (0 : Int) = order.totalAmount := hsum
    omega
  true_of_told := fun i tenantId id hmem => nomatch hmem
  true_of_publish := fun p dto hp => by cases hp

/-- The outbox is complete exactly when no call stands before its event. -/
theorem Announced.complete_iff (h : Announced s calls) :
    EventsComplete s ↔ ∀ p dto isFullyPaid, calls p ≠ some (.publish dto isFullyPaid) := by
  constructor
  · intro hcomplete p dto isFullyPaid hp
    have hheard := h.heard p
    rw [hp] at hheard
    have hmem : dto.payment p ∈ s.payments := by
      refine List.mem_of_mem_filter (p := fun payment => decide (payment.id = p)) ?_
      rw [hheard.1]
      exact List.mem_cons_self
    obtain ⟨_, hone⟩ := hcomplete.once _ hmem
    exact absurd (hheard.2.symm.trans hone) (by simp)
  · intro hnone
    refine ⟨fun payment hmem => ?_, fun i hi => ?_, h.true_of_told⟩
    · have hfound : payment ∈ s.payments.filter fun other => other.id = payment.id :=
        List.mem_filter.mpr ⟨hmem, decide_eq_true rfl⟩
      have hheard := h.heard payment.id
      have hsettled (hpaid : ∃ other isFullyPaid,
          s.payments.filter (fun found => found.id = payment.id) = [other] ∧
            s.outbox.filter (PaymentEvent.names payment.id) =
              [.orderPaymentSuccess other.orderId other.tenantId payment.id isFullyPaid]) :
          ∃ isFullyPaid, s.outbox.filter (PaymentEvent.names payment.id) =
            [.orderPaymentSuccess payment.orderId payment.tenantId payment.id isFullyPaid] := by
        obtain ⟨other, isFullyPaid, hone, hevent⟩ := hpaid
        rw [hone, List.mem_singleton] at hfound
        subst hfound
        exact ⟨isFullyPaid, hevent⟩
      have hempty (hquiet : Heard s payment.id none) :
          ∃ isFullyPaid, s.outbox.filter (PaymentEvent.names payment.id) =
            [.orderPaymentSuccess payment.orderId payment.tenantId payment.id isFullyPaid] := by
        rw [hquiet.1] at hfound
        cases hfound
      cases hcall : calls payment.id with
      | none =>
          rw [hcall] at hheard
          exact hempty hheard
      | some k =>
          rw [hcall] at hheard
          by_cases hquiet : k.quiet = true
          · exact hempty ((heard_quiet hquiet).mp hheard)
          · cases k with
            | publish dto isFullyPaid => exact absurd hcall (hnone _ dto isFullyPaid)
            | publishPaid dto => exact hsettled hheard
            | paid => exact hsettled hheard
            | _ => exact absurd rfl hquiet
    · rcases h.told i hi with htold | ⟨p, dto, hp, -⟩
      · exact htold
      · exact absurd hp (hnone p dto true)

/-- In every state that payments reach, with crashes at any point, the outbox is
complete if and only if no call of `pay`, running or crashed, has committed its payment
and not written the event of it. -/
theorem events_complete_iff (orders : Id → Option SalesOrder) (hopened : Opened orders)
    (es : List PaymentRunEvent)
    (hes : payments.Follows OnlyPays (World.idle (.opened orders)) es) :
    EventsComplete (payments.run (World.idle (.opened orders)) es).store ↔
      ∀ p dto isFullyPaid, (payments.run (World.idle (.opened orders)) es).at_ p ≠
        some (.publish dto isFullyPaid) := by
  have h : Announced (payments.run (World.idle (.opened orders)) es).store
      (payments.run (World.idle (.opened orders)) es).at_ :=
    payments.follows_invariant (I := fun w => Announced w.store w.at_)
      (fun w e hw he => exec_announced hw he) es hes (announced_opened hopened)
  exact h.complete_iff

theorem payOrderOfTwo_follows (statements : Nat) (w : World OrderStore PaymentCall) :
    payments.Follows OnlyPays w (payOrderOfTwo statements) := by
  refine ⟨nofun, ?_⟩
  generalize payments.exec w _ = started
  induction statements generalizing started with
  | zero => trivial
  | succ n ih => exact ⟨nofun, ih _⟩

theorem payOrderOfTwo_at {orders : Id → Option SalesOrder} (statements : Nat) (hp : p ≠ 0) :
    (payments.run (World.idle (.opened orders)) (payOrderOfTwo statements)).at_ p = none := by
  refine (payments.steps_at_of_ne hp _ _).trans ?_
  simp [World.at_, System.exec, World.idle, hp]

/-- The call comes to its end. -/
theorem events_complete_example :
    EventsComplete (payments.run (World.idle (.opened (orderOfTwo 5)))
    (payOrderOfTwo 9)).store := by
  refine (events_complete_iff (orderOfTwo 5) (orderOfTwo_opened 5) (payOrderOfTwo 9)
    (payOrderOfTwo_follows 9 _)).mpr fun p dto isFullyPaid => ?_
  by_cases hp : p = 0
  · have hpaid : (payments.run (World.idle (.opened (orderOfTwo 5))) (payOrderOfTwo 9)).at_ 0 =
        some .paid := by decide +kernel
    rw [hp, hpaid]
    exact nofun
  · rw [payOrderOfTwo_at 9 hp]
    exact nofun

/-- The process crashes after the commit: the order is paid and nobody will hear of it. -/
theorem crash_after_payment :
    ¬ EventsComplete (payments.run (World.idle (.opened (orderOfTwo 5)))
      (payOrderOfTwo 7 ++ [.crash 0])).store := by
  intro h
  have hpaid : ⟨0, 1, 1, 10, .cash⟩ ∈ (payments.run (World.idle (.opened (orderOfTwo 5)))
      (payOrderOfTwo 7 ++ [.crash 0])).store.payments := by decide +kernel
  have hempty : (payments.run (World.idle (.opened (orderOfTwo 5)))
      (payOrderOfTwo 7 ++ [.crash 0])).store.outbox = [] := by decide +kernel
  obtain ⟨_, hone⟩ := h.once _ hpaid
  rw [hempty] at hone
  cases hone

end Payments
end Orders
end ERP
