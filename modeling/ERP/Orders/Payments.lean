import ERP.Lib.RowLocks
import ERP.Lib.Tasks
import ERP.Orders.Kitchen

/-!
# Payments

`PaymentsService.pay` and `PaymentsRepository.createPayment` statement by statement,
with the other transactions that write an order.  An order is one row under READ
COMMITTED: a `SELECT … FOR UPDATE` or an `UPDATE` looks for it in what is committed,
waits for the transaction that holds it, and looks at it again.

A payment that was inserted and not committed is seen by no other call, so it is
not in the store.  Its id is the number of the call that makes it.
-/

namespace ERP
namespace Orders
namespace Payments

open Lib

inductive PaymentMethod where
  | cash | qris | transfer
  deriving DecidableEq, Repr

/-- `CreatePaymentDto`, with the tenant of the request.  `createPayment` is given the
same and checks the amount itself. -/
structure CreatePaymentDto where
  orderId : Id
  tenantId : Id
  amount : Int
  method : PaymentMethod
  deriving DecidableEq, Repr

structure Payment where
  id : Nat
  orderId : Id
  tenantId : Id
  amount : Int
  method : PaymentMethod
  deriving DecidableEq, Repr

/-- The rows of `OutboxEvent` that a payment writes. -/
inductive PaymentEvent where
  | orderPaymentSuccess (orderId tenantId : Id) (paymentId : Nat) (isFullyPaid : Bool)
  | salesOrderPaid (orderId tenantId : Id) (paymentId : Nat)
  deriving DecidableEq, Repr

inductive PaymentFailure where
  | orderNotFound
  | cancelledOrder
  | alreadyPaid
  | exceedsBalance
  | insufficientAmount
  | balanceChanged
  deriving DecidableEq, Repr

def PaymentFailure.message : PaymentFailure → String
  | .orderNotFound => "Order not found"
  | .cancelledOrder => "Cancelled orders cannot be paid"
  | .alreadyPaid => "Order already paid"
  | .exceedsBalance => "Payment amount exceeds the outstanding order balance"
  | .insufficientAmount => "Insufficient payment amount"
  | .balanceChanged => "The order balance changed while recording payment; refresh and retry"

/-- The statuses that take no payment, apart from CANCELLED. -/
def settled (order : SalesOrder) : Bool :=
  order.status = .paid || order.paymentStatus = .paid ||
    (order.status = .completed && order.orderMode ≠ .openBill)

def outstandingAmount (order : SalesOrder) : Int := order.totalAmount - order.paidAmount

/-- The checks of `pay`, on the order it reads first. -/
def checkPayment (order : SalesOrder) (amount : Int) : Except PaymentFailure Unit :=
  if order.status = .cancelled then .error .cancelledOrder
  else if settled order then .error .alreadyPaid
  else if amount > outstandingAmount order then .error .exceedsBalance
  else if order.orderMode ≠ .openBill ∧ amount < outstandingAmount order then
    .error .insufficientAmount
  else .ok ()

/-- The checks of `createPayment`, on the row it has locked. -/
def accepts (order : SalesOrder) (amount : Int) : Bool :=
  !(order.status = .cancelled || settled order) &&
    !(amount ≤ 0 || amount > outstandingAmount order ||
      (order.orderMode = .regular && amount ≠ outstandingAmount order))

/-- The order as `createPayment` updates it. -/
def pay (order : SalesOrder) (amount : Int) : SalesOrder :=
  { order with
    paidAmount := order.paidAmount + amount
    paymentStatus := if order.paidAmount + amount ≥ order.totalAmount then .paid else .pending }

/-- `where: { id, tenantId }`. -/
def isOrder (id tenantId : Id) (order : SalesOrder) : Bool :=
  order.id = id ∧ order.tenantId = tenantId

/-- The other writers of an order's status.  The checks that services make on an
earlier read let through fewer of them and are left out, except which status the
kitchen may ask for after the one it expects. -/
inductive OrderUpdate where
  | cancelOrder (outletId : Option Id)
  | markPaid
  | releaseToKitchen (now : Int)
  | markCompleted
  | kitchen (outletId : Option Id) (status expectedStatus : KitchenStatus)
  deriving DecidableEq, Repr

namespace OrderUpdate

/-- `where`, next to the id and the tenant. -/
def applies : OrderUpdate → SalesOrder → Bool
  | .cancelOrder outletId => fun order =>
      order.status ≠ .completed ∧ (outletId = none ∨ order.outletId = outletId)
  | .markPaid => fun order =>
      order.status = .pending ∨ order.status = .inProgress ∨ order.status = .ready
  | .releaseToKitchen _ => fun order =>
      order.status ≠ .cancelled ∧ order.kitchenReleasedAt = none ∧
        (order.orderMode = .openBill ∨ order.paymentStatus = .paid)
  | .markCompleted => fun order => order.status = .paid
  | .kitchen outletId status expectedStatus => fun order =>
      status ∈ expectedStatus.next ∧ (outletId = none ∨ order.outletId = outletId) ∧
        order.status = mapKitchenStatusToOrderStatus expectedStatus ∧
        order.kitchenReleasedAt ≠ none

/-- `data`. -/
def change : OrderUpdate → SalesOrder → SalesOrder
  | .cancelOrder _ => fun order => { order with status := .cancelled }
  | .markPaid => fun order => { order with status := .paid }
  | .releaseToKitchen now => fun order => { order with kitchenReleasedAt := some now }
  | .markCompleted => fun order => { order with status := .completed }
  | .kitchen _ status _ => fun order =>
      { order with status := mapKitchenStatusToOrderStatus status }

end OrderUpdate

structure OrderStore where
  orders : Id → Cell SalesOrder
  payments : List Payment
  outbox : List PaymentEvent

namespace OrderStore

variable (s : OrderStore) (p : Nat)

def setOrder (i : Id) (c : Cell SalesOrder) : OrderStore :=
  { s with orders := Function.update s.orders i c }

/-- The end of the transaction of call `p`. -/
def commit : OrderStore := { s with orders := fun i => (s.orders i).commit p }

def rollback : OrderStore := { s with orders := fun i => (s.orders i).release p }

/-- A condition on an order, as call `p` sees it. -/
def orderMeets (i : Id) (cond : SalesOrder → Bool) : Bool := ((s.orders i).visible p).any cond

def insertPayment (payment : Payment) : OrderStore :=
  { s with payments := s.payments ++ [payment] }

def publish (event : PaymentEvent) : OrderStore := { s with outbox := s.outbox ++ [event] }

end OrderStore

/-- The statement a call is about to send.  `announces` tells `pay` from a call of
`createPayment` alone. -/
inductive PaymentCall where
  | findOrder (dto : CreatePaymentDto)
  | select (dto : CreatePaymentDto) (announces : Bool)
  | lock (dto : CreatePaymentDto) (announces : Bool)
  | updateOrder (dto : CreatePaymentDto) (announces : Bool) (order : SalesOrder)
  | insertPayment (dto : CreatePaymentDto) (announces : Bool)
  | reload (dto : CreatePaymentDto) (announces : Bool)
  | commitPayment (dto : CreatePaymentDto) (announces : Bool) (isFullyPaid : Bool)
  | publish (dto : CreatePaymentDto) (isFullyPaid : Bool)
  | publishPaid (dto : CreatePaymentDto)
  | paid
  | rejected (failure : Option PaymentFailure)
  | update (id tenantId : Id) (u : OrderUpdate)
  | updateLock (id tenantId : Id) (u : OrderUpdate)
  | updateCommit (id tenantId : Id) (u : OrderUpdate)
  | updated (done : Bool)
  | stopped
  deriving DecidableEq, Repr

/-- `createPayment` has returned `null`. -/
def PaymentCall.notCreated (announces : Bool) : PaymentCall :=
  .rejected (if announces then some .balanceChanged else none)

def CreatePaymentDto.payment (dto : CreatePaymentDto) (p : Nat) : Payment :=
  ⟨p, dto.orderId, dto.tenantId, dto.amount, dto.method⟩

def PaymentCall.next (p : Nat) (k : PaymentCall) (s : OrderStore) : PaymentCall × OrderStore :=
  match k with
  | .findOrder dto =>
      match ((s.orders dto.orderId).visible p).filter (isOrder dto.orderId dto.tenantId) with
      | none => (.rejected (some .orderNotFound), s)
      | some order =>
          match checkPayment order dto.amount with
          | .error e => (.rejected (some e), s)
          | .ok () => (.select dto true, s)
  | .select dto announces =>
      if s.orderMeets p dto.orderId (isOrder dto.orderId dto.tenantId) then
        (.lock dto announces, s)
      else (.notCreated announces, s)
  | .lock dto announces =>
      if (s.orders dto.orderId).available p = false then (.lock dto announces, s)
      else
        match ((s.orders dto.orderId).visible p).filter (isOrder dto.orderId dto.tenantId) with
        | none => (.notCreated announces, s)
        | some order =>
            -- a transaction that has only locked the row ends as it began
            if accepts order dto.amount then
              (.updateOrder dto announces order,
                s.setOrder dto.orderId ((s.orders dto.orderId).hold p))
            else (.notCreated announces, s)
  | .updateOrder dto announces order =>
      match ((s.orders dto.orderId).visible p).filter fun row =>
          isOrder dto.orderId dto.tenantId row && row.paidAmount = order.paidAmount &&
            row.paymentStatus ≠ .paid with
      | none => (.notCreated announces, s.commit p)
      | some row =>
          let updated := pay order dto.amount
          (.insertPayment dto announces, s.setOrder dto.orderId ((s.orders dto.orderId).write p
            (some { row with
              paidAmount := updated.paidAmount
              paymentStatus := updated.paymentStatus })))
  | .insertPayment dto announces => (.reload dto announces, s)
  | .reload dto announces =>
      (.commitPayment dto announces (s.orderMeets p dto.orderId fun order =>
        order.paymentStatus = .paid), s)
  | .commitPayment dto announces isFullyPaid =>
      (if announces then .publish dto isFullyPaid else .paid,
        (s.commit p).insertPayment (dto.payment p))
  | .publish dto isFullyPaid =>
      (if isFullyPaid then .publishPaid dto else .paid,
        s.publish (.orderPaymentSuccess dto.orderId dto.tenantId p isFullyPaid))
  | .publishPaid dto => (.paid, s.publish (.salesOrderPaid dto.orderId dto.tenantId p))
  | .paid => (.paid, s)
  | .rejected failure => (.rejected failure, s)
  | .update id tenantId u =>
      if s.orderMeets p id fun order => isOrder id tenantId order && u.applies order then
        (.updateLock id tenantId u, s)
      else (.updated false, s)
  | .updateLock id tenantId u =>
      if (s.orders id).available p = false then (.updateLock id tenantId u, s)
      else
        match ((s.orders id).visible p).filter fun order =>
            isOrder id tenantId order && u.applies order with
        | none => (.updated false, s)
        | some order =>
            (.updateCommit id tenantId u,
              s.setOrder id ((s.orders id).write p (some (u.change order))))
  | .updateCommit _ _ _ => (.updated true, s.commit p)
  | .updated done => (.updated done, s)
  | .stopped => (.stopped, s)

/-- The order a call's open transaction holds. -/
def PaymentCall.holds : PaymentCall → Option Id
  | .updateOrder dto _ _ => some dto.orderId
  | .insertPayment dto _ => some dto.orderId
  | .reload dto _ => some dto.orderId
  | .commitPayment dto _ _ => some dto.orderId
  | .updateCommit id _ _ => some id
  | _ => none

inductive PaymentRequest where
  | pay (dto : CreatePaymentDto)
  | createPayment (dto : CreatePaymentDto)
  | update (id tenantId : Id) (u : OrderUpdate)
  deriving DecidableEq, Repr

/-- The calls; a crash rolls back the transaction that is open, and a call that has
none open stays where it was. -/
def payments : System OrderStore PaymentRequest PaymentCall Unit Empty where
  start := fun r =>
    match r with
    | .pay dto => .findOrder dto
    | .createPayment dto => .select dto false
    | .update id tenantId u => .update id tenantId u
  next := fun p _ => PaymentCall.next p
  act := fun o => nomatch o
  stop := fun p k s => (if k.holds = none then k else .stopped, s.rollback p)

abbrev PaymentRunEvent := Event PaymentRequest Unit Empty

/-- A product as an order sees it.  `CreateProductDto` admits any number as its
price, and no constraint of the table restricts it. -/
structure ProductPrice where
  id : Id
  tenantId : Id
  price : Int
  deriving DecidableEq, Repr

/-- `OrdersService.create` and `createOrder`: the order it writes, or `none` when a
product is not there. -/
def createOrder (products : List ProductPrice) (id tenantId : Id) (outletId : Option Id)
    (items : List SalesOrderItem) (orderMode : OrderMode) : Option SalesOrder :=
  let found := products.filter fun product =>
    product.tenantId = tenantId ∧ product.id ∈ items.map SalesOrderItem.productId
  if found.length ≠ items.length then none
  else do
    let subtotals ← items.mapM fun item => do
      let product ← found.find? fun product => product.id = item.productId
      pure (product.price * item.quantity)
    pure
      { id, tenantId, outletId
        status := .pending
        orderMode
        paymentStatus := .pending
        paidAmount := 0
        totalAmount := subtotals.sum
        kitchenReleasedAt := none
        items }

end Payments
end Orders
end ERP
