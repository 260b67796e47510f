import ERP.Inventory.Reservation

/-!
# The kitchen

`KitchenStatus` with its transitions, and `KitchenRepository.updateStatus`: the
transaction that moves an order to the status a kitchen action asks for.
Starting to cook commits the reservation of the order in the same transaction,
cancelling releases it.
-/

namespace ERP
namespace Orders

open Inventory

inductive KitchenStatus where
  | new | queued | cooking | ready | served | cancelled | recalled
  deriving DecidableEq, Repr

/-- `KITCHEN_VALID_TRANSITIONS`. -/
def KitchenStatus.next : KitchenStatus → List KitchenStatus
  | .new => [.queued, .cancelled]
  | .queued => [.cooking, .cancelled]
  | .cooking => [.ready, .cancelled, .recalled]
  | .ready => [.served, .recalled]
  | .served => []
  | .cancelled => []
  | .recalled => [.cooking, .queued, .cancelled]

def mapKitchenStatusToOrderStatus : KitchenStatus → OrderStatus
  | .new => .pending
  | .queued => .pending
  | .cooking => .inProgress
  | .ready => .ready
  | .served => .completed
  | .cancelled => .cancelled
  | .recalled => .pending

def mapOrderStatusToKitchenStatus : OrderStatus → KitchenStatus
  | .pending => .queued
  | .inProgress => .cooking
  | .ready => .ready
  | .completed => .served
  | .cancelled => .cancelled
  | .paid => .new

/-- Charge a reservation that the kitchen committed; the row is read again. -/
def costKitchenReservation (stamp : Stamp) (tenantId reservationId : Id) : Tx Unit := do
  let db ← get
  if (db.allocationsOf reservationId).length = 0 then do
    let movement ← expect (db.movementById reservationId) .kitchenReservationGone
    let _ ← issue stamp
      { tenantId, inventoryItemId := movement.inventoryItemId,
        warehouseId := movement.warehouseId, quantity := movement.quantity,
        movementId := movement.id }
    pure ()
  else pure ()

/-- Commit whatever reservation the order holds; none is no failure. -/
def commitKitchenReservation (stamp : Stamp) (tenantId orderId : Id) : Tx Unit := do
  let db ← get
  let reservations := activeReservations db tenantId orderId
  if reservations = [] then pure ()
  else do
    let committed ← claimReservations reservations fun row =>
      { row with referenceType := some .orderReservationCommitted, type := .consumption }
    require (committed = reservations.length) .kitchenReservationChanged
    reservations.forM fun reservation =>
      costKitchenReservation stamp tenantId reservation.id

/-- `KitchenRepository.updateStatus`; whether the order was in the expected
status. -/
def updateKitchenStatus (stamp : Stamp) (orderId tenantId : Id) (outletId : Option Id)
    (status expectedStatus : KitchenStatus) : Tx Bool := do
  let db ← get
  let p : SalesOrder → Bool := fun row =>
    row.id = orderId ∧ row.tenantId = tenantId ∧ (outletId = none ∨ row.outletId = outletId) ∧
      row.status = mapKitchenStatusToOrderStatus expectedStatus ∧ row.kitchenReleasedAt ≠ none
  set (db.updateOrders p fun row =>
    { row with status := mapKitchenStatusToOrderStatus status })
  if db.orders.countP p ≠ 1 then pure false
  else do
    if status = .cancelled then do
      let _ ← ReservationService.releaseReservation stamp orderId tenantId
      pure true
    else if status = .cooking then do
      commitKitchenReservation stamp tenantId orderId
      pure true
    else pure true

end Orders
end ERP
