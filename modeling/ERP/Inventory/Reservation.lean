import ERP.Inventory.Stock

/-!
# Order reservations

`InventoryReservationService` and `ReservationRepository`.  Reserving takes the
stock and records an ACTIVE movement without a cost; releasing, cancelling and
expiring give the stock back; committing keeps the stock out and charges the
cost.  The two classes hold the same code but for the active-product check,
which only the repository makes, so each body stands once.
-/

namespace ERP
namespace Inventory

structure StockRequirement where
  inventoryItemId : Id
  quantity : ℚ
  deriving DecidableEq, Repr

/-- `requirements.set` on the `Map`: add to the entry of the item where it
stands, or append one. -/
def addRequirement : List StockRequirement → Option Id → ℚ → List StockRequirement
  | requirements, none, _ => requirements
  | [], some itemId, quantity => if quantity ≤ 0 then [] else [⟨itemId, quantity⟩]
  | r :: rest, some itemId, quantity =>
    if quantity ≤ 0 then r :: rest
    else if r.inventoryItemId = itemId then ⟨itemId, r.quantity + quantity⟩ :: rest
    else r :: addRequirement rest (some itemId) quantity

/-- What the lines of an order ask of the inventory, in the order of the lines. -/
def demands (businessType : BusinessType) (lines : List (SalesOrderItem × Product)) :
    List (Option Id × ℚ) :=
  match businessType with
  | .retail => lines.map fun line => (line.2.inventoryItemId, (line.1.quantity : ℚ))
  | .cafe => lines.flatMap fun line => (line.2.recipe.getD []).map fun recipeItem =>
      (some recipeItem.inventoryItemId, (recipeItem.quantity * line.1.quantity : ℚ))
  | _ => []

def buildRequirements (businessType : BusinessType) (lines : List (SalesOrderItem × Product)) :
    List StockRequirement :=
  (demands businessType lines).foldl (fun rs d => addRequirement rs d.1 d.2) []

/-- `InventoryItem: { tenantId }, Warehouse: { tenantId }` on a stock row. -/
def tenantOwnsStock (db : DB) (tenantId : Id) (row : InventoryStock) : Bool :=
  (db.items.any fun item => item.id = row.inventoryItemId ∧ item.tenantId = tenantId) &&
    db.warehouses.any fun w => some w.id = row.warehouseId ∧ w.tenantId = tenantId

/-- The stock rows a reservation for the order may draw on, oldest first. -/
def reservableStocks (stamp : Stamp) (db : DB) (tenantId : Id) (outletId : Option Id)
    (itemId : Id) : List InventoryStock :=
  Lib.orderBy (fun row => stamp.createdAt row.id) (db.stocks.filter fun row =>
    row.inventoryItemId = itemId ∧ 0 < row.quantity ∧
      (db.items.any fun item => item.id = row.inventoryItemId ∧ item.tenantId = tenantId) ∧
      db.warehouses.any fun w => some w.id = row.warehouseId ∧ w.tenantId = tenantId ∧
        (outletId = none ∨ w.outletId = outletId ∨ w.outletId = none))

/-- The loop of `reserveRequirement`; what is still missing after it. -/
def reserveRows (tenantId orderId itemId : Id) : List InventoryStock → ℚ → Tx ℚ
  | [], remaining => pure remaining
  | stock :: stocks, remaining =>
    if remaining ≤ 0 then pure remaining
    else do
      let quantityToReserve := min stock.quantity remaining
      let db ← get
      let updated ← decrementStocks (fun row => row.id = stock.id ∧
        quantityToReserve ≤ row.quantity ∧ tenantOwnsStock db tenantId row) quantityToReserve
      require (updated = 1) .stockChangedWhileReserving
      let _ ← createMovement fun id =>
        { id, tenantId, type := .stockOut, quantity := quantityToReserve,
          beforeQuantity := some stock.quantity,
          afterQuantity := some (stock.quantity - quantityToReserve),
          inventoryItemId := itemId, referenceId := some orderId,
          referenceType := some .orderReservation, warehouseId := stock.warehouseId,
          unitCost := none, totalCost := none }
      reserveRows tenantId orderId itemId stocks (remaining - quantityToReserve)

def reserveRequirement (stamp : Stamp) (tenantId : Id) (order : SalesOrder)
    (requirement : StockRequirement) : Tx Unit := do
  let db ← get
  let _ ← expect (db.items.find? fun row =>
    row.id = requirement.inventoryItemId ∧ row.tenantId = tenantId) .inventoryItemNotFound
  let missing ← reserveRows tenantId order.id requirement.inventoryItemId
    (reservableStocks stamp db tenantId order.outletId requirement.inventoryItemId)
    requirement.quantity
  require (¬ 0 < missing) .insufficientStockForReservation

def hasReservation (db : DB) (tenantId orderId : Id) : Bool :=
  db.movements.any fun row => row.tenantId = tenantId ∧ row.referenceId = some orderId ∧
    (row.referenceType = some .orderReservation ∨
      row.referenceType = some .orderReservationCommitted)

def tenantBusinessType (db : DB) (tenantId : Id) : Option BusinessType :=
  (db.tenants.find? fun row => row.id = tenantId).map (·.businessType)

/-- The first inactive product on the lines of a RETAIL order. -/
def inactiveProduct (businessType : BusinessType) (lines : List (SalesOrderItem × Product)) :
    Option Product :=
  if businessType = .retail then (lines.map (·.2)).find? fun product => ¬ product.isActive
  else none

def reserveStockWith (checkActive : Bool) (stamp : Stamp) (orderId tenantId : Id) :
    Tx Bool := do
  let db ← get
  let order ← expect (findOrder db orderId tenantId) .orderNotFound
  if hasReservation db tenantId orderId then pure true
  else do
    let businessType ← expect (tenantBusinessType db tenantId) .orderNotFound
    let lines := orderLines db order
    let inactive := if checkActive then inactiveProduct businessType lines else none
    require (inactive = none) (.productInactive ((inactive.map (·.name)).getD ""))
    (buildRequirements businessType lines).forM (reserveRequirement stamp tenantId order)
    pure true

/-- The ACTIVE reservations of an order. -/
def activeReservations (db : DB) (tenantId orderId : Id) : List InventoryMovement :=
  db.movements.filter fun row => row.tenantId = tenantId ∧ row.referenceId = some orderId ∧
    row.referenceType = some .orderReservation

/-- Change the reservations read before that are still ACTIVE; how many were. -/
def claimReservations (reservations : List InventoryMovement)
    (f : InventoryMovement → InventoryMovement) : Tx Nat := do
  let db ← get
  let stillActive : InventoryMovement → Bool := fun row =>
    row.id ∈ reservations.map (·.id) ∧ row.referenceType = some .orderReservation
  set (db.updateMovements stillActive f)
  pure (db.movements.countP stillActive)

def restoreReservationMovement (stamp : Stamp) (reservation : InventoryMovement)
    (referenceId : Option Id) : Tx Unit := do
  let warehouseId ← expect reservation.warehouseId .reservationHasNoWarehouse
  let db ← get
  let costAllocationCount := (db.allocationsOf reservation.id).length
  (if 0 < costAllocationCount then do
    let _ ← lockItem reservation.tenantId reservation.inventoryItemId
    pure ()
  else pure ())
  let db ← get
  let stock := db.stockAt (some warehouseId) reservation.inventoryItemId
  let beforeQuantity := (stock.map (·.quantity)).getD 0
  let _ ← upsertStock (some warehouseId) reservation.inventoryItemId reservation.quantity
  let movementId ← createMovement fun id =>
    { id, tenantId := reservation.tenantId, type := .return,
      quantity := reservation.quantity, beforeQuantity := some beforeQuantity,
      afterQuantity := some (beforeQuantity + reservation.quantity),
      inventoryItemId := reservation.inventoryItemId, referenceId,
      referenceType := some .orderReservationRelease, warehouseId := some warehouseId,
      unitCost := none, totalCost := none }
  if 0 < costAllocationCount then
    restore stamp
      { tenantId := reservation.tenantId, inventoryItemId := reservation.inventoryItemId,
        warehouseId := some warehouseId, quantity := reservation.quantity,
        sourceMovementId := reservation.id, reversalMovementId := movementId }
  else pure ()

/-- The body that release, cancel and expiry share: mark the reservations and
give their stock back, then run `andThen`.  `false` when nothing was ACTIVE. -/
def giveBack (stamp : Stamp) (marker : ReferenceType) (reservations : List InventoryMovement)
    (andThen : Tx Unit) : Tx Bool :=
  if reservations = [] then pure false
  else do
    let claimed ← claimReservations reservations fun row =>
      { row with referenceType := some marker }
    if claimed = 0 then pure false
    else do
      require (claimed = reservations.length) .reservationAlreadyProcessed
      reservations.forM fun reservation =>
        restoreReservationMovement stamp reservation reservation.referenceId
      andThen
      pure true

def getCommittedMovementType : BusinessType → MovementType
  | .cafe => .consumption
  | .retail => .sale
  | _ => .stockOut

/-- Charge a committed reservation, unless that was done before. -/
def costReservation (stamp : Stamp) (tenantId : Id) (reservation : InventoryMovement) :
    Tx Unit := do
  let db ← get
  if (db.allocationsOf reservation.id).length = 0 then do
    let _ ← issue stamp
      { tenantId, inventoryItemId := reservation.inventoryItemId,
        warehouseId := reservation.warehouseId, quantity := reservation.quantity,
        movementId := reservation.id }
    pure ()
  else pure ()

/-- Mark the reservations COMMITTED and charge them. -/
def commitWith (stamp : Stamp) (tenantId : Id) (type : MovementType) (changed : Failure)
    (reservations : List InventoryMovement) : Tx Bool := do
  let committed ← claimReservations reservations fun row =>
    { row with referenceType := some .orderReservationCommitted, type }
  if committed = 0 then pure false
  else do
    require (committed = reservations.length) changed
    reservations.forM (costReservation stamp tenantId)
    pure true

def commitReservation (stamp : Stamp) (orderId tenantId : Id) : Tx Bool := do
  let db ← get
  let _ ← expect (findOrder db orderId tenantId) .orderNotFound
  let businessType ← expect (tenantBusinessType db tenantId) .orderNotFound
  let reservations := activeReservations db tenantId orderId
  if reservations = [] then pure false
  else
    commitWith stamp tenantId (getCommittedMovementType businessType)
      .reservationAlreadyProcessed reservations

namespace ReservationService

def reserveStock (stamp : Stamp) (orderId tenantId : Id) : Tx Bool :=
  reserveStockWith false stamp orderId tenantId

def releaseReservation (stamp : Stamp) (orderId tenantId : Id) : Tx Bool := do
  let db ← get
  giveBack stamp .orderReservationReleased (activeReservations db tenantId orderId) (pure ())

end ReservationService

namespace ReservationRepository

def reserveStock (stamp : Stamp) (orderId tenantId : Id) : Tx Bool :=
  reserveStockWith true stamp orderId tenantId

def releaseReservation (stamp : Stamp) (orderId tenantId : Id) : Tx Bool := do
  let db ← get
  giveBack stamp .orderReservationReleased (activeReservations db tenantId orderId) (pure ())

def cancelReservation (stamp : Stamp) (orderId tenantId : Id) : Tx Bool := do
  let db ← get
  giveBack stamp .orderReservationCancelled (activeReservations db tenantId orderId) (pure ())

/-- Expire the ACTIVE reservations of every tenant made before `cutoff`, with one
outbox event for each; how many there were. -/
def expireReservations (stamp : Stamp) (cutoff : Int) : Tx Nat := do
  let db ← get
  let reservations := db.movements.filter fun row =>
    row.referenceType = some .orderReservation ∧ stamp.createdAt row.id < cutoff
  let expired ← giveBack stamp .orderReservationExpired reservations
    (reservations.forM fun row =>
      writeOutbox row.tenantId (.orderReservationExpired row.referenceId))
  pure (if expired then reservations.length else 0)

end ReservationRepository

end Inventory
end ERP
