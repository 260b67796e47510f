import ERP.Inventory.Quantities

/-!
# The value of an item

`InventoryRepository.getValuation`: what the stock of an item and its ACTIVE
reservations are worth, location by location.  The reports it adds about the
history of the item are not part of the value and are left out.
-/

namespace ERP
namespace Inventory

structure Balance where
  warehouseId : Option Id
  quantity : ℚ
  inventoryValue : Option ℚ
  averageUnitCost : Option ℚ
  fifoLayerQuantity : ℚ
  fifoLayerValue : ℚ
  deriving DecidableEq, Repr

inductive ValuationStatus where
  | setupRequired | valued | openingCostRequired
  deriving DecidableEq, Repr

structure Valuation where
  inventoryItemId : Id
  valuationMethod : Option ValuationMethod
  movingAverageScope : Option MovingAverageScope
  standardCost : Option ℚ
  averageUnitCost : Option ℚ
  lockedAt : Option Int
  status : ValuationStatus
  totalQuantity : ℚ
  totalValue : Option ℚ
  balances : List Balance
  deriving DecidableEq, Repr

/-- `reservedQuantityByWarehouse`: the ACTIVE reservations of the tenant there. -/
def reservedQuantity (db : DB) (tenantId itemId : Id) (warehouseId : Option Id) : ℚ :=
  ((db.movements.filter fun row => row.tenantId = tenantId ∧ row.inventoryItemId = itemId ∧
    row.referenceType = some .orderReservation ∧ row.warehouseId = warehouseId).map
      (·.quantity)).sum

/-- A quantity at a unit cost; without a cost only nothing has a value. -/
def valueAt (quantity : ℚ) : Option ℚ → Option ℚ
  | some unitCost => some (quantity * unitCost)
  | none => if quantity = 0 then some 0 else none

/-- The average a stock row is valued at, in the scope of its item. -/
def stockUnitCost (item : InventoryItem) (stock : InventoryStock) : Option ℚ :=
  if item.movingAverageScope = some .perItem then item.averageUnitCost
  else stock.averageUnitCost

def balanceOf (db : DB) (item : InventoryItem) (stock : InventoryStock) : Balance :=
  let quantity := stock.quantity + reservedQuantity db item.tenantId item.id stock.warehouseId
  let layers := db.layers.filter fun layer => layer.tenantId = item.tenantId ∧
    layer.inventoryItemId = item.id ∧ layer.warehouseId = stock.warehouseId
  let layerValue := (layers.map fun layer => layer.remainingQuantity * layer.unitCost).sum
  let layerQuantity := (layers.map (·.remainingQuantity)).sum
  { warehouseId := stock.warehouseId, quantity
    inventoryValue :=
      match item.valuationMethod with
      | some .fifo => if layerQuantity = quantity then some layerValue else none
      | some .movingWeightedAverage => valueAt quantity (stockUnitCost item stock)
      | some .standardCost => valueAt quantity item.standardCost
      | none => none
    averageUnitCost := stockUnitCost item stock
    fifoLayerQuantity := layerQuantity, fifoLayerValue := layerValue }

def getValuation (db : DB) (tenantId inventoryItemId : Id) : Except Failure Valuation :=
  match db.items.find? fun row => row.id = inventoryItemId ∧ row.tenantId = tenantId with
  | none => .error .inventoryItemNotFound
  | some item =>
    let balances := (db.stocks.filter fun row => row.inventoryItemId = item.id).map
      (balanceOf db item)
    let isConfigured := item.valuationMethod.isSome
    let isFullyValued := isConfigured && balances.all fun b => b.inventoryValue.isSome
    .ok
      { inventoryItemId := item.id, valuationMethod := item.valuationMethod,
        movingAverageScope := item.movingAverageScope, standardCost := item.standardCost,
        averageUnitCost := item.averageUnitCost, lockedAt := item.valuationLockedAt,
        status := if isConfigured then
            (if isFullyValued then .valued else .openingCostRequired) else .setupRequired
        totalQuantity := (balances.map (·.quantity)).sum
        totalValue := if isFullyValued then
            some (balances.map fun b => b.inventoryValue.getD 0).sum else none
        balances }

/-- `totalValue` of the valuation, when there is one. -/
def totalValue (db : DB) (tenantId itemId : Id) : Option ℚ :=
  match getValuation db tenantId itemId with
  | .ok valuation => valuation.totalValue
  | .error _ => none

/-- The recorded cost of the movements of an item that brought stock in. -/
def receiptCost (db : DB) (i : Id) : ℚ :=
  (db.movements.map fun m =>
    if m.inventoryItemId = i ∧ 0 ≤ movementQuantityDelta m then m.totalCost.getD 0 else 0).sum

/-- The recorded cost of the movements of an item that took stock out. -/
def issueCost (db : DB) (i : Id) : ℚ :=
  (db.movements.map fun m =>
    if m.inventoryItemId = i ∧ movementQuantityDelta m < 0 then m.totalCost.getD 0 else 0).sum

end Inventory
end ERP
