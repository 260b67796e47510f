import Mathlib.Order.WithBot
import ERP.Store
import ERP.Lib.Sorting

/-!
# Costing stock movements

`InventoryCostingService`: what a stock movement costs, and what it does to the
cost layers of a FIFO item, to the average of a moving-average item, and to the
recorded cost of the movement itself.  Each function runs inside the transaction
of its caller and may roll it back.
-/

namespace ERP
namespace Inventory

structure CostAllocation where
  costLayerId : Option Id
  quantity : ℚ
  unitCost : ℚ
  deriving DecidableEq, Repr

/-- `allocations.reduce((total, a) => total.add(a.quantity.mul(a.unitCost)), 0)`. -/
def allocatedCost (allocations : List CostAllocation) : ℚ :=
  (allocations.map fun a => a.quantity * a.unitCost).sum

def lockItem (tenantId itemId : Id) : Tx InventoryItem := do
  let db ← get
  let item ← expect (db.items.find? fun row => row.id = itemId ∧ row.tenantId = tenantId)
    .inventoryItemNotFound
  require (item.valuationMethod ≠ none) .valuationMethodMissing
  require (¬ (item.valuationMethod = some .movingWeightedAverage ∧
    item.movingAverageScope = none)) .movingAverageScopeMissing
  require (¬ (item.valuationMethod = some .standardCost ∧ item.standardCost = none))
    .standardCostMissing
  pure item

/-- The first costed movement freezes the valuation method of its item. -/
def lockValuation (stamp : Stamp) (item : InventoryItem) : Tx Unit :=
  if item.valuationLockedAt = none then
    modify fun db => db.updateItem item.id fun row =>
      { row with valuationLockedAt := some (stamp.createdAt db.nextId) }
  else pure ()

def movementQuantityDelta (movement : InventoryMovement) : ℚ :=
  match movement.beforeQuantity, movement.afterQuantity with
  | some before, some after => after - before
  | _, _ =>
    match movement.type with
    | .adjustment => movement.quantity
    | .stockIn | .purchase | .production | .return => |movement.quantity|
    | .sale | .waste | .stockOut | .consumption => -|movement.quantity|
    | .transfer =>
      if movement.referenceType = some .warehouseTransferReceipt then |movement.quantity|
      else -|movement.quantity|

/-- The quantity on hand of an item, over all locations. -/
def onHand (db : DB) (itemId : Id) : ℚ :=
  ((db.stocks.filter fun row => row.inventoryItemId = itemId).map (·.quantity)).sum

def averageCost (item : InventoryItem) (warehouseId : Option Id) : Tx ℚ := do
  let db ← get
  if item.movingAverageScope = some .perItem then
    expect item.averageUnitCost .openingCostBeforeIssue
  else
    expect ((db.stockAt warehouseId item.id).bind (·.averageUnitCost))
      .openingCostBeforeWarehouseIssue

/-- The average after `quantity` units came in at `unitCost`.  The stock rows
hold the new quantity already, so what was there before is the difference. -/
def updateMovingAverage (item : InventoryItem) (warehouseId : Option Id)
    (quantity unitCost : ℚ) : Tx Unit := do
  let db ← get
  if item.movingAverageScope = some .perItem then do
    let totalQuantity := onHand db item.id
    let previousQuantity := totalQuantity - quantity
    require (¬ (0 < previousQuantity ∧ item.averageUnitCost = none)) .openingCostBeforeReceipt
    let average ← decimalDiv
      (previousQuantity * item.averageUnitCost.getD 0 + quantity * unitCost) totalQuantity
    modify fun db => db.updateItem item.id fun row =>
      { row with averageUnitCost := some average }
  else do
    let stock := db.stockAt warehouseId item.id
    let previousQuantity := (stock.map (·.quantity)).getD 0 - quantity
    let previousAverage := stock.bind (·.averageUnitCost)
    require (¬ (0 < previousQuantity ∧ previousAverage = none)) .openingCostBeforeReceipt
    let average ← decimalDiv (previousQuantity * previousAverage.getD 0 + quantity * unitCost)
      ((stock.map (·.quantity)).getD quantity)
    modify fun db => db.setStockAverage warehouseId item.id average

/-- The average after a costed quantity worth `value` came back. -/
def restoreMovingAverage (item : InventoryItem) (warehouseId : Option Id)
    (quantity value : ℚ) : Tx Unit := do
  let db ← get
  if item.movingAverageScope = some .perItem then do
    let totalQuantity := onHand db item.id
    let average ← decimalDiv
      ((totalQuantity - quantity) * item.averageUnitCost.getD 0 + value) totalQuantity
    modify fun db => db.updateItem item.id fun row =>
      { row with averageUnitCost := some average }
  else do
    let stock ← expect (db.stockAt warehouseId item.id) .restoredStockNotFound
    require (0 < stock.quantity) .restoredStockNotFound
    let average ← decimalDiv
      ((stock.quantity - quantity) * stock.averageUnitCost.getD 0 + value) stock.quantity
    modify fun db => db.setStockAverage warehouseId item.id average

structure ReceiveInput where
  tenantId : Id
  inventoryItemId : Id
  warehouseId : Option Id
  quantity : ℚ
  unitCost : Option ℚ
  sourceType : SourceType
  sourceReferenceId : Option Id
  movementId : Id

def createLayer (input : ReceiveInput) (quantity unitCost : ℚ) : Tx Unit := do
  let id ← freshId
  modify fun db => db.insertLayer
    { id, tenantId := input.tenantId, inventoryItemId := input.inventoryItemId,
      warehouseId := input.warehouseId, sourceMovementId := some input.movementId,
      sourceType := input.sourceType, sourceReferenceId := input.sourceReferenceId,
      receivedQuantity := quantity, remainingQuantity := quantity, unitCost }

def receive (stamp : Stamp) (input : ReceiveInput) : Tx (ℚ × ℚ) := do
  let item ← lockItem input.tenantId input.inventoryItemId
  require (item.valuationMethod = some .standardCost ∨ input.unitCost ≠ none) .unitCostRequired
  let unitCost :=
    if item.valuationMethod = some .standardCost then item.standardCost.getD 0
    else input.unitCost.getD 0
  let totalCost := input.quantity * unitCost
  (match item.valuationMethod with
    | some .fifo => createLayer input input.quantity unitCost
    | some .movingWeightedAverage =>
      updateMovingAverage item input.warehouseId input.quantity unitCost
    | _ => pure ())
  modify fun db => db.setMovementCost input.movementId unitCost totalCost
  lockValuation stamp item
  pure (unitCost, totalCost)

/-- The place of a layer in FIFO order: `COALESCE(source."createdAt",
layer."createdAt")`, then the id that time belongs to, then the layer's own id. -/
def layerKey (stamp : Stamp) (db : DB) (layer : InventoryCostLayer) :
    Int ×ₗ String ×ₗ String :=
  let source := (layer.sourceMovementId.bind db.movementById).map (·.id)
  toLex (stamp.createdAt (source.getD layer.id),
    toLex (stamp.cuid (source.getD layer.id), stamp.cuid layer.id))

/-- The layers an issue at a location draws on, oldest first. -/
def openLayers (stamp : Stamp) (db : DB) (tenantId itemId : Id) (warehouseId : Option Id) :
    List InventoryCostLayer :=
  Lib.orderBy (layerKey stamp db) (db.layers.filter fun layer =>
    layer.tenantId = tenantId ∧ layer.inventoryItemId = itemId ∧
      layer.warehouseId = warehouseId ∧ 0 < layer.remainingQuantity)

/-- The loop over the open layers: what is still missing after it, and the
allocations it made. -/
def consumeLayers : List InventoryCostLayer → ℚ → Tx (ℚ × List CostAllocation)
  | [], remaining => pure (remaining, [])
  | layer :: layers, remaining =>
    if remaining ≤ 0 then pure (remaining, [])
    else do
      let consumed := min layer.remainingQuantity remaining
      modify fun db => db.addToLayer layer.id (-consumed)
      let (missing, allocations) ← consumeLayers layers (remaining - consumed)
      pure (missing,
        { costLayerId := some layer.id, quantity := consumed, unitCost := layer.unitCost }
          :: allocations)

def consumeFifoLayers (stamp : Stamp) (tenantId itemId : Id) (warehouseId : Option Id)
    (quantity : ℚ) : Tx (List CostAllocation) := do
  let db ← get
  let (missing, allocations) ←
    consumeLayers (openLayers stamp db tenantId itemId warehouseId) quantity
  require (¬ 0 < missing) .fifoLayersDoNotCover
  pure allocations

/-- `createMany` of the allocations of one movement. -/
def createAllocations (movementId : Id) (allocations : List CostAllocation) : Tx Unit :=
  allocations.forM fun a => do
    let id ← freshId
    modify fun db => db.insertAllocation
      { id, movementId, costLayerId := a.costLayerId, quantity := a.quantity,
        unitCost := a.unitCost }

structure IssueInput where
  tenantId : Id
  inventoryItemId : Id
  warehouseId : Option Id
  quantity : ℚ
  movementId : Id

structure InventoryIssueCost where
  unitCost : ℚ
  totalCost : ℚ
  allocations : List CostAllocation
  deriving DecidableEq, Repr

/-- What the issued quantity is charged to, by the method of the item. -/
def issueAllocations (stamp : Stamp) (item : InventoryItem) (input : IssueInput) :
    Tx (List CostAllocation) :=
  match item.valuationMethod with
  | some .fifo =>
    consumeFifoLayers stamp input.tenantId input.inventoryItemId input.warehouseId
      input.quantity
  | some .standardCost =>
    pure [{ costLayerId := none, quantity := input.quantity,
            unitCost := item.standardCost.getD 0 }]
  | _ => do
    let unitCost ← averageCost item input.warehouseId
    pure [{ costLayerId := none, quantity := input.quantity, unitCost }]

def issue (stamp : Stamp) (input : IssueInput) : Tx InventoryIssueCost := do
  let item ← lockItem input.tenantId input.inventoryItemId
  let allocations ← issueAllocations stamp item input
  let totalCost := allocatedCost allocations
  let unitCost ← decimalDiv totalCost input.quantity
  modify fun db => db.setMovementCost input.movementId unitCost totalCost
  createAllocations input.movementId allocations
  lockValuation stamp item
  pure { unitCost, totalCost, allocations }

structure ReceiveTransferInput where
  tenantId : Id
  inventoryItemId : Id
  warehouseId : Id
  quantity : ℚ
  alreadyReceived : ℚ
  sourceMovementId : Id
  movementId : Id
  sourceReferenceId : Id

/-- `ORDER BY COALESCE(source."createdAt", layer."createdAt") ASC NULLS LAST`,
then the id that time belongs to, then the allocation's own id. -/
def allocationKey (stamp : Stamp) (db : DB) (row : InventoryMovementCostAllocation) :
    WithTop Int ×ₗ WithTop String ×ₗ String :=
  let layer := row.costLayerId.bind db.layerById
  let source := (layer.bind (·.sourceMovementId)).bind db.movementById
  let origin : WithTop Id := (source.map (·.id)).orElse fun _ => layer.map (·.id)
  toLex (origin.map stamp.createdAt, toLex (origin.map stamp.cuid, stamp.cuid row.id))

/-- The part of the shipped allocations that this receipt takes: `skip` units
were received before, `remaining` are received now. -/
def copyAllocations : List InventoryMovementCostAllocation → ℚ → ℚ → ℚ × List CostAllocation
  | [], _, remaining => (remaining, [])
  | allocation :: rest, skip, remaining =>
    if remaining ≤ 0 then (remaining, [])
    else if allocation.quantity ≤ skip then
      copyAllocations rest (skip - allocation.quantity) remaining
    else
      let copied := min (allocation.quantity - skip) remaining
      let (missing, copies) := copyAllocations rest 0 (remaining - copied)
      (missing,
        { costLayerId := none, quantity := copied, unitCost := allocation.unitCost } :: copies)

def receiveTransfer (stamp : Stamp) (input : ReceiveTransferInput) : Tx Unit := do
  let item ← lockItem input.tenantId input.inventoryItemId
  let db ← get
  let source ← expect (db.movementById input.sourceMovementId) .transferSourceCostIncomplete
  let sourceUnitCost ← expect source.unitCost .transferSourceCostIncomplete
  require (source.totalCost ≠ none) .transferSourceCostIncomplete
  let received : ReceiveInput :=
    { tenantId := input.tenantId, inventoryItemId := input.inventoryItemId,
      warehouseId := some input.warehouseId, quantity := input.quantity,
      unitCost := some sourceUnitCost, sourceType := .reference .warehouseTransferReceipt,
      sourceReferenceId := some input.sourceReferenceId, movementId := input.movementId }
  if item.valuationMethod = some .fifo then do
    let (missing, copies) := copyAllocations
      (Lib.orderBy (allocationKey stamp db) (db.allocationsOf input.sourceMovementId))
      input.alreadyReceived input.quantity
    require (¬ 0 < missing) .transferCostDoesNotCover
    copies.forM fun copy => createLayer received copy.quantity copy.unitCost
    let totalCost := allocatedCost copies
    let unitCost ← decimalDiv totalCost input.quantity
    modify fun db => db.setMovementCost input.movementId unitCost totalCost
    lockValuation stamp item
  else do
    let _ ← receive stamp received
    lockValuation stamp item

structure RestoreInput where
  tenantId : Id
  inventoryItemId : Id
  warehouseId : Option Id
  quantity : ℚ
  sourceMovementId : Id
  reversalMovementId : Id

/-- Give back what a costed movement was charged. -/
def restore (stamp : Stamp) (input : RestoreInput) : Tx Unit := do
  let item ← lockItem input.tenantId input.inventoryItemId
  let db ← get
  let allocations := (Lib.orderBy (fun row => stamp.cuid row.id)
    (db.allocationsOf input.sourceMovementId)).map fun row =>
      { costLayerId := row.costLayerId, quantity := row.quantity, unitCost := row.unitCost :
        CostAllocation }
  require (allocations ≠ []) .costAllocationMissing
  let value := allocatedCost allocations
  (match item.valuationMethod with
    | some .fifo => allocations.forM fun a => do
        let layerId ← expect a.costLayerId .fifoLayerMissing
        modify fun db => db.addToLayer layerId a.quantity
    | some .movingWeightedAverage =>
      restoreMovingAverage item input.warehouseId input.quantity value
    | _ => pure ())
  createAllocations input.reversalMovementId allocations
  let unitCost ← decimalDiv value input.quantity
  modify fun db => db.setMovementCost input.reversalMovementId unitCost value

end Inventory
end ERP
