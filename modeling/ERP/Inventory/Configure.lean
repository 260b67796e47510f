import ERP.Inventory.AverageReplay
import ERP.Inventory.Reservation
import ERP.Inventory.Valuation

/-!
# Choosing the valuation method of an item

`InventoryRepository.configureValuation`: the reservations of completed orders are committed,
the request is checked against the replayed history, and the layers or averages the item
starts with are written.
-/

namespace ERP
namespace Inventory

open Lib.Tx

structure InventoryOpeningCostDto where
  warehouseId : Option Id
  unitCost : ℚ
  deriving DecidableEq, Repr

structure ConfigureInventoryValuationDto where
  method : ValuationMethod
  movingAverageScope : Option MovingAverageScope
  standardCost : Option ℚ
  openingCosts : List InventoryOpeningCostDto
  deriving DecidableEq, Repr

/-- What a `Decimal(18, 6)` column keeps: six decimals, halves away from zero. -/
def storeDecimal (q : ℚ) : ℚ :=
  if q < 0 then -((-q * 1000000 + 1 / 2).floor / 1000000)
  else (q * 1000000 + 1 / 2).floor / 1000000

example : storeDecimal (1234567 / 10000000) = 123457 / 1000000 := by decide +kernel

/-- The active reservations of completed orders are committed. -/
def commitCompletedOrders (tenantId inventoryItemId : Id) (db : DB) : DB :=
  let completedReservations := db.movements.filter fun row => row.tenantId = tenantId ∧
    row.inventoryItemId = inventoryItemId ∧ row.referenceType = some .orderReservation ∧
    row.referenceId ≠ none
  let completedOrders := db.orders.filter fun order =>
    some order.id ∈ completedReservations.map (·.referenceId) ∧ order.tenantId = tenantId ∧
      order.status = .completed
  completedOrders.foldl (fun db order =>
    let staleReservationIds := (completedReservations.filter fun row =>
      row.referenceId = some order.id).map (·.id)
    db.updateMovements (fun row => row.id ∈ staleReservationIds ∧ row.tenantId = tenantId ∧
        row.referenceType = some .orderReservation) fun row =>
      { row with
        referenceType := some .orderReservationCommitted
        type := if tenantBusinessType db order.tenantId = some .cafe then .consumption else .sale })
    db

def checkRequest (dto : ConfigureInventoryValuationDto) : Tx Unit := do
  require (¬ (dto.method = .movingWeightedAverage ∧ dto.movingAverageScope = none))
    .movingAverageScopeRequired
  require (¬ (dto.method ≠ .movingWeightedAverage ∧ dto.movingAverageScope ≠ none))
    .movingAverageScopeUnused
  require (¬ (dto.method = .standardCost ∧ dto.standardCost = none)) .standardCostRequired
  require (¬ (dto.method ≠ .standardCost ∧ dto.standardCost ≠ none)) .standardCostUnused

/-- The stock rows of the item, with what is actively reserved there. -/
def valuedStocks (db : DB) (tenantId inventoryItemId : Id) : List InventoryStock :=
  (db.stocks.filter fun stock => stock.inventoryItemId = inventoryItemId).map fun stock =>
    { stock with
      quantity := stock.quantity +
        reservedQuantity db tenantId inventoryItemId stock.warehouseId }

/-- `costByWarehouse`. -/
def openingCostMap : List InventoryOpeningCostDto → Lib.OrderedMap (Option Id) ℚ →
    Tx (Lib.OrderedMap (Option Id) ℚ)
  | [], costByWarehouse => pure costByWarehouse
  | openingCost :: rest, costByWarehouse => do
      require (costByWarehouse.has openingCost.warehouseId = false) .openingCostRepeated
      openingCostMap rest (costByWarehouse.set openingCost.warehouseId openingCost.unitCost)

/-- What the history says of the item; only what the method needs is replayed. -/
structure ReplayedHistory where
  historicalFifo : List HistoricalFifoBalance
  historicalMovingAverage : Option HistoricalMovingAverage
  deriving DecidableEq, Repr

def replayHistory (stamp : Stamp) (db : DB) (tenantId inventoryItemId : Id)
    (method : ValuationMethod) (stocks : List InventoryStock) : ReplayedHistory :=
  let history := historyOf stamp db tenantId inventoryItemId
  let quantities := stocks.map fun stock => (stock.warehouseId, stock.quantity)
  { historicalFifo :=
      if method = .fifo then
        reconstructHistoricalFifo history (stamp.createdAt db.nextId) inventoryItemId quantities
      else []
    historicalMovingAverage :=
      if method = .movingWeightedAverage then
        some (reconstructHistoricalMovingAverage history quantities)
      else none }

namespace ReplayedHistory

variable (replayed : ReplayedHistory)

def fifoBalance (warehouseId : Option Id) : Option HistoricalFifoBalance :=
  (mapOf (replayed.historicalFifo.map fun balance => (balance.warehouseId, balance))).get
    warehouseId

def averageBalance (warehouseId : Option Id) : Option HistoricalMovingAverageBalance :=
  (mapOf (((replayed.historicalMovingAverage.map (·.balances)).getD []).map fun balance =>
    (balance.warehouseId, balance))).get warehouseId

/-- The quantity at a warehouse whose cost the history does not tell, `none` where the
history has no such warehouse or the method does not ask. -/
def openingQuantity (dto : ConfigureInventoryValuationDto) (warehouseId : Option Id) :
    Option ℚ :=
  match dto.method with
  | .fifo => (replayed.fifoBalance warehouseId).map (·.openingCostQuantity)
  | .movingWeightedAverage =>
      if dto.movingAverageScope = some .perItem then
        (replayed.averageBalance warehouseId).map (·.itemOpeningCostQuantity)
      else (replayed.averageBalance warehouseId).map (·.warehouseOpeningCostQuantity)
  | .standardCost => none

end ReplayedHistory

/-- Every warehouse whose cost is not known has an opening cost, and every opening cost is
of such a warehouse. -/
def checkOpeningCosts (dto : ConfigureInventoryValuationDto) (replayed : ReplayedHistory)
    (costByWarehouse : Lib.OrderedMap (Option Id) ℚ) (activeStocks : List InventoryStock) :
    Tx Unit := do
  let openingCostRequired := activeStocks.filter fun stock =>
    dto.method ≠ .standardCost ∧
      1 / 1000000000 < (replayed.openingQuantity dto stock.warehouseId).getD stock.quantity ∧
      costByWarehouse.has stock.warehouseId = false
  require (openingCostRequired = [])
    (if dto.method = .fifo then .openingCostRequiredForLayers else .openingCostRequiredForStock)
  require (dto.openingCosts.all fun cost => activeStocks.any fun stock =>
      stock.warehouseId = cost.warehouseId ∧
        ((replayed.openingQuantity dto stock.warehouseId).map fun quantity =>
          decide (0 < quantity)).getD true)
    .openingCostWithoutStock

/-- `SourceType` of the layers this makes. -/
def configuredSource : SourceType → Bool
  | .openingBalance | .historicalReconstruction | .legacyOpeningCost => true
  | _ => false

def configuredLayer (tenantId inventoryItemId : Id) (warehouseId : Option Id)
    (layer : HistoricalFifoLayer) (unitCost : ℚ) (id : Id) : InventoryCostLayer where
  id := id
  tenantId := tenantId
  inventoryItemId := inventoryItemId
  warehouseId := warehouseId
  sourceMovementId := layer.sourceMovementId
  sourceType := if layer.unitCost = none then .legacyOpeningCost else .historicalReconstruction
  sourceReferenceId := layer.sourceReferenceId
  receivedQuantity := storeDecimal layer.receivedQuantity
  remainingQuantity := storeDecimal layer.quantity
  unitCost := storeDecimal unitCost

def createConfiguredLayer (tenantId inventoryItemId : Id)
    (costByWarehouse : Lib.OrderedMap (Option Id) ℚ) (warehouseId : Option Id)
    (layer : HistoricalFifoLayer) : Tx Unit := do
  let unitCost ← expect (layer.unitCost.or (costByWarehouse.get warehouseId)) .invalidDecimal
  let id ← freshId
  modify fun db => db.insertLayer
    (configuredLayer tenantId inventoryItemId warehouseId layer unitCost id)

/-- The average a warehouse starts with. -/
def configureAverage (replayed : ReplayedHistory)
    (costByWarehouse : Lib.OrderedMap (Option Id) ℚ) (stock : InventoryStock) : Tx Unit := do
  let historical := (replayed.averageBalance stock.warehouseId).bind fun balance =>
    if balance.warehouseReconciled then balance.warehouseAverageUnitCost else none
  let unitCost ← expect (historical.or (costByWarehouse.get stock.warehouseId)) .invalidDecimal
  modify fun db => db.updateStock stock.id fun row =>
    { row with averageUnitCost := some (storeDecimal unitCost) }

/-- What a unit of stock is worth at the start. -/
def openingUnitCost (dto : ConfigureInventoryValuationDto) (replayed : ReplayedHistory)
    (costByWarehouse : Lib.OrderedMap (Option Id) ℚ) (warehouseId : Option Id) : ℚ :=
  let provided := (costByWarehouse.get warehouseId).getD 0
  if dto.method = .movingWeightedAverage then
    match dto.movingAverageScope with
    | some .perItem =>
        match replayed.historicalMovingAverage with
        | some average =>
            if average.itemReconciled then average.itemAverageUnitCost.getD 0 else provided
        | none => provided
    | some .perWarehouse =>
        match replayed.averageBalance warehouseId with
        | some balance =>
            if balance.warehouseReconciled then balance.warehouseAverageUnitCost.getD 0
            else provided
        | none => provided
    | none => provided
  else provided

/-- The item as it is configured. -/
def configuredItem (stamp : Stamp) (db : DB) (dto : ConfigureInventoryValuationDto)
    (replayed : ReplayedHistory) (costByWarehouse : Lib.OrderedMap (Option Id) ℚ)
    (activeStocks : List InventoryStock) (item : InventoryItem) : InventoryItem :=
  let totalQuantity := (activeStocks.map (·.quantity)).sum
  let totalOpeningValue := (activeStocks.map fun stock =>
    stock.quantity * openingUnitCost dto replayed costByWarehouse stock.warehouseId).sum
  { item with
    valuationMethod := some dto.method
    movingAverageScope := dto.movingAverageScope
    standardCost := dto.standardCost.map storeDecimal
    averageUnitCost :=
      if dto.method = .movingWeightedAverage ∧ dto.movingAverageScope = some .perItem ∧
          0 < totalQuantity then some (storeDecimal (totalOpeningValue / totalQuantity))
      else none
    valuationLockedAt := if activeStocks = [] then none else some (stamp.createdAt db.nextId) }

/-- The layers this made before are removed, and the averages. -/
def clearConfigured (inventoryItemId : Id) (db : DB) : DB :=
  { db with
    layers := db.layers.filter fun layer =>
      ¬ (layer.inventoryItemId = inventoryItemId ∧ configuredSource layer.sourceType = true)
    stocks := db.stocks.map fun stock =>
      if stock.inventoryItemId = inventoryItemId then { stock with averageUnitCost := none }
      else stock }

def writeConfigured (tenantId inventoryItemId : Id) (dto : ConfigureInventoryValuationDto)
    (replayed : ReplayedHistory) (costByWarehouse : Lib.OrderedMap (Option Id) ℚ)
    (activeStocks : List InventoryStock) : Tx Unit :=
  if dto.method = .fifo then
    (replayed.historicalFifo.flatMap fun balance =>
      balance.layers.map fun layer => (balance.warehouseId, layer)).forM fun created =>
        createConfiguredLayer tenantId inventoryItemId costByWarehouse created.1 created.2
  else if dto.method = .movingWeightedAverage ∧ dto.movingAverageScope = some .perWarehouse then
    activeStocks.forM (configureAverage replayed costByWarehouse)
  else pure ()

def configureValuation (stamp : Stamp) (tenantId inventoryItemId : Id)
    (dto : ConfigureInventoryValuationDto) : Tx Unit := do
  let db ← get
  let item ← expect (db.items.find? fun row =>
    row.id = inventoryItemId ∧ row.tenantId = tenantId) .inventoryItemNotFound
  set (commitCompletedOrders tenantId inventoryItemId db)
  require (item.valuationLockedAt = none) .valuationMethodLocked
  checkRequest dto
  let db ← get
  let stocks := valuedStocks db tenantId inventoryItemId
  let activeStocks := stocks.filter fun stock => 0 < stock.quantity
  let replayed := replayHistory stamp db tenantId inventoryItemId dto.method stocks
  require (¬ (dto.method = .standardCost ∧ dto.openingCosts ≠ [])) .openingCostsUnused
  let costByWarehouse ← openingCostMap dto.openingCosts .empty
  require (stocks.all fun stock => db.warehouses.all fun w =>
    some w.id = stock.warehouseId → w.tenantId = tenantId) .stockOutsideTenant
  checkOpeningCosts dto replayed costByWarehouse activeStocks
  modify (clearConfigured inventoryItemId)
  writeConfigured tenantId inventoryItemId dto replayed costByWarehouse activeStocks
  modify fun db => db.updateItem inventoryItemId
    (configuredItem stamp db dto replayed costByWarehouse activeStocks)

end Inventory
end ERP
