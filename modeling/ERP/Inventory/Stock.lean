import ERP.Inventory.Costing

/-!
# Manual stock movements and direct fulfilment

The transactions of `InventoryRepository` that change stock: `stockIn`,
`adjustment`, `waste`, `fulfillRetail` and `fulfillCafe`.
-/

namespace ERP
namespace Inventory

/-- `StockInDto`: `@IsInt() @Min(1)` on the quantity, `@Min(0)` on the cost. -/
structure StockInDto where
  inventoryItemId : Id
  warehouseId : Id
  quantity : Nat
  unitCost : Option ℚ
  quantity_min : 1 ≤ quantity
  unitCost_min : ∀ c ∈ unitCost, 0 ≤ c

structure StockAdjustmentDto where
  inventoryItemId : Id
  warehouseId : Id
  quantity : Int
  unitCost : Option ℚ
  unitCost_min : ∀ c ∈ unitCost, 0 ≤ c

structure WasteDto where
  inventoryItemId : Id
  warehouseId : Id
  quantity : Nat
  quantity_min : 1 ≤ quantity

def assertTenantStockScope (tenantId inventoryItemId warehouseId : Id) : Tx Unit := do
  let db ← get
  let _ ← expect (db.items.find? fun row => row.id = inventoryItemId ∧ row.tenantId = tenantId)
    .inventoryResourceNotFound
  let warehouse ← expect
    (db.warehouses.find? fun row => row.id = warehouseId ∧ row.tenantId = tenantId)
    .inventoryResourceNotFound
  require (warehouse.isActive = true) .inactiveWarehouse

/-- `inventoryMovement.findUniqueOrThrow`, with which the three transactions end. -/
def movementOrThrow (movementId : Id) : Tx InventoryMovement := do
  let db ← get
  expect (db.movementById movementId) .movementNotFound

def stockIn (stamp : Stamp) (tenantId : Id) (dto : StockInDto) : Tx InventoryMovement := do
  assertTenantStockScope tenantId dto.inventoryItemId dto.warehouseId
  let _ ← lockItem tenantId dto.inventoryItemId
  let db ← get
  let stock := db.stockAt (some dto.warehouseId) dto.inventoryItemId
  let beforeQty := (stock.map (·.quantity)).getD 0
  let _ ← upsertStock (some dto.warehouseId) dto.inventoryItemId dto.quantity
  let movementId ← createMovement fun id =>
    { id, tenantId, type := .stockIn, quantity := dto.quantity,
      beforeQuantity := some beforeQty, afterQuantity := some (beforeQty + dto.quantity),
      inventoryItemId := dto.inventoryItemId, referenceId := none, referenceType := none,
      warehouseId := some dto.warehouseId, unitCost := none, totalCost := none }
  let _ ← receive stamp
    { tenantId, inventoryItemId := dto.inventoryItemId, warehouseId := some dto.warehouseId,
      quantity := dto.quantity, unitCost := dto.unitCost, sourceType := .manualStockIn,
      sourceReferenceId := some movementId, movementId }
  movementOrThrow movementId

def adjustment (stamp : Stamp) (tenantId : Id) (dto : StockAdjustmentDto) :
    Tx InventoryMovement := do
  assertTenantStockScope tenantId dto.inventoryItemId dto.warehouseId
  let _ ← lockItem tenantId dto.inventoryItemId
  let db ← get
  let stock ← expect (db.stockAt (some dto.warehouseId) dto.inventoryItemId) .stockNotFound
  let beforeQty := stock.quantity
  let afterQty := beforeQty + dto.quantity
  require (0 ≤ afterQty) .insufficientStock
  modify fun db => db.updateStock stock.id fun row => { row with quantity := afterQty }
  let movementId ← createMovement fun id =>
    { id, tenantId, type := .adjustment, quantity := dto.quantity,
      beforeQuantity := some beforeQty, afterQuantity := some afterQty,
      inventoryItemId := dto.inventoryItemId, referenceId := none, referenceType := none,
      warehouseId := some dto.warehouseId, unitCost := none, totalCost := none }
  if 0 < dto.quantity then do
    let _ ← receive stamp
      { tenantId, inventoryItemId := dto.inventoryItemId,
        warehouseId := some dto.warehouseId, quantity := dto.quantity,
        unitCost := dto.unitCost, sourceType := .manualAdjustment,
        sourceReferenceId := some movementId, movementId }
    movementOrThrow movementId
  else if dto.quantity < 0 then do
    let _ ← issue stamp
      { tenantId, inventoryItemId := dto.inventoryItemId,
        warehouseId := some dto.warehouseId, quantity := |dto.quantity|, movementId }
    movementOrThrow movementId
  else movementOrThrow movementId

def waste (stamp : Stamp) (tenantId : Id) (dto : WasteDto) : Tx InventoryMovement := do
  assertTenantStockScope tenantId dto.inventoryItemId dto.warehouseId
  let _ ← lockItem tenantId dto.inventoryItemId
  let db ← get
  let stock ← expect (db.stockAt (some dto.warehouseId) dto.inventoryItemId) .stockNotFound
  require (dto.quantity ≤ stock.quantity) .insufficientStock
  let beforeQty := stock.quantity
  let afterQty := beforeQty - dto.quantity
  modify fun db => db.updateStock stock.id fun row => { row with quantity := afterQty }
  let movementId ← createMovement fun id =>
    { id, tenantId, type := .waste, quantity := dto.quantity,
      beforeQuantity := some beforeQty, afterQuantity := some afterQty,
      inventoryItemId := dto.inventoryItemId, referenceId := none, referenceType := none,
      warehouseId := some dto.warehouseId, unitCost := none, totalCost := none }
  let _ ← issue stamp
    { tenantId, inventoryItemId := dto.inventoryItemId, warehouseId := some dto.warehouseId,
      quantity := dto.quantity, movementId }
  movementOrThrow movementId

/-- The order lines with their products; the foreign key guarantees a product. -/
def orderLines (db : DB) (order : SalesOrder) : List (SalesOrderItem × Product) :=
  order.items.filterMap fun item => (db.productById item.productId).map (item, ·)

def findOrder (db : DB) (orderId tenantId : Id) : Option SalesOrder :=
  db.orders.find? fun row => row.id = orderId ∧ row.tenantId = tenantId

/-- The row an unordered `findFirst` over the stock of an item returns. -/
def firstStock (stamp : Stamp) (db : DB) (itemId : Id) : Option InventoryStock :=
  let rows := db.stocks.filter fun row => row.inventoryItemId = itemId
  rows[stamp.scan db.nextId % rows.length]?

/-- Take `quantity` of an item from the stock row found first, and charge it to
the order.  `label` is what the messages call the item. -/
def deductDirectly (stamp : Stamp) (tenantId orderId inventoryItemId : Id) (label : String)
    (type : MovementType) (quantity : ℚ) : Tx Unit := do
  let _ ← lockItem tenantId inventoryItemId
  let db ← get
  let stock ← expect (firstStock stamp db inventoryItemId) (.stockNotFoundFor label)
  require (quantity ≤ stock.quantity) (.insufficientStockFor label)
  let updated ← decrementStocks (fun row => row.id = stock.id ∧ quantity ≤ row.quantity) quantity
  require (updated = 1) (.insufficientStockFor label)
  let movementId ← createMovement fun id =>
    { id, tenantId, type, quantity, beforeQuantity := some stock.quantity,
      afterQuantity := some (stock.quantity - quantity), inventoryItemId,
      referenceId := some orderId, referenceType := some .order,
      warehouseId := stock.warehouseId, unitCost := none, totalCost := none }
  let _ ← issue stamp
    { tenantId, inventoryItemId, warehouseId := stock.warehouseId, quantity, movementId }
  pure ()

def fulfillRetailLine (stamp : Stamp) (tenantId orderId : Id)
    (line : SalesOrderItem × Product) : Tx Unit :=
  match line.2.inventoryItemId with
  | none => pure ()
  | some inventoryItemId =>
    deductDirectly stamp tenantId orderId inventoryItemId line.2.name .sale line.1.quantity

def itemName (db : DB) (itemId : Id) : String :=
  ((db.items.find? fun row => row.id = itemId).map (·.name)).getD ""

def fulfillCafeLine (stamp : Stamp) (tenantId orderId : Id)
    (line : SalesOrderItem × Product) : Tx Unit :=
  match line.2.recipe with
  | none => pure ()
  | some recipe => recipe.forM fun recipeItem => do
      let db ← get
      deductDirectly stamp tenantId orderId recipeItem.inventoryItemId
        ("ingredient " ++ itemName db recipeItem.inventoryItemId) .consumption
        (recipeItem.quantity * line.1.quantity)

/-- Whether a reservation of the order was committed, in which case its stock is
deducted already. -/
def hasCommittedReservation (db : DB) (tenantId orderId : Id) : Bool :=
  db.movements.any fun row => row.tenantId = tenantId ∧ row.referenceId = some orderId ∧
    row.referenceType = some .orderReservationCommitted

/-- The body that `fulfillRetail` and `fulfillCafe` share; whether the order was
completed by this call. -/
def fulfillWith (line : SalesOrderItem × Product → Tx Unit) (orderId tenantId : Id) :
    Tx Bool := do
  let db ← get
  let order ← expect (findOrder db orderId tenantId) .orderNotFound
  if order.status = .completed then pure false
  else do
    require (order.status = .paid) .orderNotPaid
    let lines := if hasCommittedReservation db tenantId order.id then [] else orderLines db order
    lines.forM line
    let db ← get
    let paid : SalesOrder → Bool := fun row =>
      row.id = order.id ∧ row.tenantId = tenantId ∧ row.status = .paid
    set (db.updateOrders paid fun row => { row with status := .completed })
    pure (decide (db.orders.countP paid = 1))

def fulfillRetail (stamp : Stamp) (orderId tenantId : Id) : Tx Bool :=
  fulfillWith (fulfillRetailLine stamp tenantId orderId) orderId tenantId

def fulfillCafe (stamp : Stamp) (orderId tenantId : Id) : Tx Bool :=
  fulfillWith (fulfillCafeLine stamp tenantId orderId) orderId tenantId

end Inventory
end ERP
