import ERP.Schema

/-!
# Statements

The failures a transaction can end with, and the statements the modelled
transactions are made of.  Each statement is a function on the database that
changes one table, so that what it leaves alone is read off its definition.
-/

namespace ERP

/-- Why a transaction was rolled back: one constructor for each message of the
source, with the values the message names. -/
inductive Failure where
  | inventoryItemNotFound
  | valuationMethodMissing
  | movingAverageScopeMissing
  | standardCostMissing
  | unitCostRequired
  | openingCostBeforeIssue
  | openingCostBeforeWarehouseIssue
  | openingCostBeforeReceipt
  | restoredStockNotFound
  | fifoLayersDoNotCover
  | transferSourceCostIncomplete
  | transferCostDoesNotCover
  | costAllocationMissing
  | fifoLayerMissing
  | decimalNotStorable
  | movementNotFound
  | uniqueViolation
  | inventoryResourceNotFound
  | inactiveWarehouse
  | stockNotFound
  | insufficientStock
  | orderNotFound
  | orderNotPaid
  | stockNotFoundFor (name : String)
  | insufficientStockFor (name : String)
  | productInactive (name : String)
  | stockChangedWhileReserving
  | insufficientStockForReservation
  | reservationHasNoWarehouse
  | reservationAlreadyProcessed
  | reservationNotPending
  | kitchenReservationChanged
  | kitchenReservationGone
  | idempotencyKeyInvalid
  | warehouseIdsRequired
  | sameWarehouse
  | transferItemCount
  | inventoryItemIdRequired
  | transferQuantityInvalid
  | duplicateTransferItem
  | transferWarehouseNotFound
  | transferWarehouseInactive
  | transferItemsNotFound
  | transferKeyReused
  | transferNotFound
  | transferNotShippable (status : TransferStatus)
  | insufficientSourceStock (itemId : Id)
  | transferChangedWhileShipped
  | receiptItemCount
  | transferItemIdRequired
  | receivedQuantityInvalid
  | duplicateReceiptItem
  | transferNotReceivable (status : TransferStatus)
  | receiptItemNotOnTransfer
  | receivedMoreThanShipped
  | transferItemChanged
  | shipmentMovementMissing
  | transferChangedWhileReceived
  | transferNotCancellable
  | transferChangedWhileCancelled
  | purchaseReceiptEmpty
  | purchaseOrderItemIdRequired
  | purchaseQuantityInvalid
  | duplicatePurchaseReceiptItem
  | purchaseOrderNotFound
  | purchaseReceiptKeyReused
  | purchaseOrderNotReceivable (status : PurchaseOrderStatus)
  | purchaseOrderHasNoWarehouse
  | receiptItemNotOnOrder
  | receivedMoreThanOrdered
  | purchaseOrderItemChanged
  | receiptItemNotPersisted
  | purchaseOrderChanged
  | purchaseOrderNotEditable
  | purchaseOrderWarehouseNotFound
  | purchaseOrderWarehouseInactive
  | supplierNotFound
  | supplierInactive
  | invalidPurchaseOrderItem
  | purchaseOrderNotDeletable
  | useReceiptEndpoint
  | invalidStatusTransition (source target : PurchaseOrderStatus)
  | purchaseOrderUpdatedConcurrently
  | integerNotStorable
  | foreignKeyViolation
  | checkViolation
  | valuationMethodLocked
  | movingAverageScopeRequired
  | movingAverageScopeUnused
  | standardCostRequired
  | standardCostUnused
  | openingCostsUnused
  | openingCostRepeated
  | stockOutsideTenant
  | openingCostRequiredForLayers
  | openingCostRequiredForStock
  | openingCostWithoutStock
  | invalidDecimal
  deriving DecidableEq, Repr

/-- The value of the status column as the messages print it. -/
def TransferStatus.text : TransferStatus → String
  | .pending => "PENDING"
  | .inTransit => "IN_TRANSIT"
  | .partiallyReceived => "PARTIALLY_RECEIVED"
  | .received => "RECEIVED"
  | .cancelled => "CANCELLED"

def PurchaseOrderStatus.text : PurchaseOrderStatus → String
  | .draft => "DRAFT"
  | .pending => "PENDING"
  | .approved => "APPROVED"
  | .rejected => "REJECTED"
  | .partiallyReceived => "PARTIALLY_RECEIVED"
  | .received => "RECEIVED"
  | .completed => "COMPLETED"
  | .cancelled => "CANCELLED"

/-- The message thrown.  The last seven arms have no text of their own in the
modelled files: there the database client throws. -/
def Failure.message : Failure → String
  | .inventoryItemNotFound => "Inventory item not found"
  | .valuationMethodMissing =>
      "Configure an inventory valuation method before changing stock"
  | .movingAverageScopeMissing =>
      "Configure the moving average cost scope before changing stock"
  | .standardCostMissing => "Configure a standard cost before changing stock"
  | .unitCostRequired => "Unit cost is required for this inventory valuation method"
  | .openingCostBeforeIssue =>
      "Opening cost is required before issuing this inventory item"
  | .openingCostBeforeWarehouseIssue =>
      "Opening cost is required before issuing stock from this warehouse"
  | .openingCostBeforeReceipt =>
      "Opening cost is required before receiving additional stock"
  | .restoredStockNotFound => "Restored stock balance was not found"
  | .fifoLayersDoNotCover =>
      "FIFO cost layers do not cover the requested stock issue; " ++
        "enter opening costs before continuing"
  | .transferSourceCostIncomplete =>
      "Transfer source movement has no complete inventory cost"
  | .transferCostDoesNotCover =>
      "Transfer cost allocation does not cover the received quantity"
  | .costAllocationMissing =>
      "Cost allocation is missing for the reserved stock movement"
  | .fifoLayerMissing => "FIFO cost layer is missing for the reserved stock movement"
  | .inventoryResourceNotFound => "Inventory resource not found"
  | .inactiveWarehouse => "Inactive warehouses cannot receive new inventory movements"
  | .stockNotFound => "Stock not found"
  | .insufficientStock => "Insufficient stock"
  | .orderNotFound => "Order not found"
  | .orderNotPaid => "Order must be PAID before fulfillment"
  | .stockNotFoundFor name => "Stock not found for " ++ name
  | .insufficientStockFor name => "Insufficient stock for " ++ name
  | .productInactive name => "Product " ++ name ++ " is inactive"
  | .stockChangedWhileReserving => "Stock changed while reserving inventory"
  | .insufficientStockForReservation => "Insufficient stock for order reservation"
  | .reservationHasNoWarehouse => "Reservation has no warehouse"
  | .reservationAlreadyProcessed => "Reservation already processed"
  | .reservationNotPending => "Reservation cannot be reserved from current state"
  | .kitchenReservationChanged => "Kitchen inventory reservation changed concurrently"
  | .kitchenReservationGone => "Kitchen inventory reservation no longer exists"
  | .idempotencyKeyInvalid =>
      "A valid Idempotency-Key header of 1 to 128 visible ASCII characters is required"
  | .warehouseIdsRequired => "Both warehouse ids are required"
  | .sameWarehouse => "Source and destination warehouses must be different"
  | .transferItemCount => "A transfer must contain between 1 and 100 inventory items"
  | .inventoryItemIdRequired => "Inventory item id is required"
  | .transferQuantityInvalid =>
      "Transfer quantity must be a finite number of at least 0.1"
  | .duplicateTransferItem => "An inventory item may only appear once per transfer"
  | .transferWarehouseNotFound => "Source or destination warehouse not found"
  | .transferWarehouseInactive => "Inactive warehouses cannot be used for new transfers"
  | .transferItemsNotFound => "One or more inventory items were not found in this tenant"
  | .transferKeyReused =>
      "Idempotency-Key was already used with a different transfer request"
  | .transferNotFound => "Warehouse transfer not found"
  | .transferNotShippable status => "Cannot ship a transfer while in " ++ status.text
  | .insufficientSourceStock itemId =>
      "Insufficient source stock for inventory item " ++ toString itemId
  | .transferChangedWhileShipped => "Warehouse transfer changed while it was being shipped"
  | .receiptItemCount => "A receipt must contain between 1 and 100 transfer items"
  | .transferItemIdRequired => "Transfer item id is required"
  | .receivedQuantityInvalid => "Received quantity must be a finite positive number"
  | .duplicateReceiptItem => "A transfer item may only appear once per receipt"
  | .transferNotReceivable status => "Cannot receive a transfer while in " ++ status.text
  | .receiptItemNotOnTransfer => "Receipt item does not belong to this transfer"
  | .receivedMoreThanShipped => "Cannot receive more than the quantity shipped"
  | .transferItemChanged => "Transfer item changed during receipt processing"
  | .shipmentMovementMissing => "Transfer shipment movement is missing"
  | .transferChangedWhileReceived =>
      "Warehouse transfer changed while it was being received"
  | .transferNotCancellable => "Only pending transfers can be cancelled"
  | .transferChangedWhileCancelled =>
      "Warehouse transfer changed while it was being cancelled"
  | .purchaseReceiptEmpty => "At least one receipt item is required"
  | .purchaseOrderItemIdRequired => "Purchase order item id is required"
  | .purchaseQuantityInvalid =>
      "Received quantity must be a finite number of at least 0.1"
  | .duplicatePurchaseReceiptItem =>
      "A purchase order item may only appear once per receipt"
  | .purchaseOrderNotFound => "Purchase Order not found"
  | .purchaseReceiptKeyReused =>
      "Idempotency-Key was already used with a different receipt request"
  | .purchaseOrderNotReceivable status =>
      "Cannot receive purchase order while in " ++ status.text
  | .purchaseOrderHasNoWarehouse => "Warehouse is required for receiving/receipting"
  | .receiptItemNotOnOrder => "Receipt item does not belong to this purchase order"
  | .receivedMoreThanOrdered => "Cannot receive more than the ordered quantity"
  | .purchaseOrderItemChanged => "Purchase order item changed during receiving"
  | .receiptItemNotPersisted => "Purchase order receipt item was not persisted"
  | .purchaseOrderChanged => "Purchase order changed during receiving"
  | .purchaseOrderNotEditable => "Can only edit PO in DRAFT or PENDING status"
  | .purchaseOrderWarehouseNotFound => "Warehouse not found"
  | .purchaseOrderWarehouseInactive =>
      "Inactive warehouses cannot be assigned to purchase orders"
  | .supplierNotFound => "Supplier not found"
  | .supplierInactive => "Inactive suppliers cannot be assigned to purchase orders"
  | .invalidPurchaseOrderItem => "Invalid purchase order item"
  | .purchaseOrderNotDeletable => "Can only delete PO in DRAFT status"
  | .useReceiptEndpoint => "Use the purchase order receipt endpoint to receive items"
  | .invalidStatusTransition source target =>
      "Cannot transition from " ++ source.text ++ " to " ++ target.text
  | .purchaseOrderUpdatedConcurrently =>
      "Purchase order was updated by another transaction"
  | .valuationMethodLocked =>
      "Inventory valuation method is locked after the first costed stock transaction"
  | .movingAverageScopeRequired =>
      "Choose a moving average scope for this inventory item"
  | .movingAverageScopeUnused =>
      "Moving average scope is only valid for moving weighted average"
  | .standardCostRequired => "Standard cost is required for standard cost valuation"
  | .standardCostUnused => "Standard cost is only valid for standard cost valuation"
  | .openingCostsUnused => "Opening costs are not used by standard cost valuation"
  | .openingCostRepeated => "Opening cost must be provided once per warehouse"
  | .stockOutsideTenant => "Inventory stock references a warehouse outside this tenant"
  | .openingCostRequiredForLayers =>
      "Opening cost is required for untraceable remaining stock in each warehouse"
  | .openingCostRequiredForStock =>
      "Opening cost is required for every warehouse with positive stock"
  | .openingCostWithoutStock =>
      "Opening cost references a warehouse without positive stock"
  | .decimalNotStorable => "Decimal value is not storable"
  | .movementNotFound => "No InventoryMovement found"
  | .uniqueViolation => "Unique constraint failed"
  | .integerNotStorable => "Integer value is not storable"
  | .foreignKeyViolation => "Foreign key constraint violated"
  | .checkViolation => "Check constraint violated"
  | .invalidDecimal => "[DecimalError] Invalid argument: undefined"

abbrev Tx := Lib.Tx DB Failure

export Lib.Tx (require expect commit)

namespace DB

variable (db : DB)

/-- Hand out the next id. -/
def takeId : DB := { db with nextId := db.nextId + 1 }

def insertStock (row : InventoryStock) : DB := { db with stocks := db.stocks ++ [row] }

def updateStock (id : Id) (f : InventoryStock → InventoryStock) : DB :=
  { db with stocks := db.stocks.map fun row => if row.id = id then f row else row }

/-- `updateMany` of the stock rows that satisfy `p`. -/
def updateStocks (p : InventoryStock → Bool) (f : InventoryStock → InventoryStock) : DB :=
  { db with stocks := db.stocks.map fun row => if p row then f row else row }

/-- `updateMany` of the average on the rows of one item at one location. -/
def setStockAverage (warehouseId : Option Id) (itemId : Id) (average : ℚ) : DB :=
  { db with stocks := db.stocks.map fun row =>
      if row.inventoryItemId = itemId ∧ row.warehouseId = warehouseId then
        { row with averageUnitCost := some average }
      else row }

def insertMovement (row : InventoryMovement) : DB :=
  { db with movements := db.movements ++ [row] }

def setMovementCost (id : Id) (unitCost totalCost : ℚ) : DB :=
  { db with movements := db.movements.map fun row =>
      if row.id = id then
        { row with unitCost := some unitCost, totalCost := some totalCost }
      else row }

/-- `updateMany` of the movements that satisfy `p`. -/
def updateMovements (p : InventoryMovement → Bool)
    (f : InventoryMovement → InventoryMovement) : DB :=
  { db with movements := db.movements.map fun row => if p row then f row else row }

def insertLayer (row : InventoryCostLayer) : DB := { db with layers := db.layers ++ [row] }

/-- `remainingQuantity: { increment }` on one cost layer. -/
def addToLayer (id : Id) (quantity : ℚ) : DB :=
  { db with layers := db.layers.map fun row =>
      if row.id = id then
        { row with remainingQuantity := row.remainingQuantity + quantity }
      else row }

def insertAllocation (row : InventoryMovementCostAllocation) : DB :=
  { db with allocations := db.allocations ++ [row] }

def updateItem (id : Id) (f : InventoryItem → InventoryItem) : DB :=
  { db with items := db.items.map fun row => if row.id = id then f row else row }

def insertTransfer (row : WarehouseTransfer) : DB :=
  { db with transfers := db.transfers ++ [row] }

def updateTransfers (p : WarehouseTransfer → Bool)
    (f : WarehouseTransfer → WarehouseTransfer) : DB :=
  { db with transfers := db.transfers.map fun row => if p row then f row else row }

def insertTransferReceipt (row : WarehouseTransferReceipt) : DB :=
  { db with transferReceipts := db.transferReceipts ++ [row] }

def updatePurchaseOrders (p : PurchaseOrder → Bool) (f : PurchaseOrder → PurchaseOrder) : DB :=
  { db with purchaseOrders := db.purchaseOrders.map fun row => if p row then f row else row }

def insertPurchaseReceipt (row : PurchaseOrderReceipt) : DB :=
  { db with purchaseReceipts := db.purchaseReceipts ++ [row] }

def insertPriceVariance (row : InventoryPurchasePriceVariance) : DB :=
  { db with priceVariances := db.priceVariances ++ [row] }

/-- `updateMany` of the orders that satisfy `p`. -/
def updateOrders (p : SalesOrder → Bool) (f : SalesOrder → SalesOrder) : DB :=
  { db with orders := db.orders.map fun row => if p row then f row else row }

def insertOutbox (row : OutboxEvent) : DB := { db with outbox := db.outbox ++ [row] }

/-- The stock row of an item at a location. -/
def stockAt (warehouseId : Option Id) (itemId : Id) : Option InventoryStock :=
  db.stocks.find? fun row => row.warehouseId = warehouseId ∧ row.inventoryItemId = itemId

def movementById (id : Id) : Option InventoryMovement :=
  db.movements.find? fun row => row.id = id

def layerById (id : Id) : Option InventoryCostLayer :=
  db.layers.find? fun row => row.id = id

def productById (id : Id) : Option Product := db.products.find? fun row => row.id = id

/-- The cost allocations of one movement, in insertion order. -/
def allocationsOf (movementId : Id) : List InventoryMovementCostAllocation :=
  db.allocations.filter fun row => row.movementId = movementId

end DB

/-- Hand out the next id to a row about to be inserted. -/
def freshId : Tx Id := do
  let db ← get
  set db.takeId
  pure db.nextId

/-- A quotient on its way to a `Decimal` column.  Dividing by zero gives a value
the column cannot hold, so the write fails and the transaction with it. -/
def decimalDiv (a b : ℚ) : Tx ℚ := do
  require (b ≠ 0) .decimalNotStorable
  pure (a / b)

/-- Insert a movement; the row is given once its id is known. -/
def createMovement (movement : Id → InventoryMovement) : Tx Id := do
  let id ← freshId
  modify fun db => db.insertMovement (movement id)
  pure id

/-- `InventoryStock.upsert`: increment the row at the location, or create it with
the increment.  The quantity the row holds afterwards is returned. -/
def upsertStock (warehouseId : Option Id) (itemId : Id) (quantity : ℚ) : Tx ℚ := do
  let db ← get
  match db.stockAt warehouseId itemId with
  | some stock => do
    modify fun db => db.updateStock stock.id fun row =>
      { row with quantity := row.quantity + quantity }
    pure (stock.quantity + quantity)
  | none => do
    let id ← freshId
    modify fun db => db.insertStock
      { id, warehouseId, inventoryItemId := itemId, quantity, averageUnitCost := none }
    pure quantity

/-- `quantity: { decrement }` on the rows that satisfy `p`; how many there were. -/
def decrementStocks (p : InventoryStock → Bool) (quantity : ℚ) : Tx Nat := do
  let db ← get
  set (db.updateStocks p fun row => { row with quantity := row.quantity - quantity })
  pure (db.stocks.countP p)

def writeOutbox (tenantId : Id) (event : DomainEvent) : Tx Unit := do
  let id ← freshId
  modify fun db => db.insertOutbox { id, tenantId, event }

end ERP
