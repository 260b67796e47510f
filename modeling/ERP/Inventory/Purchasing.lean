import ERP.Inventory.Costing
import ERP.Receipt

/-!
# Receiving purchase orders

`PurchaseOrderService.receivePurchaseOrder`: each received line enters the stock
of the order's warehouse at the ordered price, and an item valued at standard
cost records the difference as a price variance.
-/

namespace ERP
namespace Inventory

def purchaseReceiptRules : ReceiptRules where
  tooSmall := fun quantity => quantity < 1 / 10
  idRequired := .purchaseOrderItemIdRequired
  quantityInvalid := .purchaseQuantityInvalid
  duplicate := .duplicatePurchaseReceiptItem

/-- The checks before the transaction. -/
def normalizePurchaseReceipt (localeLE : String → String → Bool) (idempotencyKey : String)
    (dto : ReceiptDto) : Except Failure ReceiptDto := do
  if ¬ validIdempotencyKey idempotencyKey then throw .idempotencyKeyInvalid
  if dto.items.length = 0 then throw .purchaseReceiptEmpty
  normalizeReceipt localeLE purchaseReceiptRules dto

structure PlannedPurchaseItem where
  orderItem : PurchaseOrderItem
  delta : ℚ
  nextReceived : ℚ
  deriving DecidableEq, Repr

def planPurchaseReceipt (stamp : Stamp) (round : ℚ → ℚ) (po : PurchaseOrder) :
    List ReceiptItemDto → Tx (List PlannedPurchaseItem)
  | [] => pure []
  | item :: rest => do
    let orderItem ← expect (po.items.find? fun row => stamp.cuid row.id = item.itemId)
      .receiptItemNotOnOrder
    let (delta, nextReceived) ← expect
      (planLine round orderItem.quantity orderItem.receivedQuantity item.receivedQuantity)
      .receivedMoreThanOrdered
    let planned ← planPurchaseReceipt stamp round po rest
    pure ({ orderItem, delta, nextReceived } :: planned)

def purchaseReceiptStatus (round : ℚ → ℚ) (po : PurchaseOrder)
    (planned : List PlannedPurchaseItem) : PurchaseOrderStatus :=
  if po.items.all fun item =>
      let received := ((planned.find? fun p => p.orderItem.id = item.id).map
        (·.nextReceived)).getD item.receivedQuantity
      lineReceived round item.quantity received
  then .received else .partiallyReceived

def setOrderItemReceived (purchaseOrderId itemId : Id) (quantity : ℚ) : Tx Nat := do
  let db ← get
  set (db.updatePurchaseOrders (fun row => row.id = purchaseOrderId) fun row =>
    { row with items := row.items.map fun item =>
        if item.id = itemId then { item with receivedQuantity := quantity } else item })
  pure ((db.purchaseOrders.filter fun row => row.id = purchaseOrderId).flatMap (·.items)
    |>.countP fun item => item.id = itemId)

/-- The price variance of a line whose item is valued at standard cost. -/
def recordPriceVariance (item : InventoryItem) (receipt : PurchaseOrderReceipt)
    (planned : PlannedPurchaseItem) : Tx Unit :=
  match item.valuationMethod, item.standardCost with
  | some .standardCost, some standardUnitCost => do
    let _ ← expect (receipt.items.find? fun row =>
      row.purchaseOrderItemId = planned.orderItem.id) .receiptItemNotPersisted
    let id ← freshId
    let actualUnitCost : ℚ := planned.orderItem.unitPrice
    modify fun db => db.insertPriceVariance
      { id, receiptId := receipt.id, purchaseOrderItemId := planned.orderItem.id,
        inventoryItemId := planned.orderItem.inventoryItemId, quantity := planned.delta,
        standardUnitCost, actualUnitCost,
        varianceAmount := (actualUnitCost - standardUnitCost) * planned.delta }
  | _, _ => pure ()

/-- One line of a receipt. -/
def receivePurchaseItem (stamp : Stamp) (tenantId : Id) (po : PurchaseOrder) (warehouseId : Id)
    (receipt : PurchaseOrderReceipt) (planned : PlannedPurchaseItem) : Tx Unit := do
  let itemId := planned.orderItem.inventoryItemId
  let inventoryItem ← lockItem tenantId itemId
  let updatedItem ← setOrderItemReceived po.id planned.orderItem.id planned.nextReceived
  require (updatedItem = 1) .purchaseOrderItemChanged
  let stockQuantity ← upsertStock (some warehouseId) itemId planned.delta
  let movementId ← createMovement fun id =>
    { id, tenantId, type := .stockIn, quantity := planned.delta,
      beforeQuantity := some (stockQuantity - planned.delta),
      afterQuantity := some stockQuantity, inventoryItemId := itemId,
      referenceId := some receipt.id, referenceType := some .purchaseOrderReceipt,
      warehouseId := some warehouseId, unitCost := none, totalCost := none }
  let _ ← receive stamp
    { tenantId, inventoryItemId := itemId, warehouseId := some warehouseId,
      quantity := planned.delta, unitCost := some planned.orderItem.unitPrice,
      sourceType := .reference .purchaseOrderReceipt, sourceReferenceId := some receipt.id,
      movementId }
  recordPriceVariance inventoryItem receipt planned

/-- The transaction of `receivePurchaseOrder`. -/
def receivePurchaseRequest (stamp : Stamp) (round : ℚ → ℚ)
    (receiptHash : ReceiptDto → String) (tenantId purchaseOrderId : Id) (idempotencyKey : String)
    (request : ReceiptDto) : Tx PurchaseOrderReceipt := do
  let db ← get
  let po ← expect (db.purchaseOrders.find? fun row =>
    row.id = purchaseOrderId ∧ row.tenantId = tenantId) .purchaseOrderNotFound
  match db.purchaseReceipts.find? fun row =>
      row.purchaseOrderId = purchaseOrderId ∧ row.idempotencyKey = idempotencyKey with
  | some existingReceipt => do
    require (existingReceipt.requestHash = receiptHash request) .purchaseReceiptKeyReused
    pure existingReceipt
  | none => do
    require (po.status = .approved ∨ po.status = .partiallyReceived)
      (.purchaseOrderNotReceivable po.status)
    let warehouseId ← expect po.warehouseId .purchaseOrderHasNoWarehouse
    let planned ← planPurchaseReceipt stamp round po request.items
    let receiptStatus := purchaseReceiptStatus round po planned
    let receiptId ← freshId
    let receipt : PurchaseOrderReceipt :=
      { id := receiptId, tenantId, purchaseOrderId, idempotencyKey,
        requestHash := receiptHash request, statusAfter := receiptStatus,
        items := planned.map fun p =>
          { purchaseOrderItemId := p.orderItem.id,
            inventoryItemId := p.orderItem.inventoryItemId, receivedQuantity := p.delta } }
    modify fun db => db.insertPurchaseReceipt receipt
    planned.forM (receivePurchaseItem stamp tenantId po warehouseId receipt)
    let db ← get
    let p : PurchaseOrder → Bool := fun row =>
      row.id = purchaseOrderId ∧ row.tenantId = tenantId ∧ row.status = po.status
    set (db.updatePurchaseOrders p fun row => { row with status := receiptStatus })
    require (db.purchaseOrders.countP p = 1) .purchaseOrderChanged
    writeOutbox tenantId
      (if receiptStatus = .received then .purchaseOrderReceived purchaseOrderId receiptId
        else .purchaseOrderPartiallyReceived purchaseOrderId receiptId)
    pure receipt

def receivePurchaseOrder (stamp : Stamp) (round : ℚ → ℚ) (localeLE : String → String → Bool)
    (receiptHash : ReceiptDto → String) (tenantId purchaseOrderId : Id)
    (idempotencyKey : String) (dto : ReceiptDto) : Tx PurchaseOrderReceipt :=
  match normalizePurchaseReceipt localeLE idempotencyKey dto with
  | .error e => throw e
  | .ok request =>
    receivePurchaseRequest stamp round receiptHash tenantId purchaseOrderId idempotencyKey request

end Inventory
end ERP
