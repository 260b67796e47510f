import ERP.Inventory.Costing
import ERP.Receipt

/-!
# Warehouse transfers

`WarehouseTransferService`.  `create` looks the idempotency key up, inserts in a
transaction, and looks the key up again when the insert hits the unique index;
`ship`, `receive` and `cancel` are one transaction each, under the row lock of
the transfer.
-/

namespace ERP
namespace Inventory

structure TransferItemDto where
  inventoryItemId : String
  quantity : ℚ
  deriving DecidableEq, Repr

structure CreateWarehouseTransferDto where
  sourceWarehouseId : String
  destinationWarehouseId : String
  items : List TransferItemDto
  note : Option String
  deriving DecidableEq, Repr

abbrev TransferRuntime := Runtime CreateWarehouseTransferDto ReceiptDto

def checkTransferItems : List TransferItemDto → List String → Except Failure Unit
  | [], _ => .ok ()
  | item :: rest, seen =>
    if item.inventoryItemId = "" then .error .inventoryItemIdRequired
    else if item.quantity < 1 / 10 then .error .transferQuantityInvalid
    else if item.inventoryItemId ∈ seen then .error .duplicateTransferItem
    else checkTransferItems rest (item.inventoryItemId :: seen)

/-- The checks of `create` before it touches the database, and the normalised
request they leave. -/
def normalizeTransfer (rt : TransferRuntime) (idempotencyKey : String)
    (dto : CreateWarehouseTransferDto) : Except Failure CreateWarehouseTransferDto := do
  if ¬ validIdempotencyKey idempotencyKey then throw .idempotencyKeyInvalid
  let sourceWarehouseId := Lib.trim dto.sourceWarehouseId
  let destinationWarehouseId := Lib.trim dto.destinationWarehouseId
  if sourceWarehouseId = "" ∨ destinationWarehouseId = "" then throw .warehouseIdsRequired
  if sourceWarehouseId = destinationWarehouseId then throw .sameWarehouse
  if dto.items.length < 1 ∨ 100 < dto.items.length then throw .transferItemCount
  let items := dto.items.map fun item =>
    { item with inventoryItemId := Lib.trim item.inventoryItemId }
  checkTransferItems items []
  pure
    { sourceWarehouseId, destinationWarehouseId
      items := items.insertionSort fun a b =>
        rt.localeLE a.inventoryItemId b.inventoryItemId = true
      note := normalizeNote dto.note }

def findTransferByKey (db : DB) (tenantId : Id) (idempotencyKey : String) :
    Option WarehouseTransfer :=
  db.transfers.find? fun row => row.tenantId = tenantId ∧ row.idempotencyKey = idempotencyKey

/-- `replayOrConflict`: the row found under the key, if its request was this one. -/
def replayOrConflict {α : Type} (requestHashOf : α → String) (existing : α)
    (requestHash : String) : Except Failure α :=
  if requestHashOf existing ≠ requestHash then .error .transferKeyReused else .ok existing

/-- The item rows of the tenant that the request names. -/
def namedItems (stamp : Stamp) (db : DB) (tenantId : Id) (items : List TransferItemDto) :
    List InventoryItem :=
  db.items.filter fun row => row.tenantId = tenantId ∧
    stamp.cuid row.id ∈ items.map (·.inventoryItemId)

/-- `Items: { create }`: one line for each requested item. -/
def createTransferItems (stamp : Stamp) (found : List InventoryItem) :
    List TransferItemDto → Tx (List WarehouseTransferItem)
  | [] => pure []
  | item :: rest => do
    let id ← freshId
    let row ← expect (found.find? fun row => stamp.cuid row.id = item.inventoryItemId)
      .transferItemsNotFound
    let lines ← createTransferItems stamp found rest
    pure ({ id, inventoryItemId := row.id, quantity := item.quantity, receivedQuantity := 0 }
      :: lines)

/-- The transaction of `create`. -/
def insertTransfer (stamp : Stamp) (rt : TransferRuntime) (tenantId : Id)
    (idempotencyKey : String) (request : CreateWarehouseTransferDto) :
    Tx WarehouseTransfer := do
  let db ← get
  let source ← expect (db.warehouses.find? fun row =>
    stamp.cuid row.id = request.sourceWarehouseId ∧ row.tenantId = tenantId)
    .transferWarehouseNotFound
  let destination ← expect (db.warehouses.find? fun row =>
    stamp.cuid row.id = request.destinationWarehouseId ∧ row.tenantId = tenantId)
    .transferWarehouseNotFound
  require (source.isActive = true ∧ destination.isActive = true) .transferWarehouseInactive
  let found := namedItems stamp db tenantId request.items
  require (found.length = request.items.length) .transferItemsNotFound
  require (findTransferByKey db tenantId idempotencyKey = none) .uniqueViolation
  let id ← freshId
  let items ← createTransferItems stamp found request.items
  let transfer : WarehouseTransfer :=
    { id, tenantId, sourceWarehouseId := source.id, destinationWarehouseId := destination.id,
      idempotencyKey, requestHash := rt.transferHash request, status := .pending,
      note := request.note, items }
  modify fun db => db.insertTransfer transfer
  writeOutbox tenantId (.warehouseTransferCreated transfer.id)
  pure transfer

/-- `lockTransfer` and `findOneInTransaction`. -/
def findTransfer (tenantId transferId : Id) : Tx WarehouseTransfer := do
  let db ← get
  expect (db.transfers.find? fun row => row.id = transferId ∧ row.tenantId = tenantId)
    .transferNotFound

/-- `updateMany` of the transfer while it is in `status`; how many rows changed. -/
def setTransferStatus (tenantId transferId : Id) (status next : TransferStatus) : Tx Nat := do
  let db ← get
  let p : WarehouseTransfer → Bool := fun row =>
    row.id = transferId ∧ row.tenantId = tenantId ∧ row.status = status
  set (db.updateTransfers p fun row => { row with status := next })
  pure (db.transfers.countP p)

/-- One line of a shipment.  `stock` is the row as it was read before the loop. -/
def shipItem (stamp : Stamp) (tenantId : Id) (transfer : WarehouseTransfer)
    (stocks : List InventoryStock) (item : WarehouseTransferItem) : Tx Unit := do
  let _ ← lockItem tenantId item.inventoryItemId
  let stock ← expect (stocks.find? fun row => row.inventoryItemId = item.inventoryItemId)
    (.insufficientSourceStock item.inventoryItemId)
  require (item.quantity ≤ stock.quantity) (.insufficientSourceStock item.inventoryItemId)
  let updated ← decrementStocks
    (fun row => row.id = stock.id ∧ item.quantity ≤ row.quantity) item.quantity
  require (updated = 1) (.insufficientSourceStock item.inventoryItemId)
  let movementId ← createMovement fun id =>
    { id, tenantId, type := .transfer, quantity := item.quantity,
      beforeQuantity := some stock.quantity,
      afterQuantity := some (stock.quantity - item.quantity),
      inventoryItemId := item.inventoryItemId, referenceId := some transfer.id,
      referenceType := some .warehouseTransferShipment,
      warehouseId := some transfer.sourceWarehouseId, unitCost := none, totalCost := none }
  let _ ← issue stamp
    { tenantId, inventoryItemId := item.inventoryItemId,
      warehouseId := some transfer.sourceWarehouseId, quantity := item.quantity, movementId }
  pure ()

/-- The stock rows of the shipped items at the source, as `ship` reads them. -/
def sourceStocks (db : DB) (transfer : WarehouseTransfer) : List InventoryStock :=
  db.stocks.filter fun row => row.warehouseId = some transfer.sourceWarehouseId ∧
    row.inventoryItemId ∈ transfer.items.map (·.inventoryItemId)

def ship (stamp : Stamp) (tenantId transferId : Id) : Tx WarehouseTransfer := do
  let transfer ← findTransfer tenantId transferId
  if transfer.status = .inTransit ∨ transfer.status = .partiallyReceived ∨
      transfer.status = .received then
    findTransfer tenantId transferId
  else do
    require (transfer.status = .pending) (.transferNotShippable transfer.status)
    let db ← get
    transfer.items.forM (shipItem stamp tenantId transfer (sourceStocks db transfer))
    let shipped ← setTransferStatus tenantId transferId .pending .inTransit
    require (shipped = 1) .transferChangedWhileShipped
    writeOutbox tenantId (.warehouseTransferShipped transferId)
    findTransfer tenantId transferId

def transferReceiptRules : ReceiptRules where
  tooSmall := fun quantity => quantity ≤ 0
  idRequired := .transferItemIdRequired
  quantityInvalid := .receivedQuantityInvalid
  duplicate := .duplicateReceiptItem

/-- The checks of `receive` before its transaction. -/
def normalizeTransferReceipt (rt : TransferRuntime) (idempotencyKey : String)
    (dto : ReceiptDto) : Except Failure ReceiptDto := do
  if ¬ validIdempotencyKey idempotencyKey then throw .idempotencyKeyInvalid
  if dto.items.length < 1 ∨ 100 < dto.items.length then throw .receiptItemCount
  normalizeReceipt rt.localeLE transferReceiptRules dto

structure PlannedTransferItem where
  transferItem : WarehouseTransferItem
  delta : ℚ
  nextReceived : ℚ
  deriving DecidableEq, Repr

/-- `normalizedItems.map`: each receipt line against its transfer line. -/
def planTransferReceipt (stamp : Stamp) (transfer : WarehouseTransfer) :
    List ReceiptItemDto → Tx (List PlannedTransferItem)
  | [] => pure []
  | item :: rest => do
    let transferItem ← expect
      (transfer.items.find? fun row => stamp.cuid row.id = item.itemId)
      .receiptItemNotOnTransfer
    let (delta, nextReceived) ← expect
      (planLine unrounded transferItem.quantity transferItem.receivedQuantity item.receivedQuantity)
      .receivedMoreThanShipped
    let planned ← planTransferReceipt stamp transfer rest
    pure ({ transferItem, delta, nextReceived } :: planned)

/-- The status after the receipt: RECEIVED once every line is. -/
def transferReceiptStatus (transfer : WarehouseTransfer) (planned : List PlannedTransferItem) :
    TransferStatus :=
  if transfer.items.all fun item =>
      let received := ((planned.find? fun p => p.transferItem.id = item.id).map
        (·.nextReceived)).getD item.receivedQuantity
      lineReceived unrounded item.quantity received
  then .received else .partiallyReceived

/-- `warehouseTransferItem.updateMany` by line and transfer; how many rows changed. -/
def setReceivedQuantity (transferId itemId : Id) (quantity : ℚ) : Tx Nat := do
  let db ← get
  set (db.updateTransfers (fun row => row.id = transferId) fun row =>
    { row with items := row.items.map fun item =>
        if item.id = itemId then { item with receivedQuantity := quantity } else item })
  pure ((db.transfers.filter fun row => row.id = transferId).flatMap (·.items) |>.countP
    fun item => item.id = itemId)

/-- The shipment movement a receipt line copies its cost from. -/
def shipmentMovement (db : DB) (tenantId : Id) (transfer : WarehouseTransfer) (itemId : Id) :
    Option InventoryMovement :=
  db.movements.find? fun row => row.tenantId = tenantId ∧
    row.warehouseId = some transfer.sourceWarehouseId ∧ row.inventoryItemId = itemId ∧
    row.referenceType = some .warehouseTransferShipment ∧ row.referenceId = some transfer.id

/-- One line of a receipt. -/
def receiveItem (stamp : Stamp) (tenantId : Id) (transfer : WarehouseTransfer) (receiptId : Id)
    (planned : PlannedTransferItem) : Tx Unit := do
  let itemId := planned.transferItem.inventoryItemId
  let _ ← lockItem tenantId itemId
  let updatedItem ←
    setReceivedQuantity transfer.id planned.transferItem.id planned.nextReceived
  require (updatedItem = 1) .transferItemChanged
  let stockQuantity ← upsertStock (some transfer.destinationWarehouseId) itemId planned.delta
  let movementId ← createMovement fun id =>
    { id, tenantId, type := .transfer, quantity := planned.delta,
      beforeQuantity := some (stockQuantity - planned.delta),
      afterQuantity := some stockQuantity, inventoryItemId := itemId,
      referenceId := some receiptId, referenceType := some .warehouseTransferReceipt,
      warehouseId := some transfer.destinationWarehouseId, unitCost := none,
      totalCost := none }
  let db ← get
  let sourceMovement ← expect (shipmentMovement db tenantId transfer itemId)
    .shipmentMovementMissing
  receiveTransfer stamp
    { tenantId, inventoryItemId := itemId, warehouseId := transfer.destinationWarehouseId,
      quantity := planned.delta, alreadyReceived := planned.transferItem.receivedQuantity,
      sourceMovementId := sourceMovement.id, movementId, sourceReferenceId := receiptId }

/-- The transaction of `receive`. -/
def receiveRequest (stamp : Stamp) (rt : TransferRuntime) (tenantId transferId : Id)
    (idempotencyKey : String) (request : ReceiptDto) : Tx WarehouseTransferReceipt := do
  let transfer ← findTransfer tenantId transferId
  let db ← get
  match db.transferReceipts.find? fun row =>
      row.transferId = transferId ∧ row.idempotencyKey = idempotencyKey with
  | some existingReceipt =>
    match replayOrConflict (·.requestHash) existingReceipt (rt.receiptHash request) with
    | .ok receipt => pure receipt
    | .error e => throw e
  | none => do
    require (transfer.status = .inTransit ∨ transfer.status = .partiallyReceived)
      (.transferNotReceivable transfer.status)
    let planned ← planTransferReceipt stamp transfer request.items
    let receiptStatus := transferReceiptStatus transfer planned
    let receiptId ← freshId
    -- CHECK ("receivedQuantity" > 0) on the lines of a receipt
    require (∀ p ∈ planned, 0 < p.delta) .checkViolation
    let receipt : WarehouseTransferReceipt :=
      { id := receiptId, tenantId, transferId, idempotencyKey,
        requestHash := rt.receiptHash request, note := request.note,
        items := planned.map fun p =>
          { transferItemId := p.transferItem.id,
            inventoryItemId := p.transferItem.inventoryItemId,
            receivedQuantity := p.delta } }
    modify fun db => db.insertTransferReceipt receipt
    planned.forM (receiveItem stamp tenantId transfer receiptId)
    let updatedTransfer ← setTransferStatus tenantId transferId transfer.status receiptStatus
    require (updatedTransfer = 1) .transferChangedWhileReceived
    writeOutbox tenantId
      (if receiptStatus = .received then .warehouseTransferReceived transferId receiptId
        else .warehouseTransferPartiallyReceived transferId receiptId)
    pure receipt

def receiveWarehouseTransfer (stamp : Stamp) (rt : TransferRuntime) (tenantId transferId : Id)
    (idempotencyKey : String) (dto : ReceiptDto) : Tx WarehouseTransferReceipt :=
  match normalizeTransferReceipt rt idempotencyKey dto with
  | .error e => throw e
  | .ok request => receiveRequest stamp rt tenantId transferId idempotencyKey request

def cancel (tenantId transferId : Id) : Tx WarehouseTransfer := do
  let transfer ← findTransfer tenantId transferId
  if transfer.status = .cancelled then findTransfer tenantId transferId
  else do
    require (transfer.status = .pending) .transferNotCancellable
    let cancelled ← setTransferStatus tenantId transferId .pending .cancelled
    require (cancelled = 1) .transferChangedWhileCancelled
    writeOutbox tenantId (.warehouseTransferCancelled transferId)
    findTransfer tenantId transferId

end Inventory
end ERP
