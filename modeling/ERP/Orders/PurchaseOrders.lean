import ERP.Orders.PurchaseRuns
import ERP.Lib.Binary64
import ERP.Lib.Tasks

/-!
# Purchase orders

`PurchaseOrderService.update`, `updateStatus`, `receivePurchaseOrder` and `delete`.
An edit and a deletion read the order and check its status in one step, and write
it by its id in a later transaction; a change of status and a receipt are one
transaction under the lock of the row.
-/

namespace ERP
namespace Orders

open Inventory Lib Lib.Tx

def findPurchaseOrder (db : DB) (tenantId id : Id) : Option PurchaseOrder :=
  db.purchaseOrders.find? fun row => row.id = id ∧ row.tenantId = tenantId

/-- `validTransitions`. -/
def validTransitions : PurchaseOrderStatus → List PurchaseOrderStatus
  | .draft => [.pending, .cancelled]
  | .pending => [.approved, .rejected, .cancelled]
  | .approved => [.cancelled]
  | .partiallyReceived => [.cancelled]
  | .received => [.completed]
  | .rejected => [.cancelled]
  | .cancelled => []
  | .completed => []

/-- The transaction of `updateStatus`. -/
def updateStatus (tenantId id : Id) (status : PurchaseOrderStatus) : Tx Unit := do
  let db ← get
  let po ← expect (findPurchaseOrder db tenantId id) .purchaseOrderNotFound
  if po.status = status then pure ()
  else do
    require (¬ ((status = .partiallyReceived ∨ status = .received) ∧
      (po.status = .approved ∨ po.status = .partiallyReceived))) .useReceiptEndpoint
    require (status ∈ validTransitions po.status) (.invalidStatusTransition po.status status)
    let p : PurchaseOrder → Bool := fun row =>
      row.id = id ∧ row.tenantId = tenantId ∧ row.status = po.status
    set (db.updatePurchaseOrders p fun row => { row with status })
    require (db.purchaseOrders.countP p = 1) .purchaseOrderUpdatedConcurrently

structure UpdatePurchaseOrderItemDto where
  inventoryItemId : Option Id
  quantity : Option ℚ
  unitPrice : Option ℚ
  deriving DecidableEq, Repr

structure UpdatePurchaseOrderDto where
  supplierId : Option Id
  warehouseId : Option Id
  items : Option (List UpdatePurchaseOrderItemDto)
  deriving DecidableEq, Repr

/-- A line as `update` has parsed it.  Nothing is received on it. -/
structure PurchaseOrderItemProps where
  inventoryItemId : Id
  quantity : ℚ
  unitPrice : ℚ
  subtotal : ℚ
  deriving DecidableEq, Repr

/-- What `update` hands to the repository. -/
structure PurchaseOrderData where
  supplierId : Id
  warehouseId : Option Id
  totalAmount : ℚ
  items : Option (List PurchaseOrderItemProps)
  deriving DecidableEq, Repr

/-- One turn of the loop over the items of the request. -/
def parseItem (item : UpdatePurchaseOrderItemDto) : Except Failure PurchaseOrderItemProps :=
  let quantity := item.quantity.getD 0
  let unitPrice := item.unitPrice.getD 0
  match item.inventoryItemId with
  | none => .error .invalidPurchaseOrderItem
  | some inventoryItemId =>
      if quantity ≤ 0 ∨ unitPrice < 0 then .error .invalidPurchaseOrderItem
      else .ok { inventoryItemId, quantity, unitPrice,
                 subtotal := Binary64.round (quantity * unitPrice) }

/-- The checks of the warehouse that an edit assigns. -/
def checkAssignedWarehouse (db : DB) (tenantId : Id) (po : PurchaseOrder)
    (warehouseId : Option Id) : Except Failure Unit :=
  match warehouseId with
  | none => .ok ()
  | some id =>
      if some id = po.warehouseId then .ok ()
      else match db.warehouses.find? fun row => row.id = id ∧ row.tenantId = tenantId with
      | none => .error .purchaseOrderWarehouseNotFound
      | some warehouse =>
          if warehouse.isActive then .ok () else .error .purchaseOrderWarehouseInactive

/-- The checks of the supplier that an edit assigns. -/
def checkAssignedSupplier (db : DB) (tenantId : Id) (po : PurchaseOrder)
    (supplierId : Option Id) : Except Failure Unit :=
  match supplierId with
  | none => .ok ()
  | some id =>
      if id = po.supplierId then .ok ()
      else match db.suppliers.find? fun row => row.id = id with
      | none => .error .supplierNotFound
      | some supplier =>
          if supplier.tenantId ≠ tenantId then .error .supplierNotFound
          else if supplier.isActive then .ok () else .error .supplierInactive

/-- What `update` does before its transaction: read the order, check its status and
the request, and work out the data to write. -/
def prepareUpdate (db : DB) (tenantId id : Id) (dto : UpdatePurchaseOrderDto) :
    Except Failure PurchaseOrderData :=
  match findPurchaseOrder db tenantId id with
  | none => .error .purchaseOrderNotFound
  | some po => do
    if ¬ (po.status = .draft ∨ po.status = .pending) then throw .purchaseOrderNotEditable
    checkAssignedWarehouse db tenantId po dto.warehouseId
    checkAssignedSupplier db tenantId po dto.supplierId
    let supplierId := dto.supplierId.getD po.supplierId
    let warehouseId := dto.warehouseId.or po.warehouseId
    match dto.items.filter (· ≠ []) with
    | none => pure { supplierId, warehouseId, totalAmount := po.totalAmount, items := none }
    | some items => do
      let parsedItems ← items.mapM parseItem
      pure { supplierId, warehouseId, items := some parsedItems,
             totalAmount := Binary64.sum (parsedItems.map (·.subtotal)) }

/-- What the client makes of a number for an `Int` column: the fraction is dropped. -/
def toInt (value : ℚ) : Int := value.num.tdiv value.den

/-- An `Int` column takes the whole numbers of 32 bits. -/
def intColumn (value : ℚ) : Tx Int := do
  require (-2147483648 ≤ toInt value ∧ toInt value ≤ 2147483647) .integerNotStorable
  pure (toInt value)

/-- A receipt refers to a line of the order, which its foreign key then keeps from
being deleted. -/
def LineReceipted (db : DB) (purchaseOrderId : Id) : Prop :=
  ∃ po ∈ db.purchaseOrders, po.id = purchaseOrderId ∧ ∃ l ∈ po.items,
    ∃ receipt ∈ db.purchaseReceipts, ∃ item ∈ receipt.items, item.purchaseOrderItemId = l.id

instance (db : DB) (purchaseOrderId : Id) : Decidable (LineReceipted db purchaseOrderId) :=
  inferInstanceAs (Decidable (∃ po ∈ db.purchaseOrders, po.id = purchaseOrderId ∧ ∃ l ∈ po.items,
    ∃ receipt ∈ db.purchaseReceipts, ∃ item ∈ receipt.items, item.purchaseOrderItemId = l.id))

/-- `createMany` of the lines of an order. -/
def createOrderItems : List PurchaseOrderItemProps → Tx (List PurchaseOrderItem)
  | [] => pure []
  | item :: rest => do
    let db ← get
    require (∃ row ∈ db.items, row.id = item.inventoryItemId) .foreignKeyViolation
    let unitPrice ← intColumn item.unitPrice
    let _ ← intColumn item.subtotal
    let id ← freshId
    let created ← createOrderItems rest
    pure ({ id, inventoryItemId := item.inventoryItemId, quantity := item.quantity, unitPrice,
            receivedQuantity := 0 } :: created)

/-- The transaction of `PurchaseOrderRepository.update`.  The rows are found by id
and tenant only. -/
def writeUpdate (tenantId id : Id) (data : PurchaseOrderData) : Tx Unit := do
  let db ← get
  let p : PurchaseOrder → Bool := fun row => row.id = id ∧ row.tenantId = tenantId
  let totalAmount ← intColumn data.totalAmount
  set (db.updatePurchaseOrders p fun row =>
    { row with supplierId := data.supplierId, warehouseId := data.warehouseId, totalAmount })
  require (db.purchaseOrders.countP p = 1) .purchaseOrderNotFound
  match data.items with
  | none => pure ()
  | some items => do
    require (¬ LineReceipted db id) .foreignKeyViolation
    let created ← createOrderItems items
    modify fun db => db.updatePurchaseOrders (fun row => row.id = id) fun row =>
      { row with items := created }

/-- `deleteMany` by id and tenant.  The lines, the receipts and the variances of the
order go with it, unless a receipt refers to a line. -/
def writeDelete (tenantId id : Id) : Tx Unit := do
  let db ← get
  if ∃ row ∈ db.purchaseOrders, row.id = id ∧ row.tenantId = tenantId then do
    require (¬ LineReceipted db id) .foreignKeyViolation
    set { db with
      purchaseOrders := db.purchaseOrders.filter fun row =>
        ¬ (row.id = id ∧ row.tenantId = tenantId)
      purchaseReceipts := db.purchaseReceipts.filter fun row => row.purchaseOrderId ≠ id
      priceVariances := db.priceVariances.filter fun row =>
        ∀ receipt ∈ db.purchaseReceipts, receipt.id = row.receiptId →
          receipt.purchaseOrderId ≠ id }
  else pure ()

/-- The check of `delete`. -/
def prepareDelete (db : DB) (tenantId id : Id) : Except Failure Unit :=
  match findPurchaseOrder db tenantId id with
  | none => .error .purchaseOrderNotFound
  | some po => if po.status = .draft then .ok () else .error .purchaseOrderNotDeletable

/-- A call, and how far it has come. -/
inductive PurchaseCall where
  | update (tenantId id : Id) (dto : UpdatePurchaseOrderDto)
  | updateWrite (tenantId id : Id) (data : PurchaseOrderData)
  | updateStatus (tenantId id : Id) (status : PurchaseOrderStatus)
  | receive (call : ReceiptCall)
  | delete (tenantId id : Id)
  | deleteWrite (tenantId id : Id)
  | done
  | failed (failure : Failure)
  deriving DecidableEq, Repr

inductive PurchaseRequest where
  | update (tenantId id : Id) (dto : UpdatePurchaseOrderDto)
  | updateStatus (tenantId id : Id) (status : PurchaseOrderStatus)
  | receive (call : ReceiptCall)
  | delete (tenantId id : Id)
  deriving DecidableEq, Repr

def PurchaseCall.ofRequest : PurchaseRequest → PurchaseCall
  | .update tenantId id dto => .update tenantId id dto
  | .updateStatus tenantId id status => .updateStatus tenantId id status
  | .receive call => .receive call
  | .delete tenantId id => .delete tenantId id

/-- A call whose transaction is its last step. -/
def conclude {α : Type} (m : Tx α) (db : DB) : PurchaseCall × DB :=
  match m db with
  | .ok (_, db') => (.done, db')
  | .error e => (.failed e, db)

def PurchaseCall.next (stamp : Stamp) (rt : TransferRuntime) :
    PurchaseCall → DB → PurchaseCall × DB
  | .update tenantId id dto, db =>
      match prepareUpdate db tenantId id dto with
      | .ok data => (.updateWrite tenantId id data, db)
      | .error e => (.failed e, db)
  | .updateWrite tenantId id data, db => conclude (writeUpdate tenantId id data) db
  | .updateStatus tenantId id status, db => conclude (Orders.updateStatus tenantId id status) db
  | .receive call, db => conclude (call.exec stamp rt) db
  | .delete tenantId id, db =>
      match prepareDelete db tenantId id with
      | .ok () => (.deleteWrite tenantId id, db)
      | .error e => (.failed e, db)
  | .deleteWrite tenantId id, db => conclude (writeDelete tenantId id) db
  | .done, db => (.done, db)
  | .failed e, db => (.failed e, db)

/-- The calls on purchase orders, interleaved step by step. -/
def purchases (stamp : Stamp) (rt : TransferRuntime) :
    System DB PurchaseRequest PurchaseCall Unit Empty where
  start := .ofRequest
  next := fun _ _ => PurchaseCall.next stamp rt
  act := fun o => nomatch o

end Orders
end ERP
