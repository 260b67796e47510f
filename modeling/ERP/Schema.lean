import Mathlib.Data.Rat.Defs
import Mathlib.Algebra.Order.Ring.Rat
import Mathlib.Data.String.Basic
import Mathlib.Data.Prod.Lex
import ERP.Lib.Transaction

/-!
# The stored rows

The tables of `prisma/schema.prisma` that the inventory, transfer, purchasing
and order modules read and write, as lists in insertion order.  `Float` and
`Decimal` columns are rationals.  Columns that no modelled function reads
(notes, actors, display names) are left out.

A row's id is the number of the id it was given.  The text of that id and the
time of the insertion come from a `Stamp`, which is a parameter: sorting by
`createdAt` and by id compares stamps, and nothing here assumes that they grow.
-/

namespace ERP

abbrev Id := Nat

inductive BusinessType where
  | cafe | retail | laundry | gym | hotel | manufacturing
  deriving DecidableEq, Repr

inductive MovementType where
  | stockIn | sale | waste | adjustment | return | stockOut | purchase | consumption
  | production | transfer
  deriving DecidableEq, Repr

inductive ValuationMethod where
  | fifo | movingWeightedAverage | standardCost
  deriving DecidableEq, Repr

inductive MovingAverageScope where
  | perWarehouse | perItem
  deriving DecidableEq, Repr

inductive TransferStatus where
  | pending | inTransit | partiallyReceived | received | cancelled
  deriving DecidableEq, Repr

inductive OrderStatus where
  | pending | paid | completed | cancelled | inProgress | ready
  deriving DecidableEq, Repr

inductive OrderMode where
  | regular | openBill
  deriving DecidableEq, Repr

inductive PaymentStatus where
  | pending | paid | failed | refunded
  deriving DecidableEq, Repr

inductive PurchaseOrderStatus where
  | draft | pending | approved | rejected | partiallyReceived | received | completed | cancelled
  deriving DecidableEq, Repr

/-- `InventoryMovement.referenceType`.  `orderReservation` is the ACTIVE
reservation; the four after it are what a reservation can become, and
`orderReservationRelease` marks the movement that returns its stock. -/
inductive ReferenceType where
  | orderReservation
  | orderReservationCommitted
  | orderReservationReleased
  | orderReservationExpired
  | orderReservationCancelled
  | orderReservationRelease
  | purchaseOrderReceipt
  | warehouseTransferShipment
  | warehouseTransferReceipt
  | order
  deriving DecidableEq, Repr

/-- `InventoryCostLayer.sourceType`. -/
inductive SourceType where
  | manualStockIn
  | manualAdjustment
  | openingBalance
  | historicalReconstruction
  | legacyOpeningCost
  | legacyOpeningBalance
  | legacyReservationRelease
  | legacy (type : MovementType)
  | reference (type : ReferenceType)
  deriving DecidableEq, Repr

structure Tenant where
  id : Id
  businessType : BusinessType
  deriving DecidableEq, Repr

structure Warehouse where
  id : Id
  tenantId : Id
  outletId : Option Id
  isActive : Bool
  deriving DecidableEq, Repr

structure InventoryItem where
  id : Id
  tenantId : Id
  name : String
  valuationMethod : Option ValuationMethod
  movingAverageScope : Option MovingAverageScope
  standardCost : Option ℚ
  averageUnitCost : Option ℚ
  valuationLockedAt : Option Int
  deriving DecidableEq, Repr

structure InventoryStock where
  id : Id
  warehouseId : Option Id
  inventoryItemId : Id
  quantity : ℚ
  averageUnitCost : Option ℚ
  deriving DecidableEq, Repr

structure InventoryMovement where
  id : Id
  tenantId : Id
  type : MovementType
  quantity : ℚ
  beforeQuantity : Option ℚ
  afterQuantity : Option ℚ
  inventoryItemId : Id
  referenceId : Option Id
  referenceType : Option ReferenceType
  warehouseId : Option Id
  unitCost : Option ℚ
  totalCost : Option ℚ
  deriving DecidableEq, Repr

structure InventoryCostLayer where
  id : Id
  tenantId : Id
  inventoryItemId : Id
  warehouseId : Option Id
  sourceMovementId : Option Id
  sourceType : SourceType
  sourceReferenceId : Option Id
  receivedQuantity : ℚ
  remainingQuantity : ℚ
  unitCost : ℚ
  deriving DecidableEq, Repr

structure InventoryMovementCostAllocation where
  id : Id
  movementId : Id
  costLayerId : Option Id
  quantity : ℚ
  unitCost : ℚ
  deriving DecidableEq, Repr

/-- A recipe line.  `RecipeAggregate.create` admits positive integers only. -/
structure RecipeItem where
  inventoryItemId : Id
  quantity : Nat
  quantity_pos : 0 < quantity
  deriving DecidableEq, Repr

structure Product where
  id : Id
  name : String
  isActive : Bool
  inventoryItemId : Option Id
  recipe : Option (List RecipeItem)
  deriving DecidableEq, Repr

/-- An order line.  `CreateOrderDto` admits integers of at least one. -/
structure SalesOrderItem where
  productId : Id
  quantity : Nat
  quantity_pos : 0 < quantity
  deriving DecidableEq, Repr

structure SalesOrder where
  id : Id
  tenantId : Id
  outletId : Option Id
  status : OrderStatus
  orderMode : OrderMode
  paymentStatus : PaymentStatus
  paidAmount : Int
  totalAmount : Int
  kitchenReleasedAt : Option Int
  items : List SalesOrderItem
  deriving DecidableEq, Repr

structure PurchaseOrderItem where
  id : Id
  inventoryItemId : Id
  quantity : ℚ
  unitPrice : Int
  receivedQuantity : ℚ
  deriving DecidableEq, Repr

structure Supplier where
  id : Id
  tenantId : Id
  isActive : Bool
  deriving DecidableEq, Repr

structure PurchaseOrder where
  id : Id
  tenantId : Id
  supplierId : Id
  warehouseId : Option Id
  status : PurchaseOrderStatus
  totalAmount : Int
  items : List PurchaseOrderItem
  deriving DecidableEq, Repr

structure PurchaseOrderReceiptItem where
  purchaseOrderItemId : Id
  inventoryItemId : Id
  receivedQuantity : ℚ
  deriving DecidableEq, Repr

structure PurchaseOrderReceipt where
  id : Id
  tenantId : Id
  purchaseOrderId : Id
  idempotencyKey : String
  requestHash : String
  statusAfter : PurchaseOrderStatus
  items : List PurchaseOrderReceiptItem
  deriving DecidableEq, Repr

structure InventoryPurchasePriceVariance where
  id : Id
  receiptId : Id
  purchaseOrderItemId : Id
  inventoryItemId : Id
  quantity : ℚ
  standardUnitCost : ℚ
  actualUnitCost : ℚ
  varianceAmount : ℚ
  deriving DecidableEq, Repr

structure WarehouseTransferItem where
  id : Id
  inventoryItemId : Id
  quantity : ℚ
  receivedQuantity : ℚ
  deriving DecidableEq, Repr

structure WarehouseTransfer where
  id : Id
  tenantId : Id
  sourceWarehouseId : Id
  destinationWarehouseId : Id
  idempotencyKey : String
  requestHash : String
  status : TransferStatus
  note : Option String
  items : List WarehouseTransferItem
  deriving DecidableEq, Repr

structure WarehouseTransferReceiptItem where
  transferItemId : Id
  inventoryItemId : Id
  receivedQuantity : ℚ
  deriving DecidableEq, Repr

structure WarehouseTransferReceipt where
  id : Id
  tenantId : Id
  transferId : Id
  idempotencyKey : String
  requestHash : String
  note : Option String
  items : List WarehouseTransferReceiptItem
  deriving DecidableEq, Repr

inductive DomainEvent where
  | warehouseTransferCreated (transferId : Id)
  | warehouseTransferShipped (transferId : Id)
  | warehouseTransferPartiallyReceived (transferId receiptId : Id)
  | warehouseTransferReceived (transferId receiptId : Id)
  | warehouseTransferCancelled (transferId : Id)
  | purchaseOrderPartiallyReceived (purchaseOrderId receiptId : Id)
  | purchaseOrderReceived (purchaseOrderId receiptId : Id)
  | orderReservationExpired (orderId : Option Id)
  deriving DecidableEq, Repr

structure OutboxEvent where
  id : Id
  tenantId : Id
  event : DomainEvent
  deriving DecidableEq, Repr

/-- What the database engine decides: the time each id was handed out and the
text it was given, and which of the matching rows a query without an order
returns first when that id is the next one. -/
structure Stamp where
  createdAt : Id → Int
  cuid : Id → String
  scan : Id → Nat

/-- Ids whose time and text grow with their number; the first row is found first. -/
def Stamp.sequential : Stamp where
  createdAt := fun id => id
  cuid := fun id => String.ofList (List.replicate id 'c')
  scan := fun _ => 0

/-- The database: one list for each table, and the number of the next id. -/
structure DB where
  nextId : Id
  tenants : List Tenant
  warehouses : List Warehouse
  items : List InventoryItem
  products : List Product
  stocks : List InventoryStock
  movements : List InventoryMovement
  layers : List InventoryCostLayer
  allocations : List InventoryMovementCostAllocation
  transfers : List WarehouseTransfer
  transferReceipts : List WarehouseTransferReceipt
  suppliers : List Supplier
  purchaseOrders : List PurchaseOrder
  purchaseReceipts : List PurchaseOrderReceipt
  priceVariances : List InventoryPurchasePriceVariance
  orders : List SalesOrder
  outbox : List OutboxEvent
  deriving DecidableEq, Repr

end ERP
