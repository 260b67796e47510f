import ERP.Schema
import ERP.Lib.Sorting
import ERP.Lib.Chain
import ERP.Lib.Table
import Mathlib.Data.String.Basic
import Mathlib.Data.List.Dedup

/-!
# Reconciling the legacy order reservations

`20261023010000_reconcile_legacy_order_reservations`, statement by statement.  The ids are
the texts they are in the database: the window function and the history replay order by
them, and the ids of the inserted rows are hashed from them.

`md5` is a parameter.  So is the collation, of which an `ORDER BY` needs that it orders the
texts linearly.
-/

namespace ERP
namespace Migrations

structure Tenant where
  id : String
  businessType : BusinessType
  deriving DecidableEq, Repr

structure SalesOrder where
  id : String
  tenantId : String
  status : OrderStatus
  paymentStatus : PaymentStatus
  paidAmount : Int
  totalAmount : Int
  deriving DecidableEq, Repr

structure InventoryMovement where
  id : String
  tenantId : String
  warehouseId : Option String
  inventoryItemId : String
  type : MovementType
  referenceType : Option ReferenceType
  referenceId : Option String
  quantity : ℚ
  beforeQuantity : Option ℚ
  afterQuantity : Option ℚ
  unitCost : Option ℚ
  totalCost : Option ℚ
  createdAt : Int
  deriving DecidableEq, Repr

structure InventoryStock where
  id : String
  warehouseId : Option String
  inventoryItemId : String
  quantity : ℚ
  deriving DecidableEq, Repr

structure InventoryMovementCostAllocation where
  movementId : String
  deriving DecidableEq, Repr

structure LegacyDB where
  tenants : List Tenant
  orders : List SalesOrder
  movements : List InventoryMovement
  stocks : List InventoryStock
  allocations : List InventoryMovementCostAllocation
  deriving DecidableEq, Repr

/-- How the database orders texts. -/
structure Collation where
  SortKey : Type
  order : LinearOrder SortKey
  sortKey : String → SortKey
  injective : Function.Injective sortKey

instance (collation : Collation) : LinearOrder collation.SortKey := collation.order

/-- The texts by code point. -/
def Collation.c : Collation := ⟨String, inferInstance, id, Function.injective_id⟩

/-- `ORDER BY "createdAt", "id"`. -/
def historyKey (collation : Collation) (movement : InventoryMovement) :
    Lex (Int × collation.SortKey) :=
  toLex (movement.createdAt, collation.sortKey movement.id)

/-- The order a movement refers to, in its own tenant. -/
def OfOrder (movement : InventoryMovement) (order : SalesOrder) : Prop :=
  some order.id = movement.referenceId ∧ order.tenantId = movement.tenantId

instance (movement : InventoryMovement) (order : SalesOrder) :
    Decidable (OfOrder movement order) :=
  inferInstanceAs (Decidable (_ ∧ _))

/-- A join on the warehouse, which may be NULL and then equals none, and the item. -/
def StoredAt (stock : InventoryStock) (warehouseId : Option String) (inventoryItemId : String) :
    Prop :=
  stock.warehouseId ≠ none ∧ stock.warehouseId = warehouseId ∧
    stock.inventoryItemId = inventoryItemId

instance (stock : InventoryStock) (warehouseId : Option String) (inventoryItemId : String) :
    Decidable (StoredAt stock warehouseId inventoryItemId) :=
  inferInstanceAs (Decidable (_ ∧ _))

/-! ## The statements -/

def payOrder (order : SalesOrder) : SalesOrder :=
  if order.status = .completed ∧ order.paymentStatus ≠ .paid then
    { order with paidAmount := order.totalAmount, paymentStatus := .paid }
  else order

/-- `UPDATE "SalesOrder"`. -/
def payCompletedOrders (db : LegacyDB) : LegacyDB :=
  { db with orders := db.orders.map payOrder }

/-- `CASE WHEN tenant."businessType" = 'CAFE'`. -/
def committedType : BusinessType → MovementType
  | .cafe => .consumption
  | _ => .sale

/-- The tenant of the completed order a movement reserves for. -/
def completedOrderTenant (db : LegacyDB) (movement : InventoryMovement) : Option Tenant :=
  (db.orders.find? fun order =>
    OfOrder movement order ∧ order.status = .completed).bind fun order =>
      db.tenants.find? fun tenant => tenant.id = order.tenantId

def commitMovement (db : LegacyDB) (movement : InventoryMovement) : InventoryMovement :=
  if movement.referenceType = some .orderReservation then
    match completedOrderTenant db movement with
    | some tenant =>
        { movement with
          referenceType := some .orderReservationCommitted
          type := committedType tenant.businessType }
    | none => movement
  else movement

/-- `UPDATE "InventoryMovement"` of the completed orders. -/
def commitCompletedOrders (db : LegacyDB) : LegacyDB :=
  { db with movements := db.movements.map (commitMovement db) }

/-- The active reservations of the cancelled orders. -/
def cancelledReservations (db : LegacyDB) : List InventoryMovement :=
  db.movements.filter fun movement =>
    movement.referenceType = some .orderReservation ∧
      db.orders.any fun order => OfOrder movement order ∧ order.status = .cancelled

/-- The `DO` block. -/
def checkReservations (db : LegacyDB) : Except String Unit :=
  if db.movements.any fun movement =>
      movement.referenceType = some .orderReservation ∧
        ¬ db.orders.any fun order => OfOrder movement order then
    .error "Cannot reconcile active order reservations without a matching order"
  else if (cancelledReservations db).any fun movement =>
      db.allocations.any fun allocation => allocation.movementId = movement.id then
    .error "Cannot reconcile cancelled order reservations with cost allocations automatically"
  else if (cancelledReservations db).any fun movement => movement.warehouseId = none then
    .error "Cannot reconcile cancelled order reservations without a warehouse"
  else .ok ()

/-- A row of `_order_reservation_release_plan`. -/
structure ReleasePlan where
  reservationId : String
  tenantId : String
  inventoryItemId : String
  warehouseId : Option String
  orderId : Option String
  quantity : ℚ
  unitCost : Option ℚ
  totalCost : Option ℚ
  stockId : Option String
  baseQuantity : ℚ
  priorQuantity : ℚ
  deriving DecidableEq, Repr

/-- `PARTITION BY` the warehouse and the item of a movement. -/
def partitionOf (movements : List InventoryMovement) (warehouseId : Option String)
    (inventoryItemId : String) : List InventoryMovement :=
  movements.filter fun movement =>
    movement.warehouseId = warehouseId ∧ movement.inventoryItemId = inventoryItemId

/-- `SUM("quantity") OVER (…)`, of the rows of the partition that precede the movement. -/
def priorQuantity (collation : Collation) (reservations : List InventoryMovement)
    (movement : InventoryMovement) : ℚ :=
  Lib.sumBefore (·.id) (·.quantity)
    (Lib.orderBy (historyKey collation)
      (partitionOf reservations movement.warehouseId movement.inventoryItemId)) movement.id

def stockOf (db : LegacyDB) (warehouseId : Option String) (inventoryItemId : String) :
    Option InventoryStock :=
  db.stocks.find? fun stock => StoredAt stock warehouseId inventoryItemId

/-- `COALESCE(stock."quantity", 0)`. -/
def quantityAt (db : LegacyDB) (warehouseId : Option String) (inventoryItemId : String) : ℚ :=
  ((stockOf db warehouseId inventoryItemId).map (·.quantity)).getD 0

def planRow (collation : Collation) (db : LegacyDB) (movement : InventoryMovement) :
    ReleasePlan where
  reservationId := movement.id
  tenantId := movement.tenantId
  inventoryItemId := movement.inventoryItemId
  warehouseId := movement.warehouseId
  orderId := movement.referenceId
  quantity := movement.quantity
  unitCost := movement.unitCost
  totalCost := movement.totalCost
  stockId := (stockOf db movement.warehouseId movement.inventoryItemId).map (·.id)
  baseQuantity := quantityAt db movement.warehouseId movement.inventoryItemId
  priorQuantity := priorQuantity collation (cancelledReservations db) movement

/-- `CREATE TEMP TABLE`. -/
def releasePlan (collation : Collation) (db : LegacyDB) : List ReleasePlan :=
  (cancelledReservations db).map (planRow collation db)

/-- `UPDATE "InventoryStock"`, each row by what is released to it. -/
def releaseToStocks (plan : List ReleasePlan) (db : LegacyDB) : LegacyDB :=
  { db with
    stocks := db.stocks.map fun stock =>
      { stock with
        quantity := stock.quantity +
          ((plan.filter fun row => row.stockId = some stock.id).map (·.quantity)).sum } }

/-- `'backfill_' || md5(warehouse_id || ':' || inventory_item_id)`; the warehouse is not
NULL here. -/
def backfillId (md5 : String → String) (location : Option String × String) : String :=
  "backfill_" ++ md5 (location.1.getD "" ++ ":" ++ location.2)

/-- The locations without a stock row, each once. -/
def missingLocations (plan : List ReleasePlan) : List (Option String × String) :=
  ((plan.filter fun row => row.stockId = none).map fun row =>
    (row.warehouseId, row.inventoryItemId)).dedup

def missingQuantity (plan : List ReleasePlan) (location : Option String × String) : ℚ :=
  ((plan.filter fun row => row.stockId = none ∧
    (row.warehouseId, row.inventoryItemId) = location).map (·.quantity)).sum

/-- One row of `INSERT INTO "InventoryStock" … ON CONFLICT`. -/
def insertStock (row : InventoryStock) (stocks : List InventoryStock) :
    Except String (List InventoryStock) :=
  if stocks.any fun stock => StoredAt stock row.warehouseId row.inventoryItemId then
    .ok (stocks.map fun stock =>
      if StoredAt stock row.warehouseId row.inventoryItemId then
        { stock with quantity := stock.quantity + row.quantity }
      else stock)
  else if stocks.any fun stock => stock.id = row.id then
    .error "duplicate key value violates unique constraint \"InventoryStock_pkey\""
  else .ok (stocks ++ [row])

def backfillStock (md5 : String → String) (plan : List ReleasePlan)
    (location : Option String × String) : InventoryStock where
  id := backfillId md5 location
  warehouseId := location.1
  inventoryItemId := location.2
  quantity := missingQuantity plan location

def insertStocks : List InventoryStock → List InventoryStock →
    Except String (List InventoryStock)
  | [], stocks => .ok stocks
  | row :: rest, stocks => do
      let stocks ← insertStock row stocks
      insertStocks rest stocks

/-- `'release_' || md5(plan.reservation_id)`. -/
def releaseId (md5 : String → String) (reservationId : String) : String :=
  "release_" ++ md5 reservationId

def releaseMovement (md5 : String → String) (now : Int) (row : ReleasePlan) :
    InventoryMovement where
  id := releaseId md5 row.reservationId
  tenantId := row.tenantId
  warehouseId := row.warehouseId
  inventoryItemId := row.inventoryItemId
  type := .return
  referenceType := some .orderReservationRelease
  referenceId := row.orderId
  quantity := row.quantity
  beforeQuantity := some (row.baseQuantity + row.priorQuantity)
  afterQuantity := some (row.baseQuantity + row.priorQuantity + row.quantity)
  unitCost := row.unitCost
  totalCost := row.totalCost
  createdAt := now

/-- `INSERT INTO "InventoryMovement"`. -/
def insertMovements : List InventoryMovement → List InventoryMovement →
    Except String (List InventoryMovement)
  | [], movements => .ok movements
  | row :: rest, movements =>
      if movements.any fun movement => movement.id = row.id then
        .error "duplicate key value violates unique constraint \"InventoryMovement_pkey\""
      else insertMovements rest (movements ++ [row])

/-- The last `UPDATE`. -/
def markReleased (plan : List ReleasePlan) (movement : InventoryMovement) : InventoryMovement :=
  if plan.any fun row => row.reservationId = movement.id then
    { movement with referenceType := some .orderReservationReleased }
  else movement

/-- What is committed, or why nothing is. -/
def migrate (collation : Collation) (md5 : String → String) (now : Int) (db : LegacyDB) :
    Except String LegacyDB := do
  let db := commitCompletedOrders (payCompletedOrders db)
  checkReservations db
  let plan := releasePlan collation db
  let db := releaseToStocks plan db
  let stocks ← insertStocks ((missingLocations plan).map (backfillStock md5 plan)) db.stocks
  let movements ← insertMovements (plan.map (releaseMovement md5 now)) db.movements
  pure { db with stocks, movements := movements.map (markReleased plan) }

end Migrations
end ERP
