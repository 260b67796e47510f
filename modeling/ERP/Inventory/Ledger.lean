import ERP.Inventory.Costing
import ERP.Lib.Fifo
import ERP.Lib.Table

/-!
# Ledger entries

Every operation on the inventory comes down to a handful of entries: stock comes
in at a cost, goes out at a cost, is set aside for an order, is given back, and
so on.  An entry is a change of the database, written here in closed form; the
operations refine to sequences of entries, and what holds of the stock, the
layers and the costs is proved entry by entry.
-/

namespace ERP
namespace DB

variable (db : DB)

/-- Add to the stock row `id`. -/
def shiftStock (id : Id) (quantity : ℚ) : DB :=
  db.updateStock id fun row => { row with quantity := row.quantity + quantity }

/-- Add to the stock of an item at a location, which gets a row if it has none. -/
def addStock (warehouseId : Option Id) (itemId : Id) (quantity : ℚ) : DB :=
  match db.stockAt warehouseId itemId with
  | some row => db.shiftStock row.id quantity
  | none => db.takeId.insertStock
      { id := db.nextId, warehouseId, inventoryItemId := itemId, quantity,
        averageUnitCost := none }

/-- Insert a movement under the next id. -/
def record (movement : InventoryMovement) : DB := db.takeId.insertMovement movement

/-- The tables no ledger entry touches. -/
def outside : DB :=
  { db with nextId := 0, items := [], stocks := [], movements := [], layers := [],
            allocations := [] }

/-- The quantity of the stock row at a location, zero when there is none. -/
def stockBefore (warehouseId : Option Id) (itemId : Id) : ℚ :=
  ((db.stockAt warehouseId itemId).map (·.quantity)).getD 0

section Frames

variable (w : Option Id) (i : Id) (q : ℚ)

@[simp] theorem addStock_movements : (db.addStock w i q).movements = db.movements := by
  unfold addStock; split <;> rfl

@[simp] theorem addStock_layers : (db.addStock w i q).layers = db.layers := by
  unfold addStock; split <;> rfl

@[simp] theorem addStock_allocations : (db.addStock w i q).allocations = db.allocations := by
  unfold addStock; split <;> rfl

@[simp] theorem addStock_items : (db.addStock w i q).items = db.items := by
  unfold addStock; split <;> rfl

@[simp] theorem addStock_outside : (db.addStock w i q).outside = db.outside := by
  unfold addStock; split <;> rfl

variable (id : Id) (unitCost totalCost : ℚ)

@[simp] theorem setMovementCost_stocks :
    (db.setMovementCost id unitCost totalCost).stocks = db.stocks := rfl

@[simp] theorem setMovementCost_layers :
    (db.setMovementCost id unitCost totalCost).layers = db.layers := rfl

@[simp] theorem setMovementCost_allocations :
    (db.setMovementCost id unitCost totalCost).allocations = db.allocations := rfl

@[simp] theorem setMovementCost_items :
    (db.setMovementCost id unitCost totalCost).items = db.items := rfl

@[simp] theorem setMovementCost_nextId :
    (db.setMovementCost id unitCost totalCost).nextId = db.nextId := rfl

@[simp] theorem setMovementCost_outside :
    (db.setMovementCost id unitCost totalCost).outside = db.outside := rfl

/-- The cost goes into the movements alone, so it is the same whatever else of the
database differs. -/
theorem setMovementCost_movements_congr {db db' : DB} (h : db'.movements = db.movements) :
    (db'.setMovementCost id unitCost totalCost).movements =
      (db.setMovementCost id unitCost totalCost).movements := by
  unfold setMovementCost
  rw [h]

theorem nextId_le_addStock : db.nextId ≤ (db.addStock w i q).nextId := by
  unfold addStock
  split
  · exact le_refl _
  · exact Nat.le_succ _

end Frames

end DB

namespace Inventory

/-- Take every allocation from the layer it is charged to. -/
def chargeLayers (db : DB) (allocations : List CostAllocation) : DB :=
  allocations.foldl
    (fun db a => match a.costLayerId with
      | some id => db.addToLayer id (-a.quantity)
      | none => db) db

/-- Insert the allocations of a movement, each under the next id. -/
def insertAllocations (db : DB) (movementId : Id) (allocations : List CostAllocation) : DB :=
  allocations.foldl
    (fun db a => db.takeId.insertAllocation
      { id := db.nextId, movementId, costLayerId := a.costLayerId, quantity := a.quantity,
        unitCost := a.unitCost }) db

/-- The layer a receipt opens. -/
def layerOf (input : ReceiveInput) (id : Id) (quantity unitCost : ℚ) : InventoryCostLayer :=
  { id, tenantId := input.tenantId, inventoryItemId := input.inventoryItemId,
    warehouseId := input.warehouseId, sourceMovementId := some input.movementId,
    sourceType := input.sourceType, sourceReferenceId := input.sourceReferenceId,
    receivedQuantity := quantity, remainingQuantity := quantity, unitCost }

/-- Open one layer for each cost a receipt is made of. -/
def openLayersFor (db : DB) (input : ReceiveInput) (costs : List CostAllocation) : DB :=
  costs.foldl
    (fun db a => db.takeId.insertLayer (layerOf input db.nextId a.quantity a.unitCost)) db

/-- Freeze the valuation method of the item, if it is not frozen. -/
def freeze (stamp : Stamp) (db : DB) (item : InventoryItem) : DB :=
  if item.valuationLockedAt = none then
    db.updateItem item.id fun row =>
      { row with valuationLockedAt := some (stamp.createdAt db.nextId) }
  else db

section Frames

variable (db : DB) (allocations : List CostAllocation) (movementId : Id) (input : ReceiveInput)
  (stamp : Stamp) (item : InventoryItem)

/-- A fold of statements keeps what each statement keeps. -/
theorem foldl_keeps {α β : Type} {f : DB → α → DB} {g : DB → β} (h : ∀ db a, g (f db a) = g db)
    (as : List α) (db : DB) : g (as.foldl f db) = g db := by
  induction as generalizing db with
  | nil => rfl
  | cons a rest ih => rw [List.foldl_cons, ih, h]

theorem chargeLayers_keeps {β : Type} {g : DB → β} (h : ∀ db id q, g (db.addToLayer id q) = g db) :
    g (chargeLayers db allocations) = g db := by
  refine foldl_keeps (fun db a => ?_) allocations db
  cases a.costLayerId with
  | none => rfl
  | some id => exact h db id _

@[simp] theorem chargeLayers_stocks : (chargeLayers db allocations).stocks = db.stocks :=
  chargeLayers_keeps db allocations fun _ _ _ => rfl

@[simp] theorem chargeLayers_movements : (chargeLayers db allocations).movements = db.movements :=
  chargeLayers_keeps db allocations fun _ _ _ => rfl

@[simp] theorem chargeLayers_allocations :
    (chargeLayers db allocations).allocations = db.allocations :=
  chargeLayers_keeps db allocations fun _ _ _ => rfl

@[simp] theorem chargeLayers_items : (chargeLayers db allocations).items = db.items :=
  chargeLayers_keeps db allocations fun _ _ _ => rfl

@[simp] theorem chargeLayers_nextId : (chargeLayers db allocations).nextId = db.nextId :=
  chargeLayers_keeps db allocations fun _ _ _ => rfl

@[simp] theorem chargeLayers_outside : (chargeLayers db allocations).outside = db.outside :=
  chargeLayers_keeps db allocations fun _ _ _ => rfl

theorem insertAllocations_keeps {β : Type} {g : DB → β}
    (h : ∀ db row, g (DB.insertAllocation (DB.takeId db) row) = g db) :
    g (insertAllocations db movementId allocations) = g db := by
  unfold insertAllocations
  exact foldl_keeps (fun _ _ => h _ _) allocations db

theorem openLayersFor_keeps {β : Type} {g : DB → β}
    (h : ∀ db row, g (DB.insertLayer (DB.takeId db) row) = g db) :
    g (openLayersFor db input allocations) = g db := by
  unfold openLayersFor
  exact foldl_keeps (fun _ _ => h _ _) allocations db

@[simp] theorem insertAllocations_stocks :
    (insertAllocations db movementId allocations).stocks = db.stocks :=
  insertAllocations_keeps db allocations movementId fun _ _ => rfl

@[simp] theorem insertAllocations_movements :
    (insertAllocations db movementId allocations).movements = db.movements :=
  insertAllocations_keeps db allocations movementId fun _ _ => rfl

@[simp] theorem insertAllocations_layers :
    (insertAllocations db movementId allocations).layers = db.layers :=
  insertAllocations_keeps db allocations movementId fun _ _ => rfl

@[simp] theorem insertAllocations_items :
    (insertAllocations db movementId allocations).items = db.items :=
  insertAllocations_keeps db allocations movementId fun _ _ => rfl

@[simp] theorem insertAllocations_outside :
    (insertAllocations db movementId allocations).outside = db.outside :=
  insertAllocations_keeps db allocations movementId fun _ _ => rfl

@[simp] theorem openLayersFor_stocks : (openLayersFor db input allocations).stocks = db.stocks :=
  openLayersFor_keeps db allocations input fun _ _ => rfl

@[simp] theorem openLayersFor_movements :
    (openLayersFor db input allocations).movements = db.movements :=
  openLayersFor_keeps db allocations input fun _ _ => rfl

@[simp] theorem openLayersFor_allocations :
    (openLayersFor db input allocations).allocations = db.allocations :=
  openLayersFor_keeps db allocations input fun _ _ => rfl

@[simp] theorem openLayersFor_items : (openLayersFor db input allocations).items = db.items :=
  openLayersFor_keeps db allocations input fun _ _ => rfl

@[simp] theorem openLayersFor_outside :
    (openLayersFor db input allocations).outside = db.outside :=
  openLayersFor_keeps db allocations input fun _ _ => rfl

theorem nextId_insertAllocations :
    (insertAllocations db movementId allocations).nextId = db.nextId + allocations.length := by
  induction allocations generalizing db with
  | nil => rfl
  | cons a rest ih =>
      refine (ih _).trans ?_
      change db.nextId + 1 + rest.length = db.nextId + (rest.length + 1)
      rw [Nat.add_assoc, Nat.add_comm 1]

theorem nextId_openLayersFor :
    (openLayersFor db input allocations).nextId = db.nextId + allocations.length := by
  induction allocations generalizing db with
  | nil => rfl
  | cons a rest ih =>
      refine (ih _).trans ?_
      change db.nextId + 1 + rest.length = db.nextId + (rest.length + 1)
      rw [Nat.add_assoc, Nat.add_comm 1]

theorem freeze_keeps {β : Type} {g : DB → β} (h : ∀ db id f, g (db.updateItem id f) = g db) :
    g (freeze stamp db item) = g db := by
  unfold freeze
  split
  · exact h _ _ _
  · rfl

@[simp] theorem freeze_stocks : (freeze stamp db item).stocks = db.stocks :=
  freeze_keeps db stamp item fun _ _ _ => rfl

@[simp] theorem freeze_movements : (freeze stamp db item).movements = db.movements :=
  freeze_keeps db stamp item fun _ _ _ => rfl

@[simp] theorem freeze_layers : (freeze stamp db item).layers = db.layers :=
  freeze_keeps db stamp item fun _ _ _ => rfl

@[simp] theorem freeze_allocations : (freeze stamp db item).allocations = db.allocations :=
  freeze_keeps db stamp item fun _ _ _ => rfl

@[simp] theorem freeze_nextId : (freeze stamp db item).nextId = db.nextId :=
  freeze_keeps db stamp item fun _ _ _ => rfl

@[simp] theorem freeze_outside : (freeze stamp db item).outside = db.outside :=
  freeze_keeps db stamp item fun _ _ _ => rfl

end Frames

/-- `lockItem` found the item and its valuation is configured. -/
structure Locked (db : DB) (tenantId itemId : Id) (item : InventoryItem) : Prop where
  found : db.items.find? (fun row => row.id = itemId ∧ row.tenantId = tenantId) = some item
  method : item.valuationMethod ≠ none
  scope : ¬ (item.valuationMethod = some .movingWeightedAverage ∧ item.movingAverageScope = none)
  standard : ¬ (item.valuationMethod = some .standardCost ∧ item.standardCost = none)

theorem Locked.mem {db : DB} {tenantId itemId : Id} {item : InventoryItem}
    (h : Locked db tenantId itemId item) :
    item ∈ db.items ∧ item.id = itemId ∧ item.tenantId = tenantId := by
  have hp := List.find?_some h.found
  simp only [decide_eq_true_eq] at hp
  exact ⟨List.mem_of_find?_eq_some h.found, hp⟩

/-- The average of an item in the scope it is kept in. -/
def averageAt (db : DB) (item : InventoryItem) (warehouseId : Option Id) : Option ℚ :=
  if item.movingAverageScope = some .perItem then item.averageUnitCost
  else (db.stockAt warehouseId item.id).bind (·.averageUnitCost)

/-- The quantity the average of an item stands for, in the scope it is kept in. -/
def averagedQuantity (db : DB) (item : InventoryItem) (warehouseId : Option Id) : ℚ :=
  if item.movingAverageScope = some .perItem then onHand db item.id
  else db.stockBefore warehouseId item.id

/-- Write the average in the scope it is kept in. -/
def setAverage (db : DB) (item : InventoryItem) (warehouseId : Option Id) (average : ℚ) : DB :=
  if item.movingAverageScope = some .perItem then
    db.updateItem item.id fun row => { row with averageUnitCost := some average }
  else db.setStockAverage warehouseId item.id average

/-- The cost `receive` writes: the layer of a FIFO item, the new average of a
moving-average item, neither for an item at standard cost. -/
inductive Received (stamp : Stamp) (input : ReceiveInput) (db : DB) (unitCost : ℚ) : DB → Prop
  | fifo {item : InventoryItem}
      (hitem : Locked db input.tenantId input.inventoryItemId item)
      (hmethod : item.valuationMethod = some .fifo) (hcost : input.unitCost = some unitCost) :
      Received stamp input db unitCost
        (freeze stamp
          ((openLayersFor db input [⟨none, input.quantity, unitCost⟩]).setMovementCost
            input.movementId unitCost (input.quantity * unitCost)) item)
  | average {item : InventoryItem}
      (hitem : Locked db input.tenantId input.inventoryItemId item)
      (hmethod : item.valuationMethod = some .movingWeightedAverage)
      (hcost : input.unitCost = some unitCost)
      (htotal : averagedQuantity db item input.warehouseId ≠ 0)
      (hopening : 0 < averagedQuantity db item input.warehouseId - input.quantity →
        averageAt db item input.warehouseId ≠ none) :
      Received stamp input db unitCost
        (freeze stamp
          ((setAverage db item input.warehouseId
            (((averagedQuantity db item input.warehouseId - input.quantity) *
                (averageAt db item input.warehouseId).getD 0 + input.quantity * unitCost) /
              averagedQuantity db item input.warehouseId)).setMovementCost
            input.movementId unitCost (input.quantity * unitCost)) item)
  | standard {item : InventoryItem}
      (hitem : Locked db input.tenantId input.inventoryItemId item)
      (hmethod : item.valuationMethod = some .standardCost)
      (hcost : item.standardCost = some unitCost) :
      Received stamp input db unitCost
        (freeze stamp
          (db.setMovementCost input.movementId unitCost (input.quantity * unitCost)) item)

/-- The allocation a draw on a layer makes. -/
def drawnAllocation (e : InventoryCostLayer × ℚ) : CostAllocation :=
  { costLayerId := some e.1.id, quantity := e.2, unitCost := e.1.unitCost }

/-- What an issue of a FIFO item is charged to. -/
def fifoCharges (stamp : Stamp) (db : DB) (input : IssueInput) : List CostAllocation :=
  (Lib.draw (·.remainingQuantity)
    (openLayers stamp db input.tenantId input.inventoryItemId input.warehouseId)
    input.quantity).map drawnAllocation

/-- Write the cost of an issue: on the movement, and as its allocations. -/
def writeIssueCost (stamp : Stamp) (db : DB) (input : IssueInput) (item : InventoryItem)
    (allocations : List CostAllocation) : DB :=
  freeze stamp
    (insertAllocations
      (db.setMovementCost input.movementId (allocatedCost allocations / input.quantity)
        (allocatedCost allocations))
      input.movementId allocations) item

/-- The cost `issue` writes: what the layers of a FIFO item give, the average of
a moving-average item, the standard cost. -/
inductive Issued (stamp : Stamp) (input : IssueInput) (db : DB) : DB → Prop
  | fifo {item : InventoryItem}
      (hitem : Locked db input.tenantId input.inventoryItemId item)
      (hmethod : item.valuationMethod = some .fifo)
      (hcover : input.quantity ≤ ((openLayers stamp db input.tenantId input.inventoryItemId
        input.warehouseId).map (·.remainingQuantity)).sum) :
      Issued stamp input db
        (writeIssueCost stamp (chargeLayers db (fifoCharges stamp db input)) input item
          (fifoCharges stamp db input))
  | flat {item : InventoryItem} {unitCost : ℚ}
      (hitem : Locked db input.tenantId input.inventoryItemId item)
      (hmethod : item.valuationMethod = some .movingWeightedAverage ∧
          averageAt db item input.warehouseId = some unitCost ∨
        item.valuationMethod = some .standardCost ∧ item.standardCost = some unitCost) :
      Issued stamp input db
        (writeIssueCost stamp db input item [⟨none, input.quantity, unitCost⟩])

/-- An issue of a FIFO item asks for more than its open layers hold. -/
def Short (stamp : Stamp) (input : IssueInput) (db : DB) : Prop :=
  ∃ item, Locked db input.tenantId input.inventoryItemId item ∧
    item.valuationMethod = some .fifo ∧
    ((openLayers stamp db input.tenantId input.inventoryItemId input.warehouseId).map
      (·.remainingQuantity)).sum < input.quantity

/-- The receipt `receiveTransfer` makes of a transfer line. -/
def transferReceipt (input : ReceiveTransferInput) (unitCost : ℚ) : ReceiveInput :=
  { tenantId := input.tenantId, inventoryItemId := input.inventoryItemId,
    warehouseId := some input.warehouseId, quantity := input.quantity,
    unitCost := some unitCost, sourceType := .reference .warehouseTransferReceipt,
    sourceReferenceId := some input.sourceReferenceId, movementId := input.movementId }

/-- The shipped allocations a transfer receipt copies, in the order it reads them. -/
def shippedAllocations (stamp : Stamp) (db : DB) (input : ReceiveTransferInput) :
    List InventoryMovementCostAllocation :=
  Lib.orderBy (allocationKey stamp db) (db.allocationsOf input.sourceMovementId)

/-- The costs a transfer receipt copies from the shipment. -/
def copiedCosts (stamp : Stamp) (db : DB) (input : ReceiveTransferInput) : List CostAllocation :=
  (copyAllocations (shippedAllocations stamp db input) input.alreadyReceived input.quantity).2

/-- The cost `receiveTransfer` writes: a FIFO item takes over the costs of the
shipped allocations, any other item receives at the unit cost of the shipment. -/
inductive ReceivedTransfer (stamp : Stamp) (input : ReceiveTransferInput) (db : DB) : DB → Prop
  | fifo {item : InventoryItem} {source : InventoryMovement} {unitCost : ℚ}
      (hitem : Locked db input.tenantId input.inventoryItemId item)
      (hmethod : item.valuationMethod = some .fifo)
      (hsource : db.movementById input.sourceMovementId = some source)
      (hunit : source.unitCost = some unitCost) (hquantity : input.quantity ≠ 0)
      (hcover : (copyAllocations (shippedAllocations stamp db input) input.alreadyReceived
        input.quantity).1 ≤ 0) :
      ReceivedTransfer stamp input db
        (freeze stamp
          ((openLayersFor db (transferReceipt input unitCost)
            (copiedCosts stamp db input)).setMovementCost input.movementId
            (allocatedCost (copiedCosts stamp db input) / input.quantity)
            (allocatedCost (copiedCosts stamp db input))) item)
  | other {item : InventoryItem} {source : InventoryMovement} {sourceCost unitCost : ℚ} {db' : DB}
      (hitem : Locked db input.tenantId input.inventoryItemId item)
      (hmethod : item.valuationMethod ≠ some .fifo)
      (hsource : db.movementById input.sourceMovementId = some source)
      (hunit : source.unitCost = some sourceCost)
      (hreceived : Received stamp (transferReceipt input sourceCost) db unitCost db') :
      ReceivedTransfer stamp input db (freeze stamp db' item)

end Inventory
end ERP
