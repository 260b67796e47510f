import ERP.Inventory.Costing
import ERP.Lib.OrderedMap
import ERP.Lib.Sorting

/-!
# Replaying the history of an item

`InventoryCostingService.reconstructHistoricalFifo`: from the recorded movements of an item,
their cost allocations and the receipts they refer to, the cost layers its stock must be
made of.  What the queries read is a `History`; the replay is a function of it.
-/

namespace ERP
namespace Inventory

structure HistoricalCostPart where
  quantity : ℚ
  unitCost : ℚ
  sourceMovementId : Option Id
  sourceType : Option SourceType
  deriving DecidableEq, Repr

/-- The layer an allocation was taken from, if it is still there. -/
structure AllocationSource where
  sourceMovementId : Option Id
  sourceType : SourceType
  deriving DecidableEq, Repr

structure HistoricalAllocation where
  quantity : ℚ
  unitCost : ℚ
  costLayer : Option AllocationSource
  deriving DecidableEq, Repr

structure HistoricalMovementRecord extends InventoryMovement where
  createdAt : Int
  costAllocations : List HistoricalAllocation
  deriving DecidableEq, Repr

structure HistoricalMovementCost where
  parts : List HistoricalCostPart
  unitCost : Option ℚ
  deriving DecidableEq, Repr

structure HistoricalFifoLayer where
  warehouseId : Option Id
  receivedQuantity : ℚ
  quantity : ℚ
  unitCost : Option ℚ
  sourceMovementId : Option Id
  sourceReferenceId : Option Id
  sourceType : SourceType
  createdAt : Int
  deriving DecidableEq, Repr

structure HistoricalFifoBalance where
  warehouseId : Option Id
  currentQuantity : ℚ
  layers : List HistoricalFifoLayer
  openingCostQuantity : ℚ
  reconciled : Bool
  deriving DecidableEq, Repr

structure PurchaseReceiptCost where
  warehouseId : Option Id
  unitCost : ℚ
  deriving DecidableEq, Repr

structure TransferReceiptRecord where
  id : Id
  transferId : Id
  sourceWarehouseId : Id
  destinationWarehouseId : Id
  items : List WarehouseTransferReceiptItem
  deriving DecidableEq, Repr

/-- What the queries read: the movements of the item by time and id, the unit prices of the
purchase receipts it is on, and the transfer receipts of the tenant by time and id. -/
structure History where
  movements : List HistoricalMovementRecord
  receiptItems : List (Id × PurchaseReceiptCost)
  transferReceipts : List TransferReceiptRecord
  deriving DecidableEq, Repr

/-! ## The queries -/

def recordOf (stamp : Stamp) (db : DB) (movement : InventoryMovement) :
    HistoricalMovementRecord where
  toInventoryMovement := movement
  createdAt := stamp.createdAt movement.id
  costAllocations :=
    (Lib.orderBy (fun allocation => stamp.cuid allocation.id)
      (db.allocations.filter fun allocation => allocation.movementId = movement.id)).map
      fun allocation =>
        { quantity := allocation.quantity, unitCost := allocation.unitCost,
          costLayer := allocation.costLayerId.bind fun layerId =>
            (db.layers.find? fun layer => layer.id = layerId).map fun layer =>
              ⟨layer.sourceMovementId, layer.sourceType⟩ }

def receiptItemsOf (db : DB) (tenantId inventoryItemId : Id) : List (Id × PurchaseReceiptCost) :=
  (db.purchaseReceipts.filter fun receipt => receipt.tenantId = tenantId).flatMap fun receipt =>
    (receipt.items.filter fun item => item.inventoryItemId = inventoryItemId).filterMap fun item =>
      (db.purchaseOrders.find? fun order => order.id = receipt.purchaseOrderId).bind fun order =>
        (order.items.find? fun line => line.id = item.purchaseOrderItemId).map fun line =>
          (receipt.id, ⟨order.warehouseId, line.unitPrice⟩)

def transferReceiptsOf (stamp : Stamp) (db : DB) (tenantId : Id) : List TransferReceiptRecord :=
  (Lib.orderBy (fun receipt => toLex (stamp.createdAt receipt.id, stamp.cuid receipt.id))
    (db.transferReceipts.filter fun receipt => receipt.tenantId = tenantId)).filterMap
      fun receipt =>
        (db.transfers.find? fun transfer => transfer.id = receipt.transferId).map fun transfer =>
          ⟨receipt.id, receipt.transferId, transfer.sourceWarehouseId,
            transfer.destinationWarehouseId, receipt.items⟩

def historyOf (stamp : Stamp) (db : DB) (tenantId inventoryItemId : Id) : History where
  movements :=
    (Lib.orderBy (fun movement => toLex (stamp.createdAt movement.id, stamp.cuid movement.id))
      (db.movements.filter fun movement => movement.tenantId = tenantId ∧
        movement.inventoryItemId = inventoryItemId)).map (recordOf stamp db)
  receiptItems := receiptItemsOf db tenantId inventoryItemId
  transferReceipts := transferReceiptsOf stamp db tenantId

/-! ## What the movements cost -/

/-- The loop of `normalizedParts`: the parts up to what remains, and what then remains. -/
def takeParts : List HistoricalCostPart → ℚ → List HistoricalCostPart × ℚ
  | [], remaining => ([], remaining)
  | part :: rest, remaining =>
      if remaining ≤ 0 then ([], remaining)
      else
        let partQuantity := min part.quantity remaining
        if partQuantity ≤ 0 then takeParts rest remaining
        else
          let taken := takeParts rest (remaining - partQuantity)
          ({ part with quantity := partQuantity } :: taken.1, taken.2)

def normalizedParts (parts : List HistoricalCostPart) (quantity : ℚ) : HistoricalMovementCost :=
  let taken := takeParts parts quantity
  { parts := taken.1
    unitCost :=
      if taken.2 = 0 ∧ 0 < quantity - taken.2 then
        some ((taken.1.map fun part => part.quantity * part.unitCost).sum / quantity)
      else none }

/-- `sourceKey(movement.referenceId, movement.inventoryItemId, movement.warehouseId)`. -/
def referenceKey (movement : HistoricalMovementRecord) : List (Option Id) :=
  [movement.referenceId, some movement.inventoryItemId, movement.warehouseId]

/-- The last movement of the reference type for each key. -/
def movementsByReference (type : ReferenceType) (movements : List HistoricalMovementRecord) :
    Lib.OrderedMap (List (Option Id)) HistoricalMovementRecord :=
  movements.foldl (fun byReference movement =>
    if movement.referenceType = some type ∧ movement.referenceId ≠ none then
      byReference.set (referenceKey movement) movement
    else byReference) .empty

def sourceMovementByTransferItem (movements : List HistoricalMovementRecord) :
    Lib.OrderedMap (List (Option Id)) HistoricalMovementRecord :=
  movementsByReference .warehouseTransferShipment movements

def receiptMovementByReceiptItem (movements : List HistoricalMovementRecord) :
    Lib.OrderedMap (List (Option Id)) HistoricalMovementRecord :=
  movementsByReference .warehouseTransferReceipt movements

/-- The reservation that was given back for each key, `none` where there were several. -/
def reservationSources (movements : List HistoricalMovementRecord) :
    Lib.OrderedMap (List (Option Id)) (Option HistoricalMovementRecord) :=
  movements.foldl (fun sources movement =>
    if movement.referenceId ≠ none ∧
        (movement.referenceType = some .orderReservationReleased ∨
          movement.referenceType = some .orderReservationCancelled ∨
          movement.referenceType = some .orderReservationExpired) then
      let key := referenceKey movement
      sources.set key (if sources.has key then none else some movement)
    else sources) .empty

/-- What the movements with allocations cost. -/
def allocatedCosts (movements : List HistoricalMovementRecord) :
    Lib.OrderedMap Id HistoricalMovementCost :=
  movements.foldl (fun costs movement =>
    if movement.costAllocations ≠ [] then
      costs.set movement.id
        (normalizedParts
          (movement.costAllocations.map fun allocation =>
            { quantity := allocation.quantity, unitCost := allocation.unitCost,
              sourceMovementId := allocation.costLayer.bind (·.sourceMovementId),
              sourceType := allocation.costLayer.map (·.sourceType) })
          |movementQuantityDelta movement.toInventoryMovement|)
    else costs) .empty

/-- The parts of a shipment from `offset` on, up to what remains to be received. -/
def copyParts : List HistoricalCostPart → ℚ → ℚ → List HistoricalCostPart
  | [], _, _ => []
  | part :: rest, offset, remaining =>
      if remaining ≤ 0 then []
      else if part.quantity ≤ offset then copyParts rest (offset - part.quantity) remaining
      else
        let copied := min (part.quantity - offset) remaining
        { quantity := copied, unitCost := part.unitCost,
          sourceMovementId := none, sourceType := none } :: copyParts rest 0 (remaining - copied)

/-- What the movements cost, and how much of each transfer line was received so far. -/
structure TransferCosts where
  movementCosts : Lib.OrderedMap Id HistoricalMovementCost
  receivedByTransferItem : Lib.OrderedMap (List (Option Id)) ℚ

def receiptItemCost (movements : List HistoricalMovementRecord) (receipt : TransferReceiptRecord)
    (costs : TransferCosts) (receiptItem : WarehouseTransferReceiptItem) : TransferCosts :=
  let transferItemKey := [some receipt.transferId, some receiptItem.inventoryItemId]
  match (sourceMovementByTransferItem movements).get
      [some receipt.transferId, some receiptItem.inventoryItemId, some receipt.sourceWarehouseId],
    (receiptMovementByReceiptItem movements).get
      [some receipt.id, some receiptItem.inventoryItemId, some receipt.destinationWarehouseId] with
  | some sourceMovement, some receiptMovement =>
      let sourceCost := costs.movementCosts.get sourceMovement.id
      let skip := (costs.receivedByTransferItem.get transferItemKey).getD 0
      let availableParts := (sourceCost.map (·.parts)).getD []
      let normalized := normalizedParts
        (copyParts availableParts skip receiptItem.receivedQuantity) receiptItem.receivedQuantity
      { movementCosts := costs.movementCosts.set receiptMovement.id
          { parts := normalized.parts
            unitCost := normalized.unitCost.or
              (if availableParts = [] then sourceMovement.unitCost else none) }
        receivedByTransferItem :=
          costs.receivedByTransferItem.set transferItemKey (skip + receiptItem.receivedQuantity) }
  | _, _ => costs

/-- What the received transfers cost, receipt by receipt. -/
def transferCosts (movements : List HistoricalMovementRecord)
    (transferReceipts : List TransferReceiptRecord)
    (movementCosts : Lib.OrderedMap Id HistoricalMovementCost) :
    Lib.OrderedMap Id HistoricalMovementCost :=
  let receiptIds := (movements.filter fun movement =>
    movement.referenceType = some .warehouseTransferReceipt).filterMap (·.referenceId)
  let receipts := transferReceipts.filter fun receipt => receipt.id ∈ receiptIds
  let start : TransferCosts := ⟨movementCosts, .empty⟩
  (receipts.foldl (fun costs receipt =>
    receipt.items.foldl (receiptItemCost movements receipt) costs) start).movementCosts

/-- What is given back costs what its reservation did, where that is the only one. -/
def releaseCosts (movements : List HistoricalMovementRecord)
    (movementCosts : Lib.OrderedMap Id HistoricalMovementCost) :
    Lib.OrderedMap Id HistoricalMovementCost :=
  movements.foldl (fun costs movement =>
    if movement.referenceType ≠ some .orderReservationRelease ∨
        ((costs.get movement.id).bind (·.unitCost)).isSome then costs
    else
      match (reservationSources movements).get (referenceKey movement) with
      | some (some reservation) =>
          match costs.get reservation.id with
          | some sourceCost => costs.set movement.id (normalizedParts sourceCost.parts
              |movementQuantityDelta movement.toInventoryMovement|)
          | none => costs
      | _ => costs) movementCosts

def historicalMovementCosts (movements : List HistoricalMovementRecord)
    (transferReceipts : List TransferReceiptRecord) : Lib.OrderedMap Id HistoricalMovementCost :=
  releaseCosts movements (transferCosts movements transferReceipts (allocatedCosts movements))

/-! ## The replay -/

/-- `1e-6`. -/
def historyTolerance : ℚ := 1 / 1000000

/-- What the recorded quantities are checked for; a quantity that was not recorded agrees. -/
def Agrees (ledgerQuantity : ℚ) : Option ℚ → Prop
  | none => True
  | some recorded => |ledgerQuantity - recorded| ≤ historyTolerance

instance (ledgerQuantity : ℚ) (recorded : Option ℚ) :
    Decidable (Agrees ledgerQuantity recorded) := by
  unfold Agrees
  cases recorded with
  | none => exact instDecidableTrue
  | some q => exact inferInstance

def openingLayer (warehouseId : Option Id) (inventoryItemId : Id) (quantity : ℚ)
    (createdAt : Int) : HistoricalFifoLayer where
  warehouseId := warehouseId
  receivedQuantity := quantity
  quantity := quantity
  unitCost := none
  sourceMovementId := none
  sourceReferenceId := some inventoryItemId
  sourceType := .legacyOpeningBalance
  createdAt := createdAt

/-- A layer of what a movement brought in. -/
def receivedLayer (warehouseId : Option Id) (movement : HistoricalMovementRecord)
    (sourceType : SourceType) (quantity : ℚ) (unitCost : Option ℚ) : HistoricalFifoLayer where
  warehouseId := warehouseId
  receivedQuantity := quantity
  quantity := quantity
  unitCost := unitCost
  sourceMovementId := some movement.id
  sourceReferenceId := movement.referenceId
  sourceType := sourceType
  createdAt := movement.createdAt

/-- `movement.referenceType ?? "LEGACY_" + movement.type`. -/
def receivedAs (movement : HistoricalMovementRecord) : SourceType :=
  match movement.referenceType with
  | some type => .reference type
  | none => .legacy movement.type

/-- The costs a history is replayed with. -/
structure ReplayCosts where
  historicalCostParts : Lib.OrderedMap Id HistoricalMovementCost
  purchaseReceiptCosts : Lib.OrderedMap Id PurchaseReceiptCost

/-- `costParts` of a movement that brought in `delta`. -/
def costPartsOf (costs : ReplayCosts) (warehouseId : Option Id)
    (movement : HistoricalMovementRecord) (delta : ℚ) : List HistoricalCostPart :=
  match costs.historicalCostParts.get movement.id with
  | some historicalCost => historicalCost.parts
  | none =>
      match (if movement.referenceType ≠ some .warehouseTransferReceipt ∧
          movement.referenceType ≠ some .orderReservationRelease then movement.unitCost
        else none) with
      | some unitCost => [⟨delta, unitCost, none, none⟩]
      | none =>
          match (if movement.referenceType = some .purchaseOrderReceipt then
              movement.referenceId.bind costs.purchaseReceiptCosts.get
            else none) with
          | some receiptCost =>
              if receiptCost.warehouseId = warehouseId then
                [⟨delta, receiptCost.unitCost, none, none⟩]
              else []
          | none => []

/-- Change the first element there is. -/
def updateFirst {α : Type} (p : α → Bool) (f : α → α) : List α → List α
  | [] => []
  | a :: rest => if p a then f a :: rest else a :: updateFirst p f rest

/-- The loop of a release: the layers that were refilled, and how much was given back. -/
def restoreParts (delta : ℚ) : List HistoricalCostPart → ℚ → List HistoricalFifoLayer →
    List HistoricalFifoLayer × ℚ
  | [], restoredQuantity, layers => (layers, restoredQuantity)
  | part :: rest, restoredQuantity, layers =>
      match part.sourceMovementId with
      | none => restoreParts delta rest restoredQuantity layers
      | some sourceMovementId =>
          let isSource : HistoricalFifoLayer → Bool := fun layer =>
            layer.sourceMovementId = some sourceMovementId ∧ layer.unitCost = some part.unitCost
          if layers.any isSource then
            let restored := min part.quantity (delta - restoredQuantity)
            if restored ≤ 0 then (layers, restoredQuantity)
            else
              restoreParts delta rest (restoredQuantity + restored)
                (updateFirst isSource (fun layer =>
                  { layer with quantity := layer.quantity + restored }) layers)
          else restoreParts delta rest restoredQuantity layers

/-- The loop of a receipt: the parts that became layers, and how much they cover. -/
def coverParts (delta : ℚ) : List HistoricalCostPart → ℚ → List HistoricalCostPart × ℚ
  | [], coveredQuantity => ([], coveredQuantity)
  | part :: rest, coveredQuantity =>
      let quantity := min part.quantity (delta - coveredQuantity)
      if quantity ≤ 0 then ([], coveredQuantity)
      else
        let covered := coverParts delta rest (coveredQuantity + quantity)
        ({ part with quantity } :: covered.1, covered.2)

def releaseLayers (warehouseId : Option Id) (movement : HistoricalMovementRecord) (delta : ℚ)
    (costParts : List HistoricalCostPart) (layers : List HistoricalFifoLayer) :
    List HistoricalFifoLayer :=
  let restored := restoreParts delta costParts 0 layers
  let untraceableQuantity := delta - restored.2
  if 0 < untraceableQuantity then
    restored.1 ++ [receivedLayer warehouseId movement .legacyReservationRelease
      untraceableQuantity none]
  else restored.1

def receiveLayers (warehouseId : Option Id) (movement : HistoricalMovementRecord) (delta : ℚ)
    (costParts : List HistoricalCostPart) (layers : List HistoricalFifoLayer) :
    List HistoricalFifoLayer :=
  let covered := coverParts delta costParts 0
  let received := layers ++ covered.1.map fun part =>
    receivedLayer warehouseId movement (receivedAs movement) part.quantity (some part.unitCost)
  let unknownQuantity := delta - covered.2
  if 0 < unknownQuantity then
    received ++ [receivedLayer warehouseId movement (receivedAs movement) unknownQuantity none]
  else received

/-- Take from the layers in their order; what is still missing then. -/
def consume : List HistoricalFifoLayer → ℚ → List HistoricalFifoLayer × ℚ
  | [], toConsume => ([], toConsume)
  | layer :: rest, toConsume =>
      if toConsume ≤ 0 then (layer :: rest, toConsume)
      else
        let consumed := min layer.quantity toConsume
        let others := consume rest (toConsume - consumed)
        ({ layer with quantity := layer.quantity - consumed } :: others.1, others.2)

/-- The layers and the quantity after a movement, `none` where it is not reconciled. -/
def replayMovement (costs : ReplayCosts) (warehouseId : Option Id)
    (state : List HistoricalFifoLayer × ℚ) (movement : HistoricalMovementRecord) :
    Option (List HistoricalFifoLayer × ℚ) :=
  let delta := movementQuantityDelta movement.toInventoryMovement
  let ledgerQuantity := movement.afterQuantity.getD (state.2 + delta)
  if ¬ Agrees state.2 movement.beforeQuantity then none
  else if ¬ Agrees (state.2 + delta) movement.afterQuantity then none
  else if 0 < delta then
    let costParts := costPartsOf costs warehouseId movement delta
    if movement.referenceType = some .orderReservationRelease then
      some (releaseLayers warehouseId movement delta costParts state.1, ledgerQuantity)
    else some (receiveLayers warehouseId movement delta costParts state.1, ledgerQuantity)
  else if delta < 0 then
    let consumed := consume state.1 |delta|
    if 0 < consumed.2 then none else some (consumed.1, ledgerQuantity)
  else some (state.1, ledgerQuantity)

/-- The layers of a warehouse, `none` where its history is not reconciled. -/
def replayWarehouse (costs : ReplayCosts) (now : Int) (warehouseId : Option Id)
    (inventoryItemId : Id) (currentQuantity : ℚ) :
    List HistoricalMovementRecord → Option (List HistoricalFifoLayer)
  | [] =>
      if 0 < currentQuantity then
        some [openingLayer warehouseId inventoryItemId currentQuantity now]
      else some []
  | firstMovement :: rest =>
      match firstMovement.beforeQuantity with
      | none => none
      | some before =>
          let opening := if 0 < before then
              [openingLayer warehouseId inventoryItemId before (firstMovement.createdAt - 1)]
            else []
          match (firstMovement :: rest).foldlM (replayMovement costs warehouseId)
              (opening, before) with
          | none => none
          | some (layers, ledgerQuantity) =>
              if historyTolerance < |ledgerQuantity - currentQuantity| ∨
                ledgerQuantity < 0 then none
              else some layers

/-- `openingCostQuantity`. -/
def openingCostQuantity (layers : List HistoricalFifoLayer) : ℚ :=
  ((layers.filter fun layer => layer.unitCost = none).map (·.quantity)).sum

def balanceOfWarehouse (costs : ReplayCosts) (now : Int) (inventoryItemId : Id)
    (warehouseId : Option Id) (currentQuantity : ℚ)
    (warehouseMovements : List HistoricalMovementRecord) : HistoricalFifoBalance :=
  match replayWarehouse costs now warehouseId inventoryItemId currentQuantity
      warehouseMovements with
  | some layers =>
      let remainingLayers := layers.filter fun layer => 0 < layer.quantity
      { warehouseId, currentQuantity, layers := remainingLayers,
        openingCostQuantity := openingCostQuantity remainingLayers, reconciled := true }
  | none =>
      let remainingLayers := if 0 < currentQuantity then
          [openingLayer warehouseId inventoryItemId currentQuantity now]
        else []
      { warehouseId, currentQuantity, layers := remainingLayers,
        openingCostQuantity := openingCostQuantity remainingLayers, reconciled := false }

/-- The movements that are replayed. -/
def historicalMovements (history : History) : List HistoricalMovementRecord :=
  history.movements.filter fun movement => movement.referenceType ≠ some .orderReservation

def movementsByWarehouse (movements : List HistoricalMovementRecord) :
    Lib.OrderedMap (Option Id) (List HistoricalMovementRecord) :=
  movements.foldl (fun byWarehouse movement =>
    byWarehouse.set movement.warehouseId
      ((byWarehouse.get movement.warehouseId).getD [] ++ [movement])) .empty

def mapOf {κ α : Type} [DecidableEq κ] (entries : List (κ × α)) : Lib.OrderedMap κ α :=
  entries.foldl (fun m entry => m.set entry.1 entry.2) .empty

def replayCosts (history : History) : ReplayCosts where
  historicalCostParts :=
    historicalMovementCosts (historicalMovements history) history.transferReceipts
  purchaseReceiptCosts := mapOf history.receiptItems

/-- The warehouses with stock, and then the others with movements. -/
def locationKeys (history : History) (stocks : List (Option Id × ℚ)) : List (Option Id) :=
  (mapOf stocks).keys ++ (movementsByWarehouse (historicalMovements history)).keys.filter
    fun warehouseId => ¬ (mapOf stocks).has warehouseId

def reconstructHistoricalFifo (history : History) (now : Int) (inventoryItemId : Id)
    (stocks : List (Option Id × ℚ)) : List HistoricalFifoBalance :=
  let stockByWarehouse := mapOf stocks
  let byWarehouse := movementsByWarehouse (historicalMovements history)
  (locationKeys history stocks).map fun warehouseId =>
    balanceOfWarehouse (replayCosts history) now inventoryItemId warehouseId
      ((stockByWarehouse.get warehouseId).getD 0) ((byWarehouse.get warehouseId).getD [])

end Inventory
end ERP
