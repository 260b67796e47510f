import ERP.Inventory.Replay

/-!
# Replaying the averages of an item

`InventoryCostingService.reconstructHistoricalMovingAverage`: the moving average of each
warehouse and of the item, as the recorded movements make it.  The loop goes through all
movements, the active reservations included; what is replayed and where it starts comes from
the others.
-/

namespace ERP
namespace Inventory

structure HistoricalMovingAverageBalance where
  warehouseId : Option Id
  currentQuantity : ℚ
  warehouseAverageUnitCost : Option ℚ
  warehouseReconciled : Bool
  itemOpeningCostQuantity : ℚ
  warehouseOpeningCostQuantity : ℚ
  deriving DecidableEq, Repr

structure HistoricalMovingAverage where
  itemAverageUnitCost : Option ℚ
  itemReconciled : Bool
  balances : List HistoricalMovingAverageBalance
  deriving DecidableEq, Repr

structure AverageState where
  quantity : ℚ
  averageUnitCost : Option ℚ
  deriving DecidableEq, Repr

/-- The variables of the loop. -/
structure AverageReplay where
  warehouseStates : Lib.OrderedMap (Option Id) AverageState
  itemStates : AverageState
  itemReconciled : Bool
  warehouseReconciled : Lib.OrderedMap (Option Id) Bool

/-- The average after `delta` came in at `cost`. -/
def AverageState.receive (state : AverageState) (delta : ℚ) : Option ℚ → AverageState
  | none => { state with averageUnitCost := none }
  | some cost =>
      if state.quantity = 0 then { state with averageUnitCost := some cost }
      else
        { state with
          averageUnitCost := state.averageUnitCost.map fun average =>
            (state.quantity * average + delta * cost) / (state.quantity + delta) }

def AverageState.add (state : AverageState) (delta : ℚ) : AverageState where
  quantity := state.quantity + delta
  averageUnitCost := if state.quantity + delta = 0 then none else state.averageUnitCost

/-- What a movement that brought something in is replayed at. -/
def replayUnitCost (costs : ReplayCosts) (movement : HistoricalMovementRecord) : Option ℚ :=
  ((costs.historicalCostParts.get movement.id).bind (·.unitCost)).or
    (movement.unitCost.or
      ((if movement.referenceType = some .purchaseOrderReceipt then
          movement.referenceId.bind costs.purchaseReceiptCosts.get
        else none).bind fun receiptCost =>
          if receiptCost.warehouseId = movement.warehouseId then some receiptCost.unitCost
          else none))

/-- Where a warehouse starts: at what its first movement recorded, or at its stock. -/
def AverageReplay.start (replay : AverageReplay) (warehouseId : Option Id) (currentQuantity : ℚ)
    (warehouseMovements : List HistoricalMovementRecord) : AverageReplay :=
  match (match warehouseMovements with
    | [] => some currentQuantity
    | firstMovement :: _ => firstMovement.beforeQuantity) with
  | none =>
      { replay with
        itemReconciled := false
        warehouseStates := replay.warehouseStates.set warehouseId ⟨currentQuantity, none⟩ }
  | some quantity =>
      { replay with
        warehouseStates := replay.warehouseStates.set warehouseId ⟨quantity, none⟩
        itemStates :=
          { replay.itemStates with quantity := replay.itemStates.quantity + quantity } }

/-- A movement that does not fit is left out, and its warehouse and the item with it. -/
def AverageReplay.skip (replay : AverageReplay) (warehouseId : Option Id) : AverageReplay :=
  { replay with
    itemReconciled := false
    warehouseReconciled := replay.warehouseReconciled.set warehouseId false }

def AverageReplay.step (costs : ReplayCosts) (replay : AverageReplay)
    (movement : HistoricalMovementRecord) : AverageReplay :=
  match replay.warehouseStates.get movement.warehouseId with
  | none => replay.skip movement.warehouseId
  | some state =>
      let delta := movementQuantityDelta movement.toInventoryMovement
      if ¬ Agrees state.quantity movement.beforeQuantity ∨
          ¬ Agrees (state.quantity + delta) movement.afterQuantity then
        replay.skip movement.warehouseId
      else
        let received := if 0 < delta then state.receive delta (replayUnitCost costs movement)
          else state
        let itemReceived :=
          if 0 < delta then replay.itemStates.receive delta (replayUnitCost costs movement)
          else replay.itemStates
        if state.quantity + delta < 0 ∨ replay.itemStates.quantity + delta < 0 then
          AverageReplay.skip
            { replay with
              warehouseStates := replay.warehouseStates.set movement.warehouseId received
              itemStates := itemReceived } movement.warehouseId
        else
          { replay with
            warehouseStates :=
              replay.warehouseStates.set movement.warehouseId (received.add delta)
            itemStates := itemReceived.add delta }

/-- Whether the quantity that was replayed is the one in stock. -/
def LedgerMatches (quantity currentQuantity : ℚ) : Prop :=
  |quantity - currentQuantity| ≤ historyTolerance

instance (quantity currentQuantity : ℚ) : Decidable (LedgerMatches quantity currentQuantity) :=
  inferInstanceAs (Decidable (_ ≤ _))

def averageBalanceOf (replay : AverageReplay) (warehouseId : Option Id) (currentQuantity : ℚ) :
    HistoricalMovingAverageBalance :=
  let state := (replay.warehouseStates.get warehouseId).getD ⟨0, none⟩
  let reconciled := (replay.warehouseReconciled.get warehouseId).getD false
  let warehouseCanReplay : Bool := LedgerMatches state.quantity currentQuantity ∧
    ¬ (0 < currentQuantity ∧ reconciled = false) ∧
    ¬ (0 < currentQuantity ∧ state.averageUnitCost = none)
  { warehouseId, currentQuantity
    warehouseAverageUnitCost := if warehouseCanReplay then state.averageUnitCost else none
    warehouseReconciled := warehouseCanReplay
    warehouseOpeningCostQuantity := if warehouseCanReplay then 0 else max currentQuantity 0
    itemOpeningCostQuantity := 0 }

def reconstructHistoricalMovingAverage (history : History) (stocks : List (Option Id × ℚ)) :
    HistoricalMovingAverage :=
  let stockByWarehouse := mapOf stocks
  let byWarehouse := movementsByWarehouse (historicalMovements history)
  let keys := locationKeys history stocks
  let currentQuantity (warehouseId : Option Id) : ℚ := (stockByWarehouse.get warehouseId).getD 0
  let start : AverageReplay :=
    { warehouseStates := .empty, itemStates := ⟨0, none⟩, itemReconciled := true,
      warehouseReconciled := mapOf (keys.map fun warehouseId => (warehouseId, true)) }
  let started := keys.foldl (fun replay warehouseId =>
    replay.start warehouseId (currentQuantity warehouseId)
      ((byWarehouse.get warehouseId).getD [])) start
  let replayed := history.movements.foldl (AverageReplay.step (replayCosts history)) started
  let balances := keys.map fun warehouseId =>
    averageBalanceOf replayed warehouseId (currentQuantity warehouseId)
  let ledgersMatch : Bool := keys.all fun warehouseId =>
    LedgerMatches ((replayed.warehouseStates.get warehouseId).getD ⟨0, none⟩).quantity
      (currentQuantity warehouseId)
  let totalCurrentQuantity := (stocks.map (·.2)).sum
  let itemCanReplay : Bool := (replayed.itemReconciled && ledgersMatch) = true ∧
    LedgerMatches replayed.itemStates.quantity totalCurrentQuantity ∧
    (totalCurrentQuantity ≤ 0 ∨ replayed.itemStates.averageUnitCost ≠ none)
  { itemAverageUnitCost := if itemCanReplay then replayed.itemStates.averageUnitCost else none
    itemReconciled := itemCanReplay
    balances :=
      if itemCanReplay then balances
      else balances.map fun balance =>
        { balance with itemOpeningCostQuantity := max balance.currentQuantity 0 } }

end Inventory
end ERP
