import ERP.Inventory.Replay
import Mathlib.Algebra.Order.BigOperators.Group.List
import Mathlib.Tactic.Linarith

/-!
# The quantities of a replay

The layers of a replay hold exactly what the movements brought in and took out.  The ledger
beside them may be off by the tolerance at every movement, and once more from the stock it
is compared with in the end; so may the layers.
-/

namespace ERP
namespace Inventory

/-- What the layers hold. -/
def layerQuantity (layers : List HistoricalFifoLayer) : ℚ := (layers.map (·.quantity)).sum

section Loops

variable {layers : List HistoricalFifoLayer} {delta q : ℚ}

theorem layerQuantity_cons (layer : HistoricalFifoLayer) (rest : List HistoricalFifoLayer) :
    layerQuantity (layer :: rest) = layer.quantity + layerQuantity rest := by
  unfold layerQuantity
  rw [List.map_cons, List.sum_cons]

theorem layerQuantity_append (front back : List HistoricalFifoLayer) :
    layerQuantity (front ++ back) = layerQuantity front + layerQuantity back := by
  unfold layerQuantity
  rw [List.map_append, List.sum_append]

theorem mem_updateFirst {α : Type} {p : α → Bool} {f : α → α} {xs : List α} {x : α}
    (h : x ∈ updateFirst p f xs) : x ∈ xs ∨ ∃ y ∈ xs, x = f y := by
  induction xs with
  | nil => exact .inl h
  | cons y rest ih =>
      unfold updateFirst at h
      split at h
      · rcases List.mem_cons.mp h with rfl | h
        · exact .inr ⟨y, List.mem_cons_self, rfl⟩
        · exact .inl (List.mem_cons_of_mem y h)
      · rcases List.mem_cons.mp h with rfl | h
        · exact .inl List.mem_cons_self
        · rcases ih h with h | ⟨z, hz, rfl⟩
          · exact .inl (List.mem_cons_of_mem y h)
          · exact .inr ⟨z, List.mem_cons_of_mem y hz, rfl⟩

theorem layerQuantity_updateFirst {p : HistoricalFifoLayer → Bool} (h : layers.any p = true) :
    layerQuantity (updateFirst p (fun layer => { layer with quantity := layer.quantity + q })
      layers) = layerQuantity layers + q := by
  induction layers with
  | nil => exact absurd h (by simp)
  | cons layer rest ih =>
      unfold updateFirst
      by_cases hp : p layer = true
      · rw [if_pos hp, layerQuantity_cons, layerQuantity_cons]
        ring
      · rw [if_neg hp, layerQuantity_cons, layerQuantity_cons, ih]
        · ring
        · rw [List.any_cons, Bool.or_eq_true] at h
          exact h.resolve_left hp

/-- A release gives back no more than `delta`, and what it gives back is in the layers. -/
theorem restoreParts_spec (parts : List HistoricalCostPart) {restored : ℚ}
    (hnonneg : ∀ layer ∈ layers, 0 ≤ layer.quantity) (hle : restored ≤ delta) :
    (∀ layer ∈ (restoreParts delta parts restored layers).1, 0 ≤ layer.quantity) ∧
      (restoreParts delta parts restored layers).2 ≤ delta ∧
      layerQuantity (restoreParts delta parts restored layers).1 =
        layerQuantity layers + ((restoreParts delta parts restored layers).2 - restored) := by
  induction parts generalizing restored layers with
  | nil =>
      refine ⟨hnonneg, hle, ?_⟩
      show _ = _ + (restored - restored)
      rw [sub_self, add_zero]
      rfl
  | cons part rest ih =>
      unfold restoreParts
      cases part.sourceMovementId with
      | none => exact ih hnonneg hle
      | some sourceMovementId =>
          dsimp only
          split
          · rename_i hany
            split
            · refine ⟨hnonneg, hle, ?_⟩
              rw [sub_self, add_zero]
            · rename_i hpos
              rw [not_le] at hpos
              have hmin : restored + min part.quantity (delta - restored) ≤ delta := by
                linarith [min_le_right part.quantity (delta - restored)]
              have hgrown : ∀ layer ∈ updateFirst (fun layer : HistoricalFifoLayer =>
                  layer.sourceMovementId = some sourceMovementId ∧
                    layer.unitCost = some part.unitCost)
                  (fun layer => { layer with
                    quantity := layer.quantity + min part.quantity (delta - restored) }) layers,
                  0 ≤ layer.quantity := by
                intro layer hmem
                rcases mem_updateFirst hmem with hmem | ⟨old, hold, rfl⟩
                · exact hnonneg layer hmem
                · exact add_nonneg (hnonneg old hold) hpos.le
              obtain ⟨hnonneg', hle', hsum⟩ := ih hgrown hmin
              refine ⟨hnonneg', hle', ?_⟩
              rw [hsum, layerQuantity_updateFirst hany]
              ring
          · exact ih hnonneg hle

/-- A receipt becomes layers of something that cover no more than `delta`. -/
theorem coverParts_spec (parts : List HistoricalCostPart) {covered : ℚ} (hle : covered ≤ delta) :
    (∀ part ∈ (coverParts delta parts covered).1, 0 < part.quantity) ∧
      (coverParts delta parts covered).2 ≤ delta ∧
      ((coverParts delta parts covered).1.map (·.quantity)).sum =
        (coverParts delta parts covered).2 - covered := by
  induction parts generalizing covered with
  | nil => exact ⟨fun part hpart => absurd hpart List.not_mem_nil, hle, (sub_self _).symm⟩
  | cons part rest ih =>
      unfold coverParts
      dsimp only
      split
      · exact ⟨fun part hpart => absurd hpart List.not_mem_nil, hle, (sub_self _).symm⟩
      · rename_i hpos
        rw [not_le] at hpos
        have hmin : covered + min part.quantity (delta - covered) ≤ delta := by
          linarith [min_le_right part.quantity (delta - covered)]
        obtain ⟨hpositive, hle', hsum⟩ := ih hmin
        refine ⟨fun new hnew => ?_, hle', ?_⟩
        · rcases List.mem_cons.mp hnew with rfl | hnew
          · exact hpos
          · exact hpositive new hnew
        · rw [List.map_cons, List.sum_cons, hsum]
          ring

theorem consume_spec (hnonneg : ∀ layer ∈ layers, 0 ≤ layer.quantity) (hq : 0 ≤ q) :
    (∀ layer ∈ (consume layers q).1, 0 ≤ layer.quantity) ∧ 0 ≤ (consume layers q).2 ∧
      layerQuantity (consume layers q).1 = layerQuantity layers - (q - (consume layers q).2) := by
  induction layers generalizing q with
  | nil =>
      refine ⟨hnonneg, hq, ?_⟩
      show _ = _ - (q - q)
      rw [sub_self, sub_zero]
      rfl
  | cons layer rest ih =>
      have hlayer := hnonneg layer List.mem_cons_self
      unfold consume
      split
      · refine ⟨hnonneg, hq, ?_⟩
        rw [sub_self, sub_zero]
      · rename_i hmore
        rw [not_le] at hmore
        have hmin := min_le_left layer.quantity q
        have hrest : 0 ≤ q - min layer.quantity q := sub_nonneg.mpr (min_le_right _ _)
        obtain ⟨hnonneg', hleft, hsum⟩ := ih
          (fun other hother => hnonneg other (List.mem_cons_of_mem layer hother)) hrest
        refine ⟨fun other hother => ?_, hleft, ?_⟩
        · rcases List.mem_cons.mp hother with rfl | hother
          · exact sub_nonneg.mpr hmin
          · exact hnonneg' other hother
        · rw [layerQuantity_cons, layerQuantity_cons, hsum]
          ring

end Loops

section Movements

variable {costs : ReplayCosts} {warehouseId : Option Id} {movement : HistoricalMovementRecord}
  {layers : List HistoricalFifoLayer} {delta : ℚ} {parts : List HistoricalCostPart}

theorem releaseLayers_spec (hnonneg : ∀ layer ∈ layers, 0 ≤ layer.quantity) (hdelta : 0 < delta) :
    (∀ layer ∈ releaseLayers warehouseId movement delta parts layers, 0 ≤ layer.quantity) ∧
      layerQuantity (releaseLayers warehouseId movement delta parts layers) =
        layerQuantity layers + delta := by
  obtain ⟨hrestored, hle, hsum⟩ := restoreParts_spec parts hnonneg hdelta.le
  unfold releaseLayers
  dsimp only
  split
  · rename_i hmore
    refine ⟨fun layer hmem => ?_, ?_⟩
    · rcases List.mem_append.mp hmem with hmem | hmem
      · exact hrestored layer hmem
      · rw [List.mem_singleton.mp hmem]
        exact hmore.le
    · rw [layerQuantity_append, hsum]
      show _ + (delta - _ + 0) = _
      ring
  · rename_i hnone
    refine ⟨hrestored, ?_⟩
    rw [hsum]
    linarith

theorem receiveLayers_spec (hnonneg : ∀ layer ∈ layers, 0 ≤ layer.quantity) (hdelta : 0 < delta) :
    (∀ layer ∈ receiveLayers warehouseId movement delta parts layers, 0 ≤ layer.quantity) ∧
      layerQuantity (receiveLayers warehouseId movement delta parts layers) =
        layerQuantity layers + delta := by
  obtain ⟨hpositive, hle, hsum⟩ := coverParts_spec parts hdelta.le
  have hreceived : ∀ layer ∈ layers ++ (coverParts delta parts 0).1.map (fun part =>
      receivedLayer warehouseId movement (receivedAs movement) part.quantity (some part.unitCost)),
      0 ≤ layer.quantity := by
    intro layer hmem
    rcases List.mem_append.mp hmem with hmem | hmem
    · exact hnonneg layer hmem
    · obtain ⟨part, hpart, rfl⟩ := List.mem_map.mp hmem
      exact (hpositive part hpart).le
  have hquantity : layerQuantity (layers ++ (coverParts delta parts 0).1.map (fun part =>
      receivedLayer warehouseId movement (receivedAs movement) part.quantity
        (some part.unitCost))) =
      layerQuantity layers + (coverParts delta parts 0).2 := by
    have hlayers : layerQuantity ((coverParts delta parts 0).1.map fun part =>
        receivedLayer warehouseId movement (receivedAs movement) part.quantity
          (some part.unitCost)) =
        ((coverParts delta parts 0).1.map (·.quantity)).sum :=
      congrArg List.sum (List.map_map ..)
    rw [layerQuantity_append, hlayers, hsum, sub_zero]
  unfold receiveLayers
  dsimp only
  split
  · rename_i hmore
    refine ⟨fun layer hmem => ?_, ?_⟩
    · rcases List.mem_append.mp hmem with hmem | hmem
      · exact hreceived layer hmem
      · rw [List.mem_singleton.mp hmem]
        exact hmore.le
    · rw [layerQuantity_append, hquantity]
      show _ + (delta - _ + 0) = _
      ring
  · rename_i hnone
    refine ⟨hreceived, ?_⟩
    rw [hquantity]
    linarith

/-- After `n` movements the layers hold something each, and together what the ledger says
but for the tolerance of each movement. -/
structure Tracks (n : Nat) (state : List HistoricalFifoLayer × ℚ) : Prop where
  nonneg : ∀ layer ∈ state.1, 0 ≤ layer.quantity
  close : |layerQuantity state.1 - state.2| ≤ n * historyTolerance

theorem historyTolerance_pos : 0 < historyTolerance := by
  unfold historyTolerance
  norm_num

/-- What a movement changes by, the ledger does too, but for the tolerance. -/
theorem ledger_close {ledger : ℚ} {recorded : Option ℚ} (h : Agrees (ledger + delta) recorded) :
    |ledger + delta - recorded.getD (ledger + delta)| ≤ historyTolerance := by
  cases recorded with
  | none =>
      show |ledger + delta - (ledger + delta)| ≤ historyTolerance
      rw [sub_self, abs_zero]
      exact historyTolerance_pos.le
  | some q => exact h

/-- A movement that is reconciled changes the layers by exactly what it changes, and the
ledger to what it recorded. -/
theorem replayMovement_quantity {state state' : List HistoricalFifoLayer × ℚ}
    (hnonneg : ∀ layer ∈ state.1, 0 ≤ layer.quantity)
    (h : replayMovement costs warehouseId state movement = some state') :
    (∀ layer ∈ state'.1, 0 ≤ layer.quantity) ∧
      layerQuantity state'.1 =
        layerQuantity state.1 + movementQuantityDelta movement.toInventoryMovement ∧
      state'.2 = movement.afterQuantity.getD
        (state.2 + movementQuantityDelta movement.toInventoryMovement) ∧
      Agrees (state.2 + movementQuantityDelta movement.toInventoryMovement)
        movement.afterQuantity := by
  unfold replayMovement at h
  dsimp only at h
  split at h
  · cases h
  split at h
  · cases h
  rename_i hafter
  have hafter := not_not.mp hafter
  split at h
  · rename_i hdelta
    split at h
    · cases h
      obtain ⟨hnonneg', hsum⟩ := releaseLayers_spec hnonneg hdelta
      exact ⟨hnonneg', hsum, rfl, hafter⟩
    · cases h
      obtain ⟨hnonneg', hsum⟩ := receiveLayers_spec hnonneg hdelta
      exact ⟨hnonneg', hsum, rfl, hafter⟩
  · rename_i hdelta
    split at h
    · rename_i hneg
      split at h
      · cases h
      · rename_i hnone
        cases h
        obtain ⟨hnonneg', hleft, hsum⟩ := consume_spec hnonneg (abs_nonneg
          (movementQuantityDelta movement.toInventoryMovement))
        refine ⟨hnonneg', ?_, rfl, hafter⟩
        -- nothing is missing
        have hzero : (consume state.1 |movementQuantityDelta movement.toInventoryMovement|).2 = 0 :=
          le_antisymm (not_lt.mp hnone) hleft
        rw [hsum, hzero, abs_of_neg hneg]
        ring
    · rename_i hneg
      cases h
      refine ⟨hnonneg, ?_, rfl, hafter⟩
      have hzero : movementQuantityDelta movement.toInventoryMovement = 0 :=
        le_antisymm (not_lt.mp hdelta) (not_lt.mp hneg)
      show layerQuantity state.1 = layerQuantity state.1 + _
      rw [hzero, add_zero]

/-- And so do all movements of a warehouse together. -/
theorem replay_quantity {movements : List HistoricalMovementRecord}
    {state state' : List HistoricalFifoLayer × ℚ}
    (hnonneg : ∀ layer ∈ state.1, 0 ≤ layer.quantity)
    (h : movements.foldlM (replayMovement costs warehouseId) state = some state') :
    (∀ layer ∈ state'.1, 0 ≤ layer.quantity) ∧ layerQuantity state'.1 = layerQuantity state.1 +
      (movements.map fun movement => movementQuantityDelta movement.toInventoryMovement).sum := by
  induction movements generalizing state with
  | nil =>
      cases h
      exact ⟨hnonneg, (add_zero _).symm⟩
  | cons movement rest ih =>
      rw [List.foldlM_cons] at h
      obtain ⟨next, hmovement, hrest⟩ := Option.bind_eq_some_iff.mp h
      obtain ⟨hnonneg', hsum, -⟩ := replayMovement_quantity hnonneg hmovement
      obtain ⟨hlayers, hquantity⟩ := ih hnonneg' hrest
      refine ⟨hlayers, ?_⟩
      rw [hquantity, hsum, List.map_cons, List.sum_cons, add_assoc]

theorem Tracks.step {n : Nat} {state state' : List HistoricalFifoLayer × ℚ} (h : Tracks n state)
    (hmovement : replayMovement costs warehouseId state movement = some state') :
    Tracks (n + 1) state' := by
  obtain ⟨hnonneg, hsum, hledger, hafter⟩ := replayMovement_quantity h.nonneg hmovement
  refine ⟨hnonneg, ?_⟩
  have hclose := ledger_close hafter
  rw [← hledger] at hclose
  have hsplit : layerQuantity state'.1 - state'.2 = layerQuantity state.1 - state.2 +
      (state.2 + movementQuantityDelta movement.toInventoryMovement - state'.2) := by
    rw [hsum]
    ring
  calc |layerQuantity state'.1 - state'.2|
      ≤ |layerQuantity state.1 - state.2| +
          |state.2 + movementQuantityDelta movement.toInventoryMovement - state'.2| := by
        rw [hsplit]
        exact abs_add_le _ _
    _ ≤ n * historyTolerance + historyTolerance := add_le_add h.close hclose
    _ = ((n + 1 : ℕ) : ℚ) * historyTolerance := by
        push_cast
        ring

theorem Tracks.replay {n : Nat} {movements : List HistoricalMovementRecord}
    {state state' : List HistoricalFifoLayer × ℚ} (h : Tracks n state)
    (hreplay : movements.foldlM (replayMovement costs warehouseId) state = some state') :
    Tracks (n + movements.length) state' := by
  induction movements generalizing n state with
  | nil =>
      cases hreplay
      exact h
  | cons movement rest ih =>
      rw [List.foldlM_cons] at hreplay
      obtain ⟨next, hmovement, hrest⟩ := Option.bind_eq_some_iff.mp hreplay
      have htracks := ih (h.step hmovement) hrest
      rw [List.length_cons, Nat.add_comm rest.length, ← Nat.add_assoc]
      exact htracks

end Movements

section Balances

variable {costs : ReplayCosts} {now : Int} {inventoryItemId : Id} {warehouseId : Option Id}
  {currentQuantity : ℚ} {movements : List HistoricalMovementRecord}

theorem layerQuantity_positive (layers : List HistoricalFifoLayer)
    (hnonneg : ∀ layer ∈ layers, 0 ≤ layer.quantity) :
    layerQuantity (layers.filter fun layer => 0 < layer.quantity) = layerQuantity layers := by
  induction layers with
  | nil => rfl
  | cons layer rest ih =>
      have hrest := ih fun other hother => hnonneg other (List.mem_cons_of_mem layer hother)
      rw [List.filter_cons, layerQuantity_cons]
      split
      · rw [layerQuantity_cons, hrest]
      · rename_i hzero
        have hlayer := hnonneg layer List.mem_cons_self
        rw [hrest, le_antisymm (not_lt.mp fun h => hzero (decide_eq_true h)) hlayer, zero_add]

theorem opening_tracks {before : ℚ} (hbefore : 0 ≤ before) (createdAt : Int) :
    Tracks 0 (if 0 < before then [openingLayer warehouseId inventoryItemId before createdAt]
      else [], before) := by
  split
  · refine ⟨fun layer hmem => ?_, ?_⟩
    · rw [List.mem_singleton.mp hmem]
      exact hbefore
    · show |before + 0 - before| ≤ _
      rw [add_zero, sub_self, abs_zero, Nat.cast_zero, zero_mul]
  · rename_i hzero
    refine ⟨fun layer hmem => absurd hmem List.not_mem_nil, ?_⟩
    rw [le_antisymm (not_lt.mp hzero) hbefore]
    show |0 - (0 : ℚ)| ≤ _
    rw [sub_self, abs_zero, Nat.cast_zero, zero_mul]

/-- What the history of a warehouse leaves there: what it says where it is reconciled, and
otherwise the stock there is. -/
def historicalQuantity (costs : ReplayCosts) (now : Int) (warehouseId : Option Id)
    (inventoryItemId : Id) (currentQuantity : ℚ) (movements : List HistoricalMovementRecord) : ℚ :=
  match movements with
  | [] => currentQuantity
  | firstMovement :: _ =>
      if (replayWarehouse costs now warehouseId inventoryItemId currentQuantity
          movements).isSome then
        max (firstMovement.beforeQuantity.getD 0) 0 +
          (movements.map fun movement => movementQuantityDelta movement.toInventoryMovement).sum
      else currentQuantity

theorem replayWarehouse_quantity {layers : List HistoricalFifoLayer}
    (hcurrent : 0 ≤ currentQuantity)
    (h : replayWarehouse costs now warehouseId inventoryItemId currentQuantity movements =
      some layers) :
    (∀ layer ∈ layers, 0 ≤ layer.quantity) ∧ layerQuantity layers =
      historicalQuantity costs now warehouseId inventoryItemId currentQuantity movements := by
  unfold historicalQuantity
  cases movements with
  | nil =>
      unfold replayWarehouse at h
      dsimp only at h
      split at h
      · cases h
        refine ⟨fun layer hmem => ?_, add_zero currentQuantity⟩
        rw [List.mem_singleton.mp hmem]
        exact hcurrent
      · rename_i hnone
        cases h
        refine ⟨fun layer hmem => absurd hmem List.not_mem_nil, ?_⟩
        exact (le_antisymm (not_lt.mp hnone) hcurrent).symm
  | cons firstMovement rest =>
      dsimp only
      rw [h, if_pos (by rfl)]
      unfold replayWarehouse at h
      dsimp only at h
      cases hfirst : firstMovement.beforeQuantity with
      | none =>
          rw [hfirst] at h
          cases h
      | some before =>
          rw [hfirst] at h
          dsimp only at h
          have hopening : (∀ layer ∈ (if 0 < before then [openingLayer warehouseId inventoryItemId
              before (firstMovement.createdAt - 1)] else []), 0 ≤ layer.quantity) ∧
              layerQuantity (if 0 < before then [openingLayer warehouseId inventoryItemId
                before (firstMovement.createdAt - 1)] else []) = max before 0 := by
            split
            · rename_i hpos
              refine ⟨fun layer hmem => ?_, ?_⟩
              · rw [List.mem_singleton.mp hmem]
                exact hpos.le
              · rw [max_eq_left hpos.le]
                exact add_zero before
            · rename_i hnone
              refine ⟨fun layer hmem => absurd hmem List.not_mem_nil, ?_⟩
              exact (max_eq_right (not_lt.mp hnone)).symm
          split at h
          · cases h
          · rename_i replayed ledgerQuantity hreplay
            split at h
            · cases h
            · cases h
              obtain ⟨hnonneg, hquantity⟩ := replay_quantity hopening.1 hreplay
              refine ⟨hnonneg, ?_⟩
              rw [hquantity, hopening.2, Option.getD_some]

/-- The layers of a reconciled warehouse hold its stock, but for the tolerance of each of its
movements and once more. -/
theorem replayWarehouse_spec {layers : List HistoricalFifoLayer}
    (hbefore : ∀ movement ∈ movements, ∀ q, movement.beforeQuantity = some q → 0 ≤ q)
    (hcurrent : 0 ≤ currentQuantity)
    (h : replayWarehouse costs now warehouseId inventoryItemId currentQuantity movements =
      some layers) :
    (∀ layer ∈ layers, 0 ≤ layer.quantity) ∧
      |layerQuantity layers - currentQuantity| ≤ (movements.length + 1) * historyTolerance := by
  cases movements with
  | nil =>
      unfold replayWarehouse at h
      dsimp only at h
      have hzero : |currentQuantity - currentQuantity| ≤
          (([] : List HistoricalMovementRecord).length + 1) * historyTolerance := by
        rw [sub_self, abs_zero]
        exact mul_nonneg (by positivity) historyTolerance_pos.le
      split at h
      · cases h
        refine ⟨fun layer hmem => ?_, ?_⟩
        · rw [List.mem_singleton.mp hmem]
          exact hcurrent
        · show |currentQuantity + 0 - currentQuantity| ≤ _
          rw [add_zero]
          exact hzero
      · rename_i hnone
        cases h
        refine ⟨fun layer hmem => absurd hmem List.not_mem_nil, ?_⟩
        rw [le_antisymm (not_lt.mp hnone) hcurrent] at hzero ⊢
        exact hzero
  | cons firstMovement rest =>
      unfold replayWarehouse at h
      dsimp only at h
      cases hfirst : firstMovement.beforeQuantity with
      | none =>
          rw [hfirst] at h
          cases h
      | some before =>
          rw [hfirst] at h
          dsimp only at h
          have hopening : Tracks 0 (if 0 < before then [openingLayer warehouseId inventoryItemId
              before (firstMovement.createdAt - 1)] else [], before) :=
            opening_tracks (hbefore firstMovement List.mem_cons_self before hfirst) _
          split at h
          · cases h
          · rename_i replayed ledgerQuantity hreplay
            split at h
            · cases h
            · rename_i hclose
              cases h
              obtain ⟨hnonneg, htracks⟩ := hopening.replay hreplay
              refine ⟨hnonneg, ?_⟩
              rw [not_or, not_lt] at hclose
              calc |layerQuantity layers - currentQuantity|
                  ≤ |layerQuantity layers - ledgerQuantity| +
                      |ledgerQuantity - currentQuantity| := abs_sub_le _ _ _
                _ ≤ ((0 + (firstMovement :: rest).length : ℕ) : ℚ) * historyTolerance +
                  historyTolerance :=
                  add_le_add htracks hclose.1
                _ = ((firstMovement :: rest).length + 1) * historyTolerance := by
                  rw [Nat.zero_add]
                  ring

/-- What the layers of a balance hold, reconciled or not. -/
theorem balanceOfWarehouse_quantity (hcurrent : 0 ≤ currentQuantity) :
    layerQuantity (balanceOfWarehouse costs now inventoryItemId warehouseId currentQuantity
      movements).layers =
    historicalQuantity costs now warehouseId inventoryItemId currentQuantity movements := by
  unfold balanceOfWarehouse
  cases hreplay : replayWarehouse costs now warehouseId inventoryItemId currentQuantity
    movements with
  | some layers =>
      obtain ⟨hnonneg, hquantity⟩ := replayWarehouse_quantity hcurrent hreplay
      exact (layerQuantity_positive layers hnonneg).trans hquantity
  | none =>
      have hstock : historicalQuantity costs now warehouseId inventoryItemId currentQuantity
          movements = currentQuantity := by
        unfold historicalQuantity
        cases movements with
        | nil => rfl
        | cons firstMovement rest =>
            dsimp only
            rw [hreplay]
            rfl
      rw [hstock]
      dsimp only
      split
      · exact add_zero currentQuantity
      · rename_i hnone
        exact (le_antisymm (not_lt.mp hnone) hcurrent).symm

/-- What a balance says of its layers. -/
structure Conserves (movements : List HistoricalMovementRecord) (balance : HistoricalFifoBalance) :
    Prop where
  positive : balance.reconciled = true → ∀ layer ∈ balance.layers, 0 < layer.quantity
  close : balance.reconciled = true →
    |layerQuantity balance.layers - balance.currentQuantity| ≤
      (movements.length + 1) * historyTolerance
  opening : balance.openingCostQuantity =
    ((balance.layers.filter fun layer => layer.unitCost = none).map (·.quantity)).sum
  unreconciled : balance.reconciled = false →
    (0 < balance.currentQuantity ∧ ∃ layer, balance.layers = [layer] ∧ layer.unitCost = none ∧
      layer.quantity = balance.currentQuantity) ∨
    ¬ 0 < balance.currentQuantity ∧ balance.layers = []

theorem balanceOfWarehouse_warehouseId : (balanceOfWarehouse costs now inventoryItemId warehouseId
    currentQuantity movements).warehouseId = warehouseId := by
  unfold balanceOfWarehouse
  split
  · rfl
  · rfl

theorem balanceOfWarehouse_conserves
    (hbefore : ∀ movement ∈ movements, ∀ q, movement.beforeQuantity = some q → 0 ≤ q)
    (hcurrent : 0 ≤ currentQuantity) :
    Conserves movements (balanceOfWarehouse costs now inventoryItemId warehouseId
      currentQuantity movements) := by
  unfold balanceOfWarehouse
  cases hreplay : replayWarehouse costs now warehouseId inventoryItemId currentQuantity
    movements with
  | some layers =>
      obtain ⟨hnonneg, hclose⟩ := replayWarehouse_spec hbefore hcurrent hreplay
      refine ⟨fun _ layer hmem => ?_, fun _ => ?_, rfl, fun h => Bool.noConfusion h⟩
      · exact of_decide_eq_true (List.mem_filter.mp hmem).2
      · show |layerQuantity (layers.filter fun layer => 0 < layer.quantity) - _| ≤ _
        rw [layerQuantity_positive layers hnonneg]
        exact hclose
  | none =>
      refine ⟨fun h => Bool.noConfusion h, fun h => Bool.noConfusion h, rfl, fun _ => ?_⟩
      by_cases hsome : 0 < currentQuantity
      · refine .inl ⟨hsome, openingLayer warehouseId inventoryItemId currentQuantity
          now, ?_, rfl, rfl⟩
        exact if_pos hsome
      · exact .inr ⟨hsome, if_neg hsome⟩

end Balances

section Warehouses

variable {κ α : Type} [DecidableEq κ]

theorem mem_or_of_foldl_set {entries : List (κ × α)} {m : Lib.OrderedMap κ α} {k : κ} {a : α}
    (h : (entries.foldl (fun m entry => m.set entry.1 entry.2) m).get k = some a) :
    (k, a) ∈ entries ∨ m.get k = some a := by
  induction entries generalizing m with
  | nil => exact .inr h
  | cons entry rest ih =>
      rcases ih h with hmem | hget
      · exact .inl (List.mem_cons_of_mem entry hmem)
      · rw [Lib.OrderedMap.get_set] at hget
        split at hget
        · rename_i hk
          cases hget
          rw [hk]
          exact .inl List.mem_cons_self
        · exact .inr hget

/-- What a map holds that was made from entries is one of them. -/
theorem mem_of_mapOf {entries : List (κ × α)} {k : κ} {a : α} (h : (mapOf entries).get k = some a) :
    (k, a) ∈ entries := by
  rcases mem_or_of_foldl_set h with hmem | hget
  · exact hmem
  · rw [Lib.OrderedMap.get_empty] at hget
    cases hget

/-- The movements of a warehouse, in their order. -/
theorem movementsByWarehouse_get (movements : List HistoricalMovementRecord)
    (warehouseId : Option Id) :
    ((movementsByWarehouse movements).get warehouseId).getD [] =
      movements.filter fun movement => movement.warehouseId = warehouseId := by
  have hfold (m : Lib.OrderedMap (Option Id) (List HistoricalMovementRecord)) :
      ((movements.foldl (fun byWarehouse movement =>
        byWarehouse.set movement.warehouseId
          ((byWarehouse.get movement.warehouseId).getD [] ++ [movement])) m).get
            warehouseId).getD []
        = (m.get warehouseId).getD [] ++
          movements.filter fun movement => movement.warehouseId = warehouseId := by
    induction movements generalizing m with
    | nil => exact (List.append_nil _).symm
    | cons movement rest ih =>
        rw [List.foldl_cons, ih, Lib.OrderedMap.get_set, List.filter_cons]
        by_cases hwarehouse : warehouseId = movement.warehouseId
        · rw [if_pos hwarehouse, if_pos (decide_eq_true hwarehouse.symm), hwarehouse,
            Option.getD_some, List.append_assoc]
          rfl
        · rw [if_neg hwarehouse, if_neg (by simpa using Ne.symm hwarehouse)]
  unfold movementsByWarehouse
  rw [hfold]
  rfl

end Warehouses

/-- The replay conserves quantities: where a warehouse is reconciled, its layers are of
something each and hold its stock but for the tolerance of each of its replayed movements and
once more; where it is not, there is one layer without a cost for the whole stock. -/
theorem reconstructHistoricalFifo_conserves (history : History) (now : Int) (inventoryItemId : Id)
    (stocks : List (Option Id × ℚ))
    (hrecorded : ∀ movement ∈ history.movements, ∀ q,
      movement.beforeQuantity = some q ∨ movement.afterQuantity = some q → 0 ≤ q)
    (hstocks : ∀ stock ∈ stocks, 0 ≤ stock.2) :
    ∀ balance ∈ reconstructHistoricalFifo history now inventoryItemId stocks,
      Conserves ((historicalMovements history).filter fun movement =>
        movement.warehouseId = balance.warehouseId) balance := by
  intro balance hbalance
  obtain ⟨warehouseId, -, rfl⟩ := List.mem_map.mp hbalance
  rw [balanceOfWarehouse_warehouseId, movementsByWarehouse_get]
  refine balanceOfWarehouse_conserves (fun movement hmem q hq => ?_) ?_
  · have hhistorical := (List.mem_filter.mp (List.mem_filter.mp hmem).1).1
    exact hrecorded movement hhistorical q (.inl hq)
  · cases hstock : (mapOf stocks).get warehouseId with
    | none => exact le_refl 0
    | some q => exact hstocks (warehouseId, q) (mem_of_mapOf hstock)

/-- Ten received at a unit cost, and then four sold. -/
def tenReceived : HistoricalMovementRecord where
  id := 20
  tenantId := 1
  type := .stockIn
  quantity := 10
  beforeQuantity := some 0
  afterQuantity := some 10
  inventoryItemId := 5
  referenceId := none
  referenceType := none
  warehouseId := some 2
  unitCost := some 300
  totalCost := some 3000
  createdAt := 1
  costAllocations := []

def fourSold : HistoricalMovementRecord :=
  { tenReceived with
    id := 21, type := .sale, quantity := 4, beforeQuantity := some 10, afterQuantity := some 6,
    unitCost := none, totalCost := none, createdAt := 2 }

def beansHistory : History where
  movements := [tenReceived, fourSold]
  receiptItems := []
  transferReceipts := []

theorem reconstructHistoricalFifo_conserves_beans :
    ∃ balance ∈ reconstructHistoricalFifo beansHistory 3 5 [(some 2, 6)],
      balance.reconciled = true ∧ layerQuantity balance.layers = 6 ∧
        Conserves ((historicalMovements beansHistory).filter fun movement =>
          movement.warehouseId = balance.warehouseId) balance := by
  have hrecorded : ∀ movement ∈ beansHistory.movements, ∀ q,
      movement.beforeQuantity = some q ∨ movement.afterQuantity = some q → 0 ≤ q := by
    intro movement hmem q hq
    rcases List.mem_pair.mp hmem with rfl | rfl
    · rcases hq with hq | hq
      · cases hq
        decide
      · cases hq
        decide
    · rcases hq with hq | hq
      · cases hq
        decide
      · cases hq
        decide
  have hstocks : ∀ stock ∈ [(some 2, (6 : ℚ))], 0 ≤ stock.2 := by
    intro stock hmem
    rw [List.mem_singleton.mp hmem]
    decide
  have hconserves := reconstructHistoricalFifo_conserves beansHistory 3 5 [(some 2, 6)] hrecorded
    hstocks
  refine ⟨_, List.mem_cons_self, by decide +kernel, by decide +kernel, ?_⟩
  exact hconserves _ List.mem_cons_self

end Inventory
end ERP
