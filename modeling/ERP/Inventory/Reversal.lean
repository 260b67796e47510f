import ERP.Inventory.RestoreRuns

/-!
# Restoring what was issued

The stock of an issued movement comes back, and `restore` gives it the cost it left with:
to the layers it was taken from, or to the average.
-/

namespace ERP
namespace Inventory

open Lib.Tx

/-- The stock of a movement comes back, and a movement is recorded for it. -/
structure Return (db : DB) where
  input : RestoreInput
  movement : InventoryMovement
  quantity_pos : 0 < input.quantity
  movementId : movement.id = input.reversalMovementId
  fresh : ∀ m ∈ db.movements, m.id ≠ input.reversalMovementId
  unallocated : db.allocationsOf input.reversalMovementId = []

/-- The database `restore` is called on. -/
def Return.booked {db : DB} (e : Return db) : DB :=
  (db.addStock e.input.warehouseId e.input.inventoryItemId e.input.quantity).record e.movement

/-- It is the stock of this issue. -/
structure Return.Of {db : DB} (e : Return db) (input : IssueInput) : Prop where
  tenant : e.input.tenantId = input.tenantId
  item : e.input.inventoryItemId = input.inventoryItemId
  source : e.input.sourceMovementId = input.movementId

/-- The reversal has the allocations and the cost of the issue. -/
structure Reversed (db : DB) (movementId reversalId : Id) (r : InventoryIssueCost) : Prop where
  source : (db.allocationsOf movementId).map rowCost = r.allocations
  allocations : ((db.allocationsOf reversalId).map rowCost).Perm r.allocations
  sourceCost : (db.movementById movementId).bind (·.totalCost) = some r.totalCost
  totalCost : (db.movementById reversalId).bind (·.totalCost) = some r.totalCost

/-- The stock rows differ in id and none is negative. -/
structure StockRows (db : DB) : Prop where
  ids : db.stocks.Pairwise fun r s => r.id ≠ s.id
  nonneg : ∀ r ∈ db.stocks, 0 ≤ r.quantity

section Stock

variable {db : DB} {w : Option Id} {i : Id} {q : ℚ} {item : InventoryItem}

/-- The row an item gets at a location that has none. -/
def openedStock (db : DB) (w : Option Id) (i : Id) (q : ℚ) : InventoryStock where
  id := db.nextId
  warehouseId := w
  inventoryItemId := i
  quantity := q
  averageUnitCost := none

theorem onHand_addStock (hids : db.stocks.Pairwise fun r s => r.id ≠ s.id) :
    onHand (db.addStock w i q) i = onHand db i + q := by
  unfold onHand DB.addStock
  cases hat : db.stockAt w i with
  | some row =>
      have hkey := List.find?_some hat
      rw [decide_eq_true_eq] at hkey
      show (((db.stocks.map fun r => if r.id = row.id then { r with quantity := r.quantity + q }
        else r).filter fun r => r.inventoryItemId = i).map (·.quantity)).sum = _
      rw [Lib.sum_filter_eq, Lib.sum_filter_eq,
        Lib.sum_update_of_ne hids (List.mem_of_find?_eq_some hat)]
      simp only [hkey.2, if_true, add_sub_cancel_left]
  | none =>
      show (((db.stocks ++ [openedStock db w i q]).filter fun r => r.inventoryItemId = i).map
        (·.quantity)).sum = _
      rw [List.filter_append, List.map_append, List.sum_append]
      simp [openedStock]

theorem stockAt_addStock : (db.addStock w i q).stockAt w i =
    some ((db.stockAt w i).elim (openedStock db w i q)
      fun row => { row with quantity := row.quantity + q }) := by
  unfold DB.addStock
  cases hat : db.stockAt w i with
  | some row =>
      show List.find? _ (db.stocks.map fun r => if r.id = row.id then
        { r with quantity := r.quantity + q } else r) = _
      rw [List.find?_map]
      have hsame : ((fun r : InventoryStock => decide (r.warehouseId = w ∧ r.inventoryItemId = i)) ∘
          fun r => if r.id = row.id then { r with quantity := r.quantity + q } else r) =
          fun r => decide (r.warehouseId = w ∧ r.inventoryItemId = i) := by
        funext r
        simp only [Function.comp]
        split <;> rfl
      have hfound : db.stocks.find? (fun r => r.warehouseId = w ∧ r.inventoryItemId = i) =
          some row := hat
      rw [hsame, hfound, Option.map_some, if_pos rfl]
      rfl
  | none =>
      show List.find? _ (db.stocks ++ [openedStock db w i q]) = _
      have hfound : db.stocks.find? (fun r => r.warehouseId = w ∧ r.inventoryItemId = i) = none :=
        hat
      rw [List.find?_append, hfound]
      simp [openedStock]

theorem stockBefore_addStock : (db.addStock w i q).stockBefore w i = db.stockBefore w i + q := by
  unfold DB.stockBefore
  rw [stockAt_addStock]
  cases db.stockAt w i with
  | some row => rfl
  | none => exact (zero_add q).symm

theorem averagedQuantity_booked (hids : db.stocks.Pairwise fun r s => r.id ≠ s.id)
    (m : InventoryMovement) : averagedQuantity ((db.addStock w item.id q).record m) item w =
      averagedQuantity db item w + q := by
  unfold averagedQuantity
  split
  · exact onHand_addStock hids
  · exact stockBefore_addStock

theorem averageAt_booked (m : InventoryMovement) :
    averageAt ((db.addStock w item.id q).record m) item w = averageAt db item w := by
  unfold averageAt
  split
  · rfl
  · show ((db.addStock w item.id q).stockAt w item.id).bind (·.averageUnitCost) = _
    rw [stockAt_addStock]
    cases db.stockAt w item.id with
    | some row => rfl
    | none => rfl

theorem averagedQuantity_nonneg (h : StockRows db) : 0 ≤ averagedQuantity db item w := by
  unfold averagedQuantity
  split
  · refine List.sum_nonneg fun q hq => ?_
    obtain ⟨row, hrow, rfl⟩ := List.mem_map.mp hq
    exact h.nonneg row (List.mem_of_mem_filter hrow)
  · unfold DB.stockBefore
    cases hat : db.stockAt w item.id with
    | none => exact le_refl 0
    | some row => exact h.nonneg row (List.mem_of_find?_eq_some hat)

/-- The average is written where the item, or the stock row, is read again. -/
theorem setAverage_spec {tenantId : Id} (hitem : Locked db tenantId i item)
    (hrow : (db.stockAt w item.id).isSome) (average : ℚ) :
    ∃ item', Locked (setAverage db item w average) tenantId i item' ∧
      averageAt (setAverage db item w average) item' w = some average ∧
      averagedQuantity (setAverage db item w average) item' w = averagedQuantity db item w := by
  by_cases hscope : item.movingAverageScope = some .perItem
  · have hset : setAverage db item w average =
        db.updateItem item.id fun row => { row with averageUnitCost := some average } :=
          if_pos hscope
    rw [hset]
    refine ⟨{ item with averageUnitCost := some average }, ?_, if_pos hscope, ?_⟩
    · have hsame (row : InventoryItem) : SameItem row
          (if row.id = item.id then { row with averageUnitCost := some average } else row) := by
        split
        · exact ⟨rfl, rfl, rfl, rfl, rfl⟩
        · exact SameItem.refl row
      have hitems : (db.updateItem item.id fun row =>
          { row with averageUnitCost := some average }).items = db.items.map fun row =>
          if row.id = item.id then { row with averageUnitCost := some average } else row := rfl
      have hmap := hitem.of_items hsame hitems
      rw [if_pos rfl] at hmap
      exact hmap
    · unfold averagedQuantity
      rw [if_pos hscope, if_pos hscope]
      rfl
  · have hset : setAverage db item w average = db.setStockAverage w item.id average := if_neg hscope
    rw [hset]
    obtain ⟨row, hat⟩ := Option.isSome_iff_exists.mp hrow
    have hkey := List.find?_some hat
    rw [decide_eq_true_eq] at hkey
    have hafter : (db.setStockAverage w item.id average).stockAt w item.id =
        some { row with averageUnitCost := some average } := by
      have hfound : db.stocks.find? (fun r => r.warehouseId = w ∧ r.inventoryItemId = item.id) =
          some row := hat
      unfold DB.stockAt DB.setStockAverage
      rw [List.find?_map]
      have hsame : ((fun r : InventoryStock =>
          decide (r.warehouseId = w ∧ r.inventoryItemId = item.id)) ∘ fun r =>
          if r.inventoryItemId = item.id ∧ r.warehouseId = w then
            { r with averageUnitCost := some average } else r) =
          fun r => decide (r.warehouseId = w ∧ r.inventoryItemId = item.id) := by
        funext r
        simp only [Function.comp]
        split <;> rfl
      rw [hsame, hfound, Option.map_some, if_pos ⟨hkey.2, hkey.1⟩]
    refine ⟨item, ⟨hitem.found, hitem.method, hitem.scope, hitem.standard⟩, ?_, ?_⟩
    · unfold averageAt
      rw [if_neg hscope, hafter]
      rfl
    · unfold averagedQuantity DB.stockBefore
      rw [if_neg hscope, if_neg hscope, hafter, hat]
      rfl

theorem averageAt_congr {db' : DB} (h : db'.stocks = db.stocks) (item : InventoryItem)
    (w : Option Id) : averageAt db' item w = averageAt db item w := by
  unfold averageAt DB.stockAt
  rw [h]

theorem averagedQuantity_congr {db' : DB} (h : db'.stocks = db.stocks) (item : InventoryItem)
    (w : Option Id) : averagedQuantity db' item w = averagedQuantity db item w := by
  unfold averagedQuantity onHand DB.stockBefore DB.stockAt
  rw [h]

/-- After a restore of a moving-average item the quantity is worth what it was without the
stock that came back, and the cost of that stock. -/
theorem afterRestore_worth (stamp : Stamp) {input : RestoreInput}
    (hitem : Locked db input.tenantId input.inventoryItemId item)
    (haverage : item.valuationMethod = some .movingWeightedAverage)
    (hrow : (db.stockAt input.warehouseId item.id).isSome)
    (hquantity : averagedQuantity db item input.warehouseId ≠ 0) :
    ∃ item' average, Locked (afterRestore stamp db item input) input.tenantId
        input.inventoryItemId item' ∧
      averageAt (afterRestore stamp db item input) item' input.warehouseId = some average ∧
      averagedQuantity (afterRestore stamp db item input) item' input.warehouseId * average =
        (averagedQuantity db item input.warehouseId - input.quantity) *
          (averageAt db item input.warehouseId).getD 0 +
          allocatedCost (restoredCosts stamp db input.sourceMovementId) := by
  obtain ⟨item', hlocked, hat, hsame⟩ := setAverage_spec hitem hrow
    (((averagedQuantity db item input.warehouseId - input.quantity) *
        (averageAt db item input.warehouseId).getD 0 +
        allocatedCost (restoredCosts stamp db input.sourceMovementId)) /
      averagedQuantity db item input.warehouseId)
  have hstocked : restoredStock db item input (restoredCosts stamp db input.sourceMovementId) =
      setAverage db item input.warehouseId
        (((averagedQuantity db item input.warehouseId - input.quantity) *
            (averageAt db item input.warehouseId).getD 0 +
            allocatedCost (restoredCosts stamp db input.sourceMovementId)) /
          averagedQuantity db item input.warehouseId) := by
    unfold restoredStock
    rw [if_neg (by rw [haverage]; decide), if_pos haverage]
  have hstocks : (afterRestore stamp db item input).stocks =
      (restoredStock db item input (restoredCosts stamp db input.sourceMovementId)).stocks := by
    unfold afterRestore
    rw [DB.setMovementCost_stocks, insertAllocations_stocks]
  have hitems : (afterRestore stamp db item input).items =
      (restoredStock db item input (restoredCosts stamp db input.sourceMovementId)).items := by
    unfold afterRestore
    rw [DB.setMovementCost_items, insertAllocations_items]
  rw [hstocked] at hstocks hitems
  refine ⟨item', _, ⟨?_, hlocked.method, hlocked.scope, hlocked.standard⟩,
    (averageAt_congr hstocks _ _).trans hat, ?_⟩
  · rw [hitems]
    exact hlocked.found
  · rw [averagedQuantity_congr hstocks, hsame, mul_div_cancel₀ _ hquantity]

end Stock

section Reversal

variable {stamp : Stamp} {db₀ db₁ before : DB} {input : IssueInput} {r : InventoryIssueCost}
  {item : InventoryItem} {issued issued' : List Id}

theorem allocatedCost_perm {as bs : List CostAllocation} (h : as.Perm bs) :
    allocatedCost as = allocatedCost bs :=
  (h.map _).sum_eq

theorem charged_perm {as bs : List CostAllocation} (h : as.Perm bs) (layerId : Id) :
    charged as layerId = charged bs layerId :=
  (h.map _).sum_eq

/-- What an issue leaves on its movement. -/
theorem IssuedAs.source (h : IssuedAs stamp db₀ input item r db₁)
    (hnew : db₀.allocationsOf input.movementId = [])
    (hmovement : (db₀.movementById input.movementId).isSome) :
    (db₁.allocationsOf input.movementId).map rowCost = r.allocations ∧
      ∃ row, db₁.movementById input.movementId = some row ∧ row.totalCost = some r.totalCost := by
  constructor
  · obtain ⟨rows, happend, hrows⟩ := h.rows
    unfold DB.allocationsOf at hnew ⊢
    rw [happend, List.filter_append, hnew, List.nil_append,
      List.filter_eq_self.mpr fun row hrow =>
        decide_eq_true (rows_movementId hrows row hrow).1]
    have hcosts := congrArg (List.map Prod.snd) hrows
    rw [List.map_map, List.map_map] at hcosts
    exact hcosts.trans (List.map_id _)
  · obtain ⟨row, hrow⟩ := Option.isSome_iff_exists.mp hmovement
    have hmovements : db₁.movementById input.movementId =
        (db₀.setMovementCost input.movementId (allocatedCost r.allocations / input.quantity)
          (allocatedCost r.allocations)).movementById input.movementId := by
      have hcharge := DB.setMovementCost_movements_congr input.movementId
        (allocatedCost r.allocations / input.quantity) (allocatedCost r.allocations)
        (chargeLayers_movements db₀ r.allocations)
      unfold DB.movementById
      rw [h.written]
      unfold writeIssueCost
      rw [freeze_movements, insertAllocations_movements, hcharge]
    rw [movementById_setMovementCost, hrow, Option.map_some] at hmovements
    exact ⟨_, hmovements, by rw [h.totalCost]⟩

/-- What a restore finds of a movement that was issued and left alone since. -/
structure Found (stamp : Stamp) (db : DB) (movementId : Id) (r : InventoryIssueCost) : Prop where
  rows : (db.allocationsOf movementId).map rowCost = r.allocations
  costs : (restoredCosts stamp db movementId).Perm r.allocations
  movement : ∃ row, db.movementById movementId = some row ∧ row.totalCost = some r.totalCost

theorem Return.movement_ne (e : Return before) {row : InventoryMovement} {movementId : Id}
    (hrow : before.movementById movementId = some row) :
    movementId ≠ e.input.reversalMovementId := by
  have hid : row.id = movementId := by simpa using List.find?_some hrow
  rw [← hid]
  exact e.fresh row (List.mem_of_find?_eq_some hrow)

/-- Stock that is booked with a movement of its own. -/
theorem callerWrites_booked (db : DB) (w : Option Id) (i : Id) (q : ℚ) (m : InventoryMovement) :
    CallerWrites db ((db.addStock w i q).record m) := by
  have hmov := congrArg (· ++ [m]) (DB.addStock_movements db w i q)
  have hnext : db.nextId ≤ (db.addStock w i q).nextId := by
    unfold DB.addStock
    split
    · exact le_refl _
    · exact Nat.le_succ _
  exact ⟨DB.addStock_items _ _ _ _, DB.addStock_layers _ _ _ _, DB.addStock_allocations _ _ _ _,
    .of_append SameMovement.refl hmov, hnext.trans (Nat.le_succ _)⟩

theorem Return.writes (e : Return before) : CallerWrites before e.booked :=
  callerWrites_booked _ _ _ _ _

theorem Return.found (stamp : Stamp) (e : Return before) (h : IssuedAs stamp db₀ input item r db₁)
    (hnew : db₀.allocationsOf input.movementId = [])
    (hmovement : (db₀.movementById input.movementId).isSome)
    (hkept : Kept input.movementId db₁ before) :
    input.movementId ≠ e.input.reversalMovementId ∧ Found stamp e.booked input.movementId r := by
  obtain ⟨hrows, row, hrow, hcost⟩ := h.source hnew hmovement
  obtain ⟨row', hrow', hcost'⟩ := hkept.movement row _ hrow hcost
  have hbooked : e.booked.allocationsOf input.movementId =
      before.allocationsOf input.movementId := by
    unfold DB.allocationsOf
    rw [e.writes.allocations]
  have hof : (e.booked.allocationsOf input.movementId).map rowCost = r.allocations := by
    rw [hbooked, hkept.allocations, hrows]
  refine ⟨e.movement_ne hrow', hof, ?_, ?_⟩
  · rw [← hof]
    exact (Lib.orderBy_perm _ _).map rowCost
  · obtain ⟨row'', hrow'', hsame⟩ :=
      e.writes.movements.find? InventoryMovement.id (fun _ _ => SameMovement.id) hrow'
    refine ⟨row'', hrow'', (hsame.cost ?_).2.trans hcost'⟩
    rw [hcost']
    exact Option.some_ne_none _

/-- A restore writes the allocations and the cost of the issue on the reversal. -/
theorem Return.reversed (e : Return before) (hof : e.Of input) (item' : InventoryItem)
    (hne : input.movementId ≠ e.input.reversalMovementId)
    (hfound : Found stamp e.booked input.movementId r)
    (htotal : r.totalCost = allocatedCost r.allocations) :
    Reversed (afterRestore stamp e.booked item' e.input) input.movementId
      e.input.reversalMovementId r := by
  obtain ⟨rows, happend, hrows⟩ := afterRestore_rows stamp e.booked item' e.input
  have hmem := rows_movementId hrows
  have hkept : Kept input.movementId e.booked (afterRestore stamp e.booked item' e.input) :=
    afterRestore_kept hne.symm
  obtain ⟨row, hrow, hcost⟩ := hfound.movement
  obtain ⟨row', hrow', hcost'⟩ := hkept.movement row _ hrow hcost
  refine ⟨by rw [hkept.allocations, hfound.rows], ?_, ?_, ?_⟩
  · have hnone : e.booked.allocationsOf e.input.reversalMovementId = [] := by
      rw [← e.unallocated]
      unfold DB.allocationsOf
      rw [e.writes.allocations]
    have hreversal : (afterRestore stamp e.booked item' e.input).allocationsOf
        e.input.reversalMovementId = rows := by
      unfold DB.allocationsOf at hnone ⊢
      rw [happend, List.filter_append, hnone, List.nil_append]
      exact List.filter_eq_self.mpr fun row hrow => decide_eq_true (hmem row hrow).1
    have hcosts := congrArg (List.map Prod.snd) hrows
    rw [List.map_map, List.map_map] at hcosts
    have hcopied : rows.map rowCost = restoredCosts stamp e.booked e.input.sourceMovementId :=
      hcosts.trans (List.map_id _)
    rw [hreversal, hcopied, hof.source]
    exact hfound.costs
  · rw [hrow', Option.bind_some, hcost']
  · have hmovements : (afterRestore stamp e.booked item' e.input).movementById
        e.input.reversalMovementId = (e.booked.setMovementCost e.input.reversalMovementId
          (allocatedCost (restoredCosts stamp e.booked e.input.sourceMovementId) /
            e.input.quantity)
          (allocatedCost (restoredCosts stamp e.booked e.input.sourceMovementId))).movementById
          e.input.reversalMovementId := by
      unfold DB.movementById
      rw [afterRestore_movements]
    have hrecorded : e.booked.movementById e.input.reversalMovementId = some e.movement := by
      have hlist : e.booked.movements = before.movements ++ [e.movement] :=
        congrArg (· ++ [e.movement]) (DB.addStock_movements before e.input.warehouseId
          e.input.inventoryItemId e.input.quantity)
      have hold : before.movements.find? (fun m => m.id = e.input.reversalMovementId) = none :=
        List.find?_eq_none.mpr fun m hm hid => e.fresh m hm (of_decide_eq_true hid)
      unfold DB.movementById
      rw [hlist, List.find?_append, hold, Option.none_or, List.find?_cons_of_pos]
      exact decide_eq_true e.movementId
    rw [hmovements, movementById_setMovementCost, hrecorded, Option.map_some, Option.bind_some,
      hof.source, allocatedCost_perm hfound.costs, htotal]

theorem outstanding_nonneg {b : Books} (h : Accounted b) (layerId : Id) :
    0 ≤ outstanding b.db b.issued layerId := by
  refine List.sum_nonneg fun q hq => ?_
  obtain ⟨row, hrow, rfl⟩ := List.mem_map.mp hq
  split
  · rename_i hboth
    exact h.nonneg row hrow (by rw [hboth.2]; exact Option.some_ne_none _)
  · exact le_refl 0

end Reversal

/-- A FIFO movement is restored: each layer has back what was taken of it, no other layer
changes, and none holds more than it received. -/
structure LayersRestored (db₀ db₁ before db₃ : DB) (r : InventoryIssueCost) : Prop where
  taken : db₁.layers = db₀.layers.map fun l =>
    { l with remainingQuantity := l.remainingQuantity - charged r.allocations l.id }
  only : ∀ id, (∀ l ∈ db₀.layers, l.id ≠ id) → charged r.allocations id = 0
  restored : db₃.layers = before.layers.map fun l =>
    { l with remainingQuantity := l.remainingQuantity + charged r.allocations l.id }
  within : ∀ l ∈ db₃.layers, l.remainingQuantity ≤ l.receivedQuantity

/-- A moving-average movement is restored: what the item is worth grows by the cost of the
movement. -/
def WorthRestored (before db₃ : DB) (tenantId itemId : Id) (w : Option Id)
    (r : InventoryIssueCost) : Prop :=
  ∀ item, Locked before tenantId itemId item → ∃ item' average, Locked db₃ tenantId itemId item' ∧
    averageAt db₃ item' w = some average ∧
    averagedQuantity db₃ item' w * average =
      averagedQuantity before item w * (averageAt before item w).getD 0 + r.totalCost

/-- Restoring an issued movement undoes its issue, whatever calls came between. -/
theorem restore_undoes_issue {stamp : Stamp} {db₀ db₁ before : DB} {input : IssueInput}
    {r : InventoryIssueCost} {item : InventoryItem} {issued issued' : List Id}
    (hq : 0 < input.quantity)
    (hitem : Locked db₀ input.tenantId input.inventoryItemId item)
    (hnew : db₀.allocationsOf input.movementId = [])
    (hmovement : (db₀.movementById input.movementId).isSome)
    (hissue : issue stamp input db₀ = .ok (r, db₁))
    (hrun : CostingCalls stamp ⟨db₁, input.movementId :: issued⟩ ⟨before, issued'⟩)
    (hheld : input.movementId ∈ issued') (e : Return before) (hof : e.Of input)
    (hown : e.input.reversalMovementId ∉ issued') :
    (item.valuationMethod = some .fifo → Accounted ⟨db₀, issued⟩ →
      ∃ db₃, restore stamp e.input e.booked = .ok ((), db₃) ∧
        Reversed db₃ input.movementId e.input.reversalMovementId r ∧
        LayersRestored db₀ db₁ before db₃ r) ∧
    (item.valuationMethod = some .movingWeightedAverage → StockRows before →
      ∃ db₃, restore stamp e.input e.booked = .ok ((), db₃) ∧
        Reversed db₃ input.movementId e.input.reversalMovementId r ∧
        WorthRestored before db₃ input.tenantId input.inventoryItemId e.input.warehouseId r) := by
  obtain ⟨found, hfound, hissued⟩ := issue_writes hq hissue
  have hsame : found = item := Option.some.inj (hfound.found.symm.trans hitem.found)
  rw [hsame] at hissued
  obtain ⟨hrows, -⟩ := hissued.source hnew hmovement
  have hcharged : db₁.allocationsOf input.movementId ≠ [] := by
    intro hnil
    rw [hnil] at hrows
    exact hissued.nonempty hrows.symm
  have hkept : Kept input.movementId db₁ before := (hrun.kept hcharged).2 hheld
  obtain ⟨hne, hcosts⟩ := e.found stamp hissued hnew hmovement hkept
  -- the item is found again, with the method it had
  obtain ⟨f, hf, hitems⟩ := hissued.costed.items
  obtain ⟨g, hg, hitems'⟩ := hkept.items
  have hlocked : Locked before input.tenantId input.inventoryItemId (g (f item)) :=
    (hitem.of_items hf hitems).of_items hg hitems'
  have hmethod : (g (f item)).valuationMethod = item.valuationMethod :=
    (hg _).method.trans (hf _).method
  have hbooked : Locked e.booked e.input.tenantId e.input.inventoryItemId (g (f item)) := by
    rw [hof.tenant, hof.item]
    have hrows := hlocked.found
    rw [← e.writes.items] at hrows
    exact ⟨hrows, hlocked.method, hlocked.scope, hlocked.standard⟩
  have hid : (g (f item)).id = e.input.inventoryItemId := hbooked.mem.2.1
  have hreversed := e.reversed hof (g (f item)) hne hcosts hissued.totalCost
  have hnonempty : restoredCosts stamp e.booked e.input.sourceMovementId ≠ [] := by
    rw [hof.source]
    intro hnil
    have hperm := hcosts.costs
    rw [hnil] at hperm
    exact hissued.nonempty hperm.symm.eq_nil
  refine ⟨fun hfifo hacc => ?_, fun haverage hstock => ?_⟩
  · have hrestorable : Restorable stamp e.booked (g (f item)) e.input := by
      refine ⟨hnonempty, ne_of_gt e.quantity_pos, fun _ a ha => ?_, fun haverage => ?_⟩
      · rw [hof.source] at ha
        exact hissued.layered hfifo a (hcosts.costs.mem_iff.mp ha)
      · rw [hmethod, hfifo] at haverage
        cases haverage
    refine ⟨_, restore_of_restorable hbooked hrestorable, hreversed, hissued.layers,
      fun id hid => ?_, ?_, fun l hl => ?_⟩
    · refine List.sum_eq_zero fun q hq => ?_
      obtain ⟨a, ha, rfl⟩ := List.mem_map.mp hq
      refine if_neg fun hlayer => ?_
      obtain ⟨-, l, hl, hlid⟩ := hissued.taken a ha id hlayer
      exact hid l hl hlid
    · rw [afterRestore_layers, e.writes.layers]
      refine List.map_congr_left fun l _ => ?_
      rw [if_pos (hmethod.trans hfifo), hof.source, charged_perm hcosts.costs]
    · have hstart : Accounted ⟨db₁, input.movementId :: issued⟩ := hacc.issue hissued hnew
      have hbefore : Accounted ⟨before, issued'⟩ := hrun.accounted hstart
      have hcall : CostingCall stamp ⟨before, issued'⟩ ⟨e.booked, issued'⟩ := .write e.writes
      have hwritten : Accounted ⟨e.booked, issued'⟩ := hcall.accounted hbefore
      have hafter : Accounted ⟨afterRestore stamp e.booked (g (f item)) e.input, _⟩ :=
        hwritten.restore (hof.source ▸ hheld) hown
      have hout := outstanding_nonneg hafter l.id
      have hwithin := hafter.within l hl
      linarith
  · have hquantity : averagedQuantity e.booked (g (f item)) e.input.warehouseId =
        averagedQuantity before (g (f item)) e.input.warehouseId + e.input.quantity := by
      unfold Return.booked
      rw [← hid]
      exact averagedQuantity_booked hstock.ids e.movement
    have hnonneg : 0 ≤ averagedQuantity before (g (f item)) e.input.warehouseId :=
      averagedQuantity_nonneg hstock
    have hpos : 0 < averagedQuantity e.booked (g (f item)) e.input.warehouseId := by
      rw [hquantity]
      linarith [e.quantity_pos]
    have hrestorable : Restorable stamp e.booked (g (f item)) e.input := by
      refine ⟨hnonempty, ne_of_gt e.quantity_pos, fun hfifo => ?_,
        fun _ => ⟨ne_of_gt hpos, fun _ => hpos⟩⟩
      rw [hmethod, haverage] at hfifo
      cases hfifo
    refine ⟨_, restore_of_restorable hbooked hrestorable, hreversed, fun item' hitem' => ?_⟩
    have hitemeq : item' = g (f item) := Option.some.inj (hitem'.found.symm.trans hlocked.found)
    have hrow : (e.booked.stockAt e.input.warehouseId (g (f item)).id).isSome := by
      rw [hid]
      exact Sound.isSome_stockAt_addStock _ _ _ _ _
    obtain ⟨after, average, hafter, hat, hworth⟩ := afterRestore_worth stamp hbooked
      (hmethod.trans haverage) hrow (ne_of_gt hpos)
    have hprevious : averageAt e.booked (g (f item)) e.input.warehouseId =
        averageAt before (g (f item)) e.input.warehouseId := by
      unfold Return.booked
      rw [← hid]
      exact averageAt_booked e.movement
    rw [hof.tenant, hof.item] at hafter
    refine ⟨after, average, hafter, hat, ?_⟩
    rw [hworth, hquantity, hprevious, hitemeq, add_sub_cancel_right, hof.source,
      allocatedCost_perm hcosts.costs, hissued.totalCost]

/-- Eight of the flour are issued. -/
def flourIssued : DB := afterIssue .sequential flourInTwoLayers ⟨1, 5, some 4, 8, 9⟩
  ⟨5, 1, "Flour", some .fifo, none, none, none, none⟩

/-- Three more are bought at 20. -/
def purchase : ReceiveInput :=
  ⟨1, 5, some 4, 3, some 20, .reference .purchaseOrderReceipt, none, 31⟩

def purchaseBooked (db : DB) : DB :=
  (db.addStock (some 4) 5 3).record
    ⟨31, 1, .stockIn, 3, some 2, some 5, 5, none, some .purchaseOrderReceipt, some 4, none, none⟩

def afterPurchase (db : DB) : DB := commit (receive .sequential purchase) (purchaseBooked db)

theorem purchase_between {db : DB} (hbooks : ∃ r, receive .sequential purchase
    (purchaseBooked db) = .ok (r, afterPurchase db)) :
    CostingCalls .sequential ⟨db, [9]⟩ ⟨afterPurchase db, [9]⟩ := by
  obtain ⟨r, hok⟩ := hbooks
  have hwrite : CostingCall .sequential ⟨db, [9]⟩ ⟨purchaseBooked db, [9]⟩ :=
    .write (callerWrites_booked _ _ _ _ _)
  exact (Relation.ReflTransGen.single hwrite).tail (.receive hok (by decide))

/-- The eight come back. -/
def eightBack : RestoreInput := ⟨1, 5, some 4, 8, 9, 30⟩

def eightReturned : InventoryMovement :=
  ⟨30, 1, .return, 8, some 5, some 13, 5, none, some .orderReservationRelease, some 4, none, none⟩

def flourReturn : Return (afterPurchase flourIssued) where
  input := eightBack
  movement := eightReturned
  quantity_pos := by decide
  movementId := rfl
  fresh := by decide +kernel
  unallocated := by decide +kernel

/-- Ten of the flour at an average of 12. -/
def averagedFlour : DB := { flourInTwoLayers with
  items := [⟨5, 1, "Flour", some .movingWeightedAverage, some .perWarehouse, none, none, none⟩]
  stocks := [⟨6, some 4, 5, 2, some 12⟩]
  layers := [] }

def averagedIssued : DB := commit (issue .sequential ⟨1, 5, some 4, 8, 9⟩) averagedFlour

def averagedReturn : Return (afterPurchase averagedIssued) where
  input := eightBack
  movement := eightReturned
  quantity_pos := by decide
  movementId := rfl
  fresh := by decide +kernel
  unallocated := by decide +kernel

/-- Layers of flour, or its average, when eight are issued, three bought and the eight
come back. -/
theorem restore_undoes_issue_example :
    (∃ db₃, restore .sequential eightBack flourReturn.booked = .ok ((), db₃) ∧
      Reversed db₃ 9 30 (fifoCost .sequential flourInTwoLayers ⟨1, 5, some 4, 8, 9⟩) ∧
      LayersRestored flourInTwoLayers flourIssued (afterPurchase flourIssued) db₃
        (fifoCost .sequential flourInTwoLayers ⟨1, 5, some 4, 8, 9⟩)) ∧
    ∃ db₃, restore .sequential eightBack averagedReturn.booked = .ok ((), db₃) ∧
      Reversed db₃ 9 30 ⟨12, 96, [⟨none, 8, 12⟩]⟩ ∧
      WorthRestored (afterPurchase averagedIssued) db₃ 1 5 (some 4) ⟨12, 96, [⟨none, 8, 12⟩]⟩ := by
  constructor
  · have hitem : Locked flourInTwoLayers 1 5 ⟨5, 1, "Flour", some .fifo, none, none, none, none⟩ :=
      ⟨rfl, by simp, by simp, by simp⟩
    have hissue : issue .sequential ⟨1, 5, some 4, 8, 9⟩ flourInTwoLayers = _ :=
      issue_fifo hitem rfl (by decide)
    rw [if_pos (by decide +kernel)] at hissue
    have hbought : receive .sequential purchase (purchaseBooked flourIssued) =
        .ok ((20, 60), afterPurchase flourIssued) := by
      decide +kernel
    have haccounted : Accounted ⟨flourInTwoLayers, []⟩ :=
      ⟨by decide +kernel, by decide +kernel, by decide +kernel, by decide +kernel⟩
    exact (restore_undoes_issue (by decide) hitem rfl rfl hissue (purchase_between ⟨_, hbought⟩)
      List.mem_cons_self flourReturn ⟨rfl, rfl, rfl⟩ (by decide)).1 rfl haccounted
  · have hitem : Locked averagedFlour 1 5 ⟨5, 1, "Flour", some .movingWeightedAverage,
        some .perWarehouse, none, none, none⟩ :=
      ⟨rfl, by simp, by simp, by simp⟩
    have hissue : issue .sequential ⟨1, 5, some 4, 8, 9⟩ averagedFlour =
        .ok (⟨12, 96, [⟨none, 8, 12⟩]⟩, averagedIssued) := by
      decide +kernel
    have hbought : receive .sequential purchase (purchaseBooked averagedIssued) =
        .ok ((20, 60), afterPurchase averagedIssued) := by
      decide +kernel
    have hstock : StockRows (afterPurchase averagedIssued) :=
      ⟨by decide +kernel, by decide +kernel⟩
    exact (restore_undoes_issue (by decide) hitem rfl rfl hissue (purchase_between ⟨_, hbought⟩)
      List.mem_cons_self averagedReturn ⟨rfl, rfl, rfl⟩ (by decide)).2 rfl hstock

/-- Ten of the flour in one layer, and the movements of two issues and three reversals. -/
def tenOfFlour : DB := { flourInTwoLayers with
  nextId := 30
  movements := [20, 21, 22, 23, 24].map fun id =>
    ⟨id, 1, .sale, 5, none, none, 5, none, none, some 4, none, none⟩
  layers := [⟨7, 1, 5, some 4, none, .openingBalance, none, 10, 10, 3⟩] }

/-- Movements 20 and 21 take five each, and 21 is restored twice. -/
def otherRestoredTwice : Tx Unit := do
  let _ ← issue .sequential ⟨1, 5, some 4, 5, 20⟩
  let _ ← issue .sequential ⟨1, 5, some 4, 5, 21⟩
  restore .sequential ⟨1, 5, some 4, 5, 21, 22⟩
  restore .sequential ⟨1, 5, some 4, 5, 21, 23⟩

/-- What the second restore of one movement gives back too much shows when the other is
restored for the first time. -/
theorem layer_overfilled :
    (commit otherRestoredTwice tenOfFlour).layers.map
      (fun l => (l.receivedQuantity, l.remainingQuantity)) = [(10, 10)] ∧
    (commit (otherRestoredTwice >>= fun _ =>
        restore .sequential ⟨1, 5, some 4, 5, 20, 24⟩) tenOfFlour).layers.map
      (fun l => (l.receivedQuantity, l.remainingQuantity)) = [(10, 15)] := by
  decide +kernel

end Inventory
end ERP
