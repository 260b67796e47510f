import ERP.Inventory.Soundness

/-!
# Quantities of the ledger

How much of an item is in stock at a location, in its cost layers there, and set
aside by ACTIVE reservations; and what each entry adds to the three.
-/

namespace ERP
namespace Inventory

/-- The stock of an item at a location. -/
def stockQty (db : DB) (w : Option Id) (i : Id) : ℚ :=
  (db.stocks.map fun r =>
    if r.warehouseId = w ∧ r.inventoryItemId = i then r.quantity else 0).sum

/-- What the cost layers of an item at a location still hold. -/
def layerQty (db : DB) (w : Option Id) (i : Id) : ℚ :=
  (db.layers.map fun l =>
    if l.warehouseId = w ∧ l.inventoryItemId = i then l.remainingQuantity else 0).sum

/-- The quantity of the ACTIVE reservations among the movements. -/
def activeIn (movements : List InventoryMovement) (w : Option Id) (i : Id) : ℚ :=
  (movements.map fun m =>
    if m.referenceType = some .orderReservation ∧ m.warehouseId = w ∧ m.inventoryItemId = i then
      m.quantity else 0).sum

def activeQty (db : DB) (w : Option Id) (i : Id) : ℚ := activeIn db.movements w i

/-- The quantity of the reservations claimed and not yet settled. -/
def pendingQty (pending : List InventoryMovement) (w : Option Id) (i : Id) : ℚ :=
  (pending.map fun m =>
    if m.warehouseId = w ∧ m.inventoryItemId = i then m.quantity else 0).sum

/-- `q` where the locations and the items agree, nothing elsewhere. -/
def at_ (w w' : Option Id) (i i' : Id) (q : ℚ) : ℚ := if w = w' ∧ i = i' then q else 0

section Location

variable {w w' : Option Id} {i i' : Id} {q : ℚ}

theorem at_ne (h : i' ≠ i) : at_ w' w i' i q = 0 :=
  if_neg fun hk => h hk.2

theorem at_neg : at_ w' w i' i (-q) = -at_ w' w i' i q := by
  unfold at_
  split <;> simp

theorem pendingQty_cons (r : InventoryMovement) (rest : List InventoryMovement) :
    pendingQty (r :: rest) w i =
      at_ r.warehouseId w r.inventoryItemId i r.quantity + pendingQty rest w i := by
  simp only [pendingQty, List.map_cons, List.sum_cons, at_]

end Location

section Stock

variable {db db' : DB} {pending : List InventoryMovement} {w : Option Id} {i : Id} {q : ℚ}

theorem stockQty_congr (h : db'.stocks = db.stocks) : stockQty db' w i = stockQty db w i := by
  unfold stockQty
  rw [h]

theorem stockQty_shift (hs : Sound ⟨db, pending⟩) {row : InventoryStock}
    (hrow : row ∈ db.stocks) :
    stockQty (db.shiftStock row.id q) w i =
      stockQty db w i + at_ row.warehouseId w row.inventoryItemId i q := by
  unfold stockQty DB.shiftStock DB.updateStock
  rw [hs.stockIds.sum_update hrow (fun r => { r with quantity := r.quantity + q })]
  unfold at_
  by_cases hkey : row.warehouseId = w ∧ row.inventoryItemId = i
  · simp [hkey]
  · simp [hkey]

theorem stockQty_add (hs : Sound ⟨db, pending⟩) (w : Option Id) (i : Id) (w' : Option Id)
    (i' : Id) (q : ℚ) :
    stockQty (db.addStock w' i' q) w i = stockQty db w i + at_ w' w i' i q := by
  unfold DB.addStock
  cases hat : db.stockAt w' i' with
  | some row =>
      obtain ⟨hmem, hw, hi⟩ := Sound.mem_of_stockAt hat
      simp only [stockQty_shift hs hmem, hw, hi]
  | none =>
      simp only [stockQty, DB.insertStock, DB.takeId, List.map_append, List.sum_append,
        List.map_cons, List.map_nil, List.sum_cons, List.sum_nil, add_zero, at_]

theorem stockQty_costed {movementId : Id} (h : Costed movementId db db') :
    stockQty db' w i = stockQty db w i := by
  obtain ⟨f, hf, hstocks⟩ := h.stocks
  unfold stockQty
  rw [hstocks, List.map_map]
  congr 1
  refine List.map_congr_left fun r _ => ?_
  simp only [Function.comp, (hf r).warehouse, (hf r).item, (hf r).quantity]

/-- A row holds no more than the location does. -/
theorem le_stockQty (hs : Sound ⟨db, pending⟩) {row : InventoryStock} (hrow : row ∈ db.stocks) :
    row.quantity ≤ stockQty db row.warehouseId row.inventoryItemId := by
  refine List.single_le_sum (fun x hx => ?_) _ (List.mem_map.mpr ⟨row, hrow, by simp⟩)
  obtain ⟨r, hr, rfl⟩ := List.mem_map.mp hx
  split
  · exact hs.stock_nonneg r hr
  · exact le_refl 0

end Stock

section Active

variable {db db' : DB} {w : Option Id} {i : Id}

theorem activeQty_congr (h : db'.movements = db.movements) :
    activeQty db' w i = activeQty db w i := by
  unfold activeQty
  rw [h]

theorem activeQty_record (db : DB) (m : InventoryMovement) (w : Option Id) (i : Id) :
    activeQty (db.record m) w i = activeQty db w i +
      if m.referenceType = some .orderReservation then
        at_ m.warehouseId w m.inventoryItemId i m.quantity else 0 := by
  simp only [activeQty, activeIn, DB.record, DB.insertMovement, DB.takeId, List.map_append,
    List.sum_append, List.map_cons, List.map_nil, List.sum_cons, List.sum_nil, add_zero, at_]
  congr 1
  by_cases href : m.referenceType = some .orderReservation
  · simp [href]
  · simp [href]

theorem activeQty_record_other {m : InventoryMovement}
    (h : m.referenceType ≠ some .orderReservation) :
    activeQty (db.record m) w i = activeQty db w i := by
  rw [activeQty_record, if_neg h, add_zero]

theorem activeQty_costed {movementId : Id} (h : Costed movementId db db') :
    activeQty db' w i = activeQty db w i := by
  obtain ⟨u, t, hmov⟩ := h.movements
  unfold activeQty activeIn
  rw [hmov, DB.setMovementCost, List.map_map]
  congr 1
  refine List.map_congr_left fun m _ => ?_
  simp only [Function.comp]
  split <;> rfl

/-- A claim moves a quantity from the ACTIVE reservations to the pending ones. -/
theorem activeIn_claim {movements : List InventoryMovement} {p : InventoryMovement → Bool}
    {f : InventoryMovement → InventoryMovement}
    (hactive : ∀ m ∈ movements, p m = true → m.referenceType = some .orderReservation)
    (hclaimed : ∀ m, (f m).referenceType ≠ some .orderReservation) :
    activeIn (movements.map fun m => if p m then f m else m) w i +
      pendingQty (movements.filter p) w i = activeIn movements w i := by
  unfold activeIn pendingQty
  induction movements with
  | nil => simp
  | cons m rest ih =>
      have hrest := ih fun x hx => hactive x (List.mem_cons_of_mem m hx)
      by_cases hp : p m = true
      · have href := hactive m List.mem_cons_self hp
        simp only [List.map_cons, List.sum_cons, List.filter_cons_of_pos hp, hp, if_true, href,
          hclaimed m, true_and, false_and, if_false]
        linarith
      · simp only [List.map_cons, List.sum_cons, List.filter_cons_of_neg hp, if_neg hp]
        linarith

theorem activeQty_claim (e : ClaimEntry db) :
    activeQty (db.updateMovements e.p e.f) w i + pendingQty (db.movements.filter e.p) w i =
      activeQty db w i :=
  activeIn_claim e.active fun m => (e.claimed m).1

end Active

section Signs

variable {db : DB} {c : Config} {pending : List InventoryMovement}

theorem activeQty_nonneg (hs : Sound c) (w : Option Id) (i : Id) : 0 ≤ activeQty c.db w i := by
  refine List.sum_nonneg fun x hx => ?_
  obtain ⟨m, hm, rfl⟩ := List.mem_map.mp hx
  split
  · exact le_of_lt (hs.active m hm (by tauto)).quantity_pos
  · exact le_refl 0

theorem pendingQty_nonneg (h : ∀ r ∈ pending, Claimed db r) (w : Option Id) (i : Id) :
    0 ≤ pendingQty pending w i := by
  refine List.sum_nonneg fun x hx => ?_
  obtain ⟨r, hr, rfl⟩ := List.mem_map.mp hx
  split
  · exact le_of_lt (h r hr).quantity_pos
  · exact le_refl 0

theorem stockQty_nonneg (hs : Sound c) (w : Option Id) (i : Id) : 0 ≤ stockQty c.db w i := by
  refine List.sum_nonneg fun x hx => ?_
  obtain ⟨r, hr, rfl⟩ := List.mem_map.mp hx
  split
  · exact hs.stock_nonneg r hr
  · exact le_refl 0

end Signs

section Layers

variable {db db' : DB} {w : Option Id} {i : Id} {q : ℚ}

theorem layerQty_congr (h : db'.layers = db.layers) : layerQty db' w i = layerQty db w i := by
  unfold layerQty
  rw [h]

theorem layerQty_openLayersFor {input : ReceiveInput} {costs : List CostAllocation} :
    layerQty (openLayersFor db input costs) w i = layerQty db w i +
      at_ input.warehouseId w input.inventoryItemId i (costs.map (·.quantity)).sum := by
  induction costs generalizing db with
  | nil => simp [openLayersFor, at_]
  | cons a rest ih =>
      refine ih.trans ?_
      simp only [layerQty, DB.insertLayer, DB.takeId, List.map_append, List.sum_append,
        List.map_cons, List.map_nil, List.sum_cons, List.sum_nil, add_zero, layerOf, at_]
      split
      · ring
      · ring

theorem layerQty_addToLayer {n : Id} (hk : Lib.Keyed (·.id) n db.layers)
    {l : InventoryCostLayer} (hl : l ∈ db.layers) :
    layerQty (db.addToLayer l.id q) w i =
      layerQty db w i + at_ l.warehouseId w l.inventoryItemId i q := by
  unfold layerQty DB.addToLayer
  rw [hk.sum_update hl (fun r => { r with remainingQuantity := r.remainingQuantity + q })]
  unfold at_
  by_cases hkey : l.warehouseId = w ∧ l.inventoryItemId = i
  · simp [hkey]
  · simp [hkey]

/-- Charging allocations that all draw on layers of one item at one location. -/
theorem layerQty_chargeLayers {n : Id} {allocations : List CostAllocation}
    (hk : Lib.Keyed (·.id) n db.layers) (w' : Option Id) (i' : Id)
    (h : ∀ a ∈ allocations, ∃ l ∈ db.layers, a.costLayerId = some l.id ∧
      l.warehouseId = w' ∧ l.inventoryItemId = i') :
    layerQty (chargeLayers db allocations) w i =
      layerQty db w i - at_ w' w i' i (allocations.map (·.quantity)).sum := by
  induction allocations generalizing db with
  | nil => simp [chargeLayers, at_]
  | cons a rest ih =>
      obtain ⟨l, hl, hid, hw, hi⟩ := h a List.mem_cons_self
      have hstep : chargeLayers db (a :: rest) =
          chargeLayers (db.addToLayer l.id (-a.quantity)) rest := by
        simp only [chargeLayers, List.foldl_cons, hid]
      have hk' : Lib.Keyed (·.id) n (db.addToLayer l.id (-a.quantity)).layers := by
        refine hk.map fun r _ => ?_
        split <;> rfl
      rw [hstep, ih hk' fun b hb => ?_, layerQty_addToLayer hk hl, hw, hi]
      · simp only [List.map_cons, List.sum_cons, at_]
        split
        · ring
        · ring
      · obtain ⟨s, hs, hrest⟩ := h b (List.mem_cons_of_mem a hb)
        refine ⟨_, List.mem_map.mpr ⟨s, hs, rfl⟩, ?_⟩
        split
        · exact hrest
        · exact hrest

/-- What a list of allocations charges to one layer. -/
def charged (allocations : List CostAllocation) (layerId : Id) : ℚ :=
  (allocations.map fun a => if a.costLayerId = some layerId then a.quantity else 0).sum

/-- The layers after a charge, in closed form. -/
theorem chargeLayers_layers (db : DB) (allocations : List CostAllocation) :
    (chargeLayers db allocations).layers = db.layers.map fun l =>
      { l with remainingQuantity := l.remainingQuantity - charged allocations l.id } := by
  induction allocations generalizing db with
  | nil => simp [chargeLayers, charged]
  | cons a rest ih =>
      cases hid : a.costLayerId with
      | none =>
          have hstep : chargeLayers db (a :: rest) = chargeLayers db rest := by
            simp only [chargeLayers, List.foldl_cons, hid]
          rw [hstep, ih]
          simp [charged, hid]
      | some id =>
          have hstep : chargeLayers db (a :: rest) =
              chargeLayers (db.addToLayer id (-a.quantity)) rest := by
            simp only [chargeLayers, List.foldl_cons, hid]
          rw [hstep, ih]
          simp only [DB.addToLayer, List.map_map]
          refine List.map_congr_left fun l _ => ?_
          simp only [Function.comp, charged, List.map_cons, List.sum_cons, hid, Option.some.injEq]
          by_cases hl : l.id = id
          · simp only [hl, if_true]
            congr 1
            ring
          · have hl' : ¬ id = l.id := fun h => hl h.symm
            simp only [hl, hl', if_false, zero_add]

theorem charged_drawn (d : List (InventoryCostLayer × ℚ)) (layerId : Id) :
    charged (d.map drawnAllocation) layerId = Lib.drawnFrom (·.id) layerId d := by
  simp only [charged, Lib.drawnFrom, List.map_map, Function.comp_def, drawnAllocation,
    Option.some.injEq]

theorem sum_quantity_drawn (d : List (InventoryCostLayer × ℚ)) :
    ((d.map drawnAllocation).map (·.quantity)).sum = Lib.drawn d := by
  simp only [Lib.drawn, List.map_map, Function.comp_def, drawnAllocation]

end Layers

end Inventory
end ERP
