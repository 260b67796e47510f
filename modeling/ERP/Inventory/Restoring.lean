import ERP.Inventory.FifoIssue
import ERP.Inventory.Growth

/-!
# What the costing calls leave

`restore` in closed form, and what each of `receive`, `issue` and `restore` does to the
layers and the allocations, whatever the method of the item.
-/

namespace ERP
namespace Inventory

open Lib.Tx

/-- The cost an allocation records. -/
def rowCost (row : InventoryMovementCostAllocation) : CostAllocation :=
  { costLayerId := row.costLayerId, quantity := row.quantity, unitCost := row.unitCost }

/-- What a movement was charged, as `restore` reads it. -/
def restoredCosts (stamp : Stamp) (db : DB) (movementId : Id) : List CostAllocation :=
  (Lib.orderBy (fun row => stamp.cuid row.id) (db.allocationsOf movementId)).map rowCost

/-- Give the allocations back to the layers they were charged to. -/
def returnToLayers (db : DB) (allocations : List CostAllocation) : DB :=
  chargeLayers db (allocations.map fun a => { a with quantity := -a.quantity })

/-- The database once the stock of a restored movement has its cost again. -/
def restoredStock (db : DB) (item : InventoryItem) (input : RestoreInput)
    (allocations : List CostAllocation) : DB :=
  if item.valuationMethod = some .fifo then returnToLayers db allocations
  else if item.valuationMethod = some .movingWeightedAverage then
    setAverage db item input.warehouseId
      (((averagedQuantity db item input.warehouseId - input.quantity) *
          (averageAt db item input.warehouseId).getD 0 + allocatedCost allocations) /
        averagedQuantity db item input.warehouseId)
  else db

/-- The database after a restore. -/
def afterRestore (stamp : Stamp) (db : DB) (item : InventoryItem) (input : RestoreInput) : DB :=
  (insertAllocations
    (restoredStock db item input (restoredCosts stamp db input.sourceMovementId))
    input.reversalMovementId (restoredCosts stamp db input.sourceMovementId)).setMovementCost
    input.reversalMovementId
    (allocatedCost (restoredCosts stamp db input.sourceMovementId) / input.quantity)
    (allocatedCost (restoredCosts stamp db input.sourceMovementId))

/-- The movement can be restored. -/
structure Restorable (stamp : Stamp) (db : DB) (item : InventoryItem) (input : RestoreInput) :
    Prop where
  nonempty : restoredCosts stamp db input.sourceMovementId ≠ []
  quantity : input.quantity ≠ 0
  layered : item.valuationMethod = some .fifo →
    ∀ a ∈ restoredCosts stamp db input.sourceMovementId, a.costLayerId ≠ none
  average : item.valuationMethod = some .movingWeightedAverage →
    averagedQuantity db item input.warehouseId ≠ 0 ∧
      (item.movingAverageScope ≠ some .perItem →
        0 < averagedQuantity db item input.warehouseId)

section Restore

variable {stamp : Stamp} {db db' : DB} {item : InventoryItem} {input : RestoreInput}

theorem returnToLayers_layers (db : DB) (allocations : List CostAllocation) :
    (returnToLayers db allocations).layers = db.layers.map fun l =>
      { l with remainingQuantity := l.remainingQuantity + charged allocations l.id } := by
  unfold returnToLayers
  rw [chargeLayers_layers]
  refine List.map_congr_left fun l _ => ?_
  have hneg : charged (allocations.map fun a => { a with quantity := -a.quantity }) l.id =
      -charged allocations l.id := by
    induction allocations with
    | nil => simp [charged]
    | cons a rest ih =>
        unfold charged at ih ⊢
        rw [List.map_cons, List.map_cons, List.sum_cons, ih, List.map_cons, List.sum_cons]
        dsimp only
        split <;> ring
  rw [hneg, sub_neg_eq_add]

/-- The loop of a FIFO restore gives back every allocation, or fails on one without layer. -/
theorem returnLoop_post {allocations : List CostAllocation} {Q : Unit → DB → Prop}
    {E : Failure → Prop}
    (h : (∀ a ∈ allocations, a.costLayerId ≠ none) → Q () (returnToLayers db allocations))
    (hfail : (∃ a ∈ allocations, a.costLayerId = none) → E .fifoLayerMissing) :
    Post (allocations.forM fun a => do
      let layerId ← expect a.costLayerId .fifoLayerMissing
      modify fun db => db.addToLayer layerId a.quantity) db Q E := by
  induction allocations generalizing db with
  | nil => exact h fun _ ha => absurd ha List.not_mem_nil
  | cons a rest ih =>
      rw [List.forM_eq_forM, List.forM_cons, post_bind, post_bind, post_expect]
      refine ⟨fun layerId hlayer => ?_, fun hnone => hfail ⟨a, List.mem_cons_self, hnone⟩⟩
      rw [post_modify]
      refine ih (fun hrest => ?_) fun ⟨b, hb, hnone⟩ => hfail ⟨b, List.mem_cons_of_mem a hb, hnone⟩
      have hstep : returnToLayers db (a :: rest) =
          returnToLayers (db.addToLayer layerId a.quantity) rest := by
        unfold returnToLayers chargeLayers
        rw [List.map_cons, List.foldl_cons]
        simp only [hlayer, neg_neg]
      rw [← hstep]
      refine h fun b hb => ?_
      rcases List.mem_cons.mp hb with rfl | hb
      · rw [hlayer]
        exact Option.some_ne_none _
      · exact hrest b hb

theorem restoreMovingAverage_post {warehouseId : Option Id} {quantity value : ℚ}
    {Q : Unit → DB → Prop} {E : Failure → Prop}
    (h : averagedQuantity db item warehouseId ≠ 0 ∧ (item.movingAverageScope ≠ some .perItem →
        0 < averagedQuantity db item warehouseId) →
      Q () (setAverage db item warehouseId
        (((averagedQuantity db item warehouseId - quantity) *
            (averageAt db item warehouseId).getD 0 + value) /
          averagedQuantity db item warehouseId)))
    (hfail : ∀ e, ¬ (averagedQuantity db item warehouseId ≠ 0 ∧
      (item.movingAverageScope ≠ some .perItem →
        0 < averagedQuantity db item warehouseId)) → E e) :
    Post (restoreMovingAverage item warehouseId quantity value) db Q E := by
  unfold restoreMovingAverage decimalDiv
  rw [post_bind, post_get]
  unfold averagedQuantity averageAt setAverage at h
  unfold averagedQuantity at hfail
  by_cases hscope : item.movingAverageScope = some .perItem
  · simp only [hscope, if_true] at h hfail ⊢
    simp only [post_bind, post_modify, post_require, post_pure]
    exact ⟨fun htotal => h ⟨htotal, fun hne => absurd rfl hne⟩,
      fun hzero => hfail _ fun hall => hzero hall.1⟩
  · rw [if_neg hscope, if_neg hscope, if_neg hscope] at h
    rw [if_neg hscope] at hfail ⊢
    simp only [post_bind, post_expect, post_modify, post_require, post_pure]
    refine ⟨fun row hrow => ?_, fun hnone => ?_⟩
    · simp only [DB.stockBefore, hrow, Option.map_some, Option.getD_some, Option.bind_some]
        at h hfail
      refine ⟨fun hpos => ⟨fun hne => h ⟨hne, fun _ => hpos⟩, fun hzero => ?_⟩, fun hnot => ?_⟩
      · exact absurd (ne_of_gt hpos) hzero
      · exact hfail _ fun hall => hnot (hall.2 hscope)
    · refine hfail _ fun hall => hall.1 ?_
      simp only [DB.stockBefore, hnone, Option.map_none, Option.getD_none]

/-- A restore of a locked item, in closed form. -/
theorem restore_spec (hitem : Locked db input.tenantId input.inventoryItemId item) :
    Post (restore stamp input) db
      (fun _ db' => Restorable stamp db item input ∧ db' = afterRestore stamp db item input)
      (fun _ => ¬ Restorable stamp db item input) := by
  unfold restore
  rw [post_bind]
  refine post_of_run (lockItem_run hitem) ?_
  simp only [post_bind, post_get, post_require]
  have hcosts : (Lib.orderBy (fun row => stamp.cuid row.id)
      (db.allocationsOf input.sourceMovementId)).map (fun row =>
        ({ costLayerId := row.costLayerId, quantity := row.quantity, unitCost := row.unitCost } :
          CostAllocation)) = restoredCosts stamp db input.sourceMovementId := rfl
  rw [hcosts]
  refine ⟨fun hcharged => ?_, fun hnone h => hnone h.nonempty⟩
  -- what follows the method is the same for every item
  have hwrite (stocked : DB) (hlayered : item.valuationMethod = some .fifo →
        ∀ a ∈ restoredCosts stamp db input.sourceMovementId, a.costLayerId ≠ none)
      (haverage : item.valuationMethod = some .movingWeightedAverage →
        averagedQuantity db item input.warehouseId ≠ 0 ∧
          (item.movingAverageScope ≠ some .perItem →
            0 < averagedQuantity db item input.warehouseId))
      (hstocked : stocked = restoredStock db item input
        (restoredCosts stamp db input.sourceMovementId)) :
      Post (do
        createAllocations input.reversalMovementId
          (restoredCosts stamp db input.sourceMovementId)
        let unitCost ← decimalDiv
          (allocatedCost (restoredCosts stamp db input.sourceMovementId)) input.quantity
        modify fun s => s.setMovementCost input.reversalMovementId unitCost
          (allocatedCost (restoredCosts stamp db input.sourceMovementId)) : Tx Unit) stocked
        (fun _ db' => Restorable stamp db item input ∧ db' = afterRestore stamp db item input)
        fun _ => ¬ Restorable stamp db item input := by
    rw [post_bind]
    refine createAllocations_post ?_
    unfold decimalDiv
    simp only [post_bind, post_require, post_pure, post_modify]
    refine ⟨fun hquantity => ⟨⟨hcharged, hquantity, hlayered, haverage⟩, ?_⟩,
      fun hzero h => hzero h.quantity⟩
    rw [hstocked]
    rfl
  simp only [post_bind] at hwrite
  obtain ⟨method, hmethod⟩ := Option.ne_none_iff_exists'.mp hitem.method
  rw [hmethod]
  cases method with
  | fifo =>
      refine returnLoop_post (fun hlayered => ?_) fun hmissing h => ?_
      · refine hwrite _ (fun _ => hlayered) (fun h => ?_) ?_
        · rw [hmethod] at h
          cases h
        · unfold restoredStock
          rw [if_pos hmethod]
      · obtain ⟨a, ha, hnone⟩ := hmissing
        exact h.layered hmethod a ha hnone
  | movingWeightedAverage =>
      refine restoreMovingAverage_post (fun haverage => ?_) fun e hnot h => hnot (h.average hmethod)
      refine hwrite _ (fun h => ?_) (fun _ => haverage) ?_
      · rw [hmethod] at h
        cases h
      · unfold restoredStock
        rw [if_neg (by rw [hmethod]; decide), if_pos hmethod]
  | standardCost =>
      refine post_pure.mpr (hwrite _ (fun h => ?_) (fun h => ?_) ?_)
      · rw [hmethod] at h
        cases h
      · rw [hmethod] at h
        cases h
      · unfold restoredStock
        rw [if_neg (by rw [hmethod]; decide), if_neg (by rw [hmethod]; decide)]

theorem restore_ok (h : restore stamp input db = .ok ((), db')) :
    ∃ item, Locked db input.tenantId input.inventoryItemId item ∧
      Restorable stamp db item input ∧ db' = afterRestore stamp db item input := by
  have hlocked : ∃ item, Locked db input.tenantId input.inventoryItemId item := by
    by_contra hnone
    have hpost : Post (restore stamp input) db (fun _ _ => False) fun _ => True := by
      unfold restore
      rw [post_bind]
      exact lockItem_post (fun _ _ => trivial) fun item hitem => absurd ⟨item, hitem⟩ hnone
    exact hpost.of_ok h
  obtain ⟨item, hitem⟩ := hlocked
  exact ⟨item, hitem, (restore_spec hitem).of_ok h⟩

theorem restore_of_restorable (hitem : Locked db input.tenantId input.inventoryItemId item)
    (h : Restorable stamp db item input) :
    restore stamp input db = .ok ((), afterRestore stamp db item input) := by
  refine Post.eq_ok ((restore_spec hitem).mono (fun _ db' hok => ⟨rfl, hok.2⟩) fun _ hnot => ?_)
  exact hnot h

end Restore

/-- The layers a call opens hold all they received. -/
def LayersOpened (db db' : DB) : Prop :=
  ∃ opened, db'.layers = db.layers ++ opened ∧
    ∀ l ∈ opened, db.nextId ≤ l.id ∧ l.id < db'.nextId ∧ l.remainingQuantity = l.receivedQuantity

section Receive

variable {stamp : Stamp} {db db' : DB} {item : InventoryItem} {input : ReceiveInput}

theorem LayersOpened.of_eq (h : db'.layers = db.layers) : LayersOpened db db' :=
  ⟨[], by rw [h, List.append_nil], fun _ hl => absurd hl List.not_mem_nil⟩

theorem LayersOpened.of_one {l : InventoryCostLayer} (hid : l.id = db.nextId)
    (hlayers : db'.layers = db.layers ++ [l]) (hnext : db'.nextId = db.nextId + 1)
    (hfull : l.remainingQuantity = l.receivedQuantity) : LayersOpened db db' := by
  refine ⟨[l], hlayers, fun r hr => ?_⟩
  rw [List.mem_singleton.mp hr, hid, hnext]
  exact ⟨le_refl _, Nat.lt_succ_self _, hfull⟩

theorem updateMovingAverage_writes {warehouseId : Option Id} {quantity unitCost : ℚ}
    {Q : Unit → DB → Prop} (h : ∀ average, Q () (setAverage db item warehouseId average)) :
    Post (updateMovingAverage item warehouseId quantity unitCost) db Q fun _ => True := by
  have hquiet : Quiet fun _ => True := fun _ _ => trivial
  unfold updateMovingAverage
  rw [post_bind, post_get]
  unfold setAverage at h
  split
  · rename_i hscope
    simp only [post_bind, post_modify]
    refine require_post hquiet (by decide) fun _ => decimalDiv_post hquiet fun _ => ?_
    have hset := h
    simp only [hscope, if_true] at hset
    exact hset _
  · rename_i hscope
    simp only [post_bind, post_modify]
    refine require_post hquiet (by decide) fun _ => decimalDiv_post hquiet fun _ => ?_
    have hset := h
    simp only [hscope, if_false] at hset
    exact hset _

theorem setAverage_allocations (db : DB) (item : InventoryItem) (w : Option Id) (average : ℚ) :
    (setAverage db item w average).allocations = db.allocations := by
  unfold setAverage
  split <;> rfl

theorem Costed.of_average {movementId : Id} {warehouseId : Option Id}
    {average unitCost totalCost : ℚ} :
    Costed movementId db (freeze stamp ((setAverage db item warehouseId average).setMovementCost
      movementId unitCost totalCost) item) := by
  refine Costed.of_write [] ?_ ?_ ?_ ?_ (fun hk => ?_) ?_ ?_ <;> unfold setAverage <;> split
  · rfl
  · rfl
  · exact sameStocks_refl
  · refine ⟨_, fun row => ?_, rfl⟩
    split
    · exact ⟨rfl, rfl, rfl, rfl⟩
    · exact SameStock.refl row
  · exact updateItem_items fun row => ⟨rfl, rfl, rfl, rfl, rfl⟩
  · exact sameItems_refl
  · rfl
  · rfl
  · exact hk
  · exact hk
  · exact le_refl _
  · exact le_refl _
  · rfl
  · rfl

/-- A receipt costs its movement, opens a layer or none, and is charged to none. -/
theorem receive_writes : Post (receive stamp input) db
    (fun _ db' => Costed input.movementId db db' ∧ LayersOpened db db' ∧
      db'.allocations = db.allocations) fun _ => True := by
  have hquiet : Quiet fun _ => True := fun _ _ => trivial
  unfold receive
  simp only [post_bind, post_modify, post_pure]
  refine lockItem_post hquiet fun item hitem => ?_
  refine require_post hquiet (by decide) fun _ => ?_
  obtain ⟨method, hmethod⟩ := Option.ne_none_iff_exists'.mp hitem.method
  rw [hmethod]
  cases method with
  | fifo =>
      refine createLayer_post (lockValuation_post ⟨?_, ?_, freeze_allocations _ _ _⟩)
      · show Costed _ _ (freeze stamp
          ((openLayersFor db input [⟨none, input.quantity, _⟩]).setMovementCost _ _ _) item)
        exact costed_openLayersFor
      · exact .of_one rfl (freeze_layers _ _ _) (freeze_nextId _ _ _) rfl
  | movingWeightedAverage =>
      refine updateMovingAverage_writes fun average => lockValuation_post ⟨.of_average, ?_, ?_⟩
      · refine .of_eq ?_
        rw [freeze_layers, DB.setMovementCost_layers, setAverage_layers]
      · rw [freeze_allocations, DB.setMovementCost_allocations, setAverage_allocations]
  | standardCost =>
      refine post_pure.mpr (lockValuation_post ⟨?_, ?_, freeze_allocations _ _ _⟩)
      · exact .of_write [] rfl sameStocks_refl sameItems_refl rfl id (le_refl _) rfl
      · refine .of_eq ?_
        rw [freeze_layers, DB.setMovementCost_layers]

end Receive

/-- What an issue that succeeded was charged. -/
structure IssuedAs (stamp : Stamp) (db : DB) (input : IssueInput) (item : InventoryItem)
    (r : InventoryIssueCost) (db' : DB) : Prop where
  written : db' = writeIssueCost stamp (chargeLayers db r.allocations) input item r.allocations
  totalCost : r.totalCost = allocatedCost r.allocations
  nonempty : r.allocations ≠ []
  layered : item.valuationMethod = some .fifo → ∀ a ∈ r.allocations, a.costLayerId ≠ none
  taken : ∀ a ∈ r.allocations, ∀ id, a.costLayerId = some id →
    0 < a.quantity ∧ ∃ l ∈ db.layers, l.id = id

section Issue

variable {stamp : Stamp} {db db' : DB} {item : InventoryItem} {input : IssueInput}
  {r : InventoryIssueCost}

theorem issue_writes (hq : 0 < input.quantity) (h : issue stamp input db = .ok (r, db')) :
    ∃ item, Locked db input.tenantId input.inventoryItemId item ∧
      IssuedAs stamp db input item r db' := by
  have hquiet : Quiet fun _ => True := fun _ _ => trivial
  have hpost : Post (issue stamp input) db (fun r db' => ∃ item,
      Locked db input.tenantId input.inventoryItemId item ∧ IssuedAs stamp db input item r db')
      fun _ => True := by
    unfold issue decimalDiv
    simp only [post_bind, post_modify, post_pure, post_require]
    refine lockItem_post hquiet fun item hitem => ?_
    refine issueAllocations_post hquiet hitem (le_of_lt hq) (fun _ => trivial)
      (fun hmethod hcover => ⟨fun _ => ?_, fun _ => trivial⟩)
      fun unitCost hmethod => ⟨fun _ => ?_, fun _ => trivial⟩
    · refine createAllocations_post (lockValuation_post ⟨item, hitem, rfl, rfl, ?_, ?_, ?_⟩)
      · intro hnil
        have hdrawn : Lib.drawn (Lib.draw (·.remainingQuantity) (openLayers stamp db
            input.tenantId input.inventoryItemId input.warehouseId) input.quantity) =
            min input.quantity _ := Lib.drawn_draw openLayers_nonneg (le_of_lt hq)
        rw [min_eq_left hcover, List.map_eq_nil_iff.mp hnil] at hdrawn
        exact (ne_of_gt hq) hdrawn.symm
      · intro _ a ha
        obtain ⟨e, -, rfl⟩ := List.mem_map.mp ha
        exact Option.some_ne_none _
      · intro a ha id hid
        obtain ⟨e, he, rfl⟩ := List.mem_map.mp ha
        exact ⟨Lib.pos_of_mem_draw openLayers_pos he, e.1,
          (mem_openLayers.mp (Lib.mem_of_mem_draw he)).1,
          Option.some.inj hid⟩
    · refine createAllocations_post (lockValuation_post
        ⟨item, hitem, rfl, rfl, List.cons_ne_nil _ _, fun hfifo => ?_, ?_⟩)
      · rcases hmethod with ⟨haverage, -⟩ | ⟨hstandard, -⟩
        · rw [hfifo] at haverage
          cases haverage
        · rw [hfifo] at hstandard
          cases hstandard
      · intro a ha id hid
        rw [List.mem_singleton.mp ha] at hid
        cases hid
  exact hpost.of_ok h

end Issue

section Rows

variable {stamp : Stamp} {db db' : DB}

/-- The rows an issue writes are its allocations. -/
theorem IssuedAs.rows {input : IssueInput} {item : InventoryItem} {r : InventoryIssueCost}
    (h : IssuedAs stamp db input item r db') : ∃ rows, db'.allocations = db.allocations ++ rows ∧
      rows.map (fun row => (row.movementId, rowCost row)) =
        r.allocations.map fun a => (input.movementId, a) := by
  obtain ⟨rows, happend, hrows⟩ := insertAllocations_rows
    ((chargeLayers db r.allocations).setMovementCost input.movementId
      (allocatedCost r.allocations / input.quantity) (allocatedCost r.allocations))
    input.movementId r.allocations
  refine ⟨rows, ?_, hrows⟩
  rw [DB.setMovementCost_allocations, chargeLayers_allocations] at happend
  rw [h.written]
  unfold writeIssueCost
  rw [freeze_allocations]
  exact happend

theorem IssuedAs.layers {input : IssueInput} {item : InventoryItem} {r : InventoryIssueCost}
    (h : IssuedAs stamp db input item r db') : db'.layers = db.layers.map fun l =>
      { l with remainingQuantity := l.remainingQuantity - charged r.allocations l.id } := by
  rw [h.written, writeIssueCost_layers, chargeLayers_layers]

theorem sum_rows {rows : List InventoryMovementCostAllocation} {allocations : List CostAllocation}
    {movementId : Id} (f : Id × CostAllocation → ℚ)
    (hrows : rows.map (fun row => (row.movementId, rowCost row)) =
      allocations.map fun a => (movementId, a)) :
    (rows.map fun row => f (row.movementId, rowCost row)).sum =
      (allocations.map fun a => f (movementId, a)).sum := by
  have hmap := congrArg (fun rows => (rows.map f).sum) hrows
  simp only [List.map_map] at hmap
  exact hmap

theorem rows_movementId {rows : List InventoryMovementCostAllocation}
    {allocations : List CostAllocation} {movementId : Id}
    (hrows : rows.map (fun row => (row.movementId, rowCost row)) =
      allocations.map fun a => (movementId, a)) :
    ∀ row ∈ rows, row.movementId = movementId ∧ rowCost row ∈ allocations := by
  intro row hrow
  have hmem := List.mem_map_of_mem (f := fun row : InventoryMovementCostAllocation =>
    (row.movementId, rowCost row)) hrow
  rw [hrows] at hmem
  obtain ⟨a, ha, heq⟩ := List.mem_map.mp hmem
  rw [Prod.mk.injEq] at heq
  exact ⟨heq.1.symm, heq.2 ▸ ha⟩

end Rows

section Restored

variable {stamp : Stamp} {db : DB} {item : InventoryItem} {input : RestoreInput}
  {costs : List CostAllocation}

theorem restoredStock_layers : (restoredStock db item input costs).layers = db.layers.map fun l =>
    { l with remainingQuantity := l.remainingQuantity +
        if item.valuationMethod = some .fifo then charged costs l.id else 0 } := by
  have hsame : db.layers.map (fun l : InventoryCostLayer =>
      { l with remainingQuantity := l.remainingQuantity + 0 }) = db.layers := by
    conv_rhs => rw [← List.map_id db.layers]
    refine List.map_congr_left fun l _ => ?_
    rw [add_zero]
    rfl
  unfold restoredStock
  by_cases hfifo : item.valuationMethod = some .fifo
  · simp only [if_pos hfifo]
    exact returnToLayers_layers db costs
  · simp only [if_neg hfifo, hsame]
    split
    · exact setAverage_layers _ _ _ _
    · rfl

/-- A restore writes layers and averages, and nothing else of the stock. -/
theorem restoredStock_frame :
    (restoredStock db item input costs).movements = db.movements ∧
    (restoredStock db item input costs).allocations = db.allocations ∧
    (restoredStock db item input costs).nextId = db.nextId ∧
    ∃ g, (∀ row, SameItem row (g row)) ∧
      (restoredStock db item input costs).items = db.items.map g := by
  unfold restoredStock returnToLayers
  split
  · refine ⟨chargeLayers_movements _ _, chargeLayers_allocations _ _, chargeLayers_nextId _ _, ?_⟩
    rw [chargeLayers_items]
    exact sameItems_refl
  · split
    · unfold setAverage
      split
      · exact ⟨rfl, rfl, rfl, updateItem_items fun row => ⟨rfl, rfl, rfl, rfl, rfl⟩⟩
      · exact ⟨rfl, rfl, rfl, sameItems_refl⟩
    · exact ⟨rfl, rfl, rfl, sameItems_refl⟩

theorem afterRestore_layers : (afterRestore stamp db item input).layers = db.layers.map fun l =>
    { l with remainingQuantity := l.remainingQuantity +
        if item.valuationMethod = some .fifo then
          charged (restoredCosts stamp db input.sourceMovementId) l.id else 0 } := by
  unfold afterRestore
  rw [DB.setMovementCost_layers, insertAllocations_layers, restoredStock_layers]

theorem afterRestore_movements : (afterRestore stamp db item input).movements =
    (db.setMovementCost input.reversalMovementId
      (allocatedCost (restoredCosts stamp db input.sourceMovementId) / input.quantity)
      (allocatedCost (restoredCosts stamp db input.sourceMovementId))).movements := by
  unfold afterRestore
  refine DB.setMovementCost_movements_congr _ _ _ ?_
  rw [insertAllocations_movements]
  exact restoredStock_frame.1

theorem afterRestore_items : ∃ g, (∀ row, SameItem row (g row)) ∧
    (afterRestore stamp db item input).items = db.items.map g := by
  unfold afterRestore
  rw [DB.setMovementCost_items, insertAllocations_items]
  exact restoredStock_frame.2.2.2

theorem afterRestore_nextId : db.nextId ≤ (afterRestore stamp db item input).nextId := by
  unfold afterRestore
  rw [DB.setMovementCost_nextId, nextId_insertAllocations, restoredStock_frame.2.2.1]
  exact Nat.le_add_right _ _

theorem afterRestore_rows (stamp : Stamp) (db : DB) (item : InventoryItem) (input : RestoreInput) :
    ∃ rows,
    (afterRestore stamp db item input).allocations = db.allocations ++ rows ∧
    rows.map (fun row => (row.movementId, rowCost row)) =
      (restoredCosts stamp db input.sourceMovementId).map fun a =>
        (input.reversalMovementId, a) := by
  obtain ⟨rows, happend, hrows⟩ := insertAllocations_rows
    (restoredStock db item input (restoredCosts stamp db input.sourceMovementId))
    input.reversalMovementId (restoredCosts stamp db input.sourceMovementId)
  rw [restoredStock_frame.2.1] at happend
  exact ⟨rows, happend, hrows⟩

theorem mem_restoredCosts {movementId : Id} {a : CostAllocation}
    (h : a ∈ restoredCosts stamp db movementId) :
    ∃ row ∈ db.allocations, row.movementId = movementId ∧ rowCost row = a := by
  obtain ⟨row, hrow, heq⟩ := List.mem_map.mp h
  have hof := List.mem_filter.mp (Lib.mem_orderBy.mp hrow)
  exact ⟨row, hof.1, of_decide_eq_true hof.2, heq⟩

end Restored

end Inventory
end ERP
