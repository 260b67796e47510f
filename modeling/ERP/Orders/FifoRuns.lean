import ERP.Inventory.FifoInvariant
import ERP.Orders.Operations

/-!
# FIFO items over whole runs

A FIFO item that starts with nothing recorded of it keeps its layers in balance
with its stock over every serial run, so no issue that found its stock is ever
short of layers.
-/

namespace ERP
namespace Orders

open Inventory Lib.Tx

/-- A database with a catalogue, items, and nothing recorded yet. -/
def opening (nextId : Id) (items : List InventoryItem) (c : Catalogue) : DB :=
  { nextId, tenants := c.tenants, warehouses := c.warehouses, items, products := c.products,
    stocks := [], movements := [], layers := [], allocations := [], transfers := [],
    transferReceipts := [], suppliers := c.suppliers,
    purchaseOrders := c.purchaseOrders, purchaseReceipts := [],
    priceVariances := [], orders := c.orders, outbox := [] }

theorem sound_opening {nextId : Id} {items : List InventoryItem} {c : Catalogue}
    (h : Lib.Keyed (·.id) nextId items) : Sound ⟨opening nextId items c, []⟩ := by
  constructor
  case itemIds => exact h
  case lines => exact ⟨⟨List.Pairwise.nil, by simp [opening]⟩, by simp [opening], by simp [opening]⟩
  all_goals first
    | exact ⟨List.Pairwise.nil, by simp [opening]⟩
    | simp [opening]

/-- Item `i` is valued by FIFO. -/
def ValuedByFifo (db : DB) (i : Id) : Prop :=
  ∃ item ∈ db.items, item.id = i ∧ item.valuationMethod = some .fifo

/-- No stock, no movement and no cost layer of item `i` is recorded. -/
structure Unrecorded (db : DB) (i : Id) : Prop where
  stocks : ∀ r ∈ db.stocks, r.inventoryItemId ≠ i
  movements : ∀ m ∈ db.movements, m.inventoryItemId ≠ i
  layers : ∀ l ∈ db.layers, l.inventoryItemId ≠ i

section

variable {stamp : Stamp} {A : Permit} {rt : TransferRuntime} {db : DB} {i : Id}

theorem Unrecorded.balanced (h : Unrecorded db i) (hi : ValuedByFifo db i) :
    ∃ t, Balanced i t ⟨db, []⟩ := by
  obtain ⟨item, hmem, hid, hmethod⟩ := hi
  have hlayer : ∀ w, layerQty db w i = 0 := fun w => List.sum_eq_zero fun x hx => by
    obtain ⟨l, hl, rfl⟩ := List.mem_map.mp hx
    exact if_neg fun hk => h.layers l hl hk.2
  have hstock : ∀ w, stockQty db w i = 0 := fun w => List.sum_eq_zero fun x hx => by
    obtain ⟨r, hr, rfl⟩ := List.mem_map.mp hx
    exact if_neg fun hk => h.stocks r hr hk.2
  have hactive : ∀ w, activeQty db w i = 0 := fun w => List.sum_eq_zero fun x hx => by
    obtain ⟨m, hm, rfl⟩ := List.mem_map.mp hx
    exact if_neg fun hk => h.movements m hm hk.2.2
  refine ⟨item.tenantId, ⟨⟨item, hmem, hid, rfl, hmethod⟩, fun l hl hli => ?_⟩, fun w => ?_⟩
  · exact absurd hli (h.layers l hl)
  · simp [hlayer, hstock, hactive, pendingQty]

/-- The entries change neither the method of an item nor its tenant. -/
theorem step_items {c c' : Config} (h : Step stamp A c c') :
    ∃ f, (∀ row, SameItem row (f row)) ∧ c'.db.items = c.db.items.map f := by
  cases h with
  | elsewhere hsame _ => exact ⟨id, SameItem.refl, by simp [hsame.items]⟩
  | transfers _ hsame _ => exact ⟨id, SameItem.refl, by simp [hsame.items]⟩
  | receive e => simpa [DB.record, DB.insertMovement, DB.takeId] using e.received.costed.items
  | issue e hissued => exact hissued.costed.items
  | note _ _ _ => exact sameItems_refl
  | transferIn e => simpa [DB.record, DB.insertMovement, DB.takeId] using e.received.costed.items
  | reserve e => exact sameItems_refl
  | claim e => exact sameItems_refl
  | restore e => exact ⟨id, SameItem.refl, by simp [DB.record, DB.insertMovement, DB.takeId]⟩
  | cost _ hissued => exact hissued.costed.items

theorem valuedByFifo_of_run {c c' : Config} (hrun : Run stamp A c c') (h : ValuedByFifo c'.db i) :
    ValuedByFifo c.db i := by
  induction hrun with
  | refl => exact h
  | tail _ hstep ih =>
      obtain ⟨f, hf, hitems⟩ := step_items hstep
      obtain ⟨item, hmem, hid, hmethod⟩ := h
      rw [hitems] at hmem
      obtain ⟨row, hrow, rfl⟩ := List.mem_map.mp hmem
      exact ih ⟨row, hrow, (hf row).id.symm.trans hid, (hf row).method.symm.trans hmethod⟩

theorem valuedByFifo_of_uncovered {c : Config} (h : Uncovered stamp i c) :
    ValuedByFifo c.db i := by
  rcases h with ⟨e, hi, item, hlocked, hmethod, _⟩ | ⟨r, rest, t, _, hi, item, hlocked, hmethod, _⟩
  · obtain ⟨hmem, hid, _⟩ := hlocked.mem
    exact ⟨item, hmem, hid.trans hi, hmethod⟩
  · obtain ⟨hmem, hid, _⟩ := hlocked.mem
    exact ⟨item, hmem, hid.trans hi, hmethod⟩

/-- The layers of a FIFO item that started with nothing recorded hold its stock
and its ACTIVE reservations at every location and are in range, and an operation
whose FIFO items all started so never finds the layers short. -/
theorem fifo_layers_cover_stock (hs : Sound ⟨db, []⟩) (hfifo : ValuedByFifo db i)
    (hempty : Unrecorded db i) (ops : List Operation) :
    (∀ w, layerQty (runAll stamp rt ops db) w i =
      stockQty (runAll stamp rt ops db) w i + activeQty (runAll stamp rt ops db) w i) ∧
    (∀ l ∈ (runAll stamp rt ops db).layers, l.inventoryItemId = i →
      0 ≤ l.remainingQuantity ∧ l.remainingQuantity ≤ l.receivedQuantity) ∧
    ∀ op : Operation,
      (∀ j, op.Issues (runAll stamp rt ops db) j → ValuedByFifo db j → Unrecorded db j) →
      op.exec stamp rt (runAll stamp rt ops db) ≠ .error .fifoLayersDoNotCover := by
  have hrun := runAll_refines stamp rt hs ops
  have hs' := hs.run hrun
  obtain ⟨t, hb⟩ := hempty.balanced hfifo
  have hb' := hb.run hs hrun
  refine ⟨fun w => ?_, fun l hl hli => (hb'.layered.layers l hl hli).2, fun op hissues herr => ?_⟩
  · have hbal := hb'.balance w
    simp only [pendingQty, List.map_nil, List.sum_nil, add_zero] at hbal
    exact hbal
  · -- an uncovered issue would be of an item that is FIFO from the start, hence balanced
    obtain ⟨j, c, hj, hrunc, hunc⟩ := (Operation.refines hs' op).of_error herr rfl
    have hfifoj := valuedByFifo_of_run (hrun.trans (hrunc.mono (Permit.le_all _)))
      (valuedByFifo_of_uncovered hunc)
    obtain ⟨tj, hbj⟩ := (hissues j hj hfifoj).balanced hfifoj
    exact ((hbj.run hs hrun).run hs' hrunc).covered (hs'.run hrunc) hunc

end

/-- Item 0 of tenant 1, valued by FIFO, and warehouse 2. -/
def fifoOpening : DB :=
  opening 3
    [{ id := 0, tenantId := 1, name := "beans", valuationMethod := some .fifo,
       movingAverageScope := none, standardCost := none, averageUnitCost := none,
       valuationLockedAt := none }]
    { tenants := [⟨1, .retail⟩], warehouses := [⟨2, 1, none, true⟩], products := [],
      orders := [], purchaseOrders := [] }

/-- Receive 5 units at 3, waste 2 of them. -/
def receiveAndWaste : List Operation :=
  [.stockIn 1
      { inventoryItemId := 0, warehouseId := 2, quantity := 5, unitCost := some 3,
        quantity_min := by decide, unitCost_min := by simp },
    .waste 1
      { inventoryItemId := 0, warehouseId := 2, quantity := 2, quantity_min := by decide }]

theorem fifo_layers_cover_stock_example :
    layerQty (runAll .sequential .plain receiveAndWaste fifoOpening) (some 2) 0 =
      stockQty (runAll .sequential .plain receiveAndWaste fifoOpening) (some 2) 0 +
        activeQty (runAll .sequential .plain receiveAndWaste fifoOpening) (some 2) 0 ∧
    layerQty (runAll .sequential .plain receiveAndWaste fifoOpening) (some 2) 0 = 3 := by
  have hs : Sound ⟨fifoOpening, []⟩ := sound_opening ⟨by decide, by decide⟩
  have hempty : Unrecorded fifoOpening 0 :=
    ⟨by simp [fifoOpening, opening], by simp [fifoOpening, opening],
      by simp [fifoOpening, opening]⟩
  have hfifo : ValuedByFifo fifoOpening 0 := ⟨_, List.mem_singleton.mpr rfl, rfl, rfl⟩
  exact ⟨(fifo_layers_cover_stock hs hfifo hempty receiveAndWaste).1 (some 2),
    by decide +kernel⟩

end Orders
end ERP
