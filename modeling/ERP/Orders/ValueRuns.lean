import ERP.Inventory.AverageRuns
import ERP.Orders.FifoRuns

/-!
# Moving-average items over whole runs

The value `getValuation` reports of a moving-average item is what its receipts
cost less what its issues were charged, as long as no receipt revalues stock
that orders hold.
-/

namespace ERP
namespace Orders

open Inventory Lib.Tx

section Report

variable {db : DB} {i t : Id} {s : MovingAverageScope}

/-- The reserved quantity of the report is the ACTIVE quantity. -/
theorem reservedQuantity_eq (h : Housed i t ⟨db, []⟩) (w : Option Id) :
    reservedQuantity db t i w = activeQty db w i := by
  unfold reservedQuantity activeQty activeIn
  rw [Lib.sum_filter_eq]
  refine congrArg List.sum (List.map_congr_left fun m hm => ?_)
  by_cases hk : m.referenceType = some .orderReservation ∧ m.warehouseId = w ∧
      m.inventoryItemId = i
  · rw [if_pos hk, if_pos ⟨(h.active m hm hk.1 hk.2.2).1, hk.2.2, hk.1, hk.2.1⟩]
  · rw [if_neg hk, if_neg fun hl => hk ⟨hl.2.2.1, hl.2.2.2, hl.2.1⟩]

/-- The unit cost of the report is the average of the scope. -/
theorem stockUnitCost_eq {item : InventoryItem} {row : InventoryStock} (hs : Sound ⟨db, []⟩)
    (hitem : item ∈ db.items) (hid : item.id = i) (hscope : item.movingAverageScope = some s)
    (hrow : row ∈ db.stocks) (hri : row.inventoryItemId = i) :
    stockUnitCost item row = averageIn db s i row.warehouseId := by
  rw [← averageAt_eq hs.itemIds hitem hid hscope]
  have hat : db.stockAt row.warehouseId row.inventoryItemId = some row := hs.stockAt_of_mem hrow
  unfold stockUnitCost averageAt
  rw [hid, ← hri, hat]
  rfl

/-- Every row of the item has a value. -/
theorem valueAt_eq (h : Tallied i t s ⟨db, []⟩) {row : InventoryStock}
    (hrow : row ∈ db.stocks) (hri : row.inventoryItemId = i) :
    valueAt (row.quantity + activeQty db row.warehouseId i) (averageIn db s i row.warehouseId) =
      some ((averageIn db s i row.warehouseId).getD 0 *
        (row.quantity + activeQty db row.warehouseId i)) := by
  cases haverage : averageIn db s i row.warehouseId with
  | some a =>
      simp only [valueAt, Option.getD_some]
      rw [mul_comm]
  | none =>
      obtain ⟨hstock, hheld⟩ := h.conserved.valued row.warehouseId haverage
      have hle := le_stockQty h.sound hrow
      have hpos := h.sound.stock_nonneg row hrow
      rw [hri] at hle
      simp only [held, pendingQty, List.map_nil, List.sum_nil, add_zero] at hstock hheld
      have hzero : row.quantity = 0 := le_antisymm (hstock ▸ hle) hpos
      simp [valueAt, hzero, hheld]

/-- The reported value of an item whose ledger is conserved. -/
theorem totalValue_of_tallied (h : Tallied i t s ⟨db, []⟩) :
    totalValue db t i = some (receiptCost db i - issueCost db i) := by
  obtain ⟨item, hmem, hid, htenant, hmethod, hscope⟩ := h.conserved.item
  have hfound : db.items.find? (fun row => row.id = i ∧ row.tenantId = t) = some item := by
    have hsome : (db.items.find? fun row => row.id = i ∧ row.tenantId = t).isSome :=
      List.find?_isSome.mpr ⟨item, hmem, by simpa using ⟨hid, htenant⟩⟩
    obtain ⟨row, hrow⟩ := Option.isSome_iff_exists.mp hsome
    have hkey := List.find?_some hrow
    simp only [decide_eq_true_eq] at hkey
    rw [hrow, h.sound.itemIds.eq_of_key (List.mem_of_find?_eq_some hrow) hmem
      (hkey.1.trans hid.symm)]
  have hvalue : ∀ row ∈ db.stocks, row.inventoryItemId = i →
      (balanceOf db item row).inventoryValue =
        some ((averageIn db s i row.warehouseId).getD 0 *
          (row.quantity + activeQty db row.warehouseId i)) := by
    intro row hrow hri
    simp only [balanceOf, hmethod]
    rw [hid, htenant, reservedQuantity_eq h.housed,
      stockUnitCost_eq h.sound hmem hid hscope hrow hri]
    exact valueAt_eq h hrow hri
  have hall : ((db.stocks.filter fun row => row.inventoryItemId = item.id).map
      (balanceOf db item)).all (fun b => b.inventoryValue.isSome) = true := by
    rw [List.all_map, List.all_eq_true]
    intro row hrow
    obtain ⟨hmem, hri⟩ := List.mem_filter.mp hrow
    simp only [Function.comp, hvalue row hmem ((of_decide_eq_true hri).trans hid),
      Option.isSome_some]
  have hsum : (((db.stocks.filter fun row => row.inventoryItemId = item.id).map
      (balanceOf db item)).map fun b => b.inventoryValue.getD 0).sum =
        worth db.stocks i (fun w => (averageIn db s i w).getD 0) (held ⟨db, []⟩ i) := by
    rw [List.map_map, Lib.sum_filter_eq]
    refine congrArg List.sum (List.map_congr_left fun row hrow => ?_)
    rw [hid]
    by_cases hri : row.inventoryItemId = i
    · simp only [hri, if_true, Function.comp, hvalue row hrow hri, Option.getD_some, held,
        pendingQty, List.map_nil, List.sum_nil, add_zero]
    · simp only [hri, if_false]
  have hconserved := h.conserved.value
  simp only at hconserved
  unfold totalValue getValuation
  simp only [hfound, hmethod, Option.isSome_some, Bool.true_and, hall, if_true, hsum, hconserved]

end Report

section Runs

variable {stamp : Stamp} {rt : TransferRuntime} {db : DB} {i t : Id} {s : MovingAverageScope}

theorem Unrecorded.tallied (hs : Sound ⟨db, []⟩) (h : Unrecorded db i)
    (hitem : AveragedItem i t s db) : Tallied i t s ⟨db, []⟩ := by
  have hactive : ∀ w, activeQty db w i = 0 := fun w => List.sum_eq_zero fun x hx => by
    obtain ⟨m, hm, rfl⟩ := List.mem_map.mp hx
    exact if_neg fun hk => h.movements m hm hk.2.2
  have hstock : ∀ w, stockQty db w i = 0 := fun w => List.sum_eq_zero fun x hx => by
    obtain ⟨r, hr, rfl⟩ := List.mem_map.mp hx
    exact if_neg fun hk => h.stocks r hr hk.2
  have hreceipts : receiptCost db i = 0 := List.sum_eq_zero fun x hx => by
    obtain ⟨m, hm, rfl⟩ := List.mem_map.mp hx
    exact if_neg fun hk => h.movements m hm hk.1
  have hissues : issueCost db i = 0 := List.sum_eq_zero fun x hx => by
    obtain ⟨m, hm, rfl⟩ := List.mem_map.mp hx
    exact if_neg fun hk => h.movements m hm hk.1
  refine ⟨hs, ⟨fun m hm _ hi => absurd hi (h.movements m hm), by simp⟩, hitem, ?_, fun w _ => ?_⟩
  · simp only
    rw [hreceipts, hissues, sub_zero]
    refine List.sum_eq_zero fun x hx => ?_
    obtain ⟨r, hr, rfl⟩ := List.mem_map.mp hx
    exact if_neg (h.stocks r hr)
  · simp [hstock, held, hactive, pendingQty]

/-- An operation that books receipts makes no reservations. -/
theorem Operation.permit_cases (stamp : Stamp) (rt : TransferRuntime) (op : Operation) (db : DB) :
    ¬ (op.permit stamp rt db).reservation ∨ OnlyReserves (op.permit stamp rt db) := by
  cases op
  case reserveStock | releaseReservation | reserveStockInRepository |
      releaseReservationInRepository | cancelReservation | expireReservations |
      commitReservation | updateKitchenStatus =>
    exact .inr ⟨fun r h => h, fun h => h, fun h => h⟩
  all_goals exact .inl fun h => h

/-- The operation, run on `db`, revalues nothing of item `i` that orders hold: it
changes nothing, or each receipt of the item it books meets no ACTIVE reservation
in the scope of its average or comes at that average. -/
def Operation.KeepsHeldValue (stamp : Stamp) (rt : TransferRuntime) (op : Operation) (db : DB)
    (s : MovingAverageScope) (i : Id) : Prop :=
  commit (op.exec stamp rt) db ≠ db →
    ∀ r, op.Receives stamp rt db r → r.inventoryItemId = i → Undisturbed s r ⟨db, []⟩

theorem tallied_operation (h : Tallied i t s ⟨db, []⟩) (op : Operation)
    (hquiet : op.KeepsHeldValue stamp rt db s i) :
    Tallied i t s ⟨commit (op.exec stamp rt) db, []⟩ := by
  by_cases hsame : commit (op.exec stamp rt) db = db
  · rw [hsame]
    exact h
  · have hrun := op.run_commit stamp rt h.sound
    rcases op.permit_cases stamp rt db with hA | hA
    · exact (h.run_receiving hA (hquiet hsame) hrun).1
    · exact h.run_reserving hA.receipt hrun

theorem tallied_runAll (h : Tallied i t s ⟨db, []⟩) (ops : List Operation)
    (hquiet : ∀ done op rest, ops = done ++ op :: rest →
      op.KeepsHeldValue stamp rt (runAll stamp rt done db) s i) :
    Tallied i t s ⟨runAll stamp rt ops db, []⟩ := by
  induction ops generalizing db with
  | nil => exact h
  | cons op rest ih =>
      refine ih (tallied_operation h op (hquiet [] op rest rfl)) fun done op' rest' hsplit => ?_
      exact hquiet (op :: done) op' rest' (by rw [hsplit]; rfl)

/-- In a run whose receipts of a moving-average item revalue nothing that orders
hold, the reported value is what the receipts cost less what the issues were
charged, and a reservation operation leaves the sum of the value and of the
recorded cost of issues as it was. -/
theorem average_value_conserved (hs : Sound ⟨db, []⟩) (hitem : AveragedItem i t s db)
    (hempty : Unrecorded db i) (ops : List Operation)
    (hquiet : ∀ done op rest, ops = done ++ op :: rest →
      op.KeepsHeldValue stamp rt (runAll stamp rt done db) s i) :
    totalValue (runAll stamp rt ops db) t i =
      some (receiptCost (runAll stamp rt ops db) i - issueCost (runAll stamp rt ops db) i) ∧
    ∀ op : Operation, (op.permit stamp rt (runAll stamp rt ops db)).reservation →
      ∃ v v', totalValue (runAll stamp rt ops db) t i = some v ∧
        totalValue (commit (op.exec stamp rt) (runAll stamp rt ops db)) t i = some v' ∧
        v' + issueCost (commit (op.exec stamp rt) (runAll stamp rt ops db)) i =
          v + issueCost (runAll stamp rt ops db) i := by
  have htallied := tallied_runAll (hempty.tallied hs hitem) ops hquiet
  refine ⟨totalValue_of_tallied htallied, fun op hop => ?_⟩
  have honly := (op.permit_cases stamp rt (runAll stamp rt ops db)).resolve_left
    fun h => h hop
  have hnext := htallied.run_reserving honly.receipt (op.run_commit stamp rt htallied.sound)
  have hreceipts := receiptCost_run (i := i) htallied.sound honly
    (op.run_commit stamp rt htallied.sound)
  refine ⟨_, _, totalValue_of_tallied htallied, totalValue_of_tallied hnext, ?_⟩
  simp only at hreceipts
  rw [hreceipts]
  ring

end Runs

/-- Item 0 of tenant 1, valued at its moving average over all warehouses, warehouse
2, and order 3 for five units of it. -/
def averageOpening : DB :=
  opening 5
    [{ id := 0, tenantId := 1, name := "cup", valuationMethod := some .movingWeightedAverage,
       movingAverageScope := some .perItem, standardCost := none, averageUnitCost := none,
       valuationLockedAt := none }]
    { tenants := [⟨1, .retail⟩], warehouses := [⟨2, 1, none, true⟩]
      products := [⟨4, "cup", true, some 0, none⟩]
      orders :=
        [{ id := 3, tenantId := 1, outletId := none, status := .pending, orderMode := .regular,
           paymentStatus := .pending, paidAmount := 0, totalAmount := 50,
           kitchenReleasedAt := none, items := [⟨4, 5, by decide⟩] }]
      purchaseOrders := [] }

theorem quantity_five : 0 < 5 := by decide

theorem unitCost_nonneg (unitCost : Nat) : ∀ c ∈ some (unitCost : ℚ), 0 ≤ c := by
  intro c hc
  cases hc
  exact Nat.cast_nonneg unitCost

/-- Receive 10 units at 10, reserve 5 of them, and receive 5 units at another cost. -/
def receiveReserveReceive (unitCost : Nat) : List Operation :=
  [.stockIn 1
      { inventoryItemId := 0, warehouseId := 2, quantity := 10, unitCost := some 10,
        quantity_min := by decide, unitCost_min := by simp },
    .reserveStock 3 1,
    .stockIn 1
      { inventoryItemId := 0, warehouseId := 2, quantity := 5, unitCost := some unitCost,
        quantity_min := quantity_five, unitCost_min := unitCost_nonneg unitCost }]

/-- Five units came in at 20 while five were reserved at 10: the average of 15 over
the ten in stock is put on the five reserved ones too. -/
theorem average_value_drifts :
    totalValue (runAll .sequential .plain (receiveReserveReceive 20) averageOpening) 1 0 =
      some 225 ∧
    receiptCost (runAll .sequential .plain (receiveReserveReceive 20) averageOpening) 0 -
      issueCost (runAll .sequential .plain (receiveReserveReceive 20) averageOpening) 0 = 200 ∧
    totalValue (runAll .sequential .plain (receiveReserveReceive 20) averageOpening) 1 0 ≠
      some (receiptCost (runAll .sequential .plain (receiveReserveReceive 20) averageOpening) 0 -
        issueCost (runAll .sequential .plain (receiveReserveReceive 20) averageOpening) 0) := by
  decide +kernel

theorem average_value_conserved_example :
    totalValue (runAll .sequential .plain (receiveReserveReceive 10) averageOpening) 1 0 =
      some (receiptCost (runAll .sequential .plain (receiveReserveReceive 10) averageOpening) 0 -
        issueCost (runAll .sequential .plain (receiveReserveReceive 10) averageOpening) 0) ∧
    totalValue (runAll .sequential .plain (receiveReserveReceive 10) averageOpening) 1 0 =
      some 150 := by
  have hs : Sound ⟨averageOpening, []⟩ := sound_opening ⟨by decide, by decide⟩
  have hempty : Unrecorded averageOpening 0 :=
    ⟨by simp [averageOpening, opening], by simp [averageOpening, opening],
      by simp [averageOpening, opening]⟩
  have hitem : AveragedItem 0 1 .perItem averageOpening :=
    ⟨_, List.mem_singleton.mpr rfl, rfl, rfl, rfl, rfl⟩
  refine ⟨(average_value_conserved hs hitem hempty _ fun done op rest hsplit => ?_).1,
    by decide +kernel⟩
  rcases done with _ | ⟨a, _ | ⟨b, _ | ⟨c, done⟩⟩⟩ <;>
    simp only [receiveReserveReceive, List.cons_append, List.nil_append, List.cons.injEq] at hsplit
  · intro _ r _ _
    exact .inl fun w _ => by
      simp [held, activeQty, activeIn, pendingQty, runAll, averageOpening, opening]
  · obtain ⟨_, rfl, _⟩ := hsplit
    exact fun _ r hr => absurd hr id
  · obtain ⟨rfl, rfl, rfl, _⟩ := hsplit
    intro _ r hr _
    rw [hr]
    exact .inr (by decide +kernel)
  · exact absurd hsplit.2.2.2 (by simp)

end Orders
end ERP
