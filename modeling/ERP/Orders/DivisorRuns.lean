import ERP.Inventory.DivisorOperations
import ERP.Orders.FifoRuns

/-!
# Divisors over whole runs

In every state a serial run reaches, the next operation divides by nothing that is zero.
A transfer line that was received in full can be received again within the tolerance; the
receipt of nothing it would then be is refused by the database.
-/

namespace ERP
namespace Orders

open Inventory Lib.Tx

section Kitchen

variable {stamp : Stamp} {db : DB}

theorem costKitchenReservation_divides {tenantId : Id} {r : InventoryMovement}
    {rest : List InventoryMovement} (hs : Sound ⟨db, r :: rest⟩) :
    Divides (costKitchenReservation stamp tenantId r.id) db := by
  unfold Divides costKitchenReservation
  simp only [post_bind, post_get]
  by_cases hnone : (db.allocationsOf r.id).length = 0
  · rw [if_pos hnone]
    simp only [post_bind, post_pure]
    refine expect_divided (by simp) fun m hm => ?_
    obtain ⟨m', hm', hid', -, -, -, -, hout⟩ := (hs.pending r List.mem_cons_self).row
    have hmid : m.id = r.id := by simpa using List.find?_some hm
    have heq : m = m' := hs.movementIds.eq_of_key (List.mem_of_find?_eq_some hm) hm'
      (hmid.trans hid'.symm)
    rw [heq]
    exact issue_divides (ne_of_gt hout.quantity_pos)
  · rw [if_neg hnone]
    exact trivial

theorem commitKitchenReservation_divides (hs : Sound ⟨db, []⟩) (tenantId orderId : Id) :
    Divides (commitKitchenReservation stamp tenantId orderId) db := by
  unfold Divides commitKitchenReservation
  simp only [post_bind, post_get]
  by_cases hnil : activeReservations db tenantId orderId = []
  · rw [if_pos hnil]
    exact trivial
  · rw [if_neg hnil]
    simp only [post_bind]
    refine claimReservations_post stamp (A := .all) trivial hs activeReservations_active
      (fun m => by simp) (fun m => ⟨_, _, rfl⟩) fun db₁ hrun => ?_
    refine require_divided (by simp) fun _ => ?_
    refine (post_forM (fun rest db' => Run stamp .all ⟨db, []⟩ ⟨db', rest⟩) _
      (fun r rest db' hsplit hrun' => ?_) hrun).mono (fun _ _ _ => trivial) fun _ he => he
    exact (costKitchenReservation_divides (hs.run hrun')).post
      (costKitchenReservation_post (S := fun _ => True) hs hrun' trivial trivial
        fun _ hrun'' => hrun'')

theorem updateKitchenStatus_divides (hs : Sound ⟨db, []⟩) (orderId tenantId : Id)
    (outletId : Option Id) (status expectedStatus : KitchenStatus) :
    Divides (updateKitchenStatus stamp orderId tenantId outletId status expectedStatus) db := by
  unfold Divides updateKitchenStatus
  simp only [post_bind, post_get, post_set]
  have hsound (p : SalesOrder → Bool) (f : SalesOrder → SalesOrder) :
      Sound ⟨db.updateOrders p f, []⟩ :=
    hs.sameLedger ⟨rfl, rfl, rfl, rfl, rfl, le_refl _⟩ fun hl => Sound.lines_mono hl rfl (le_refl _)
  rw [post_ite]
  refine ⟨fun _ => trivial, fun _ => ?_⟩
  rw [post_ite]
  refine ⟨fun _ => ?_, fun _ => ?_⟩
  · rw [post_bind]
    exact giveBackOrder_divides (hsound _ _) (by decide) orderId tenantId
  · rw [post_ite]
    refine ⟨fun _ => ?_, fun _ => trivial⟩
    rw [post_bind]
    exact commitKitchenReservation_divides (hsound _ _) tenantId orderId

end Kitchen

section Runs

variable {stamp : Stamp} {rt : TransferRuntime} {db : DB}

theorem throw_divides {α : Type} {e : Failure} (he : e ≠ .decimalNotStorable) :
    Divides (throw e : Tx α) db := he

theorem discard_divides {α : Type} {m : Tx α} (h : Divides m db) :
    Divides ((fun _ => ()) <$> m) db :=
  post_map.mpr h

theorem receivePurchaseOrder_divides (hs : Sound ⟨db, []⟩) (tenantId purchaseOrderId : Id)
    (key : String) (dto : ReceiptDto) :
    Divides (receivePurchaseOrder stamp unrounded rt.localeLE rt.receiptHash tenantId
      purchaseOrderId key dto) db := by
  unfold receivePurchaseOrder
  split
  · exact throw_divides
      (ne_of_mem_of_not_mem (normalizePurchaseReceipt_error ‹_›) (by decide))
  · exact receivePurchaseRequest_divides hs (normalizePurchaseReceipt_ok ‹_›).1

theorem createTransfer_divides (tenantId : Id) (key : String) (dto : CreateWarehouseTransferDto) :
    Divides (createTransfer stamp rt tenantId key dto) db := by
  unfold createTransfer
  split
  · exact throw_divides (ne_of_mem_of_not_mem (normalizeTransfer_error ‹_›) (by decide))
  · exact insertTransfer_divides rt tenantId key _

theorem receiveWarehouseTransfer_divides (hs : Sound ⟨db, []⟩) (tenantId transferId : Id)
    (key : String) (dto : ReceiptDto) :
    Divides (receiveWarehouseTransfer stamp rt tenantId transferId key dto) db := by
  unfold receiveWarehouseTransfer
  split
  · exact throw_divides
      (ne_of_mem_of_not_mem (normalizeTransferReceipt_error ‹_›) (by decide))
  · exact receiveRequest_divides hs (normalizeTransferReceipt_ok ‹_›).1

/-- Each operation on a sound database divides by nothing that is zero. -/
theorem Operation.divides (hs : Sound ⟨db, []⟩) (op : Operation) :
    Divides (op.exec stamp rt) db := by
  cases op with
  | stockIn t dto => exact discard_divides (stockIn_divides (stockRows_of_sound hs) t dto)
  | adjustment t dto => exact discard_divides (adjustment_divides hs t dto)
  | waste t dto => exact discard_divides (waste_divides t dto)
  | receivePurchaseOrder t po key dto =>
      exact discard_divides (receivePurchaseOrder_divides hs t po key dto)
  | createTransfer t key dto => exact discard_divides (createTransfer_divides t key dto)
  | shipTransfer t id => exact discard_divides (ship_divides hs t id)
  | receiveTransfer t id key dto =>
      exact discard_divides (receiveWarehouseTransfer_divides hs t id key dto)
  | cancelTransfer t id => exact discard_divides (cancel_divides t id)
  | reserveStock o t => exact discard_divides (reserveStockWith_divides false o t)
  | releaseReservation o t => exact discard_divides (giveBackOrder_divides hs (by decide) o t)
  | reserveStockInRepository o t => exact discard_divides (reserveStockWith_divides true o t)
  | releaseReservationInRepository o t =>
      exact discard_divides (giveBackOrder_divides hs (by decide) o t)
  | cancelReservation o t => exact discard_divides (giveBackOrder_divides hs (by decide) o t)
  | expireReservations cutoff => exact discard_divides (expireReservations_divides hs cutoff)
  | commitReservation o t => exact discard_divides (commitReservation_divides hs o t)
  | updateKitchenStatus o t outlet status expected =>
      exact discard_divides (updateKitchenStatus_divides hs o t outlet status expected)
  | fulfillRetail o t => exact discard_divides (fulfillRetail_divides o t)
  | fulfillCafe o t => exact discard_divides (fulfillCafe_divides o t)
  | writeCatalogue c => exact trivial

end Runs

/-- Beans and milk, valued by FIFO, and two warehouses. -/
def beansAndMilk : DB :=
  opening 5
    [⟨1, 1, "beans", some .fifo, none, none, none, none⟩,
      ⟨2, 1, "milk", some .fifo, none, none, none, none⟩]
    { tenants := [⟨1, .retail⟩], warehouses := [⟨3, 1, none, true⟩, ⟨4, 1, none, true⟩],
      products := [], orders := [], purchaseOrders := [] }

theorem five_came_in : 1 ≤ 5 := by decide

theorem whole_cost_nonneg (unitCost : Nat) : ∀ c ∈ some (unitCost : ℚ), 0 ≤ c := by
  intro c hc
  cases hc
  exact Nat.cast_nonneg unitCost

/-- Five of each are shipped, and the beans are received. -/
def beansReceived : List Operation :=
  [.stockIn 1
      { inventoryItemId := 1, warehouseId := 3, quantity := 5, unitCost := some (3 : Nat),
        quantity_min := five_came_in, unitCost_min := whole_cost_nonneg 3 },
    .stockIn 1
      { inventoryItemId := 2, warehouseId := 3, quantity := 5, unitCost := some (2 : Nat),
        quantity_min := five_came_in, unitCost_min := whole_cost_nonneg 2 },
    .createTransfer 1 "first" ⟨"ccc", "cccc", [⟨"c", 5⟩, ⟨"cc", 5⟩], none⟩,
    .shipTransfer 1 11,
    .receiveTransfer 1 11 "second" ⟨[⟨"cccccccccccc", 5⟩], none⟩]

theorem sound_beansAndMilk : Sound ⟨beansAndMilk, []⟩ := sound_opening ⟨by decide, by decide⟩

/-- A billionth of the beans is received once more: it is within the tolerance, nothing is
taken, and the constraint on the line refuses the receipt before it is costed. -/
example :
    (Operation.receiveTransfer 1 11 "third"
      ⟨[⟨"cccccccccccc", 1 / 1000000000⟩, ⟨"ccccccccccccc", 5⟩], none⟩).exec .sequential .plain
      (runAll .sequential .plain beansReceived beansAndMilk) = .error .checkViolation := by
  decide +kernel

end Orders
end ERP
