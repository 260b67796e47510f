import ERP.Inventory.Divisors

/-!
# Divisors of the operations

No operation of the inventory divides by zero.  The receipt of a transfer would, where it
takes nothing of a line that was received in full, but the constraint on its lines refuses
to store such a receipt.
-/

namespace ERP
namespace Inventory

open Lib.Tx

section Manual

variable {stamp : Stamp} {db : DB}

theorem assertTenantStockScope_divided {tenantId itemId warehouseId : Id}
    {Q : Unit → DB → Prop} (h : Q () db) :
    Post (assertTenantStockScope tenantId itemId warehouseId) db Q Divided := by
  unfold assertTenantStockScope
  simp only [post_bind, post_get]
  refine expect_divided (by simp) fun _ _ => ?_
  refine expect_divided (by simp) fun _ _ => ?_
  exact require_divided (by simp) fun _ => h

theorem movementOrThrow_divides {id : Id} : Divides (movementOrThrow id) db := by
  unfold Divides movementOrThrow
  rw [post_bind, post_get]
  exact expect_divided (by simp) fun _ _ => trivial

theorem stockIn_divides (h : StockRows db) (tenantId : Id) (dto : StockInDto) :
    Divides (stockIn stamp tenantId dto) db := by
  unfold Divides stockIn
  simp only [post_bind, post_get]
  refine assertTenantStockScope_divided (lockItem_divided fun _ _ => ?_)
  refine upsertStock_post (createMovement_post ?_)
  have hq : (0 : ℚ) < dto.quantity := Nat.cast_pos.mpr dto.quantity_min
  exact Divides.andThen (receive_booked_divides h hq _) fun _ _ => movementOrThrow_divides

theorem adjustment_divides (hs : Sound ⟨db, []⟩) (tenantId : Id) (dto : StockAdjustmentDto) :
    Divides (adjustment stamp tenantId dto) db := by
  unfold Divides adjustment
  simp only [post_bind, post_get, post_modify]
  refine assertTenantStockScope_divided (lockItem_divided fun _ _ => ?_)
  refine expect_divided (by simp) fun row hrow => ?_
  obtain ⟨hmem, -⟩ := Sound.mem_of_stockAt hrow
  refine require_divided (by simp) fun _ => ?_
  rw [updateStock_set hs hmem]
  refine createMovement_post ?_
  by_cases hpos : 0 < dto.quantity
  · have hq : (0 : ℚ) < dto.quantity := Int.cast_pos.mpr hpos
    have hadd : db.shiftStock row.id dto.quantity =
        db.addStock (some dto.warehouseId) dto.inventoryItemId dto.quantity := by
      rw [DB.addStock, hrow]
    rw [if_pos hpos, post_bind, hadd]
    exact Divides.andThen (receive_booked_divides (stockRows_of_sound hs) hq _)
      fun _ _ => movementOrThrow_divides
  · rw [if_neg hpos]
    by_cases hneg : dto.quantity < 0
    · have hq : |(dto.quantity : ℚ)| ≠ 0 := abs_ne_zero.mpr (Int.cast_ne_zero.mpr hneg.ne)
      rw [if_pos hneg, post_bind]
      exact Divides.andThen (issue_divides hq) fun _ _ => movementOrThrow_divides
    · rw [if_neg hneg]
      exact movementOrThrow_divides

theorem waste_divides (tenantId : Id) (dto : WasteDto) :
    Divides (waste stamp tenantId dto) db := by
  unfold Divides waste
  simp only [post_bind, post_get, post_modify]
  refine assertTenantStockScope_divided (lockItem_divided fun _ _ => ?_)
  refine expect_divided (by simp) fun row _ => require_divided (by simp) fun _ => ?_
  refine createMovement_post ?_
  have hq : (dto.quantity : ℚ) ≠ 0 := Nat.cast_ne_zero.mpr (Nat.ne_of_gt dto.quantity_min)
  exact Divides.andThen (issue_divides hq) fun _ _ => movementOrThrow_divides

end Manual

section Loops

variable {α : Type} {db : DB}

/-- A loop whose bodies divide by nothing that is zero, wherever they are run. -/
theorem forM_divides {f : α → Tx Unit} {xs : List α} (h : ∀ x ∈ xs, ∀ db, Divides (f x) db) :
    Divides (xs.forM f) db :=
  post_forM (fun _ _ => True) xs
    (fun x _ db' hsplit _ => h x (mem_of_split hsplit) db') trivial

theorem decrementStocks_any {p : InventoryStock → Bool} {q : ℚ} {Q : Nat → DB → Prop}
    {E : Failure → Prop} (h : ∀ n db', Q n db') : Post (decrementStocks p q) db Q E := by
  unfold decrementStocks
  simp only [post_bind, post_get, post_set, post_pure]
  exact h _ _

theorem writeOutbox_any {tenantId : Id} {event : DomainEvent} {Q : Unit → DB → Prop}
    {E : Failure → Prop} (h : ∀ db', Q () db') : Post (writeOutbox tenantId event) db Q E :=
  writeOutbox_post fun db' _ _ => h db'

end Loops

section Fulfilment

variable {stamp : Stamp} {db : DB}

theorem deductDirectly_divides {tenantId orderId itemId : Id} {label : String}
    {type : MovementType} {quantity : ℚ} (hq : quantity ≠ 0) :
    Divides (deductDirectly stamp tenantId orderId itemId label type quantity) db := by
  unfold Divides deductDirectly
  simp only [post_bind, post_get, post_pure]
  refine lockItem_divided fun _ _ => expect_divided (by simp) fun stock _ => ?_
  refine require_divided (by simp) fun _ => decrementStocks_any fun n db' => ?_
  refine require_divided (by simp) fun _ => createMovement_post ?_
  exact issue_divides hq

theorem fulfillWith_divides {line : SalesOrderItem × Product → Tx Unit} {orderId tenantId : Id}
    (h : ∀ l db, Divides (line l) db) : Divides (fulfillWith line orderId tenantId) db := by
  unfold Divides fulfillWith
  simp only [post_bind, post_get]
  refine expect_divided (by simp) fun order _ => ?_
  by_cases hdone : order.status = .completed
  · rw [if_pos hdone]
    exact trivial
  · rw [if_neg hdone]
    simp only [post_bind, post_get, post_set, post_pure]
    refine require_divided (by simp) fun _ => ?_
    exact Divides.andThen (forM_divides fun l _ db' => h l db') fun _ _ => trivial

theorem fulfillRetail_divides (orderId tenantId : Id) :
    Divides (fulfillRetail stamp orderId tenantId) db := by
  refine fulfillWith_divides fun l db' => ?_
  unfold fulfillRetailLine
  cases l.2.inventoryItemId with
  | none => exact trivial
  | some itemId =>
      exact deductDirectly_divides (Nat.cast_ne_zero.mpr (Nat.ne_of_gt l.1.quantity_pos))

theorem fulfillCafe_divides (orderId tenantId : Id) :
    Divides (fulfillCafe stamp orderId tenantId) db := by
  refine fulfillWith_divides fun l db' => ?_
  unfold fulfillCafeLine
  cases l.2.recipe with
  | none => exact trivial
  | some recipe =>
      refine forM_divides fun r _ db'' => ?_
      have hr : (r.quantity : ℚ) ≠ 0 := Nat.cast_ne_zero.mpr (Nat.ne_of_gt r.quantity_pos)
      have hl : (l.1.quantity : ℚ) ≠ 0 := Nat.cast_ne_zero.mpr (Nat.ne_of_gt l.1.quantity_pos)
      unfold Divides
      rw [post_bind, post_get]
      exact deductDirectly_divides (mul_ne_zero hr hl)

end Fulfilment

section Reservations

variable {stamp : Stamp} {db : DB}

theorem reserveRows_divides {tenantId orderId itemId : Id} {rows : List InventoryStock}
    {remaining : ℚ} : Divides (reserveRows tenantId orderId itemId rows remaining) db := by
  induction rows generalizing db remaining with
  | nil => exact trivial
  | cons stock rest ih =>
      unfold Divides reserveRows
      by_cases hdone : remaining ≤ 0
      · rw [if_pos hdone]
        exact trivial
      · rw [if_neg hdone]
        simp only [post_bind, post_get]
        refine decrementStocks_any fun n db' => require_divided (by simp) fun _ => ?_
        exact createMovement_post ih

theorem reserveStockWith_divides (checkActive : Bool) (orderId tenantId : Id) :
    Divides (reserveStockWith checkActive stamp orderId tenantId) db := by
  unfold Divides reserveStockWith
  simp only [post_bind, post_get]
  refine expect_divided (by simp) fun order _ => ?_
  by_cases hheld : hasReservation db tenantId orderId = true
  · rw [if_pos hheld]
    exact trivial
  · rw [if_neg hheld]
    simp only [post_bind, post_pure]
    refine expect_divided (by simp) fun businessType _ => require_divided (by simp) fun _ => ?_
    refine forM_divides fun r _ db' => ?_
    unfold Divides reserveRequirement
    simp only [post_bind, post_get]
    refine expect_divided (by simp) fun _ _ => ?_
    exact Divides.andThen reserveRows_divides fun _ _ => require_divided (by simp) fun _ => trivial

/-- Giving a reservation back costs nothing, because it was not charged. -/
theorem giveBackOrder_divides {marker : ReferenceType} (hs : Sound ⟨db, []⟩)
    (hmarker : marker ≠ .orderReservation ∧ marker ≠ .warehouseTransferShipment ∧
      marker ≠ .warehouseTransferReceipt) (orderId tenantId : Id) :
    Divides (do
      let db ← get
      giveBack stamp marker (activeReservations db tenantId orderId) (pure ())) db := by
  unfold Divides
  rw [post_bind, post_get]
  exact giveBack_post (A := .all) (Q := fun _ _ => True) hs trivial activeReservations_active
    hmarker trivial fun _ _ _ => trivial

theorem expireReservations_divides (hs : Sound ⟨db, []⟩) (cutoff : Int) :
    Divides (ReservationRepository.expireReservations stamp cutoff) db := by
  unfold Divides ReservationRepository.expireReservations
  simp only [post_bind, post_get, post_pure]
  refine giveBack_post (A := .all) (Q := fun _ _ => True) hs trivial (fun m _ hm => ?_)
    (by decide) trivial fun db' _ _ => ?_
  · rw [decide_eq_true_eq] at hm
    exact hm.1
  · exact forM_divides fun _ _ _ => writeOutbox_any fun _ => trivial

theorem costReservation_divides {tenantId : Id} {r : InventoryMovement} (hq : r.quantity ≠ 0) :
    Divides (costReservation stamp tenantId r) db := by
  unfold Divides costReservation
  simp only [post_bind, post_get]
  by_cases hnone : (db.allocationsOf r.id).length = 0
  · rw [if_pos hnone]
    simp only [post_bind, post_pure]
    exact issue_divides hq
  · rw [if_neg hnone]
    exact trivial

theorem claimReservations_any {reservations : List InventoryMovement}
    {f : InventoryMovement → InventoryMovement} {Q : Nat → DB → Prop} {E : Failure → Prop}
    (h : ∀ n db', Q n db') : Post (claimReservations reservations f) db Q E := by
  unfold claimReservations
  simp only [post_bind, post_get, post_set, post_pure]
  exact h _ _

theorem activeReservation_quantity (hs : Sound ⟨db, []⟩) {tenantId orderId : Id}
    {r : InventoryMovement} (hr : r ∈ activeReservations db tenantId orderId) :
    r.quantity ≠ 0 := by
  obtain ⟨hmem, hactive⟩ := List.mem_filter.mp hr
  exact ne_of_gt (hs.active r hmem (activeReservations_active r hmem hactive)).quantity_pos

theorem commitReservation_divides (hs : Sound ⟨db, []⟩) (orderId tenantId : Id) :
    Divides (commitReservation stamp orderId tenantId) db := by
  unfold Divides commitReservation
  simp only [post_bind, post_get]
  refine expect_divided (by simp) fun _ _ => expect_divided (by simp) fun businessType _ => ?_
  by_cases hnil : activeReservations db tenantId orderId = []
  · rw [if_pos hnil]
    exact trivial
  · rw [if_neg hnil]
    unfold commitWith
    rw [post_bind]
    refine claimReservations_any fun n db' => ?_
    by_cases hzero : n = 0
    · rw [if_pos hzero]
      exact trivial
    · rw [if_neg hzero]
      simp only [post_bind, post_pure]
      refine require_divided (by simp) fun _ => ?_
      exact forM_divides fun r hr db'' => costReservation_divides (activeReservation_quantity hs hr)

end Reservations

section Purchases

variable {stamp : Stamp} {db : DB}

theorem planPurchaseReceipt_divides (po : PurchaseOrder) (items : List ReceiptItemDto) :
    Divides (planPurchaseReceipt stamp unrounded po items) db := by
  induction items with
  | nil => exact trivial
  | cons item rest ih =>
      unfold Divides planPurchaseReceipt
      simp only [post_bind, post_pure]
      refine expect_divided (by simp) fun line _ => expect_divided (by simp) fun plan _ => ?_
      exact ih

theorem recordPriceVariance_divides {item : InventoryItem} {receipt : PurchaseOrderReceipt}
    {p : PlannedPurchaseItem} : Divides (recordPriceVariance item receipt p) db := by
  unfold Divides recordPriceVariance
  split
  · simp only [post_bind, post_modify]
    exact expect_divided (by simp) fun _ _ => freshId_post trivial
  · exact trivial

theorem receivePurchaseItem_divides {tenantId warehouseId : Id} {po : PurchaseOrder}
    {receipt : PurchaseOrderReceipt} {p : PlannedPurchaseItem} (h : StockRows db)
    (hpos : 0 < p.delta) :
    Divides (receivePurchaseItem stamp tenantId po warehouseId receipt p) db := by
  unfold Divides receivePurchaseItem setOrderItemReceived
  simp only [post_bind, post_get, post_set, post_pure]
  refine lockItem_divided fun _ _ => require_divided (by simp) fun _ => ?_
  refine upsertStock_post (createMovement_post ?_)
  refine Divides.andThen (receive_booked_divides ?_ ?_ _) fun _ _ => recordPriceVariance_divides
  · exact ⟨h.ids, h.nonneg⟩
  · exact hpos

theorem receivePurchaseRequest_divides (hs : Sound ⟨db, []⟩) {receiptHash : ReceiptDto → String}
    {tenantId purchaseOrderId : Id} {key : String} {request : ReceiptDto}
    (hitems : ∀ item ∈ request.items, 1 / 10 ≤ item.receivedQuantity) :
    Divides (receivePurchaseRequest stamp unrounded receiptHash tenantId purchaseOrderId key
      request) db := by
  unfold Divides receivePurchaseRequest
  simp only [post_bind, post_get]
  refine expect_divided (by simp) fun po _ => ?_
  split
  · simp only [post_bind, post_pure]
    exact require_divided (by simp) fun _ => trivial
  · simp only [post_bind, post_modify, post_get, post_set, post_pure]
    refine require_divided (by simp) fun _ => expect_divided (by simp) fun warehouseId _ => ?_
    refine (planPurchaseReceipt_divides po request.items).post
      (planPurchaseReceipt_post quiet_true hitems fun planned hplanned _ => ?_)
    refine freshId_post ?_
    refine (post_forM (fun _ db' => Run stamp .all ⟨db, []⟩ ⟨db', []⟩) planned
      (fun p rest db' hsplit hrun => ?_) ?_).mono (fun _ db' _ => ?_) fun _ he => he
    · have hp := hplanned p (mem_of_split hsplit)
      exact (receivePurchaseItem_divides (stockRows_of_sound (hs.run hrun)) hp.pos).post
        (receivePurchaseItem_post (S := fun _ => False) hrun hp.pos trivial fun _ hrun' => hrun')
    · exact Run.elsewhere .refl ⟨rfl, rfl, rfl, rfl, rfl, Nat.le_succ _⟩ ⟨rfl, rfl⟩
    · exact require_divided (by simp) fun _ => writeOutbox_any fun _ => trivial

end Purchases

section Transfers

variable {stamp : Stamp} {db : DB}

theorem findTransfer_divides (tenantId transferId : Id) :
    Divides (findTransfer tenantId transferId) db := by
  unfold Divides findTransfer
  rw [post_bind, post_get]
  exact expect_divided (by simp) fun _ _ => trivial

theorem setTransferStatus_any {tenantId transferId : Id} {status next : TransferStatus}
    {Q : Nat → DB → Prop} {E : Failure → Prop} (h : ∀ n db', Q n db') :
    Post (setTransferStatus tenantId transferId status next) db Q E := by
  unfold setTransferStatus
  simp only [post_bind, post_get, post_set, post_pure]
  exact h _ _

theorem createTransferItems_divides (found : List InventoryItem) (items : List TransferItemDto) :
    Divides (createTransferItems stamp found items) db := by
  induction items generalizing db with
  | nil => exact trivial
  | cons item rest ih =>
      unfold Divides createTransferItems
      simp only [post_bind, post_pure]
      exact freshId_post (expect_divided (by simp) fun _ _ => ih)

theorem insertTransfer_divides (rt : TransferRuntime) (tenantId : Id) (key : String)
    (request : CreateWarehouseTransferDto) :
    Divides (insertTransfer stamp rt tenantId key request) db := by
  unfold Divides insertTransfer
  simp only [post_bind, post_get, post_modify, post_pure]
  refine expect_divided (by simp) fun source _ => expect_divided (by simp) fun destination _ => ?_
  refine require_divided (by simp) fun _ => require_divided (by simp) fun _ => ?_
  refine require_divided (by simp) fun _ => freshId_post ?_
  refine (createTransferItems_divides _ _).andThen fun items db' => ?_
  exact writeOutbox_any fun _ => trivial

theorem shipItem_divides {tenantId : Id} {transfer : WarehouseTransfer}
    {stocks : List InventoryStock} {line : WarehouseTransferItem} (hq : line.quantity ≠ 0) :
    Divides (shipItem stamp tenantId transfer stocks line) db := by
  unfold Divides shipItem
  simp only [post_bind, post_pure]
  refine lockItem_divided fun _ _ => expect_divided (by simp) fun stock _ => ?_
  refine require_divided (by simp) fun _ => decrementStocks_any fun n db' => ?_
  refine require_divided (by simp) fun _ => createMovement_post ?_
  exact issue_divides hq

theorem ship_divides (hs : Sound ⟨db, []⟩) (tenantId transferId : Id) :
    Divides (ship stamp tenantId transferId) db := by
  unfold Divides ship
  rw [post_bind]
  refine (findTransfer_divides tenantId transferId).post
    (findTransfer_post quiet_true fun transfer hmem _ _ => ?_)
  by_cases hshipped : transfer.status = .inTransit ∨ transfer.status = .partiallyReceived ∨
      transfer.status = .received
  · rw [if_pos hshipped]
    exact findTransfer_divides tenantId transferId
  · rw [if_neg hshipped]
    simp only [post_bind, post_get]
    refine require_divided (by simp) fun _ => ?_
    have hlines : Divides (transfer.items.forM
        (shipItem stamp tenantId transfer (sourceStocks db transfer))) db :=
      forM_divides fun line hline db' =>
        shipItem_divides (ne_of_gt (hs.lines.bounds transfer hmem line hline).1)
    refine hlines.andThen fun _ db' => setTransferStatus_any fun n db'' => ?_
    refine require_divided (by simp) fun _ => writeOutbox_any fun _ => ?_
    exact findTransfer_divides tenantId transferId

theorem cancel_divides (tenantId transferId : Id) : Divides (cancel tenantId transferId) db := by
  unfold Divides cancel
  rw [post_bind]
  refine (findTransfer_divides tenantId transferId).andThen fun transfer db' => ?_
  by_cases hdone : transfer.status = .cancelled
  · rw [if_pos hdone]
    exact findTransfer_divides tenantId transferId
  · rw [if_neg hdone]
    simp only [post_bind]
    refine require_divided (by simp) fun _ => setTransferStatus_any fun n db'' => ?_
    refine require_divided (by simp) fun _ => writeOutbox_any fun _ => ?_
    exact findTransfer_divides tenantId transferId

theorem planTransferReceipt_divides (transfer : WarehouseTransfer) (items : List ReceiptItemDto) :
    Divides (planTransferReceipt stamp transfer items) db := by
  induction items with
  | nil => exact trivial
  | cons item rest ih =>
      unfold Divides planTransferReceipt
      simp only [post_bind, post_pure]
      refine expect_divided (by simp) fun line _ => expect_divided (by simp) fun plan _ => ?_
      exact ih

theorem receiveItem_divides {tenantId receiptId : Id} {transfer : WarehouseTransfer}
    {p : PlannedTransferItem} (h : StockRows db) (hpos : 0 < p.delta) :
    Divides (receiveItem stamp tenantId transfer receiptId p) db := by
  unfold Divides receiveItem setReceivedQuantity
  simp only [post_bind, post_get, post_set, post_pure]
  refine lockItem_divided fun _ _ => require_divided (by simp) fun _ => ?_
  refine upsertStock_post (createMovement_post ?_)
  refine expect_divided (by simp) fun source _ => ?_
  refine receiveTransfer_divides (Sound.isSome_stockAt_addStock _ _ _ _ _) hpos.ne'
    (averagesOverStock_booked ?_ hpos tenantId _)
  exact ⟨h.ids, h.nonneg⟩

theorem receiveRequest_divides (hs : Sound ⟨db, []⟩) {rt : TransferRuntime}
    {tenantId transferId : Id} {key : String} {request : ReceiptDto}
    (hpos : ∀ item ∈ request.items, 0 < item.receivedQuantity) :
    Divides (receiveRequest stamp rt tenantId transferId key request) db := by
  unfold Divides receiveRequest
  simp only [post_bind, post_get]
  refine (findTransfer_divides tenantId transferId).post
    (findTransfer_post quiet_true fun transfer hmem hid htenant => ?_)
  split
  · rename_i receipt hfound
    unfold replayOrConflict
    by_cases hhash : receipt.requestHash = rt.receiptHash request
    · simp only [hhash, ne_eq, not_true, if_false]
      exact trivial
    · simp only [ne_eq, hhash, not_false_eq_true, if_true]
      exact fun h => absurd h (by decide)
  · simp only [post_bind, post_modify]
    refine require_divided (by simp) fun _ => ?_
    have hlines := hs.lines.bounds transfer hmem
    refine (planTransferReceipt_divides transfer request.items).post
      (planTransferReceipt_post quiet_true (fun l hl => (hlines l hl).2.2) hpos
        fun planned hplanned _ => ?_)
    have hstart : SameLines transfer db := by
      intro t htmem htid
      rw [hs.lines.ids.eq_of_key htmem hmem htid]
    -- a line of which nothing is taken is refused by the constraint, before it is costed
    refine freshId_post (require_divided (by simp) fun hdelta => ?_)
    refine (post_forM (fun _ db' => Run stamp .all ⟨db, []⟩ ⟨db', []⟩ ∧ SameLines transfer db')
      planned (fun p rest db' hsplit hI => ?_) ⟨?_, ?_⟩).mono (fun _ db₁ _ => ?_)
      fun _ he => he
    · obtain ⟨hrun, hsame⟩ := hI
      have hp := hplanned p (mem_of_split hsplit)
      exact (receiveItem_divides (stockRows_of_sound (hs.run hrun))
        (hdelta p (mem_of_split hsplit))).post
        (receiveItem_post (S := fun _ => False) (I := fun _ => True) hs hrun trivial trivial
          (fun _ _ _ => trivial) hsame (hs.lines.distinct transfer hmem) hp (hlines _ hp.mem).2.1
          fun _ _ hrun' hsame' _ => ⟨hrun', hsame'⟩)
    · refine .single (.transfers trivial ⟨rfl, rfl, rfl, rfl, rfl, Nat.le_succ _⟩ fun hl => ?_)
      exact Sound.lines_mono hl rfl (Nat.le_succ _)
    · exact hstart
    · refine setTransferStatus_any fun n db' => require_divided (by simp) fun _ => ?_
      exact writeOutbox_any fun _ => trivial

end Transfers

end Inventory
end ERP
