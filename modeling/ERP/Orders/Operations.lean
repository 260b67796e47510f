import ERP.Orders.Kitchen
import ERP.Inventory.TransferRefinement

/-!
# Serial runs of the inventory operations

Every transaction that changes the inventory, as one type, and a serial run of
them.  An operation that throws is rolled back, so the run goes on from the
database it started on.
-/

namespace ERP
namespace Orders

open Inventory Lib.Tx

/-- The tables the inventory reads and the rest of the application writes. -/
structure Catalogue where
  tenants : List Tenant
  warehouses : List Warehouse
  products : List Product
  orders : List SalesOrder
  purchaseOrders : List PurchaseOrder
  suppliers : List Supplier := []

inductive Operation where
  | stockIn (tenantId : Id) (dto : StockInDto)
  | adjustment (tenantId : Id) (dto : StockAdjustmentDto)
  | waste (tenantId : Id) (dto : WasteDto)
  | receivePurchaseOrder (tenantId purchaseOrderId : Id) (key : String) (dto : ReceiptDto)
  | createTransfer (tenantId : Id) (key : String) (dto : CreateWarehouseTransferDto)
  | shipTransfer (tenantId transferId : Id)
  | receiveTransfer (tenantId transferId : Id) (key : String) (dto : ReceiptDto)
  | cancelTransfer (tenantId transferId : Id)
  | reserveStock (orderId tenantId : Id)
  | releaseReservation (orderId tenantId : Id)
  | reserveStockInRepository (orderId tenantId : Id)
  | releaseReservationInRepository (orderId tenantId : Id)
  | cancelReservation (orderId tenantId : Id)
  | expireReservations (cutoff : Int)
  | commitReservation (orderId tenantId : Id)
  | updateKitchenStatus (orderId tenantId : Id) (outletId : Option Id)
      (status expectedStatus : KitchenStatus)
  | fulfillRetail (orderId tenantId : Id)
  | fulfillCafe (orderId tenantId : Id)
  | writeCatalogue (catalogue : Catalogue)

/-- The transaction of `create`, after its checks. -/
def createTransfer (stamp : Stamp) (rt : TransferRuntime) (tenantId : Id) (key : String)
    (dto : CreateWarehouseTransferDto) : Tx WarehouseTransfer :=
  match normalizeTransfer rt key dto with
  | .error e => throw e
  | .ok request => insertTransfer stamp rt tenantId key request

def writeCatalogue (c : Catalogue) : Tx Unit :=
  modify fun db => { db with
    tenants := c.tenants, warehouses := c.warehouses, products := c.products,
    orders := c.orders, purchaseOrders := c.purchaseOrders }

/-- The transaction of an operation; what it returns is of no interest here. -/
def Operation.exec (stamp : Stamp) (rt : TransferRuntime) : Operation → Tx Unit
  | .stockIn t dto => (fun _ => ()) <$> Inventory.stockIn stamp t dto
  | .adjustment t dto => (fun _ => ()) <$> Inventory.adjustment stamp t dto
  | .waste t dto => (fun _ => ()) <$> Inventory.waste stamp t dto
  | .receivePurchaseOrder t po key dto => (fun _ => ()) <$>
      Inventory.receivePurchaseOrder stamp unrounded rt.localeLE rt.receiptHash t po key dto
  | .createTransfer t key dto => (fun _ => ()) <$> Orders.createTransfer stamp rt t key dto
  | .shipTransfer t id => (fun _ => ()) <$> ship stamp t id
  | .receiveTransfer t id key dto =>
      (fun _ => ()) <$> receiveWarehouseTransfer stamp rt t id key dto
  | .cancelTransfer t id => (fun _ => ()) <$> cancel t id
  | .reserveStock o t => (fun _ => ()) <$> ReservationService.reserveStock stamp o t
  | .releaseReservation o t => (fun _ => ()) <$> ReservationService.releaseReservation stamp o t
  | .reserveStockInRepository o t =>
      (fun _ => ()) <$> ReservationRepository.reserveStock stamp o t
  | .releaseReservationInRepository o t =>
      (fun _ => ()) <$> ReservationRepository.releaseReservation stamp o t
  | .cancelReservation o t => (fun _ => ()) <$> ReservationRepository.cancelReservation stamp o t
  | .expireReservations cutoff =>
      (fun _ => ()) <$> ReservationRepository.expireReservations stamp cutoff
  | .commitReservation o t => (fun _ => ()) <$> Inventory.commitReservation stamp o t
  | .updateKitchenStatus o t outlet status expected =>
      (fun _ => ()) <$> Orders.updateKitchenStatus stamp o t outlet status expected
  | .fulfillRetail o t => (fun _ => ()) <$> Inventory.fulfillRetail stamp o t
  | .fulfillCafe o t => (fun _ => ()) <$> Inventory.fulfillCafe stamp o t
  | .writeCatalogue c => Orders.writeCatalogue c

/-- A serial run: each operation commits or is rolled back. -/
def runAll (stamp : Stamp) (rt : TransferRuntime) (ops : List Operation) (db : DB) : DB :=
  ops.foldl (fun db op => commit (op.exec stamp rt) db) db

/-- The items an operation may charge to their FIFO layers. -/
def Operation.Issues (op : Operation) (db : DB) : Id → Prop :=
  match op with
  | .adjustment _ dto => fun i => i = dto.inventoryItemId
  | .waste _ dto => fun i => i = dto.inventoryItemId
  | .shipTransfer t id => OnTransfer db t id
  | .commitReservation o t => ReservedBy db t o
  | .updateKitchenStatus o t _ _ _ => ReservedBy db t o
  | .fulfillRetail _ _ => fun _ => True
  | .fulfillCafe _ _ => fun _ => True
  | _ => fun _ => False

/-- The receipts an operation may book. -/
def Operation.Receives (stamp : Stamp) (rt : TransferRuntime) (op : Operation) (db : DB) :
    Receipt → Prop :=
  match op with
  | .stockIn _ dto => fun r => r = ⟨dto.inventoryItemId, some dto.warehouseId, dto.unitCost⟩
  | .adjustment _ dto => fun r =>
      0 < dto.quantity ∧ r = ⟨dto.inventoryItemId, some dto.warehouseId, dto.unitCost⟩
  | .receivePurchaseOrder t po key dto => fun r =>
      ∃ request, normalizePurchaseReceipt rt.localeLE key dto = .ok request ∧
        OrderedAt stamp db t po request r
  | .receiveTransfer t id key dto => fun r =>
      ∃ request, normalizeTransferReceipt rt key dto = .ok request ∧
        ShippedTo stamp db t id request r
  | _ => fun _ => False

/-- The entries an operation may make. -/
def Operation.permit (stamp : Stamp) (rt : TransferRuntime) (op : Operation) (db : DB) :
    Permit where
  receipt := op.Receives stamp rt db
  issue :=
    match op with
    | .adjustment _ dto => dto.quantity < 0
    | .waste _ _ | .shipTransfer _ _ | .fulfillRetail _ _ | .fulfillCafe _ _ => True
    | _ => False
  reservation :=
    match op with
    | .reserveStock _ _ | .releaseReservation _ _ | .reserveStockInRepository _ _
    | .releaseReservationInRepository _ _ | .cancelReservation _ _ | .expireReservations _
    | .commitReservation _ _ | .updateKitchenStatus _ _ _ _ _ => True
    | _ => False
  transfer :=
    match op with
    | .createTransfer _ _ _ | .shipTransfer _ _ | .receiveTransfer _ _ _ _
    | .cancelTransfer _ _ => True
    | _ => False

section Kitchen

variable {stamp : Stamp} {A : Permit} {db : DB} {c₀ : Config} {S : Id → Prop}

theorem costKitchenReservation_post {tenantId : Id} {r : InventoryMovement}
    {rest : List InventoryMovement} {Q : Unit → DB → Prop} (hs : Sound c₀)
    (hrun : Run stamp A c₀ ⟨db, r :: rest⟩) (hA : A.reservation) (hS : S r.inventoryItemId)
    (h : ∀ db', Run stamp A c₀ ⟨db', rest⟩ → Q () db') :
    Post (costKitchenReservation stamp tenantId r.id) db Q (Stuck stamp A c₀ S) := by
  have hsound := hs.run hrun
  have hclaimed := hsound.pending r List.mem_cons_self
  have hnone := allocationsOf_eq_nil hclaimed.uncharged
  unfold costKitchenReservation
  simp only [post_bind, post_get, hnone, List.length_nil, if_true, post_pure]
  refine expect_post quiet_stuck (by simp) fun m hm => ?_
  -- the row read again is the claimed one, which kept its item, place and quantity
  obtain ⟨m', hm', hid', _, hitem, hwh, hq, _⟩ := hclaimed.row
  have hmid : m.id = r.id := by simpa using List.find?_some hm
  have heq : m = m' := hsound.movementIds.eq_of_key (List.mem_of_find?_eq_some hm) hm'
    (hmid.trans hid'.symm)
  rw [heq, hitem, hwh, hq, hid']
  exact cost_block hs hrun hA hS fun _ db' hrun' => h db' hrun'

theorem commitKitchenReservation_refines (hs : Sound ⟨db, []⟩) (tenantId orderId : Id)
    (hA : A.reservation) :
    Refines stamp A (ReservedBy db tenantId orderId)
      (commitKitchenReservation stamp tenantId orderId) db := by
  unfold Refines commitKitchenReservation
  simp only [post_bind, post_get]
  by_cases hnil : activeReservations db tenantId orderId = []
  · simp only [hnil, if_true, post_pure]
    exact .refl
  · simp only [hnil, if_false, post_bind]
    refine claimReservations_post stamp hA hs activeReservations_active (fun m => by simp)
      (fun m => ⟨_, _, rfl⟩) fun db₁ hrun => ?_
    refine require_post quiet_stuck (by simp) fun _ => ?_
    exact post_forM (fun rest db' => Run stamp A ⟨db, []⟩ ⟨db', rest⟩) _
      (fun r rest db' hsplit hrun' => costKitchenReservation_post hs hrun' hA
        ⟨r, mem_of_split hsplit, rfl⟩ fun _ hrun'' => hrun'') hrun

/-- A refinement from a database with the same ledger is one from the database. -/
theorem Refines.of_sameLedger {α : Type} {m : Tx α} {db' : DB} (h : Refines stamp A S m db')
    (hsame : SameLedger db db') (ht : SameTransfers db db') :
    Post m db' (fun _ db'' => Run stamp A ⟨db, []⟩ ⟨db'', []⟩) (Stuck stamp A ⟨db, []⟩ S) := by
  have hfirst : Run stamp A ⟨db, []⟩ ⟨db', []⟩ := Run.elsewhere .refl hsame ht
  refine h.mono (fun _ db'' hrun => hfirst.trans hrun) fun e he heq => ?_
  obtain ⟨i, c, hi, hrun, hunc⟩ := he heq
  exact ⟨i, c, hi, hfirst.trans hrun, hunc⟩

theorem updateKitchenStatus_refines (hs : Sound ⟨db, []⟩) (orderId tenantId : Id)
    (outletId : Option Id) (status expectedStatus : KitchenStatus) (hA : A.reservation) :
    Refines stamp A (ReservedBy db tenantId orderId)
      (updateKitchenStatus stamp orderId tenantId outletId status expectedStatus) db := by
  unfold Refines updateKitchenStatus
  simp only [post_bind, post_get, post_set]
  have hsame : ∀ p f, SameLedger db (db.updateOrders p f) :=
    fun p f => ⟨rfl, rfl, rfl, rfl, rfl, le_refl _⟩
  have hsound : ∀ p f, Sound ⟨db.updateOrders p f, []⟩ := fun p f =>
    hs.sameLedger (hsame p f) fun hl => Sound.lines_mono hl rfl (le_refl _)
  rw [post_ite]
  refine ⟨fun _ => Run.elsewhere .refl (hsame _ _) ⟨rfl, rfl⟩, fun _ => ?_⟩
  rw [post_ite]
  refine ⟨fun _ => ?_, fun _ => ?_⟩
  · rw [post_bind]
    refine Refines.of_sameLedger ?_ (hsame _ _) ⟨rfl, rfl⟩
    exact giveBackOrder_refines (hsound _ _) hA (by decide) orderId tenantId
  · rw [post_ite]
    refine ⟨fun _ => ?_, fun _ => Run.elsewhere .refl (hsame _ _) ⟨rfl, rfl⟩⟩
    rw [post_bind]
    refine Refines.of_sameLedger ?_ (hsame _ _) ⟨rfl, rfl⟩
    exact commitKitchenReservation_refines (hsound _ _) tenantId orderId hA

end Kitchen

variable {stamp : Stamp} {A : Permit} {rt : TransferRuntime} {db : DB}

theorem refines_discard {α : Type} {S : Id → Prop} {m : Tx α} (h : Refines stamp A S m db) :
    Refines stamp A S ((fun _ => ()) <$> m) db :=
  post_map.mpr h

section Checks

variable {e : Failure}

/-- The failures the checks of a receipt's items can end with. -/
theorem checkReceiptItems_error {rules : ReceiptRules} {items : List ReceiptItemDto}
    {seen : List String} (h : checkReceiptItems rules items seen = .error e) :
    e ∈ [rules.idRequired, rules.quantityInvalid, rules.duplicate] := by
  induction items generalizing seen with
  | nil => simp [checkReceiptItems] at h
  | cons item rest ih =>
      unfold checkReceiptItems at h
      split at h
      · simp [← Except.error.inj h]
      · split at h
        · simp [← Except.error.inj h]
        · split at h
          · simp [← Except.error.inj h]
          · exact ih h

theorem normalizeReceipt_error {localeLE : String → String → Bool} {rules : ReceiptRules}
    {dto : ReceiptDto} (h : normalizeReceipt localeLE rules dto = .error e) :
    e ∈ [rules.idRequired, rules.quantityInvalid, rules.duplicate] := by
  unfold normalizeReceipt at h
  simp only [bind, Except.bind, pure, Except.pure] at h
  split at h
  · rename_i e' hcheck
    exact Except.error.inj h ▸ checkReceiptItems_error hcheck
  · simp at h

theorem normalizeTransferReceipt_error {key : String} {dto : ReceiptDto}
    (h : normalizeTransferReceipt rt key dto = .error e) :
    e ∈ [.idempotencyKeyInvalid, .receiptItemCount, .transferItemIdRequired,
      .receivedQuantityInvalid, .duplicateReceiptItem] := by
  unfold normalizeTransferReceipt at h
  simp only [bind, Except.bind, throw, throwThe, MonadExceptOf.throw] at h
  split at h
  · simp [← Except.error.inj h]
  · split at h
    · simp [← Except.error.inj h]
    · exact List.mem_cons_of_mem _ (List.mem_cons_of_mem _ (normalizeReceipt_error h))

theorem normalizePurchaseReceipt_error {localeLE : String → String → Bool} {key : String}
    {dto : ReceiptDto} (h : normalizePurchaseReceipt localeLE key dto = .error e) :
    e ∈ [.idempotencyKeyInvalid, .purchaseReceiptEmpty, .purchaseOrderItemIdRequired,
      .purchaseQuantityInvalid, .duplicatePurchaseReceiptItem] := by
  unfold normalizePurchaseReceipt at h
  simp only [bind, Except.bind, throw, throwThe, MonadExceptOf.throw] at h
  split at h
  · simp [← Except.error.inj h]
  · split at h
    · simp [← Except.error.inj h]
    · exact List.mem_cons_of_mem _ (List.mem_cons_of_mem _ (normalizeReceipt_error h))

theorem checkTransferItems_error {items : List TransferItemDto} {seen : List String}
    (h : checkTransferItems items seen = .error e) :
    e ∈ [.inventoryItemIdRequired, .transferQuantityInvalid, .duplicateTransferItem] := by
  induction items generalizing seen with
  | nil => simp [checkTransferItems] at h
  | cons item rest ih =>
      unfold checkTransferItems at h
      split at h
      · simp [← Except.error.inj h]
      · split at h
        · simp [← Except.error.inj h]
        · split at h
          · simp [← Except.error.inj h]
          · exact ih h

theorem normalizeTransfer_error {key : String} {dto : CreateWarehouseTransferDto}
    (h : normalizeTransfer rt key dto = .error e) :
    e ∈ [.idempotencyKeyInvalid, .warehouseIdsRequired, .sameWarehouse, .transferItemCount,
      .inventoryItemIdRequired, .transferQuantityInvalid, .duplicateTransferItem] := by
  unfold normalizeTransfer at h
  simp only [bind, Except.bind, pure, Except.pure, throw, throwThe, MonadExceptOf.throw] at h
  split at h
  · simp [← Except.error.inj h]
  · split at h
    · simp [← Except.error.inj h]
    · split at h
      · simp [← Except.error.inj h]
      · split at h
        · simp [← Except.error.inj h]
        · split at h
          · rename_i e' hcheck
            have hmem := Except.error.inj h ▸ checkTransferItems_error hcheck
            exact List.mem_append_right [.idempotencyKeyInvalid, .warehouseIdsRequired,
              .sameWarehouse, .transferItemCount] hmem
          · simp at h

end Checks

theorem receivePurchaseOrder_refines {S : Id → Prop} (tenantId purchaseOrderId : Id)
    (key : String) (dto : ReceiptDto)
    (hA : ∀ request, normalizePurchaseReceipt rt.localeLE key dto = .ok request →
      ∀ r, OrderedAt stamp db tenantId purchaseOrderId request r → A.receipt r) :
    Refines stamp A S (receivePurchaseOrder stamp unrounded rt.localeLE rt.receiptHash tenantId
      purchaseOrderId key dto) db := by
  unfold receivePurchaseOrder
  split
  · exact refines_throw
      (ne_of_mem_of_not_mem (normalizePurchaseReceipt_error ‹_›) (by decide))
  · exact receivePurchaseRequest_refines (normalizePurchaseReceipt_ok ‹_›).1 (hA _ ‹_›)

theorem createTransfer_refines {S : Id → Prop} (tenantId : Id) (key : String)
    (dto : CreateWarehouseTransferDto) (hA : A.transfer) :
    Refines stamp A S (createTransfer stamp rt tenantId key dto) db := by
  unfold createTransfer
  split
  · exact refines_throw
      (ne_of_mem_of_not_mem (normalizeTransfer_error ‹_›) (by decide))
  · rename_i request hok
    have hchecked := normalizeTransfer_ok hok
    exact insertTransfer_refines hchecked.pos hchecked.distinct hA

theorem receiveWarehouseTransfer_refines {S : Id → Prop} (hs : Sound ⟨db, []⟩)
    (tenantId transferId : Id) (key : String) (dto : ReceiptDto) (hA : A.transfer)
    (hcost : ∀ request, normalizeTransferReceipt rt key dto = .ok request →
      ∀ r, ShippedTo stamp db tenantId transferId request r → A.receipt r) :
    Refines stamp A S (receiveWarehouseTransfer stamp rt tenantId transferId key dto) db := by
  unfold receiveWarehouseTransfer
  split
  · exact refines_throw
      (ne_of_mem_of_not_mem (normalizeTransferReceipt_error ‹_›) (by decide))
  · rename_i request hok
    obtain ⟨hpos, hnodup⟩ := normalizeTransferReceipt_ok hok
    exact receiveRequest_refines hs hpos hnodup hA (hcost request hok)

/-- Every operation on a sound database is a sequence of entries it may make. -/
theorem Operation.refines (hs : Sound ⟨db, []⟩) (op : Operation) :
    Refines stamp (op.permit stamp rt db) (op.Issues db) (op.exec stamp rt) db := by
  cases op with
  | stockIn t dto => exact refines_discard (stockIn_refines _ t dto rfl)
  | adjustment t dto =>
      exact refines_discard (adjustment_refines hs t dto (fun h => ⟨h, rfl⟩) fun h => h)
  | waste t dto => exact refines_discard (waste_refines hs t dto trivial)
  | receivePurchaseOrder t po key dto =>
      exact refines_discard (receivePurchaseOrder_refines t po key dto
        fun request hok _ h => ⟨request, hok, h⟩)
  | createTransfer t key dto => exact refines_discard (createTransfer_refines t key dto trivial)
  | shipTransfer t id => exact refines_discard (ship_refines hs t id trivial trivial)
  | receiveTransfer t id key dto =>
      exact refines_discard
        (receiveWarehouseTransfer_refines hs t id key dto trivial
          fun request hok _ h => ⟨request, hok, h⟩)
  | cancelTransfer t id => exact refines_discard (cancel_refines t id trivial)
  | reserveStock o t => exact refines_discard (reserveStockWith_refines hs false o t trivial)
  | releaseReservation o t =>
      exact refines_discard (giveBackOrder_refines hs trivial (by decide) o t)
  | reserveStockInRepository o t =>
      exact refines_discard (reserveStockWith_refines hs true o t trivial)
  | releaseReservationInRepository o t =>
      exact refines_discard (giveBackOrder_refines hs trivial (by decide) o t)
  | cancelReservation o t =>
      exact refines_discard (giveBackOrder_refines hs trivial (by decide) o t)
  | expireReservations cutoff =>
      exact refines_discard (expireReservations_refines hs cutoff trivial)
  | commitReservation o t => exact refines_discard (commitReservation_refines hs o t trivial)
  | updateKitchenStatus o t outlet status expected =>
      exact refines_discard (updateKitchenStatus_refines hs o t outlet status expected trivial)
  | fulfillRetail o t => exact refines_discard (fulfillRetail_refines hs o t trivial)
  | fulfillCafe o t => exact refines_discard (fulfillCafe_refines hs o t trivial)
  | writeCatalogue c =>
      exact Run.elsewhere .refl ⟨rfl, rfl, rfl, rfl, rfl, le_refl _⟩ ⟨rfl, rfl⟩

/-- What an operation commits is a sequence of entries it may make. -/
theorem Operation.run_commit (stamp : Stamp) (rt : TransferRuntime) (hs : Sound ⟨db, []⟩)
    (op : Operation) :
    Run stamp (op.permit stamp rt db) ⟨db, []⟩ ⟨commit (op.exec stamp rt) db, []⟩ :=
  commit_of_post (Operation.refines hs op) .refl

/-- A serial run is a sequence of entries. -/
theorem runAll_refines (stamp : Stamp) (rt : TransferRuntime) (hs : Sound ⟨db, []⟩)
    (ops : List Operation) :
    Run stamp .all ⟨db, []⟩ ⟨runAll stamp rt ops db, []⟩ := by
  induction ops generalizing db with
  | nil => exact .refl
  | cons op rest ih =>
      have hstep := (op.run_commit stamp rt hs).mono (Permit.le_all _)
      exact hstep.trans (ih (hs.run hstep))

end Orders
end ERP
