import ERP.Orders.PurchaseOrders

/-!
# Approved purchase orders

Once an order is approved, receipts add to its lines and nothing else about it
changes, as long as no edit and no deletion writes to an order that has moved on
since its status was checked.
-/

namespace ERP
namespace Orders

open Inventory Lib Lib.Tx

/-- The statuses on the way to the approval. -/
def beforeApproval : PurchaseOrderStatus → Bool
  | .draft | .pending | .rejected => true
  | _ => false

/-- The statuses that an order has from its approval on, unless it is cancelled. -/
def hasReachedApproval : PurchaseOrderStatus → Bool
  | .approved | .partiallyReceived | .received | .completed => true
  | _ => false

/-- `row'` is the same order as `row`, with the same lines, total, supplier and
warehouse, and nothing that was received on a line is gone. -/
structure Frozen (row row' : PurchaseOrder) : Prop where
  key : orderKey row' = orderKey row
  received : ∀ l ∈ row.items, ∃ l' ∈ row'.items, l'.id = l.id ∧
    l.receivedQuantity ≤ l'.receivedQuantity

/-- The order ids are keys, and so are the ids of the lines of an order. -/
structure OrdersKeyed (db : DB) : Prop where
  orderIds : db.purchaseOrders.Pairwise fun a b => a.id ≠ b.id
  lineIds : ∀ po ∈ db.purchaseOrders, po.items.Pairwise fun a b => a.id ≠ b.id

theorem Frozen.refl (row : PurchaseOrder) : Frozen row row :=
  ⟨rfl, fun l hl => ⟨l, hl, rfl, le_refl _⟩⟩

theorem Frozen.trans {a b c : PurchaseOrder} (h : Frozen a b) (h' : Frozen b c) : Frozen a c := by
  refine ⟨h'.key.trans h.key, fun l hl => ?_⟩
  obtain ⟨l₁, hl₁, hid₁, hle₁⟩ := h.received l hl
  obtain ⟨l₂, hl₂, hid₂, hle₂⟩ := h'.received l₁ hl₁
  exact ⟨l₂, hl₂, hid₂.trans hid₁, hle₁.trans hle₂⟩

theorem frozen_status (row : PurchaseOrder) (status : PurchaseOrderStatus) :
    Frozen row { row with status } :=
  ⟨rfl, fun l hl => ⟨l, hl, rfl, le_refl _⟩⟩

theorem OrdersKeyed.of_keys {db db' : DB} (h : OrdersKeyed db)
    (hkeys : db'.purchaseOrders.map orderKey = db.purchaseOrders.map orderKey) :
    OrdersKeyed db' :=
  ⟨pairwise_of_orderKey hkeys h.orderIds, lineIds_of_orderKey hkeys h.lineIds⟩

/-- Every order that meets `P` is still there, frozen, and has not gone back to
before its approval. -/
def Advances (P : PurchaseOrder → Prop) (db db' : DB) : Prop :=
  ∀ row ∈ db.purchaseOrders, P row → ∃ row' ∈ db'.purchaseOrders, Frozen row row' ∧
    (beforeApproval row.status = false → beforeApproval row'.status = false)

/-- What every step keeps of the database. -/
structure Consistent (db : DB) : Prop where
  sound : Sound ⟨db, []⟩
  keyed : OrdersKeyed db

section Receipts

variable {stamp : Stamp} {rt : TransferRuntime} {db db₀ db' : DB} {po row : PurchaseOrder}
  {p : PlannedPurchaseItem} {rest : List PlannedPurchaseItem}

/-- The loop of a receipt, from the database `db₀` it found. -/
structure AtOrderLine (db₀ : DB) (po : PurchaseOrder) (rest : List PlannedPurchaseItem)
    (db : DB) : Prop where
  sound : Sound ⟨db, []⟩
  keys : db.purchaseOrders.map orderKey = db₀.purchaseOrders.map orderKey
  frozen : ∀ row ∈ db₀.purchaseOrders, ∃ row' ∈ db.purchaseOrders, Frozen row row' ∧
    row'.status = row.status
  current : ∃ row ∈ db.purchaseOrders, row.id = po.id ∧ ∀ p ∈ rest, p.orderItem ∈ row.items

/-- Writing a larger received quantity of a line freezes everything else. -/
theorem frozen_lineReceived (hlines : row.items.Pairwise fun a b => a.id ≠ b.id)
    (hmem : p.orderItem ∈ row.items)
    (hle : p.orderItem.receivedQuantity ≤ p.nextReceived) :
    Frozen row { row with items := row.items.map fun item =>
      if item.id = p.orderItem.id then { item with receivedQuantity := p.nextReceived }
      else item } := by
  refine ⟨?_, fun l hl => ?_⟩
  · simp only [orderKey, List.map_map, Prod.mk.injEq, true_and, and_true]
    refine List.map_congr_left fun item _ => ?_
    simp only [Function.comp, orderLineKey]
    split <;> rfl
  · refine ⟨_, List.mem_map_of_mem hl, ?_⟩
    by_cases hid : l.id = p.orderItem.id
    · have heq : l = p.orderItem := eq_of_key_of_ne hlines hl hmem hid
      rw [if_pos hid, heq]
      exact ⟨rfl, hle⟩
    · rw [if_neg hid]
      exact ⟨rfl, le_refl _⟩

theorem AtOrderLine.step {warehouseId : Id} (hkeyed : OrdersKeyed db₀)
    (h : AtOrderLine db₀ po (p :: rest) db) (hp : PlannedPurchase po p)
    (hdistinct : ∀ q ∈ rest, p.orderItem.id ≠ q.orderItem.id)
    (hline : LineReceived po warehouseId p db db') (hs : Sound ⟨db', []⟩) :
    AtOrderLine db₀ po rest db' := by
  obtain ⟨current, hcurrent, hid, hlines⟩ := h.current
  have hkeyed' := hkeyed.of_keys h.keys
  have hmem := hlines p List.mem_cons_self
  have hle : p.orderItem.receivedQuantity ≤ p.nextReceived := by
    rw [hp.next]
    linarith [hp.pos]
  let written : PurchaseOrder := { current with items := current.items.map fun item =>
    if item.id = p.orderItem.id then { item with receivedQuantity := p.nextReceived } else item }
  have hwritten : written ∈ db'.purchaseOrders := by
    rw [hline.orders]
    exact List.mem_map.mpr ⟨current, hcurrent, by simp [hid, written]⟩
  have hfrozen : Frozen current written :=
    frozen_lineReceived (hkeyed'.lineIds current hcurrent) hmem hle
  refine ⟨hs, ?_, fun row hrow => ?_, written, hwritten, hid, fun q hq => ?_⟩
  · rw [hline.orders, orderKey_withOrderReceived, h.keys]
  · obtain ⟨row₁, hrow₁, hfrozen₁, hstatus⟩ := h.frozen row hrow
    by_cases hrid : row₁.id = po.id
    · have heq : row₁ = current :=
        eq_of_key_of_ne hkeyed'.orderIds hrow₁ hcurrent (hrid.trans hid.symm)
      refine ⟨written, hwritten, hfrozen₁.trans (heq ▸ hfrozen), ?_⟩
      rw [← hstatus, heq]
    · refine ⟨row₁, ?_, hfrozen₁, hstatus⟩
      rw [hline.orders]
      exact List.mem_map.mpr ⟨row₁, hrow₁, by simp [hrid]⟩
  · refine List.mem_map.mpr ⟨q.orderItem, hlines q (List.mem_cons_of_mem p hq), ?_⟩
    exact if_neg (hdistinct q hq).symm

theorem AtOrderLine.receiveItem {tenantId warehouseId : Id} {receipt : PurchaseOrderReceipt}
    (hkeyed : OrdersKeyed db₀) (h : AtOrderLine db₀ po (p :: rest) db)
    (hp : PlannedPurchase po p) (hdistinct : ∀ q ∈ rest, p.orderItem.id ≠ q.orderItem.id) :
    Post (receivePurchaseItem stamp tenantId po warehouseId receipt p) db
      (fun _ db' => AtOrderLine db₀ po rest db') (fun _ => True) :=
  (receivePurchaseItem_lines h.sound hp.pos).mono
    (fun _ _ hboth => h.step hkeyed hp hdistinct hboth.1 hboth.2) fun _ _ => trivial

/-- Setting a status that does not go back to before the approval. -/
theorem frozen_setStatus {q : PurchaseOrder → Bool} {status : PurchaseOrderStatus}
    (hq : ∀ row ∈ db.purchaseOrders, q row = true → beforeApproval row.status = false →
      beforeApproval status = false) (hrow : row ∈ db.purchaseOrders) :
    ∃ row' ∈ (db.updatePurchaseOrders q fun r => { r with status }).purchaseOrders,
      Frozen row row' ∧
        (beforeApproval row.status = false → beforeApproval row'.status = false) := by
  refine ⟨_, List.mem_map_of_mem hrow, ?_⟩
  by_cases hqrow : q row = true
  · rw [if_pos hqrow]
    exact ⟨frozen_status row status, hq row hrow hqrow⟩
  · rw [if_neg hqrow]
    exact ⟨Frozen.refl row, fun h => h⟩

theorem beforeApproval_receipt (po : PurchaseOrder) (planned : List PlannedPurchaseItem) :
    beforeApproval (purchaseReceiptStatus unrounded po planned) = false := by
  unfold purchaseReceiptStatus
  split <;> rfl

theorem receivePurchaseRequest_advances {tenantId purchaseOrderId : Id} {key : String}
    {request : ReceiptDto} (h : Consistent db)
    (hitems : ∀ item ∈ request.items, 1 / 10 ≤ item.receivedQuantity)
    (hnodup : (request.items.map (·.itemId)).Nodup) :
    Post (receivePurchaseRequest stamp unrounded rt.receiptHash tenantId purchaseOrderId key
        request) db
      (fun _ db' => db'.purchaseOrders.map orderKey = db.purchaseOrders.map orderKey ∧
        Advances (fun _ => True) db db')
      (fun _ => True) := by
  have hE : Quiet fun _ => True := fun _ _ => trivial
  unfold receivePurchaseRequest
  simp only [post_bind, post_get]
  refine expect_post hE (by simp) fun po hpo => ?_
  have hmem := List.mem_of_find?_eq_some hpo
  split
  · simp only [post_bind, post_pure]
    exact require_post hE (by simp) fun _ =>
      ⟨rfl, fun row hrow _ => ⟨row, hrow, Frozen.refl row, fun h => h⟩⟩
  · simp only [post_bind, post_modify, post_get, post_set, post_pure]
    refine require_post hE (by simp) fun _ => ?_
    refine expect_post hE (by simp) fun warehouseId _ => ?_
    refine planPurchaseReceipt_post hE hitems fun planned hplanned hmatch => ?_
    have hdistinct : planned.Pairwise fun p q => p.orderItem.id ≠ q.orderItem.id :=
      planned_distinct hmatch hnodup
    refine freshId_post ?_
    let receipt := purchaseReceiptRow rt tenantId purchaseOrderId key request po planned db.nextId
    have hstart : AtOrderLine db po planned (db.takeId.insertPurchaseReceipt receipt) := by
      refine ⟨?_, rfl, fun row hrow => ⟨row, hrow, Frozen.refl row, rfl⟩, po, hmem, rfl,
        fun p hp => (hplanned p hp).mem⟩
      exact h.sound.sameLedger ⟨rfl, rfl, rfl, rfl, rfl, Nat.le_succ _⟩
        fun hl => Sound.lines_mono hl rfl (Nat.le_succ _)
    refine (post_forM (AtOrderLine db po) planned (fun p rest db₁ hsplit hat => ?_) hstart).mono
      (fun _ db₁ hat => ?_) fun _ he => he
    · have hp := hplanned p (mem_of_split hsplit)
      obtain ⟨done, hdone⟩ := hsplit
      have hlater := hdistinct
      rw [hdone, List.pairwise_append] at hlater
      exact hat.receiveItem h.keyed hp (List.pairwise_cons.mp hlater.2.1).1
    · refine require_post hE (by simp) fun _ => ?_
      unfold writeOutbox
      simp only [post_bind, post_modify]
      refine freshId_post ⟨?_, fun row hrow _ => ?_⟩
      · exact (orderKey_setStatus _ _).trans hat.keys
      · obtain ⟨row₁, hrow₁, hfrozen₁, hstatus⟩ := hat.frozen row hrow
        obtain ⟨row₂, hrow₂, hfrozen₂, hopen⟩ := frozen_setStatus
          (fun _ _ _ _ => beforeApproval_receipt po planned) hrow₁
        exact ⟨row₂, hrow₂, hfrozen₁.trans hfrozen₂, fun hbefore => hopen (hstatus ▸ hbefore)⟩

theorem receive_advances (h : Consistent db) (call : ReceiptCall) :
    Post (call.exec stamp rt) db
      (fun _ db' => Consistent db' ∧ Advances (fun _ => True) db db') (fun _ => True) := by
  unfold ReceiptCall.exec receivePurchaseOrder
  split
  · exact trivial
  · rename_i request hrequest
    obtain ⟨hitems, hnodup⟩ := normalizePurchaseReceipt_ok hrequest
    have hrefines : Refines stamp .all (fun _ => True) (receivePurchaseRequest stamp
        unrounded rt.receiptHash call.tenantId call.purchaseOrderId call.idempotencyKey
        request) db :=
      receivePurchaseRequest_refines hitems fun _ _ => trivial
    refine (hrefines.and (receivePurchaseRequest_advances h hitems hnodup)).mono
      (fun _ db' hboth => ?_) fun _ _ => trivial
    obtain ⟨hrun, hkeys, hadvances⟩ := hboth
    exact ⟨⟨h.sound.run hrun, h.keyed.of_keys hkeys⟩, hadvances⟩

end Receipts

section Writes

variable {db : DB}

theorem Consistent.orders {db' : DB} (h : Consistent db) (hsame : SameLedger db db')
    (ht : SameTransfers db db') (hkeyed : OrdersKeyed db') : Consistent db' :=
  ⟨h.sound.sameLedger hsame fun hl => Sound.lines_mono hl ht.transfers hsame.nextId, hkeyed⟩

/-- The table of transitions does not lead back to before the approval. -/
theorem beforeApproval_transition {source target : PurchaseOrderStatus}
    (h : target ∈ validTransitions source) (hsource : beforeApproval source = false) :
    beforeApproval target = false := by
  revert h hsource
  cases source <;> cases target <;> decide

theorem updateStatus_advances (h : Consistent db) (tenantId id : Id)
    (status : PurchaseOrderStatus) :
    Post (updateStatus tenantId id status) db
      (fun _ db' => Consistent db' ∧ Advances (fun _ => True) db db') (fun _ => True) := by
  have hE : Quiet fun _ => True := fun _ _ => trivial
  unfold updateStatus
  simp only [post_bind, post_get]
  refine expect_post hE (by simp) fun po _ => ?_
  rw [post_ite]
  refine ⟨fun _ => ⟨h, fun row hrow _ => ⟨row, hrow, Frozen.refl row, fun hb => hb⟩⟩, fun _ => ?_⟩
  simp only [post_bind, post_set]
  refine require_post hE (by simp) fun _ => ?_
  refine require_post hE (by simp) fun hvalid => ?_
  refine require_post hE (by simp) fun _ => ⟨?_, fun row hrow _ => ?_⟩
  · exact h.orders ⟨rfl, rfl, rfl, rfl, rfl, le_refl _⟩ ⟨rfl, rfl⟩
      (h.keyed.of_keys (orderKey_setStatus _ _))
  · refine frozen_setStatus (fun r _ hq hbefore => ?_) hrow
    simp only [decide_eq_true_eq] at hq
    exact beforeApproval_transition hvalid (hq.2.2 ▸ hbefore)

/-- Rewriting orders that keep their id. -/
theorem OrdersKeyed.map {db' : DB} {f : PurchaseOrder → PurchaseOrder} (h : OrdersKeyed db)
    (hdb : db'.purchaseOrders = db.purchaseOrders.map f)
    (hid : ∀ row ∈ db.purchaseOrders, (f row).id = row.id)
    (hlines : ∀ row ∈ db.purchaseOrders, (f row).items.Pairwise fun a b => a.id ≠ b.id) :
    OrdersKeyed db' := by
  refine ⟨?_, fun po hpo => ?_⟩
  · rw [hdb, List.pairwise_map]
    refine h.orderIds.imp_of_mem fun {a b} ha hb hab => ?_
    rw [hid a ha, hid b hb]
    exact hab
  · rw [hdb] at hpo
    obtain ⟨row, hrow, rfl⟩ := List.mem_map.mp hpo
    exact hlines row hrow

theorem intColumn_post {value : ℚ} {Q : Int → DB → Prop} (h : ∀ n, Q n db) :
    Post (intColumn value) db Q (fun _ => True) := by
  unfold intColumn
  rw [post_bind]
  exact require_post (fun _ _ => trivial) (by simp) fun _ => h _

/-- New lines have new ids, and nothing but the counter changes. -/
theorem createOrderItems_post {items : List PurchaseOrderItemProps}
    {Q : List PurchaseOrderItem → DB → Prop}
    (h : ∀ created n, db.nextId ≤ n → (∀ l ∈ created, db.nextId ≤ l.id) →
      (created.Pairwise fun a b => a.id ≠ b.id) → Q created { db with nextId := n }) :
    Post (createOrderItems items) db Q (fun _ => True) := by
  induction items generalizing db Q with
  | nil => exact h [] db.nextId (le_refl _) (by simp) .nil
  | cons item rest ih =>
      unfold createOrderItems
      simp only [post_bind, post_get, post_pure]
      refine require_post (fun _ _ => trivial) (by simp) fun _ => ?_
      refine intColumn_post fun unitPrice => intColumn_post fun _ => freshId_post ?_
      refine ih fun created n hn hfresh hdistinct => ?_
      have hlater : ∀ l ∈ created, db.nextId + 1 ≤ l.id := hfresh
      refine h _ n ((Nat.le_succ _).trans hn) (fun l hl => ?_) ?_
      · rcases List.mem_cons.mp hl with rfl | hl
        · exact le_refl _
        · exact (Nat.le_succ _).trans (hlater l hl)
      · refine List.pairwise_cons.mpr ⟨fun l hl => ?_, hdistinct⟩
        have hlt : db.nextId < l.id := hlater l hl
        exact Nat.ne_of_lt hlt

theorem writeUpdate_advances (h : Consistent db) (tenantId id : Id) (data : PurchaseOrderData) :
    Post (writeUpdate tenantId id data) db
      (fun _ db' => Consistent db' ∧ Advances (fun row => row.id ≠ id) db db') (fun _ => True) := by
  have hE : Quiet fun _ => True := fun _ _ => trivial
  unfold writeUpdate
  simp only [post_bind, post_get]
  refine intColumn_post fun totalAmount => ?_
  simp only [post_set]
  refine require_post hE (by simp) fun _ => ?_
  split
  · refine ⟨h.orders ⟨rfl, rfl, rfl, rfl, rfl, le_refl _⟩ ⟨rfl, rfl⟩
      (h.keyed.map rfl (fun row _ => ?_) fun row hrow => ?_), fun row hrow hne => ?_⟩
    · split <;> rfl
    · have hlines := h.keyed.lineIds row hrow
      split <;> exact hlines
    · exact ⟨row, List.mem_map.mpr ⟨row, hrow, by simp [hne]⟩, Frozen.refl row, fun hb => hb⟩
  · simp only [post_bind, post_modify]
    refine require_post hE (by simp) fun _ => ?_
    refine createOrderItems_post fun created n hn _ hdistinct => ?_
    refine ⟨h.orders ⟨rfl, rfl, rfl, rfl, rfl, hn⟩ ⟨rfl, rfl⟩
      (h.keyed.map (List.map_map ..) (fun row _ => ?_) fun row hrow => ?_), fun row hrow hne => ?_⟩
    · simp only [Function.comp]
      split <;> split <;> rfl
    · have hlines := h.keyed.lineIds row hrow
      simp only [Function.comp]
      split <;> split <;> first | exact hdistinct | exact hlines
    · refine ⟨row, ?_, Frozen.refl row, fun hb => hb⟩
      refine List.mem_map.mpr ⟨row, List.mem_map.mpr ⟨row, hrow, by simp [hne]⟩, by simp [hne]⟩

theorem writeDelete_advances (h : Consistent db) (tenantId id : Id) :
    Post (writeDelete tenantId id) db
      (fun _ db' => Consistent db' ∧ Advances (fun row => row.id ≠ id) db db') (fun _ => True) := by
  unfold writeDelete
  simp only [post_bind, post_get]
  rw [post_ite]
  refine ⟨fun _ => ?_, fun _ => ⟨h, fun row hrow _ => ⟨row, hrow, Frozen.refl row, fun hb => hb⟩⟩⟩
  simp only [post_bind, post_set]
  refine require_post (fun _ _ => trivial) (by simp) fun _ => ⟨?_, fun row hrow hne => ?_⟩
  · refine h.orders ⟨rfl, rfl, rfl, rfl, rfl, le_refl _⟩ ⟨rfl, rfl⟩ ⟨?_, fun po hpo => ?_⟩
    · exact h.keyed.orderIds.filter _
    · exact h.keyed.lineIds po (List.mem_filter.mp hpo).1
  · refine ⟨row, List.mem_filter.mpr ⟨hrow, by simp [hne]⟩, Frozen.refl row, fun hb => hb⟩

end Writes

section Runs

variable {stamp : Stamp} {rt : TransferRuntime} {db : DB}

/-- The order a call is about to write without looking at its status again. -/
def PurchaseCall.writes : PurchaseCall → Option Id
  | .updateWrite _ id _ => some id
  | .deleteWrite _ id => some id
  | _ => none

theorem conclude_of_post {α : Type} {m : Tx α} {P : DB → Prop}
    (h : Post m db (fun _ db' => P db') (fun _ => True)) (hdb : P db) :
    P (conclude m db).2 := by
  unfold conclude
  unfold Post at h
  split
  · rename_i hm
    rw [hm] at h
    exact h
  · exact hdb

theorem advances_refl (P : PurchaseOrder → Prop) (db : DB) : Advances P db db :=
  fun row hrow _ => ⟨row, hrow, Frozen.refl row, fun hb => hb⟩

/-- One step of a call keeps the database consistent and every order frozen, except
one that the call writes. -/
theorem next_advances (h : Consistent db) (call : PurchaseCall) :
    Consistent (call.next stamp rt db).2 ∧
      Advances (fun row => call.writes ≠ some row.id) db (call.next stamp rt db).2 := by
  have hstay : ∀ P, Consistent db ∧ Advances P db db := fun P => ⟨h, advances_refl P db⟩
  cases call with
  | update tenantId id dto =>
      have hnext : ((PurchaseCall.update tenantId id dto).next stamp rt db).2 = db := by
        simp only [PurchaseCall.next]
        split <;> rfl
      rw [hnext]
      exact hstay _
  | updateWrite tenantId id data =>
      have hwritten := conclude_of_post (writeUpdate_advances h tenantId id data) (hstay _)
      exact ⟨hwritten.1, fun row hrow hne => hwritten.2 row hrow fun hid => hne (hid ▸ rfl)⟩
  | updateStatus tenantId id status =>
      have hwritten := conclude_of_post (updateStatus_advances h tenantId id status)
        (hstay _)
      exact ⟨hwritten.1, fun row hrow _ => hwritten.2 row hrow trivial⟩
  | receive call =>
      have hpost : Post (call.exec stamp rt) db
          (fun _ db' => Consistent db' ∧ Advances (fun _ => True) db db') (fun _ => True) :=
        receive_advances h call
      have hwritten := conclude_of_post hpost (hstay _)
      exact ⟨hwritten.1, fun row hrow _ => hwritten.2 row hrow trivial⟩
  | delete tenantId id =>
      have hnext : ((PurchaseCall.delete tenantId id).next stamp rt db).2 = db := by
        simp only [PurchaseCall.next]
        split <;> rfl
      rw [hnext]
      exact hstay _
  | deleteWrite tenantId id =>
      have hwritten := conclude_of_post (writeDelete_advances h tenantId id) (hstay _)
      exact ⟨hwritten.1, fun row hrow hne => hwritten.2 row hrow fun hid => hne (hid ▸ rfl)⟩
  | done => exact hstay _
  | failed e => exact hstay _

abbrev PurchaseEvent := Event PurchaseRequest Unit Empty

/-- The write of an edit or of a deletion finds its order on the way to the
approval. -/
def WritesBeforeApproval (w : World DB PurchaseCall) : PurchaseEvent → Prop
  | .step p _ => ∀ call id, w.tasks p = some ⟨call, false⟩ → call.writes = some id →
      ∀ row ∈ w.store.purchaseOrders, row.id = id → beforeApproval row.status = true
  | _ => True

/-- From any point of the run on, an order that has reached its approval stays as it
is. -/
def ApprovedFrozen (stamp : Stamp) (rt : TransferRuntime) (db : DB) (es : List PurchaseEvent) :
    Prop :=
  ∀ before after, es = before ++ after →
    ∀ row ∈ ((purchases stamp rt).run (World.idle db) before).store.purchaseOrders,
      hasReachedApproval row.status = true →
      ∃ row' ∈ ((purchases stamp rt).run (World.idle db) es).store.purchaseOrders, Frozen row row'

/-- What holds of the order `row` from its approval on. -/
structure StaysApproved (row : PurchaseOrder) (db : DB) : Prop where
  consistent : Consistent db
  frozen : ∃ row' ∈ db.purchaseOrders, Frozen row row' ∧ beforeApproval row'.status = false

theorem exec_staysApproved {row : PurchaseOrder} {w : World DB PurchaseCall} {e : PurchaseEvent}
    (h : StaysApproved row w.store) (hok : WritesBeforeApproval w e) :
    StaysApproved row ((purchases stamp rt).exec w e).store := by
  obtain ⟨row₁, hrow₁, hfrozen₁, hstatus₁⟩ := h.frozen
  obtain ⟨p, r, -, -, hs, -⟩ | ⟨p, c, call, rfl, htask, -, hs, -⟩ | ⟨o, -⟩ |
    ⟨p, call, -, -, hs, -⟩ | ⟨hs, -⟩ := (purchases stamp rt).exec_cases w e
  · rw [hs]
    exact h
  · rw [hs]
    obtain ⟨hconsistent, hadvances⟩ : Consistent (call.next stamp rt w.store).2 ∧ _ :=
      next_advances h.consistent call
    -- a write to the order would have found it before its approval
    have hwrites : call.writes ≠ some row₁.id := by
      intro hwrites
      have hbefore := hok call row₁.id htask hwrites row₁ hrow₁ rfl
      rw [hstatus₁] at hbefore
      cases hbefore
    obtain ⟨row₂, hrow₂, hfrozen₂, hstatus₂⟩ := hadvances row₁ hrow₁ hwrites
    exact ⟨hconsistent, row₂, hrow₂, hfrozen₁.trans hfrozen₂, hstatus₂ hstatus₁⟩
  · cases o
  · rw [hs]
    exact h
  · rw [hs]
    exact h

theorem run_consistent (h : Consistent db) (es : List PurchaseEvent) :
    Consistent ((purchases stamp rt).run (World.idle db) es).store :=
  (purchases stamp rt).run_invariant (I := fun s _ => Consistent s)
    (fun _ _ _ _ hI _ => hI) (fun _ _ _ _ call hI _ => (next_advances hI call).1)
    (fun _ _ o => nomatch o) (fun _ _ _ _ hI _ => hI) es h

theorem approved_order_frozen (h : Consistent db) (es : List PurchaseEvent)
    (hok : (purchases stamp rt).Follows WritesBeforeApproval (World.idle db) es) :
    ApprovedFrozen stamp rt db es := by
  intro before after hes row hrow hreached
  rw [hes] at hok ⊢
  have hstatus : beforeApproval row.status = false := by
    revert hreached
    cases row.status <;> decide
  have hstart : StaysApproved row ((purchases stamp rt).run (World.idle db) before).store :=
    ⟨run_consistent h before, row, hrow, Frozen.refl row, hstatus⟩
  have hend := (purchases stamp rt).follows_invariant (I := fun w => StaysApproved row w.store)
    (fun w e hw he => exec_staysApproved hw he) after
      ((purchases stamp rt).follows_append after before hok)
    hstart
  rw [System.run_append]
  obtain ⟨row', hrow', hfrozen, -⟩ := hend.frozen
  exact ⟨row', hrow', hfrozen⟩

end Runs

/-- A pending order of tenant 1 for ten of item 0 at 5, from supplier 5. -/
def pendingOpening : DB :=
  opening 7
    [{ id := 0, tenantId := 1, name := "cups", valuationMethod := some .standardCost,
       movingAverageScope := none, standardCost := some 3, averageUnitCost := none,
       valuationLockedAt := none }]
    { tenants := [⟨1, .retail⟩], warehouses := [⟨2, 1, none, true⟩], products := [], orders := [],
      suppliers := [⟨5, 1, true⟩, ⟨6, 1, true⟩]
      purchaseOrders :=
        [{ id := 3, tenantId := 1, supplierId := 5, warehouseId := some 2, status := .pending,
           totalAmount := 50, items := [⟨4, 0, 10, 5, 0⟩] }] }

theorem pendingOpening_consistent : Consistent pendingOpening :=
  ⟨sound_opening ⟨by decide, by decide⟩, by decide, by decide⟩

/-- An edit to another supplier and to two pieces, and the approval. -/
def editRequest : PurchaseRequest :=
  .update 1 3
    { supplierId := some 6, warehouseId := none, items := some [⟨some 0, some 2, some 5⟩] }

def approveRequest : PurchaseRequest := .updateStatus 1 3 .approved

/-- The edit is over before the order is approved. -/
def editThenApprove : List PurchaseEvent :=
  [.spawn 0 editRequest, .step 0 (), .step 0 (), .spawn 1 approveRequest, .step 1 ()]

theorem approved_order_frozen_example :
    ApprovedFrozen .sequential .plain pendingOpening editThenApprove := by
  refine approved_order_frozen pendingOpening_consistent editThenApprove ?_
  refine ⟨trivial, ?_, ?_, trivial, ?_, trivial⟩
  · rintro call id ⟨rfl⟩ ⟨⟩
  · rintro call id ⟨rfl⟩ ⟨rfl⟩
    decide +kernel
  · rintro call id ⟨rfl⟩ ⟨⟩

/-- The order is approved between the check of the edit and its write. -/
def approveDuringEdit : List PurchaseEvent :=
  [.spawn 0 editRequest, .step 0 (), .spawn 1 approveRequest, .step 1 (), .step 0 ()]

/-- The edit replaces the supplier, the total and the lines of an approved order. -/
theorem edit_after_approval :
    ¬ ApprovedFrozen .sequential .plain pendingOpening approveDuringEdit := by
  intro h
  obtain ⟨row', hrow', hfrozen⟩ := h (approveDuringEdit.take 4) (approveDuringEdit.drop 4)
    (List.take_append_drop 4 _).symm
    { id := 3, tenantId := 1, supplierId := 5, warehouseId := some 2, status := .approved,
      totalAmount := 50, items := [⟨4, 0, 10, 5, 0⟩] } (by decide +kernel) rfl
  have hother : ∀ row ∈ ((purchases .sequential .plain).run (World.idle pendingOpening)
      approveDuringEdit).store.purchaseOrders, row.supplierId = 6 := by decide +kernel
  have hkey := hfrozen.key
  simp only [orderKey, Prod.mk.injEq] at hkey
  have hsupplier := hother row' hrow'
  exact absurd (hsupplier.symm.trans hkey.2.2.2.2.1) (by decide)

end Orders
end ERP
