import ERP.Inventory.TransferRefinement
import ERP.Inventory.Quantities

/-!
# What purchase order receipts keep

The received quantities of the order lines agree with the receipts, with the stock
of the warehouse and with the price variances, at every line of every receipt: the
receipt is inserted with all its items, and what it still owes to the lines shrinks
as the lines are received.
-/

namespace ERP
namespace Inventory

open Lib.Tx

/-- The receipt of an order under an idempotency key. -/
def findPurchaseReceipt (db : DB) (purchaseOrderId : Id) (key : String) :
    Option PurchaseOrderReceipt :=
  db.purchaseReceipts.find? fun row =>
    row.purchaseOrderId = purchaseOrderId ∧ row.idempotencyKey = key

/-- What the items of a receipt book on a line. -/
def receiptItemQty (items : List PurchaseOrderReceiptItem) (lineId : Id) : ℚ :=
  (items.map fun item =>
    if item.purchaseOrderItemId = lineId then item.receivedQuantity else 0).sum

/-- What the receipts of an order have booked on a line. -/
def receiptQty (receipts : List PurchaseOrderReceipt) (purchaseOrderId lineId : Id) : ℚ :=
  (receipts.map fun r =>
    if r.purchaseOrderId = purchaseOrderId then receiptItemQty r.items lineId else 0).sum

/-- The received quantities of the order lines, weighted by the warehouse of the
order and the item and the price of the line. -/
def receivedSum (weight : Option Id → Id → Int → ℚ) (db : DB) : ℚ :=
  (db.purchaseOrders.map fun po =>
    (po.items.map fun l =>
      weight po.warehouseId l.inventoryItemId l.unitPrice * l.receivedQuantity).sum).sum

/-- What the orders of a warehouse have received of an item. -/
def receivedInto (db : DB) (w : Option Id) (i : Id) : ℚ :=
  receivedSum (fun w' i' _ => if w' = w ∧ i' = i then 1 else 0) db

/-- What all orders have received of an item. -/
def receivedOf (db : DB) (i : Id) : ℚ :=
  receivedSum (fun _ i' _ => if i' = i then 1 else 0) db

/-- What all orders have received of an item, at the price of each line. -/
def receivedPrice (db : DB) (i : Id) : ℚ :=
  receivedSum (fun _ i' unitPrice => if i' = i then unitPrice else 0) db

/-- The purchase price variances recorded for an item. -/
def varianceSum (db : DB) (i : Id) : ℚ :=
  (db.priceVariances.map fun v => if v.inventoryItemId = i then v.varianceAmount else 0).sum

/-- The item is valued at this standard cost. -/
def ValuedAtStandard (db : DB) (i : Id) (standardCost : ℚ) : Prop :=
  ∃ item ∈ db.items, item.id = i ∧ item.valuationMethod = some .standardCost ∧
    item.standardCost = some standardCost

/-- What a receipt does not change about a line of an order. -/
def orderLineKey (l : PurchaseOrderItem) : Id × Id × ℚ × Int :=
  (l.id, l.inventoryItemId, l.quantity, l.unitPrice)

/-- What a receipt does not change about an order. -/
def orderKey (po : PurchaseOrder) :
    Id × Id × Option Id × List (Id × Id × ℚ × Int) × Id × Int :=
  (po.id, po.tenantId, po.warehouseId, po.items.map orderLineKey, po.supplierId, po.totalAmount)

/-- Orders on which nothing was received yet. -/
structure Unreceived (db : DB) : Prop where
  orderIds : db.purchaseOrders.Pairwise fun a b => a.id ≠ b.id
  lineIds : ∀ po ∈ db.purchaseOrders, po.items.Pairwise fun a b => a.id ≠ b.id
  lines : ∀ po ∈ db.purchaseOrders, ∀ l ∈ po.items, 0 < l.quantity ∧ l.receivedQuantity = 0
  receipts : db.purchaseReceipts = []
  variances : db.priceVariances = []

/-- What the receipts so far amount to. -/
structure ReceiptsKept (start db : DB) : Prop where
  orders : db.purchaseOrders.map orderKey = start.purchaseOrders.map orderKey
  received : ∀ po ∈ db.purchaseOrders, ∀ l ∈ po.items,
    l.receivedQuantity = receiptQty db.purchaseReceipts po.id l.id
  within : ∀ po ∈ db.purchaseOrders, ∀ l ∈ po.items, l.receivedQuantity ≤ l.quantity
  stock : ∀ w i, stockQty db w i = stockQty start w i + receivedInto db w i
  variance : ∀ i standardCost, ValuedAtStandard start i standardCost →
    standardCost * receivedOf db i + varianceSum db i = receivedPrice db i

section Lines

variable {db db' start : DB} {po : PurchaseOrder} {l : PurchaseOrderItem}

/-- Write what a line of an order has received. -/
def withOrderReceived (db : DB) (purchaseOrderId lineId : Id) (quantity : ℚ) : DB :=
  db.updatePurchaseOrders (fun row => row.id = purchaseOrderId) fun row =>
    { row with items := row.items.map fun item =>
        if item.id = lineId then { item with receivedQuantity := quantity } else item }

theorem orderKey_withOrderReceived (purchaseOrderId lineId : Id) (quantity : ℚ) :
    (withOrderReceived db purchaseOrderId lineId quantity).purchaseOrders.map orderKey =
      db.purchaseOrders.map orderKey := by
  unfold withOrderReceived DB.updatePurchaseOrders
  rw [List.map_map]
  refine List.map_congr_left fun row _ => ?_
  simp only [Function.comp]
  split
  · simp only [orderKey, List.map_map, Prod.mk.injEq, true_and, and_true]
    refine List.map_congr_left fun item _ => ?_
    simp only [Function.comp, orderLineKey]
    split <;> rfl
  · rfl

theorem orderKey_setStatus (q : PurchaseOrder → Bool) (status : PurchaseOrderStatus) :
    (db.updatePurchaseOrders q fun row => { row with status }).purchaseOrders.map orderKey =
      db.purchaseOrders.map orderKey := by
  unfold DB.updatePurchaseOrders
  rw [List.map_map]
  refine List.map_congr_left fun row _ => ?_
  simp only [Function.comp]
  split <;> rfl

/-- Orders with the same keys have different ids together. -/
theorem pairwise_of_orderKey {orders orders' : List PurchaseOrder}
    (hkeys : orders'.map orderKey = orders.map orderKey)
    (h : orders.Pairwise fun a b => a.id ≠ b.id) : orders'.Pairwise fun a b => a.id ≠ b.id := by
  have hids : (orders.map orderKey).Pairwise fun a b => a.1 ≠ b.1 := List.pairwise_map.mpr h
  rw [← hkeys, List.pairwise_map] at hids
  exact hids

/-- Every order goes back to one with its key. -/
theorem exists_of_orderKey {orders orders' : List PurchaseOrder}
    (hkeys : orders'.map orderKey = orders.map orderKey) (hpo : po ∈ orders') :
    ∃ row ∈ orders, orderKey row = orderKey po := by
  have hmem : orderKey po ∈ orders'.map orderKey := List.mem_map_of_mem hpo
  rw [hkeys] at hmem
  exact List.mem_map.mp hmem

theorem lineIds_of_orderKey {orders orders' : List PurchaseOrder}
    (hkeys : orders'.map orderKey = orders.map orderKey)
    (h : ∀ po ∈ orders, po.items.Pairwise fun a b => a.id ≠ b.id) :
    ∀ po ∈ orders', po.items.Pairwise fun a b => a.id ≠ b.id := by
  intro po hpo
  obtain ⟨first, hfirst, hkey⟩ := exists_of_orderKey hkeys hpo
  simp only [orderKey, Prod.mk.injEq] at hkey
  have hids : (first.items.map orderLineKey).Pairwise fun a b => a.1 ≠ b.1 :=
    List.pairwise_map.mpr (h first hfirst)
  rw [hkey.2.2.2.1, List.pairwise_map] at hids
  exact hids

/-- What a weighted sum gains when one line is written. -/
theorem receivedSum_withOrderReceived (weight : Option Id → Id → Int → ℚ)
    (horders : db.purchaseOrders.Pairwise fun a b => a.id ≠ b.id)
    (hlines : po.items.Pairwise fun a b => a.id ≠ b.id) (hpo : po ∈ db.purchaseOrders)
    (hl : l ∈ po.items) (quantity : ℚ) :
    receivedSum weight (withOrderReceived db po.id l.id quantity) =
      receivedSum weight db +
        weight po.warehouseId l.inventoryItemId l.unitPrice * (quantity - l.receivedQuantity) := by
  unfold receivedSum withOrderReceived DB.updatePurchaseOrders
  have hsum := Lib.sum_update_of_ne horders hpo
    (fun row => { row with items := row.items.map fun item =>
      if item.id = l.id then { item with receivedQuantity := quantity } else item })
    (fun po => (po.items.map fun l =>
      weight po.warehouseId l.inventoryItemId l.unitPrice * l.receivedQuantity).sum)
  simp only [decide_eq_true_eq]
  rw [hsum]
  have hline := Lib.sum_update_of_ne hlines hl
    (fun item => { item with receivedQuantity := quantity })
    (fun l => weight po.warehouseId l.inventoryItemId l.unitPrice * l.receivedQuantity)
  simp only at hline ⊢
  rw [hline]
  ring

theorem receiptQty_append (receipts : List PurchaseOrderReceipt) (receipt : PurchaseOrderReceipt)
    (purchaseOrderId lineId : Id) :
    receiptQty (receipts ++ [receipt]) purchaseOrderId lineId =
      receiptQty receipts purchaseOrderId lineId +
        receiptQty [receipt] purchaseOrderId lineId := by
  simp [receiptQty]

end Lines

section Effects

variable {stamp : Stamp} {db db' start : DB} {po : PurchaseOrder} {E : Failure → Prop}

/-- The variance a received line records. -/
def priceVariance (item : InventoryItem) (p : PlannedPurchaseItem) : ℚ :=
  match item.valuationMethod, item.standardCost with
  | some .standardCost, some standardCost =>
      ((p.orderItem.unitPrice : ℚ) - standardCost) * p.delta
  | _, _ => 0

/-- Only the price variances may differ. -/
structure SameButVariances (db db' : DB) : Prop where
  orders : db'.purchaseOrders = db.purchaseOrders
  receipts : db'.purchaseReceipts = db.purchaseReceipts
  items : db'.items = db.items
  stocks : db'.stocks = db.stocks

theorem recordPriceVariance_effect {item : InventoryItem} {receipt : PurchaseOrderReceipt}
    {p : PlannedPurchaseItem} {Q : Unit → DB → Prop} (hE : Quiet E)
    (h : ∀ db', SameButVariances db db' →
      (∀ i, varianceSum db' i = varianceSum db i +
        if p.orderItem.inventoryItemId = i then priceVariance item p else 0) → Q () db') :
    Post (recordPriceVariance item receipt p) db Q E := by
  unfold recordPriceVariance
  unfold priceVariance at h
  split
  · simp only [post_bind, post_modify]
    refine expect_post hE (by simp) fun _ _ => freshId_post ?_
    refine h _ ⟨rfl, rfl, rfl, rfl⟩ fun i => ?_
    simp [varianceSum, DB.insertPriceVariance, DB.takeId, *]
  · rename_i hnone
    refine h db ⟨rfl, rfl, rfl, rfl⟩ fun i => ?_
    have hzero : (match item.valuationMethod, item.standardCost with
        | some .standardCost, some standardCost =>
            ((p.orderItem.unitPrice : ℚ) - standardCost) * p.delta
        | _, _ => 0) = 0 := by
      split
      · rename_i hmethod hstandard
        exact absurd hstandard (hnone _ hmethod)
      · rfl
    rw [hzero, ite_self, add_zero]

/-- What receiving one line does. -/
structure LineReceived (po : PurchaseOrder) (warehouseId : Id) (p : PlannedPurchaseItem)
    (db db' : DB) : Prop where
  orders : db'.purchaseOrders =
    (withOrderReceived db po.id p.orderItem.id p.nextReceived).purchaseOrders
  receipts : db'.purchaseReceipts = db.purchaseReceipts
  items : ∃ f, (∀ row, SameItem row (f row)) ∧ db'.items = db.items.map f
  stock : ∀ w i, stockQty db' w i =
    stockQty db w i + at_ (some warehouseId) w p.orderItem.inventoryItemId i p.delta
  variance : ∀ i standardCost, ValuedAtStandard db i standardCost →
    varianceSum db' i = varianceSum db i +
      if p.orderItem.inventoryItemId = i then
        ((p.orderItem.unitPrice : ℚ) - standardCost) * p.delta else 0

theorem priceVariance_of_standard {item : InventoryItem} {i : Id} {standardCost : ℚ}
    {p : PlannedPurchaseItem} {pending : List InventoryMovement} (hs : Sound ⟨db, pending⟩)
    (hitem : item ∈ db.items) (hid : item.id = i) (h : ValuedAtStandard db i standardCost) :
    priceVariance item p = ((p.orderItem.unitPrice : ℚ) - standardCost) * p.delta := by
  obtain ⟨item', hmem, hid', hmethod, hstandard⟩ := h
  have heq : item = item' := hs.itemIds.eq_of_key hitem hmem (hid.trans hid'.symm)
  unfold priceVariance
  rw [heq, hmethod, hstandard]

theorem receivePurchaseItem_effect {tenantId warehouseId : Id} {receipt : PurchaseOrderReceipt}
    {p : PlannedPurchaseItem} (hs : Sound ⟨db, []⟩) (hE : Quiet E) :
    Post (receivePurchaseItem stamp tenantId po warehouseId receipt p) db
      (fun _ db' => LineReceived po warehouseId p db db') E := by
  unfold receivePurchaseItem setOrderItemReceived
  simp only [post_bind, post_get, post_set, post_pure]
  refine lockItem_post hE fun item hlocked => ?_
  obtain ⟨hitem, hid, _⟩ := hlocked.mem
  refine require_post hE (by simp) fun _ => ?_
  refine upsertStock_post (createMovement_post ?_)
  refine receive_post hE (Sound.isSome_stockAt_addStock _ _ _ _ _) fun _ _ db₁ hreceived => ?_
  have hcosted := hreceived.costed
  have hout := hcosted.outside.trans (DB.addStock_outside _ _ _ _)
  have horders := congrArg DB.purchaseOrders hout
  have hreceipts := congrArg DB.purchaseReceipts hout
  have hvariances := congrArg DB.priceVariances hout
  refine recordPriceVariance_effect hE fun db₂ hsame hvariance => ?_
  refine ⟨?_, ?_, ?_, fun w i => ?_, fun i standardCost hstandard => ?_⟩
  · rw [hsame.orders]
    exact horders
  · rw [hsame.receipts]
    exact hreceipts
  · rw [hsame.items]
    simpa [DB.record, DB.insertMovement, DB.takeId, DB.updatePurchaseOrders] using hcosted.items
  · rw [stockQty_congr hsame.stocks, stockQty_costed hcosted]
    have hwritten : Sound ⟨withOrderReceived db po.id p.orderItem.id p.nextReceived, []⟩ :=
      hs.sameLedger ⟨rfl, rfl, rfl, rfl, rfl, le_refl _⟩
        fun hl => Sound.lines_mono hl rfl (le_refl _)
    exact (stockQty_congr rfl).trans (stockQty_add hwritten w i (some warehouseId)
      p.orderItem.inventoryItemId p.delta)
  · rw [hvariance i]
    have hold : varianceSum db₁ i = varianceSum db i := by
      unfold varianceSum
      rw [show db₁.priceVariances = db.priceVariances from hvariances]
    rw [hold]
    by_cases hi : p.orderItem.inventoryItemId = i
    · rw [if_pos hi, if_pos hi, priceVariance_of_standard hs hitem (hid.trans hi) hstandard]
    · rw [if_neg hi, if_neg hi]

/-- What receiving a line does, and that the database stays sound. -/
theorem receivePurchaseItem_lines {tenantId warehouseId : Id} {receipt : PurchaseOrderReceipt}
    {p : PlannedPurchaseItem} (hs : Sound ⟨db, []⟩) (hpos : 0 < p.delta) :
    Post (receivePurchaseItem stamp tenantId po warehouseId receipt p) db
      (fun _ db' => LineReceived po warehouseId p db db' ∧ Sound ⟨db', []⟩) (fun _ => True) := by
  have heffect : Post (receivePurchaseItem stamp tenantId po warehouseId receipt p) db
      (fun _ db' => LineReceived po warehouseId p db db') (fun _ => True) :=
    receivePurchaseItem_effect hs fun _ _ => trivial
  have hsound : Post (receivePurchaseItem stamp tenantId po warehouseId receipt p) db
      (fun _ db' => Sound ⟨db', []⟩) (Stuck stamp .all ⟨db, []⟩ fun _ => True) :=
    receivePurchaseItem_post .refl hpos trivial fun _ hrun => hs.run hrun
  exact (heffect.and hsound).mono (fun _ _ hboth => hboth) fun _ _ => trivial

end Effects

/-- What a receipt that is being processed still has to book on a line. -/
def owedQty (purchaseOrderId : Id) (rest : List PlannedPurchaseItem) (orderId lineId : Id) : ℚ :=
  if purchaseOrderId = orderId then
    (rest.map fun p => if p.orderItem.id = lineId then p.delta else 0).sum else 0

/-- The state of a run in the middle of a receipt: the receipt is inserted with all
its items, and `owed` of them is not yet on the lines. -/
structure Receiving (start : DB) (owed : Id → Id → ℚ) (db : DB) : Prop where
  orders : db.purchaseOrders.map orderKey = start.purchaseOrders.map orderKey
  items : ∃ f, (∀ row, SameItem row (f row)) ∧ db.items = start.items.map f
  received : ∀ po ∈ db.purchaseOrders, ∀ l ∈ po.items,
    l.receivedQuantity + owed po.id l.id = receiptQty db.purchaseReceipts po.id l.id
  within : ∀ po ∈ db.purchaseOrders, ∀ l ∈ po.items, l.receivedQuantity ≤ l.quantity
  stock : ∀ w i, stockQty db w i = stockQty start w i + receivedInto db w i
  variance : ∀ i standardCost, ValuedAtStandard start i standardCost →
    standardCost * receivedOf db i + varianceSum db i = receivedPrice db i

section Steps

variable {stamp : Stamp} {db db' start : DB} {po row : PurchaseOrder} {owed : Id → Id → ℚ}
  {p : PlannedPurchaseItem} {rest : List PlannedPurchaseItem}

theorem owedQty_nil (purchaseOrderId orderId lineId : Id) :
    owedQty purchaseOrderId [] orderId lineId = 0 := by
  simp [owedQty]

theorem owedQty_cons_self (orderId : Id) :
    owedQty orderId (p :: rest) orderId p.orderItem.id =
      p.delta + owedQty orderId rest orderId p.orderItem.id := by
  simp [owedQty]

theorem owedQty_cons_line {lineId : Id} (purchaseOrderId orderId : Id)
    (h : lineId ≠ p.orderItem.id) :
    owedQty purchaseOrderId (p :: rest) orderId lineId =
      owedQty purchaseOrderId rest orderId lineId := by
  simp [owedQty, h.symm]

theorem owedQty_other {purchaseOrderId orderId : Id} (h : orderId ≠ purchaseOrderId)
    (rest : List PlannedPurchaseItem) (lineId : Id) :
    owedQty purchaseOrderId rest orderId lineId = 0 :=
  if_neg h.symm

theorem receivedSum_congr (weight : Option Id → Id → Int → ℚ)
    (h : db'.purchaseOrders = db.purchaseOrders) :
    receivedSum weight db' = receivedSum weight db := by
  unfold receivedSum
  rw [h]

theorem Receiving.orderIds (h : Receiving start owed db) (hopen : Unreceived start) :
    db.purchaseOrders.Pairwise fun a b => a.id ≠ b.id :=
  pairwise_of_orderKey h.orders hopen.orderIds

theorem Receiving.lineIds (h : Receiving start owed db) (hopen : Unreceived start)
    (hrow : row ∈ db.purchaseOrders) : row.items.Pairwise fun a b => a.id ≠ b.id :=
  lineIds_of_orderKey h.orders hopen.lineIds row hrow

theorem ValuedAtStandard.map {i : Id} {standardCost : ℚ} {f : InventoryItem → InventoryItem}
    (h : ValuedAtStandard start i standardCost) (hf : ∀ row, SameItem row (f row))
    (hitems : db.items = start.items.map f) : ValuedAtStandard db i standardCost := by
  obtain ⟨item, hmem, hid, hmethod, hstandard⟩ := h
  refine ⟨f item, hitems ▸ List.mem_map_of_mem hmem, (hf item).id.trans hid, ?_, ?_⟩
  · exact (hf item).method.trans hmethod
  · exact (hf item).standard.trans hstandard

/-- A line that is received is booked on the line, in the stock and as a variance
together. -/
theorem Receiving.line {warehouseId : Id} (hopen : Unreceived start)
    (h : Receiving start (owedQty po.id (p :: rest)) db) (hrow : row ∈ db.purchaseOrders)
    (hid : row.id = po.id) (hw : row.warehouseId = some warehouseId) (hp : PlannedPurchase po p)
    (hmem : p.orderItem ∈ row.items) (hline : LineReceived po warehouseId p db db') :
    Receiving start (owedQty po.id rest) db' := by
  have horderIds := h.orderIds hopen
  have hlineIds := h.lineIds hopen hrow
  have hdelta : p.nextReceived - p.orderItem.receivedQuantity = p.delta := by
    rw [hp.next]
    ring
  have hsum : ∀ weight, receivedSum weight db' = receivedSum weight db +
      weight (some warehouseId) p.orderItem.inventoryItemId p.orderItem.unitPrice * p.delta := by
    intro weight
    rw [receivedSum_congr weight hline.orders, ← hid,
      receivedSum_withOrderReceived weight horderIds hlineIds hrow hmem, hw, hdelta]
  -- a row of the new table is the written one or one of the old
  have hcases : ∀ po' ∈ db'.purchaseOrders, ∀ l ∈ po'.items,
      (po'.id = po.id ∧ l.id = p.orderItem.id ∧ l.receivedQuantity = p.nextReceived ∧
        l.quantity = p.orderItem.quantity) ∨
      (∃ r ∈ db.purchaseOrders, r.id = po'.id ∧ l ∈ r.items ∧
        (po'.id = po.id → l.id ≠ p.orderItem.id)) := by
    intro po' hpo' l hl
    rw [hline.orders] at hpo'
    obtain ⟨r, hr, rfl⟩ := List.mem_map.mp hpo'
    by_cases hrid : r.id = po.id
    · simp only [hrid, decide_true, if_true] at hl ⊢
      obtain ⟨item, hitem, rfl⟩ := List.mem_map.mp hl
      have hrrow : r = row := Lib.eq_of_key_of_ne horderIds hr hrow (hrid.trans hid.symm)
      by_cases hlid : item.id = p.orderItem.id
      · have hitemEq := Lib.eq_of_key_of_ne hlineIds (hrrow ▸ hitem) hmem hlid
        rw [if_pos hlid, hitemEq]
        exact .inl ⟨trivial, rfl, rfl, rfl⟩
      · rw [if_neg hlid]
        exact .inr ⟨r, hr, hrid, hitem, fun _ => hlid⟩
    · simp only [hrid, decide_false, Bool.false_eq_true, if_false] at hl ⊢
      exact .inr ⟨r, hr, rfl, hl, False.elim⟩
  obtain ⟨f, hf, hfitems⟩ := h.items
  refine ⟨?_, ?_, fun po' hpo' l hl => ?_, fun po' hpo' l hl => ?_, fun w i => ?_,
    fun i standardCost hstandard => ?_⟩
  · rw [hline.orders, orderKey_withOrderReceived, h.orders]
  · obtain ⟨g, hg, hgitems⟩ := hline.items
    refine ⟨g ∘ f, fun item => (hf item).trans (hg (f item)), ?_⟩
    rw [hgitems, hfitems, List.map_map]
  · rw [hline.receipts]
    rcases hcases po' hpo' l hl with ⟨hpid, hlid, hreceived, -⟩ | ⟨r, hr, hrid, hlr, hne⟩
    · have hbefore := h.received row hrow p.orderItem hmem
      rw [hid, owedQty_cons_self] at hbefore
      rw [hpid, hlid, hreceived, hp.next, ← hbefore]
      ring
    · have hbefore := h.received r hr l hlr
      rw [hrid] at hbefore
      by_cases hpid : po'.id = po.id
      · rwa [owedQty_cons_line _ _ (hne hpid)] at hbefore
      · rwa [owedQty_other hpid, ← owedQty_other hpid rest l.id] at hbefore
  · rcases hcases po' hpo' l hl with ⟨-, -, hreceived, hquantity⟩ | ⟨r, hr, -, hlr, -⟩
    · rw [hreceived, hquantity]
      exact hp.le
    · exact h.within r hr l hlr
  · have hinto := hsum fun w' i' _ => if w' = w ∧ i' = i then 1 else 0
    unfold receivedInto
    rw [hline.stock, h.stock, hinto]
    unfold receivedInto at_
    split <;> ring
  · have hof := hsum fun _ i' _ => if i' = i then 1 else 0
    have hprice := hsum fun _ i' unitPrice => if i' = i then (unitPrice : ℚ) else 0
    have hbefore := h.variance i standardCost hstandard
    have hgained := hline.variance i standardCost (hstandard.map hf hfitems)
    unfold receivedOf receivedPrice at hbefore ⊢
    rw [hof, hprice, hgained]
    by_cases hi : p.orderItem.inventoryItemId = i
    · simp only [hi, if_true]
      linarith
    · simp only [hi, if_false]
      linarith

/-- The loop over the planned lines, with `rest` still to come. -/
structure AtLine (start : DB) (po : PurchaseOrder) (receipts : List PurchaseOrderReceipt)
    (rest : List PlannedPurchaseItem) (db : DB) : Prop where
  sound : Sound ⟨db, []⟩
  kept : Receiving start (owedQty po.id rest) db
  receipts : db.purchaseReceipts = receipts
  row : ∃ row ∈ db.purchaseOrders, row.id = po.id ∧ row.warehouseId = po.warehouseId ∧
    ∀ p ∈ rest, p.orderItem ∈ row.items

theorem AtLine.step {receipts : List PurchaseOrderReceipt} {warehouseId : Id}
    (hopen : Unreceived start) (h : AtLine start po receipts (p :: rest) db)
    (hw : po.warehouseId = some warehouseId) (hp : PlannedPurchase po p)
    (hdistinct : ∀ q ∈ rest, p.orderItem.id ≠ q.orderItem.id)
    (hline : LineReceived po warehouseId p db db') (hs : Sound ⟨db', []⟩) :
    AtLine start po receipts rest db' := by
  obtain ⟨row, hrow, hid, hrw, hlines⟩ := h.row
  refine ⟨hs, h.kept.line hopen hrow hid (hrw.trans hw) hp (hlines p List.mem_cons_self) hline,
    hline.receipts.trans h.receipts, ?_⟩
  let written : PurchaseOrder := { row with items := row.items.map fun item =>
    if item.id = p.orderItem.id then { item with receivedQuantity := p.nextReceived } else item }
  refine ⟨written, ?_, hid, hrw, fun q hq => ?_⟩
  · rw [hline.orders]
    exact List.mem_map.mpr ⟨row, hrow, by simp [hid, written]⟩
  · refine List.mem_map.mpr ⟨q.orderItem, hlines q (List.mem_cons_of_mem p hq), ?_⟩
    exact if_neg (hdistinct q hq).symm

/-- The status that the received quantities of an order give it. -/
def receivedStatus (po : PurchaseOrder) : PurchaseOrderStatus :=
  if ∀ l ∈ po.items, l.quantity - tolerance ≤ l.receivedQuantity then .received
  else .partiallyReceived

/-- What is planned for a line. -/
theorem planned_value {planned : List PlannedPurchaseItem} {l : PurchaseOrderItem}
    (hlines : po.items.Pairwise fun a b => a.id ≠ b.id)
    (hplanned : ∀ p ∈ planned, PlannedPurchase po p)
    (hdistinct : planned.Pairwise fun p q => p.orderItem.id ≠ q.orderItem.id)
    (hl : l ∈ po.items) :
    ((planned.find? fun p => p.orderItem.id = l.id).map (·.nextReceived)).getD l.receivedQuantity =
      l.receivedQuantity + owedQty po.id planned po.id l.id := by
  rw [owedQty, if_pos rfl]
  cases hfind : planned.find? fun p => p.orderItem.id = l.id with
  | some p =>
      have hmem := List.mem_of_find?_eq_some hfind
      have hid : p.orderItem.id = l.id := by simpa using List.find?_some hfind
      have hline : p.orderItem = l := Lib.eq_of_key_of_ne hlines (hplanned p hmem).mem hl hid
      have honly : planned.Pairwise fun p q => ¬ (p.orderItem.id = l.id ∧ q.orderItem.id = l.id) :=
        hdistinct.imp fun hne hboth => hne (hboth.1.trans hboth.2.symm)
      rw [Lib.sum_unique honly hmem hid (·.delta), ← hline]
      exact (hplanned p hmem).next
  | none =>
      have hzero : (planned.map fun p => if p.orderItem.id = l.id then p.delta else 0).sum = 0 := by
        refine List.sum_eq_zero fun x hx => ?_
        obtain ⟨p, hp, rfl⟩ := List.mem_map.mp hx
        have hne := List.find?_eq_none.mp hfind p hp
        exact if_neg (by simpa using hne)
      rw [hzero, add_zero]
      rfl

theorem purchaseReceiptStatus_eq {planned : List PlannedPurchaseItem}
    (hkeys : row.items.map orderLineKey = po.items.map orderLineKey)
    (hvalue : ∀ l ∈ row.items, ∀ l' ∈ po.items, l.id = l'.id →
      l.receivedQuantity = ((planned.find? fun p => p.orderItem.id = l'.id).map
        (·.nextReceived)).getD l'.receivedQuantity) :
    purchaseReceiptStatus unrounded po planned = receivedStatus row := by
  have hback : ∀ l ∈ row.items, ∃ l' ∈ po.items, orderLineKey l' = orderLineKey l := by
    intro l hl
    have hmem : orderLineKey l ∈ row.items.map orderLineKey := List.mem_map_of_mem hl
    rw [hkeys] at hmem
    exact List.mem_map.mp hmem
  have hforth : ∀ l' ∈ po.items, ∃ l ∈ row.items, orderLineKey l = orderLineKey l' := by
    intro l' hl'
    have hmem : orderLineKey l' ∈ po.items.map orderLineKey := List.mem_map_of_mem hl'
    rw [← hkeys] at hmem
    exact List.mem_map.mp hmem
  unfold purchaseReceiptStatus receivedStatus
  simp only [List.all_eq_true, lineReceived_unrounded, decide_eq_true_eq]
  refine if_congr ⟨fun hall l hl => ?_, fun hall l' hl' => ?_⟩ rfl rfl
  · obtain ⟨l', hl', hkey⟩ := hback l hl
    simp only [orderLineKey, Prod.mk.injEq] at hkey
    rw [hvalue l hl l' hl' hkey.1.symm, ← hkey.2.2.1]
    exact hall l' hl'
  · obtain ⟨l, hl, hkey⟩ := hforth l' hl'
    simp only [orderLineKey, Prod.mk.injEq] at hkey
    rw [← hvalue l hl l' hl' hkey.1, ← hkey.2.2.1]
    exact hall l hl

theorem Receiving.congr (h : Receiving start owed db)
    (horders : db'.purchaseOrders = db.purchaseOrders)
    (hreceipts : db'.purchaseReceipts = db.purchaseReceipts)
    (hvariances : db'.priceVariances = db.priceVariances) (hitems : db'.items = db.items)
    (hstocks : db'.stocks = db.stocks) : Receiving start owed db' where
  orders := horders ▸ h.orders
  items := hitems ▸ h.items
  received := by
    rw [horders, hreceipts]
    exact h.received
  within := horders ▸ h.within
  stock := by
    intro w i
    unfold receivedInto
    rw [stockQty_congr hstocks, receivedSum_congr _ horders]
    exact h.stock w i
  variance := by
    intro i standardCost hstandard
    unfold receivedOf receivedPrice varianceSum
    rw [receivedSum_congr _ horders, receivedSum_congr _ horders, hvariances]
    exact h.variance i standardCost hstandard

/-- Setting the status of orders. -/
theorem Receiving.setStatus (h : Receiving start owed db) (q : PurchaseOrder → Bool)
    (status : PurchaseOrderStatus) :
    Receiving start owed (db.updatePurchaseOrders q fun row => { row with status }) := by
  have hsum : ∀ weight, receivedSum weight (db.updatePurchaseOrders q fun row =>
      { row with status }) = receivedSum weight db := by
    intro weight
    unfold receivedSum DB.updatePurchaseOrders
    rw [List.map_map]
    congr 1
    refine List.map_congr_left fun row _ => ?_
    simp only [Function.comp]
    split <;> rfl
  have hback : ∀ po ∈ (db.updatePurchaseOrders q fun row => { row with status }).purchaseOrders,
      ∃ row ∈ db.purchaseOrders, row.id = po.id ∧ row.items = po.items := by
    intro po hpo
    obtain ⟨row, hrow, rfl⟩ := List.mem_map.mp hpo
    refine ⟨row, hrow, ?_⟩
    split <;> exact ⟨rfl, rfl⟩
  refine ⟨?_, h.items, fun po hpo l hl => ?_, fun po hpo l hl => ?_, fun w i => ?_, ?_⟩
  · rw [orderKey_setStatus, h.orders]
  · obtain ⟨row, hrow, hid, hitems⟩ := hback po hpo
    rw [← hid]
    exact h.received row hrow l (hitems ▸ hl)
  · obtain ⟨row, hrow, -, hitems⟩ := hback po hpo
    exact h.within row hrow l (hitems ▸ hl)
  · unfold receivedInto
    rw [hsum]
    exact h.stock w i
  · intro i standardCost hstandard
    unfold receivedOf receivedPrice
    rw [hsum, hsum]
    exact h.variance i standardCost hstandard

/-- The receipt row that `receivePurchaseOrder` inserts. -/
def purchaseReceiptRow (rt : TransferRuntime) (tenantId purchaseOrderId : Id) (key : String)
    (request : ReceiptDto) (po : PurchaseOrder) (planned : List PlannedPurchaseItem) (id : Id) :
    PurchaseOrderReceipt :=
  { id, tenantId, purchaseOrderId, idempotencyKey := key,
    requestHash := rt.receiptHash request,
    statusAfter := purchaseReceiptStatus unrounded po planned,
    items := planned.map fun p =>
      { purchaseOrderItemId := p.orderItem.id, inventoryItemId := p.orderItem.inventoryItemId,
        receivedQuantity := p.delta } }

theorem receiptQty_row {rt : TransferRuntime} {tenantId purchaseOrderId id : Id} {key : String}
    {request : ReceiptDto} {planned : List PlannedPurchaseItem} (orderId lineId : Id) :
    receiptQty [purchaseReceiptRow rt tenantId purchaseOrderId key request po planned id]
      orderId lineId = owedQty purchaseOrderId planned orderId lineId := by
  simp only [receiptQty, purchaseReceiptRow, receiptItemQty, List.map_cons, List.map_nil,
    List.sum_cons, List.sum_nil, add_zero, List.map_map, owedQty]
  rfl

/-- Inserting a receipt owes all its items to the lines. -/
theorem Receiving.insertReceipt {rt : TransferRuntime} {tenantId purchaseOrderId id : Id}
    {key : String} {request : ReceiptDto} {planned : List PlannedPurchaseItem}
    (h : Receiving start (fun _ _ => 0) db) :
    Receiving start (owedQty purchaseOrderId planned) (db.takeId.insertPurchaseReceipt
      (purchaseReceiptRow rt tenantId purchaseOrderId key request po planned id)) where
  orders := h.orders
  items := h.items
  received := by
    intro po' hpo' l hl
    have hbefore := h.received po' hpo' l hl
    change _ = receiptQty (db.purchaseReceipts ++ [_]) po'.id l.id
    rw [receiptQty_append, receiptQty_row, ← hbefore, add_zero]
  within := h.within
  stock := h.stock
  variance := h.variance

/-- What an accepted call does: nothing when the key was used for this request
before, and otherwise a new receipt and the status that the lines then have. -/
inductive AcceptedReceipt (rt : TransferRuntime) (start : DB) (purchaseOrderId : Id) (key : String)
    (request : ReceiptDto) (db : DB) : PurchaseOrderReceipt → DB → Prop
  | replay {receipt} (hfound : findPurchaseReceipt db purchaseOrderId key = some receipt)
      (hhash : receipt.requestHash = rt.receiptHash request) :
      AcceptedReceipt rt start purchaseOrderId key request db receipt db
  | receive {receipt db'} (hnew : findPurchaseReceipt db purchaseOrderId key = none)
      (hkept : Receiving start (fun _ _ => 0) db')
      (hreceipts : db'.purchaseReceipts = db.purchaseReceipts ++ [receipt])
      (hkey : receipt.purchaseOrderId = purchaseOrderId ∧ receipt.idempotencyKey = key)
      (hhash : receipt.requestHash = rt.receiptHash request)
      (hstatus : ∀ row ∈ db'.purchaseOrders, row.id = purchaseOrderId →
        row.status = receivedStatus row) :
      AcceptedReceipt rt start purchaseOrderId key request db receipt db'

theorem AcceptedReceipt.hash {rt : TransferRuntime} {receipt : PurchaseOrderReceipt}
    {purchaseOrderId : Id} {key : String} {request : ReceiptDto}
    (h : AcceptedReceipt rt start purchaseOrderId key request db receipt db') :
    receipt.requestHash = rt.receiptHash request := by
  cases h with
  | replay _ hhash => exact hhash
  | receive _ _ _ _ hhash _ => exact hhash

theorem Receiving.receiptsKept (h : Receiving start (fun _ _ => 0) db) : ReceiptsKept start db where
  orders := h.orders
  received := by
    intro po hpo l hl
    rw [← h.received po hpo l hl, add_zero]
  within := h.within
  stock := h.stock
  variance := h.variance

/-- The status written at the end of a receipt. -/
theorem status_written {q : PurchaseOrder → Bool} {status : PurchaseOrderStatus}
    (horders : db.purchaseOrders.Pairwise fun a b => a.id ≠ b.id)
    (hcount : db.purchaseOrders.countP q = 1) {purchaseOrderId : Id}
    (hq : ∀ r, q r = true → r.id = purchaseOrderId)
    (hpo : po ∈ (db.updatePurchaseOrders q fun r => { r with status }).purchaseOrders)
    (hid : po.id = purchaseOrderId) :
    ∃ r ∈ db.purchaseOrders, r.id = purchaseOrderId ∧ po = { r with status } := by
  obtain ⟨r, hr, rfl⟩ := List.mem_map.mp hpo
  obtain ⟨only, honly, hqonly⟩ :=
    List.countP_pos_iff.mp (by omega : 0 < db.purchaseOrders.countP q)
  have hrid : r.id = purchaseOrderId := by
    rw [← hid]
    split <;> rfl
  have heq : r = only := Lib.eq_of_key_of_ne horders hr honly (hrid.trans (hq only hqonly).symm)
  refine ⟨r, hr, hrid, ?_⟩
  rw [heq, if_pos hqonly]

theorem AtLine.receiveItem {receipts : List PurchaseOrderReceipt} {tenantId warehouseId : Id}
    {receipt : PurchaseOrderReceipt} (hopen : Unreceived start)
    (h : AtLine start po receipts (p :: rest) db) (hw : po.warehouseId = some warehouseId)
    (hp : PlannedPurchase po p) (hdistinct : ∀ q ∈ rest, p.orderItem.id ≠ q.orderItem.id) :
    Post (receivePurchaseItem stamp tenantId po warehouseId receipt p) db
      (fun _ db' => AtLine start po receipts rest db') (fun _ => True) :=
  (receivePurchaseItem_lines h.sound hp.pos).mono
    (fun _ _ hboth => h.step hopen hw hp hdistinct hboth.1 hboth.2) fun _ _ => trivial

/-- The lines are received and the status is written. -/
theorem AtLine.finish {receipts : List PurchaseOrderReceipt} {planned : List PlannedPurchaseItem}
    {db₁ : DB} {purchaseOrderId : Id} {q : PurchaseOrder → Bool} (hopen : Unreceived start)
    (h : Receiving start (fun _ _ => 0) db) (hpo : po ∈ db.purchaseOrders)
    (hid : po.id = purchaseOrderId) (hplanned : ∀ p ∈ planned, PlannedPurchase po p)
    (hdistinct : planned.Pairwise fun p q => p.orderItem.id ≠ q.orderItem.id)
    (hat : AtLine start po receipts [] db₁)
    (hreceipts : ∀ lineId, receiptQty receipts po.id lineId =
      receiptQty db.purchaseReceipts po.id lineId + owedQty po.id planned po.id lineId)
    (hq : ∀ r, q r = true → r.id = purchaseOrderId) (hcount : db₁.purchaseOrders.countP q = 1)
    (hrow : row ∈ (db₁.updatePurchaseOrders q fun r =>
      { r with status := purchaseReceiptStatus unrounded po planned }).purchaseOrders)
    (hrowid : row.id = purchaseOrderId) : row.status = receivedStatus row := by
  obtain ⟨r, hr, hrid, rfl⟩ := status_written (hat.kept.orderIds hopen) hcount hq hrow hrowid
  have hkeys : db₁.purchaseOrders.map orderKey = db.purchaseOrders.map orderKey :=
    hat.kept.orders.trans h.orders.symm
  obtain ⟨before, hbefore, hkey⟩ := exists_of_orderKey hkeys hr
  simp only [orderKey, Prod.mk.injEq] at hkey
  have hsame : before = po :=
    Lib.eq_of_key_of_ne (h.orderIds hopen) hbefore hpo (hkey.1.trans (hrid.trans hid.symm))
  rw [hsame] at hkey
  change purchaseReceiptStatus unrounded po planned = receivedStatus r
  refine purchaseReceiptStatus_eq hkey.2.2.2.1.symm fun l hl l' hl' hlid => ?_
  -- what the line holds now is what it held and what was planned
  rw [planned_value (h.lineIds hopen hpo) hplanned hdistinct hl']
  have hnow := hat.kept.received r hr l hl
  have hthen := h.received po hpo l' hl'
  rw [owedQty_nil, hat.receipts, ← hkey.1, hlid, hreceipts, ← hthen] at hnow
  linarith

theorem receivePurchaseRequest_effect {rt : TransferRuntime} {tenantId purchaseOrderId : Id}
    {key : String} {request : ReceiptDto} (hopen : Unreceived start) (hs : Sound ⟨db, []⟩)
    (h : Receiving start (fun _ _ => 0) db)
    (hitems : ∀ item ∈ request.items, 1 / 10 ≤ item.receivedQuantity)
    (hnodup : (request.items.map (·.itemId)).Nodup) :
    Post (receivePurchaseRequest stamp unrounded rt.receiptHash tenantId purchaseOrderId key
        request) db
      (fun receipt db' =>
        (∃ po ∈ db.purchaseOrders, po.id = purchaseOrderId ∧ po.tenantId = tenantId) ∧
        AcceptedReceipt rt start purchaseOrderId key request db receipt db')
      (fun _ => True) := by
  have hE : Quiet fun _ => True := fun _ _ => trivial
  unfold receivePurchaseRequest
  simp only [post_bind, post_get]
  refine expect_post hE (by simp) fun po hpo => ?_
  have hmem := List.mem_of_find?_eq_some hpo
  have hfound := List.find?_some hpo
  simp only [decide_eq_true_eq] at hfound
  have hexists : ∃ po ∈ db.purchaseOrders, po.id = purchaseOrderId ∧ po.tenantId = tenantId :=
    ⟨po, hmem, hfound⟩
  split
  · rename_i receipt hreceipt
    simp only [post_bind, post_pure]
    exact require_post hE (by simp) fun hhash => ⟨hexists, .replay hreceipt hhash⟩
  · rename_i hnew
    simp only [post_bind, post_modify, post_get, post_set, post_pure]
    refine require_post hE (by simp) fun _ => ?_
    refine expect_post hE (by simp) fun warehouseId hwarehouse => ?_
    refine planPurchaseReceipt_post hE hitems fun planned hplanned hmatch => ?_
    have hdistinct := planned_distinct hmatch hnodup
    refine freshId_post ?_
    let receipt := purchaseReceiptRow rt tenantId purchaseOrderId key request po planned db.nextId
    have hstart : AtLine start po (db.purchaseReceipts ++ [receipt]) planned
        (db.takeId.insertPurchaseReceipt receipt) := by
      refine ⟨?_, hfound.1 ▸ h.insertReceipt, rfl, po, hmem, rfl, rfl, fun p hp => ?_⟩
      · exact hs.sameLedger ⟨rfl, rfl, rfl, rfl, rfl, Nat.le_succ _⟩
          fun hl => Sound.lines_mono hl rfl (Nat.le_succ _)
      · exact (hplanned p hp).mem
    refine (post_forM (AtLine start po (db.purchaseReceipts ++ [receipt])) planned
      (fun p rest db₁ hsplit hat => ?_) hstart).mono (fun _ db₁ hat => ?_) fun _ he => he
    · have hp := hplanned p (mem_of_split hsplit)
      obtain ⟨done, hdone⟩ := hsplit
      have hlater : planned.Pairwise fun p q => p.orderItem.id ≠ q.orderItem.id := hdistinct
      rw [hdone, List.pairwise_append] at hlater
      exact hat.receiveItem hopen hwarehouse hp (List.pairwise_cons.mp hlater.2.1).1
    · refine require_post hE (by simp) fun hcount => ?_
      unfold writeOutbox
      simp only [post_bind, post_modify]
      refine freshId_post ⟨hexists, .receive hnew ?_ hat.receipts ⟨rfl, rfl⟩ rfl ?_⟩
      · have hzero : owedQty po.id [] = fun _ _ => 0 := by
          funext orderId lineId
          exact owedQty_nil _ _ _
        exact ((hzero ▸ hat.kept).setStatus _ _).congr rfl rfl rfl rfl rfl
      · intro row hrow hrowid
        refine AtLine.finish hopen h hmem hfound.1 hplanned hdistinct hat (fun lineId => ?_)
          (fun r hr => ?_) hcount hrow hrowid
        · rw [receiptQty_append, hfound.1, receiptQty_row]
        · simp only [decide_eq_true_eq] at hr
          exact hr.1

end Steps

end Inventory
end ERP
