import ERP.Inventory.Readiness
import ERP.Inventory.PurchaseReceipts
import ERP.Orders.ReceiptLines

/-!
# What a receipt does to an order

The transaction of `receivePurchaseOrder` on one order, with the sums and differences of
doubles: when it goes through, and what it leaves of the order.
-/

namespace ERP
namespace Orders

open Inventory Lib Lib.Tx

/-- The order is in the database under its id, and no other is. -/
def OnlyOrder (db : DB) (po : PurchaseOrder) : Prop :=
  (db.purchaseOrders.filter fun row => row.id = po.id) = [po]

section Rows

variable {db : DB} {po : PurchaseOrder}

theorem OnlyOrder.congr {db' : DB} (h : OnlyOrder db po)
    (horders : db'.purchaseOrders = db.purchaseOrders) : OnlyOrder db' po := by
  unfold OnlyOrder
  rw [horders]
  exact h

/-- It is the one that is found. -/
theorem OnlyOrder.find (h : OnlyOrder db po) : db.purchaseOrders.find? (fun row =>
    row.id = po.id ∧ row.tenantId = po.tenantId) = some po := by
  have hsplit : db.purchaseOrders.find? (fun row => row.id = po.id ∧ row.tenantId = po.tenantId) =
      (db.purchaseOrders.filter fun row => row.id = po.id).find? fun row =>
        row.tenantId = po.tenantId := by
    rw [List.find?_filter]
    refine congrArg (db.purchaseOrders.find? ·) (funext fun row => decide_eq_decide.mpr ?_)
    rw [decide_eq_true_iff, decide_eq_true_iff]
  rw [hsplit, h]
  exact List.find?_cons_of_pos (decide_eq_true rfl)

/-- An update of rows under its id counts it, when it is meant. -/
theorem OnlyOrder.countP (h : OnlyOrder db po) {p : PurchaseOrder → Bool}
    (hp : ∀ row, p row = true → row.id = po.id) (hpo : p po = true) :
    db.purchaseOrders.countP p = 1 := by
  have hfilter : db.purchaseOrders.filter p =
      (db.purchaseOrders.filter fun row => row.id = po.id).filter p := by
    rw [List.filter_filter]
    refine List.filter_congr fun row _ => ?_
    rw [Bool.eq_iff_iff, Bool.and_eq_true, decide_eq_true_iff]
    exact ⟨fun hrow => ⟨hrow, hp row hrow⟩, fun hrow => hrow.1⟩
  rw [List.countP_eq_length_filter, hfilter, h, List.filter_cons_of_pos hpo, List.filter_nil]
  rfl

theorem OnlyOrder.update (h : OnlyOrder db po) (p : PurchaseOrder → Bool)
    {f : PurchaseOrder → PurchaseOrder} (hf : ∀ row, (f row).id = row.id) :
    OnlyOrder (db.updatePurchaseOrders p f) (if p po then f po else po) := by
  have hid : (if p po then f po else po).id = po.id := by
    split
    · exact hf po
    · rfl
  unfold OnlyOrder DB.updatePurchaseOrders
  rw [hid, List.filter_map]
  have hkeeps : ((fun row : PurchaseOrder => decide (row.id = po.id)) ∘
      fun row => if p row then f row else row) = fun row => decide (row.id = po.id) := by
    funext row
    rw [Function.comp_apply]
    split
    · rw [hf row]
    · rfl
  rw [hkeeps, h]
  rfl

end Rows

/-- One line of a receipt written to its order. -/
def writeLine (po : PurchaseOrder) (p : PlannedPurchaseItem) : PurchaseOrder :=
  { po with items := po.items.map fun item =>
      if item.id = p.orderItem.id then { item with receivedQuantity := p.nextReceived } else item }

/-- What booking one line leaves: it is written to the order, and every item is as ready as
it was. -/
structure LineBooked (tenantId warehouseId : Id) (po : PurchaseOrder) (p : PlannedPurchaseItem)
    (db db' : DB) : Prop where
  only : OnlyOrder db' (writeLine po p)
  receipts : db'.purchaseReceipts = db.purchaseReceipts
  stocks : StockKept db'
  ready : ∀ i, Ready db' tenantId (some warehouseId) i ↔ Ready db tenantId (some warehouseId) i

section Items

variable {stamp : Stamp} {db db' : DB} {po current : PurchaseOrder} {tenantId warehouseId : Id}
  {receipt : PurchaseOrderReceipt} {p : PlannedPurchaseItem}

/-- A price variance is recorded beside everything else. -/
theorem recordPriceVariance_any {item : InventoryItem}
    (hreceipt : ∃ row ∈ receipt.items, row.purchaseOrderItemId = p.orderItem.id)
    {Q : Unit → DB → Prop} {E : Failure → Prop} (hnone : Q () db)
    (hsome : ∀ variance, Q () (db.takeId.insertPriceVariance variance)) :
    Post (recordPriceVariance item receipt p) db Q E := by
  unfold recordPriceVariance
  split
  · simp only [post_bind, post_modify]
    rw [post_expect]
    refine ⟨fun _ _ => freshId_post (hsome _), fun hfound => ?_⟩
    obtain ⟨row, hrow, hid⟩ := hreceipt
    exact absurd (decide_eq_true hid) (List.find?_eq_none.mp hfound row hrow)
  · exact hnone

/-- The line is written, the stock is booked and costed. -/
theorem lineBooked_of_received {written booked : DB} {movement : InventoryMovement}
    {input : ReceiveInput} {unitCost : ℚ} (hwritten : OnlyOrder written (writeLine current p))
    (hitems : written.items = db.items) (hrows : written.stocks = db.stocks)
    (hreceipts : written.purchaseReceipts = db.purchaseReceipts) (hstocks : StockKept written)
    (hbooked : booked = (written.addStock input.warehouseId input.inventoryItemId
      input.quantity).record movement)
    (htenant : input.tenantId = tenantId) (hwarehouse : input.warehouseId = some warehouseId)
    (hquantity : 0 ≤ input.quantity)
    (hready : Ready db tenantId (some warehouseId) input.inventoryItemId)
    (h : Received stamp input booked unitCost db') :
    LineBooked tenantId warehouseId current p db db' := by
  have houtside : db'.outside = written.outside := by
    rw [h.costed.outside, hbooked]
    exact DB.addStock_outside written _ _ _
  have hkept : StockKept booked := by
    rw [hbooked]
    exact (hstocks.addStock hquantity).of_eq rfl (Nat.le_succ _)
  have horders := congrArg DB.purchaseOrders houtside
  have hkeys := congrArg DB.purchaseReceipts houtside
  refine ⟨hwritten.congr horders, hkeys.trans hreceipts, hkept.costed h.costed, fun i => ?_⟩
  by_cases hi : input.inventoryItemId = i
  · rw [← hi]
    refine iff_of_true ?_ hready
    rw [← htenant, ← hwarehouse]
    refine h.ready ?_
    rw [hbooked]
    exact Sound.isSome_stockAt_addStock written _ _ _ movement
  · have hbook : SameItemRows i written booked := by
      have hadd := SameItemRows.addStock (w := input.warehouseId) (q := input.quantity)
        hstocks.ids hi
      rw [hbooked]
      exact ⟨hadd.items, hadd.stocks⟩
    have hsame : SameItemRows i db db' :=
      (SameItemRows.of_eq hitems hrows).trans (hbook.trans (h.sameRows hi))
    exact hsame.ready_iff

theorem LineBooked.of_eq {db'' : DB} (h : LineBooked tenantId warehouseId current p db db')
    (horders : db''.purchaseOrders = db'.purchaseOrders)
    (hreceipts : db''.purchaseReceipts = db'.purchaseReceipts) (hitems : db''.items = db'.items)
    (hrows : db''.stocks = db'.stocks) (hnext : db'.nextId ≤ db''.nextId) :
    LineBooked tenantId warehouseId current p db db'' :=
  ⟨h.only.congr horders, hreceipts.trans h.receipts, h.stocks.of_eq hrows hnext,
    fun i => (ready_of_eq hitems hrows).trans (h.ready i)⟩

/-- Booking a line: it goes through if and only if its item is ready. -/
theorem receivePurchaseItem_outcome (honly : OnlyOrder db current) (hid : po.id = current.id)
    (hstocks : StockKept db) (hlines : current.items.countP (·.id = p.orderItem.id) = 1)
    (hdelta : 0 ≤ p.delta)
    (hreceipt : ∃ row ∈ receipt.items, row.purchaseOrderItemId = p.orderItem.id) :
    Post (receivePurchaseItem stamp tenantId po warehouseId receipt p) db
      (fun _ db' => Ready db tenantId (some warehouseId) p.orderItem.inventoryItemId ∧
        LineBooked tenantId warehouseId current p db db')
      (fun _ => ¬ (Ready db tenantId (some warehouseId) p.orderItem.inventoryItemId ∧
        0 < p.delta)) := by
  unfold receivePurchaseItem setOrderItemReceived
  simp only [post_bind, post_get, post_set, post_pure]
  refine lockItem_failing (fun inventoryItem _ => ?_) fun hnone hready => ?_
  · refine require_failing (fun _ => ?_) fun hno => absurd ?_ hno
    · refine upsertStock_post (createMovement_post ?_)
      let written := db.updatePurchaseOrders (fun row => row.id = po.id) fun row =>
        { row with items := row.items.map fun item =>
            if item.id = p.orderItem.id then { item with receivedQuantity := p.nextReceived }
            else item }
      have hsameRows : SameItemRows p.orderItem.inventoryItemId db written := .of_eq rfl rfl
      have hkept : StockKept written := hstocks.of_eq rfl (le_refl _)
      have hwritten : OnlyOrder written (writeLine current p) := by
        have hupdate := honly.update (fun row => row.id = po.id) (f := fun row =>
          { row with items := row.items.map fun item =>
              if item.id = p.orderItem.id then { item with receivedQuantity := p.nextReceived }
              else item }) fun _ => rfl
        rw [if_pos (decide_eq_true hid.symm)] at hupdate
        exact hupdate
      refine (receive_outcome hkept.toStockRows (Option.some_ne_none _) _).mono
        (fun r db₁ hboth => ?_) fun _ hfailed hready => ?_
      · obtain ⟨hready, unitCost, hreceived⟩ := hboth
        have hready₀ := hsameRows.symm.ready hready
        have hline : LineBooked tenantId warehouseId current p db db₁ :=
          lineBooked_of_received hwritten rfl rfl rfl hkept rfl rfl rfl hdelta hready₀ hreceived
        refine recordPriceVariance_any hreceipt ⟨hready₀, hline⟩ fun variance => ?_
        exact ⟨hready₀, hline.of_eq rfl rfl rfl rfl (Nat.le_succ _)⟩
      · exact hfailed ⟨hsameRows.ready hready.1, hready.2⟩
    · rw [hid, honly]
      simpa using hlines
  · obtain ⟨⟨item, hitem, -⟩, -⟩ := hready
    exact hnone item hitem

/-- The line of a key is one of its kind. -/
theorem countP_key_eq_one {α κ : Type} [DecidableEq κ] {key : α → κ} {xs : List α} {x : α}
    (h : xs.Pairwise fun a b => key a ≠ key b) (hx : x ∈ xs) :
    xs.countP (fun y => key y = key x) = 1 := by
  have hcount := List.count_eq_one_of_mem (List.pairwise_map.mpr h) (List.mem_map_of_mem hx)
  rw [List.count, List.countP_map] at hcount
  rw [← hcount]
  refine List.countP_congr fun y _ => ?_
  rw [Function.comp_apply, decide_eq_true_iff, beq_iff_eq]

theorem writeLine_ids (current : PurchaseOrder) (p : PlannedPurchaseItem) :
    (writeLine current p).items.map (·.id) = current.items.map (·.id) := by
  unfold writeLine
  dsimp only
  rw [List.map_map]
  refine List.map_congr_left fun item _ => ?_
  rw [Function.comp_apply]
  split
  · rfl
  · rfl

/-- The loop over the lines goes through if and only if the items of all of them are ready. -/
theorem receiveItems_outcome {planned : List PlannedPurchaseItem} (honly : OnlyOrder db current)
    (hid : po.id = current.id) (hstocks : StockKept db)
    (hlines : (current.items.map (·.id)).Nodup)
    (hplanned : ∀ p ∈ planned, p.orderItem.id ∈ current.items.map (·.id))
    (hdelta : ∀ p ∈ planned, 0 ≤ p.delta)
    (hreceipt : ∀ p ∈ planned, ∃ row ∈ receipt.items, row.purchaseOrderItemId = p.orderItem.id) :
    Post (planned.forM (receivePurchaseItem stamp tenantId po warehouseId receipt)) db
      (fun _ db' => OnlyOrder db' (planned.foldl writeLine current) ∧
        db'.purchaseReceipts = db.purchaseReceipts ∧ StockKept db' ∧
        (∀ i, Ready db' tenantId (some warehouseId) i ↔ Ready db tenantId (some warehouseId) i) ∧
        ∀ p ∈ planned, Ready db tenantId (some warehouseId) p.orderItem.inventoryItemId)
      (fun _ => ¬ ∀ p ∈ planned,
        Ready db tenantId (some warehouseId) p.orderItem.inventoryItemId ∧ 0 < p.delta) := by
  induction planned generalizing db current with
  | nil => exact ⟨honly, rfl, hstocks, fun _ => Iff.rfl, fun p hp => absurd hp List.not_mem_nil⟩
  | cons p rest ih =>
      rw [List.forM_eq_forM, List.forM_cons, post_bind]
      have hcount : current.items.countP (·.id = p.orderItem.id) = 1 := by
        obtain ⟨l, hl, hlid⟩ := List.mem_map.mp (hplanned p List.mem_cons_self)
        rw [← hlid]
        exact countP_key_eq_one (List.pairwise_map.mp hlines) hl
      refine (receivePurchaseItem_outcome honly hid hstocks hcount (hdelta p List.mem_cons_self)
        (hreceipt p List.mem_cons_self)).mono (fun _ db₁ hboth => ?_) fun _ hfailed hall => ?_
      · obtain ⟨hready, hbooked⟩ := hboth
        refine (ih hbooked.only hid hbooked.stocks ?_ (fun q hq => ?_) (fun q hq => ?_)
          fun q hq => ?_).mono (fun _ db₂ hrest => ?_) fun _ hfailed hall => ?_
        · rw [writeLine_ids]
          exact hlines
        · rw [writeLine_ids]
          exact hplanned q (List.mem_cons_of_mem p hq)
        · exact hdelta q (List.mem_cons_of_mem p hq)
        · exact hreceipt q (List.mem_cons_of_mem p hq)
        · obtain ⟨honly₂, hreceipts₂, hstocks₂, hready₂, hall⟩ := hrest
          refine ⟨honly₂, hreceipts₂.trans hbooked.receipts, hstocks₂,
            fun i => (hready₂ i).trans (hbooked.ready i), fun q hq => ?_⟩
          rcases List.mem_cons.mp hq with rfl | hq
          · exact hready
          · exact (hbooked.ready _).mp (hall q hq)
        · refine hfailed fun q hq => ?_
          obtain ⟨hq₁, hpos⟩ := hall q (List.mem_cons_of_mem p hq)
          exact ⟨(hbooked.ready _).mpr hq₁, hpos⟩
      · exact hfailed (hall p List.mem_cons_self)

end Items

/-- The ids of the lines as texts: each its own, without space around it. -/
structure LineTexts (stamp : Stamp) (items : List PurchaseOrderItem) : Prop where
  distinct : ∀ a ∈ items, ∀ b ∈ items, stamp.cuid a.id = stamp.cuid b.id → a.id = b.id
  trimmed : ∀ l ∈ items, trim (stamp.cuid l.id) = stamp.cuid l.id
  nonempty : ∀ l ∈ items, stamp.cuid l.id ≠ ""

/-- The lines of an order as they are stored. -/
structure LinesStored (stamp : Stamp) (items : List PurchaseOrderItem) : Prop where
  ids : items.Pairwise fun a b => a.id ≠ b.id
  texts : LineTexts stamp items
  numbers : ∀ l ∈ items, LineNumbers l

/-- A line that is planned for an item of the request. -/
structure PlannedFor (stamp : Stamp) (lines : List PurchaseOrderItem) (p : PlannedPurchaseItem)
    (item : ReceiptItemDto) : Prop where
  mem : p.orderItem ∈ lines
  named : stamp.cuid p.orderItem.id = item.itemId
  takes : Takes p.orderItem item.receivedQuantity
  delta : p.delta = Binary64.round ((receivedMore p.orderItem
    item.receivedQuantity).receivedQuantity - p.orderItem.receivedQuantity)
  next : p.nextReceived = (receivedMore p.orderItem item.receivedQuantity).receivedQuantity

/-- What a request receives of a line. -/
def afterLine (stamp : Stamp) (items : List ReceiptItemDto) (l : PurchaseOrderItem) :
    PurchaseOrderItem :=
  match items.find? fun item => item.itemId = stamp.cuid l.id with
  | some item => receivedMore l item.receivedQuantity
  | none => l

/-- The order once the request is received. -/
def afterReceipt (stamp : Stamp) (po : PurchaseOrder) (items : List ReceiptItemDto) :
    PurchaseOrder :=
  { po with
    status := if ∀ l ∈ po.items, ¬ Incomplete (afterLine stamp items l) then .received
      else .partiallyReceived
    items := po.items.map (afterLine stamp items) }

section Plans

variable {stamp : Stamp} {db : DB} {po : PurchaseOrder} {items : List ReceiptItemDto}
  {planned : List PlannedPurchaseItem}

theorem LinesStored.eq_of_text (h : LinesStored stamp po.items) {a b : PurchaseOrderItem}
    (ha : a ∈ po.items) (hb : b ∈ po.items) (htext : stamp.cuid a.id = stamp.cuid b.id) : a = b :=
  eq_of_key_of_ne h.ids ha hb (h.texts.distinct a ha b hb htext)

/-- A receipt is planned if and only if its items name lines that take them. -/
theorem planPurchaseReceipt_outcome (h : LinesStored stamp po.items) :
    Post (planPurchaseReceipt stamp Binary64.round po items) db
      (fun planned db' => db' = db ∧ List.Forall₂ (PlannedFor stamp po.items) planned items)
      (fun _ => ¬ ∀ item ∈ items, ∃ l ∈ po.items, stamp.cuid l.id = item.itemId ∧
        Takes l item.receivedQuantity) := by
  induction items with
  | nil => exact ⟨rfl, .nil⟩
  | cons item rest ih =>
      unfold planPurchaseReceipt
      simp only [post_bind, post_pure]
      refine expect_failing (fun line hline => ?_) fun hnone hall => ?_
      · have hmem : line ∈ po.items := List.mem_of_find?_eq_some hline
        have htext : stamp.cuid line.id = item.itemId := by simpa using List.find?_some hline
        rw [planLine_eq]
        refine expect_failing (fun plan hplan => ?_) fun hnone hall => ?_
        · split at hplan
          · rename_i htakes
            cases hplan
            refine ih.mono (fun planned db' hrest => ?_) fun _ hfailed hall => ?_
            · exact ⟨hrest.1, .cons ⟨hmem, htext, htakes, rfl, rfl⟩ hrest.2⟩
            · exact hfailed fun other hother => hall other (List.mem_cons_of_mem item hother)
          · cases hplan
        · obtain ⟨l, hl, hnamed, htakes⟩ := hall item List.mem_cons_self
          rw [h.eq_of_text hl hmem (hnamed.trans htext.symm)] at htakes
          rw [if_pos htakes] at hnone
          cases hnone
      · obtain ⟨l, hl, hnamed, -⟩ := hall item List.mem_cons_self
        exact absurd (decide_eq_true hnamed) (List.find?_eq_none.mp hnone l hl)

/-- What a line has received once the plan is carried out. -/
def plannedReceived (planned : List PlannedPurchaseItem) (item : PurchaseOrderItem) : ℚ :=
  ((planned.find? fun p => p.orderItem.id = item.id).map (·.nextReceived)).getD
    item.receivedQuantity

theorem plannedReceived_cons (p : PlannedPurchaseItem) (rest : List PlannedPurchaseItem)
    (item : PurchaseOrderItem) : plannedReceived (p :: rest) item =
      if p.orderItem.id = item.id then p.nextReceived else plannedReceived rest item := by
  unfold plannedReceived
  rw [List.find?_cons]
  by_cases hid : p.orderItem.id = item.id
  · rw [if_pos hid, decide_eq_true hid]
    rfl
  · rw [if_neg hid, decide_eq_false hid]

theorem plannedReceived_of_not {item : PurchaseOrderItem}
    (h : ∀ p ∈ planned, p.orderItem.id ≠ item.id) :
    plannedReceived planned item = item.receivedQuantity := by
  have hfind : (planned.find? fun p => p.orderItem.id = item.id) = none :=
    List.find?_eq_none.mpr fun p hp => by simpa using h p hp
  unfold plannedReceived
  rw [hfind]
  rfl

/-- The lines written one after the other are the plan carried out. -/
theorem foldl_writeLine (hdistinct : planned.Pairwise fun p q => p.orderItem.id ≠ q.orderItem.id) :
    planned.foldl writeLine po = { po with
      items := po.items.map fun item =>
        { item with receivedQuantity := plannedReceived planned item } } := by
  induction planned generalizing po with
  | nil =>
      have hsame : (po.items.map fun item =>
          { item with receivedQuantity := plannedReceived [] item }) = po.items :=
        List.map_id _
      rw [hsame]
      rfl
  | cons p rest ih =>
      obtain ⟨hhead, hrest⟩ := List.pairwise_cons.mp hdistinct
      rw [List.foldl_cons, ih hrest]
      unfold writeLine
      simp only [List.map_map, PurchaseOrder.mk.injEq, true_and]
      refine List.map_congr_left fun item _ => ?_
      simp only [Function.comp]
      rw [plannedReceived_cons]
      by_cases hid : item.id = p.orderItem.id
      · rw [if_pos hid, if_pos hid.symm]
        have hlast : plannedReceived rest { item with receivedQuantity := p.nextReceived } =
            p.nextReceived :=
          plannedReceived_of_not fun q hq heq => hhead q hq (hid.symm.trans heq.symm)
        rw [hlast]
      · rw [if_neg hid, if_neg fun heq => hid heq.symm]

/-- What is planned for a line is what the request receives of it. -/
theorem plannedReceived_eq (h : LinesStored stamp po.items)
    (hplanned : List.Forall₂ (PlannedFor stamp po.items) planned items) {l : PurchaseOrderItem}
    (hl : l ∈ po.items) :
    { l with receivedQuantity := plannedReceived planned l } = afterLine stamp items l := by
  induction hplanned with
  | nil => rfl
  | @cons p item planned items hp hrest ih =>
      rw [plannedReceived_cons]
      unfold afterLine
      rw [List.find?_cons]
      by_cases hid : p.orderItem.id = l.id
      · have hline : p.orderItem = l := eq_of_key_of_ne h.ids hp.mem hl hid
        rw [if_pos hid, hp.next, hline, decide_eq_true (hp.named.symm.trans (by rw [hid]))]
        rfl
      · have hother : ¬ item.itemId = stamp.cuid l.id := fun htext =>
          hid (h.texts.distinct _ hp.mem l hl (hp.named.trans htext))
        rw [if_neg hid, decide_eq_false hother]
        exact ih

theorem afterReceipt_eq (h : LinesStored stamp po.items)
    (hplanned : List.Forall₂ (PlannedFor stamp po.items) planned items)
    (hdistinct : planned.Pairwise fun p q => p.orderItem.id ≠ q.orderItem.id) :
    { planned.foldl writeLine po with
      status := purchaseReceiptStatus Binary64.round po planned } =
      afterReceipt stamp po items := by
  have hlines : (po.items.map fun item =>
      { item with receivedQuantity := plannedReceived planned item }) =
      po.items.map (afterLine stamp items) :=
    List.map_congr_left fun l hl => plannedReceived_eq h hplanned hl
  have hstatus : purchaseReceiptStatus Binary64.round po planned =
      (afterReceipt stamp po items).status := by
    unfold purchaseReceiptStatus afterReceipt
    refine if_congr ?_ rfl rfl
    rw [List.all_eq_true]
    refine forall₂_congr fun l hl => ?_
    rw [← plannedReceived_eq h hplanned hl]
    exact (iff_of_eq (congrArg (· = true) (lineReceived_eq
      { l with receivedQuantity := plannedReceived planned l }))).trans decide_eq_true_iff
  rw [foldl_writeLine hdistinct, hlines, hstatus]
  rfl

end Plans

/-- A receipt of the order is booked under the key. -/
def KeyUsed (db : DB) (purchaseOrderId : Id) (key : String) : Prop :=
  ∃ row ∈ db.purchaseReceipts, row.purchaseOrderId = purchaseOrderId ∧ row.idempotencyKey = key

/-- An order that is received receipt by receipt, in its database. -/
structure Receivable (stamp : Stamp) (db : DB) (po : PurchaseOrder) : Prop where
  only : OnlyOrder db po
  stocks : StockKept db
  lines : LinesStored stamp po.items
  open_ : po.status = .approved ∨ po.status = .partiallyReceived → ∃ l ∈ po.items, Incomplete l

/-- What the database leaves of the checks for a receipt of `items` under a key. -/
structure Sendable (stamp : Stamp) (db : DB) (po : PurchaseOrder) (key : String)
    (items : List ReceiptItemDto) : Prop where
  unused : ¬ KeyUsed db po.id key
  status : po.status = .approved ∨ po.status = .partiallyReceived
  lines : ∃ warehouseId, po.warehouseId = some warehouseId ∧ ∀ item ∈ items, ∃ l ∈ po.items,
    stamp.cuid l.id = item.itemId ∧ Accepts l item.receivedQuantity ∧
      Ready db po.tenantId (some warehouseId) l.inventoryItemId

/-- What a receipt of `items` under a key leaves. -/
structure Booked (stamp : Stamp) (db : DB) (po : PurchaseOrder) (key : String)
    (items : List ReceiptItemDto) (db' : DB) : Prop where
  unused : ¬ KeyUsed db po.id key
  status : po.status = .approved ∨ po.status = .partiallyReceived
  lines : ∃ warehouseId, po.warehouseId = some warehouseId ∧ ∀ item ∈ items, ∃ l ∈ po.items,
    stamp.cuid l.id = item.itemId ∧ Takes l item.receivedQuantity ∧
      Ready db po.tenantId (some warehouseId) l.inventoryItemId
  only : OnlyOrder db' (afterReceipt stamp po items)
  stocks : StockKept db'
  keys : ∀ k, KeyUsed db' po.id k ↔ KeyUsed db po.id k ∨ k = key
  ready : ∀ warehouseId, po.warehouseId = some warehouseId → ∀ i,
    Ready db' po.tenantId (some warehouseId) i ↔ Ready db po.tenantId (some warehouseId) i

section Requests

variable {stamp : Stamp} {db db' : DB} {po : PurchaseOrder} {key : String}
  {items : List ReceiptItemDto} {planned : List PlannedPurchaseItem}

theorem keyUsed_iff_of_find {found : Option PurchaseOrderReceipt}
    (hfound : (db.purchaseReceipts.find? fun row =>
      row.purchaseOrderId = po.id ∧ row.idempotencyKey = key) = found) :
    KeyUsed db po.id key ↔ found ≠ none := by
  rw [← hfound, ← Option.isSome_iff_ne_none, List.find?_isSome]
  exact exists_congr fun row => and_congr_right fun _ => decide_eq_true_iff.symm

/-- The plan of a request is sound when every item of it names a quantity. -/
theorem delta_of_planned (h : LinesStored stamp po.items)
    (hplanned : List.Forall₂ (PlannedFor stamp po.items) planned items)
    (hitems : ∀ item ∈ items, 1 / 10 ≤ item.receivedQuantity) {p : PlannedPurchaseItem}
    (hp : p ∈ planned) : 0 ≤ p.delta := by
  obtain ⟨item, hitem, hfor⟩ := exists_of_forall₂_mem hplanned hp
  rw [hfor.delta]
  have hleast := hitems item hitem
  exact (h.numbers _ hfor.mem).delta_nonneg (by linarith)

/-- The loop over the lines done, the status is written and the event stored. -/
theorem booked_of_loop {db₂ : DB} {warehouseId : Id} {receipt : PurchaseOrderReceipt}
    {event : OutboxEvent} (h : Receivable stamp db po) (hunused : ¬ KeyUsed db po.id key)
    (hstatus : po.status = .approved ∨ po.status = .partiallyReceived)
    (hwarehouse : po.warehouseId = some warehouseId)
    (hplanned : List.Forall₂ (PlannedFor stamp po.items) planned items)
    (hdistinct : planned.Pairwise fun p q => p.orderItem.id ≠ q.orderItem.id)
    (horder : receipt.purchaseOrderId = po.id) (hkey : receipt.idempotencyKey = key)
    (honly : OnlyOrder db₂ (planned.foldl writeLine po))
    (hreceipts : db₂.purchaseReceipts = db.purchaseReceipts ++ [receipt])
    (hstocks : StockKept db₂)
    (hready : ∀ i, Ready db₂ po.tenantId (some warehouseId) i ↔
      Ready db po.tenantId (some warehouseId) i)
    (hall : ∀ p ∈ planned, Ready db po.tenantId (some warehouseId) p.orderItem.inventoryItemId) :
    Booked stamp db po key items ((db₂.updatePurchaseOrders
      (fun row => row.id = po.id ∧ row.tenantId = po.tenantId ∧ row.status = po.status)
      fun row => { row with status := purchaseReceiptStatus Binary64.round po planned }).takeId
        |>.insertOutbox event) := by
  have hwritten := honly.update
    (fun row => row.id = po.id ∧ row.tenantId = po.tenantId ∧ row.status = po.status)
    (f := fun row => { row with status := purchaseReceiptStatus Binary64.round po planned })
    fun _ => rfl
  have hmeant : decide ((planned.foldl writeLine po).id = po.id ∧
      (planned.foldl writeLine po).tenantId = po.tenantId ∧
      (planned.foldl writeLine po).status = po.status) = true := by
    rw [foldl_writeLine hdistinct]
    exact decide_eq_true ⟨rfl, rfl, rfl⟩
  rw [if_pos hmeant, afterReceipt_eq h.lines hplanned hdistinct] at hwritten
  refine ⟨hunused, hstatus, ⟨warehouseId, hwarehouse, fun item hitem => ?_⟩, hwritten.congr rfl,
    hstocks.of_eq rfl (Nat.le_succ _), fun k => ?_, fun warehouse hsame i => ?_⟩
  · obtain ⟨p, hp, hfor⟩ := exists_of_forall₂_mem hplanned.flip hitem
    exact ⟨p.orderItem, hfor.mem, hfor.named, hfor.takes, hall p hp⟩
  · show (∃ row ∈ db₂.purchaseReceipts, _) ↔ _
    rw [hreceipts, ← hkey]
    refine ⟨?_, ?_⟩
    · rintro ⟨row, hrow, hof, rfl⟩
      rcases List.mem_append.mp hrow with hrow | hrow
      · exact .inl ⟨row, hrow, hof, rfl⟩
      · rw [List.mem_singleton.mp hrow]
        exact .inr rfl
    · rintro (⟨row, hrow, hboth⟩ | rfl)
      · exact ⟨row, List.mem_append_left _ hrow, hboth⟩
      · exact ⟨receipt, List.mem_append_right _ (List.mem_singleton_self _), horder, rfl⟩
  · obtain rfl : warehouse = warehouseId := Option.some.inj (hsame.symm.trans hwarehouse)
    rw [← hready i]
    exact ready_of_eq rfl rfl

/-- The transaction on an order that can be received: the receipt that its key is for, or the
one that is booked; and it is booked if nothing of what it asks is missing. -/
theorem receivePurchaseRequest_outcome {receiptHash : ReceiptDto → String} {request : ReceiptDto}
    (h : Receivable stamp db po)
    (hitems : ∀ item ∈ request.items, 1 / 10 ≤ item.receivedQuantity)
    (hnodup : (request.items.map (·.itemId)).Nodup) :
    Post (receivePurchaseRequest stamp Binary64.round receiptHash po.tenantId po.id key request) db
      (fun _ db' => KeyUsed db po.id key ∧ db' = db ∨ Booked stamp db po key request.items db')
      (fun _ => ¬ Sendable stamp db po key request.items) := by
  unfold receivePurchaseRequest
  simp only [post_bind, post_get]
  refine expect_failing (fun found hfound => ?_) fun hnone _ => ?_
  · obtain rfl : found = po := Option.some.inj (hfound.symm.trans h.only.find)
    split
    · rename_i receipt hreceipt
      have hused : KeyUsed db found.id key :=
        (keyUsed_iff_of_find hreceipt).mpr (Option.some_ne_none receipt)
      simp only [post_bind, post_pure]
      exact require_failing (fun _ => .inl ⟨hused, rfl⟩) fun _ hsend => hsend.unused hused
    · rename_i hnew
      have hunused : ¬ KeyUsed db found.id key := fun hused =>
        (keyUsed_iff_of_find hnew).mp hused rfl
      simp only [post_bind, post_modify, post_get, post_set, post_pure]
      refine require_failing (fun hstatus => ?_) fun hno hsend => hno hsend.status
      refine expect_failing (fun warehouseId hwarehouse => ?_) fun hnone hsend => ?_
      · refine (planPurchaseReceipt_outcome h.lines).mono (fun planned db₁ hplan => ?_)
          fun _ hfailed hsend => ?_
        · obtain ⟨rfl, hplanned⟩ := hplan
          have hmatch : List.Forall₂ (fun (p : PlannedPurchaseItem) (item : ReceiptItemDto) =>
              stamp.cuid p.orderItem.id = item.itemId) planned request.items :=
            hplanned.imp fun _ _ hp => hp.named
          have hdistinct : planned.Pairwise fun p q => p.orderItem.id ≠ q.orderItem.id :=
            planned_distinct hmatch hnodup
          refine freshId_post ?_
          let receipt : PurchaseOrderReceipt :=
            { id := db₁.nextId, tenantId := found.tenantId, purchaseOrderId := found.id,
              idempotencyKey := key, requestHash := receiptHash request,
              statusAfter := purchaseReceiptStatus Binary64.round found planned,
              items := planned.map fun p =>
                { purchaseOrderItemId := p.orderItem.id,
                  inventoryItemId := p.orderItem.inventoryItemId, receivedQuantity := p.delta } }
          have honly₀ : OnlyOrder (db₁.takeId.insertPurchaseReceipt receipt) found :=
            h.only.congr rfl
          have hkept : StockKept (db₁.takeId.insertPurchaseReceipt receipt) :=
            h.stocks.of_eq rfl (Nat.le_succ _)
          have hrows (i : Id) : Ready (db₁.takeId.insertPurchaseReceipt receipt) found.tenantId
              (some warehouseId) i ↔ Ready db₁ found.tenantId (some warehouseId) i :=
            ready_of_eq rfl rfl
          refine (receiveItems_outcome honly₀ rfl hkept
            (List.pairwise_map.mpr h.lines.ids) (fun p hp => ?_)
            (fun p hp => delta_of_planned h.lines hplanned hitems hp) fun p hp => ?_).mono
            (fun _ db₂ hloop => ?_) fun _ hfailed hsend => hfailed fun p hp => ?_
          · obtain ⟨item, -, hfor⟩ := exists_of_forall₂_mem hplanned hp
            exact List.mem_map_of_mem hfor.mem
          · exact ⟨_, List.mem_map_of_mem hp, rfl⟩
          · obtain ⟨honly, hreceipts, hstocks, hready, hall⟩ := hloop
            refine require_failing (fun _ => ?_) fun hno => absurd ?_ hno
            · unfold writeOutbox
              simp only [post_bind, post_modify]
              refine freshId_post (.inr ?_)
              refine booked_of_loop h hunused hstatus hwarehouse hplanned hdistinct rfl rfl honly
                hreceipts hstocks (fun i => (hready i).trans (hrows i)) fun p hp => ?_
              exact (hrows _).mp (hall p hp)
            · refine honly.countP (fun row hrow => ?_) ?_
              · rw [foldl_writeLine hdistinct]
                exact (of_decide_eq_true hrow).1
              · rw [foldl_writeLine hdistinct]
                exact decide_eq_true ⟨rfl, rfl, rfl⟩
          · obtain ⟨item, hitem, hfor⟩ := exists_of_forall₂_mem hplanned hp
            obtain ⟨warehouse, hsame, hlines⟩ := hsend.lines
            obtain rfl : warehouse = warehouseId :=
              Option.some.inj (hsame.symm.trans hwarehouse)
            obtain ⟨l, hl, htext, haccepts, hready⟩ := hlines item hitem
            obtain rfl : l = p.orderItem :=
              h.lines.eq_of_text hl hfor.mem (htext.trans hfor.named.symm)
            rw [hfor.delta]
            exact ⟨(hrows _).mpr hready, haccepts.delta_pos⟩
        · obtain ⟨warehouse, -, hall⟩ := hsend.lines
          refine hfailed fun item hitem => ?_
          obtain ⟨l, hl, htext, haccepts, -⟩ := hall item hitem
          exact ⟨l, hl, htext, haccepts.takes⟩
      · obtain ⟨warehouse, hwarehouse, -⟩ := hsend.lines
        rw [hwarehouse] at hnone
        cases hnone
  · rw [h.only.find] at hnone
    cases hnone

end Requests

end Orders
end ERP
