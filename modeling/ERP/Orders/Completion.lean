import ERP.Orders.OrderLines
import ERP.Orders.ReceiptOutcome

/-!
# Receiving a purchase order in full

Which orders can become `RECEIVED` by receipts that `receivePurchaseOrder` accepts.  A
receipt takes at least 0.1 of a line and no more than rounds to 1e-9 above what is missing,
so a line can be left with a rest that no receipt takes.
-/

namespace ERP
namespace Orders

open Inventory Lib Lib.Tx Binary64

/-- Receipts of one order, one after the other, each of which is accepted. -/
def receiveCalls (stamp : Stamp) (rt : TransferRuntime) (tenantId purchaseOrderId : Id) :
    DB → List (String × ReceiptDto) → Except Failure DB
  | db, [] => .ok db
  | db, (idempotencyKey, dto) :: rest =>
      match receivePurchaseOrder stamp Binary64.round rt.localeLE rt.receiptHash tenantId
          purchaseOrderId idempotencyKey dto db with
      | .error e => .error e
      | .ok (_, db') => receiveCalls stamp rt tenantId purchaseOrderId db' rest

/-- The quantities of a request are those JSON can name. -/
def Doubles (dto : ReceiptDto) : Prop := ∀ item ∈ dto.items, IsDouble item.receivedQuantity

/-- Further receipts, each of them accepted, make the order `RECEIVED`. -/
def CanBeReceived (stamp : Stamp) (rt : TransferRuntime) (db : DB) (tenantId id : Id) : Prop :=
  ∃ more db' po, (∀ call ∈ more, Doubles call.2) ∧
    receiveCalls stamp rt tenantId id db more = .ok db' ∧
    findPurchaseOrder db' tenantId id = some po ∧ po.status = .received

/-- A receipt of the order may come under the key. -/
structure FreeKey (db : DB) (purchaseOrderId : Id) (key : String) : Prop where
  valid : validIdempotencyKey key = true
  unused : ¬ KeyUsed db purchaseOrderId key

/-- Receipts can complete the order: it has a warehouse, every line that is not complete
takes the least of a receipt and has an item that can be received, and two keys are free, or
one when one receipt is enough. -/
structure Completable (db : DB) (po : PurchaseOrder) : Prop where
  warehouse : po.warehouseId ≠ none
  lines : ∀ l ∈ po.items, Incomplete l →
    Takes l tenth ∧ Ready db po.tenantId po.warehouseId l.inventoryItemId
  keys : ∃ key, FreeKey db po.id key ∧ ((∀ l ∈ po.items, Incomplete l → ∃ q, Clears l q) ∨
    ∃ other, FreeKey db po.id other ∧ other ≠ key)

section Receipts

variable {stamp : Stamp} {rt : TransferRuntime} {db db' : DB} {po : PurchaseOrder}
  {key : String} {dto request : ReceiptDto} {items : List ReceiptItemDto}
  {l : PurchaseOrderItem}

/-- The key of a receipt that passes its checks is valid. -/
theorem validKey_of_normalize
    (h : normalizePurchaseReceipt rt.localeLE key dto = .ok request) :
    validIdempotencyKey key = true := by
  unfold normalizePurchaseReceipt at h
  by_cases hvalid : validIdempotencyKey key = true
  · exact hvalid
  · simp only [bind, Except.bind, throw, throwThe, MonadExceptOf.throw, if_pos hvalid] at h
    cases h

/-- Normalizing a request leaves its quantities. -/
theorem doubles_of_normalize (h : normalizePurchaseReceipt rt.localeLE key dto = .ok request)
    (hdoubles : Doubles dto) : Doubles request := by
  unfold normalizePurchaseReceipt normalizeReceipt at h
  simp only [bind, Except.bind, throw, throwThe, MonadExceptOf.throw, pure, Except.pure] at h
  split at h
  · cases h
  split at h
  · cases h
  split at h
  · cases h
  cases h
  intro item hitem
  obtain ⟨named, hnamed, rfl⟩ := List.mem_map.mp ((List.mem_insertionSort _).mp hitem)
  exact hdoubles named hnamed

theorem receivePurchaseOrder_outcome (h : Receivable stamp db po)
    (hrequest : normalizePurchaseReceipt rt.localeLE key dto = .ok request) :
    Post (receivePurchaseOrder stamp Binary64.round rt.localeLE rt.receiptHash po.tenantId po.id
        key dto) db
      (fun _ db' => KeyUsed db po.id key ∧ db' = db ∨ Booked stamp db po key request.items db')
      (fun _ => ¬ Sendable stamp db po key request.items) := by
  obtain ⟨hitems, hnodup⟩ := normalizePurchaseReceipt_ok hrequest
  unfold receivePurchaseOrder
  rw [hrequest]
  exact receivePurchaseRequest_outcome h hitems hnodup

/-- A receipt that is accepted was there, or is booked. -/
theorem receive_cases {receipt : PurchaseOrderReceipt} (h : Receivable stamp db po)
    (hok : receivePurchaseOrder stamp Binary64.round rt.localeLE rt.receiptHash po.tenantId po.id
      key dto db = .ok (receipt, db')) :
    db' = db ∨ ∃ request, normalizePurchaseReceipt rt.localeLE key dto = .ok request ∧
      Booked stamp db po key request.items db' := by
  cases hrequest : normalizePurchaseReceipt rt.localeLE key dto with
  | error e =>
      unfold receivePurchaseOrder at hok
      rw [hrequest] at hok
      cases hok
  | ok request =>
      rcases (receivePurchaseOrder_outcome h hrequest).of_ok hok with ⟨-, hsame⟩ | hbooked
      · exact .inl hsame
      · exact .inr ⟨request, rfl, hbooked⟩

/-- A receipt that the database leaves nothing against is booked. -/
theorem receive_of_sendable (h : Receivable stamp db po)
    (hrequest : normalizePurchaseReceipt rt.localeLE key dto = .ok request)
    (hsend : Sendable stamp db po key request.items) :
    ∃ receipt db', receivePurchaseOrder stamp Binary64.round rt.localeLE rt.receiptHash
      po.tenantId po.id key dto db = .ok (receipt, db') ∧
        Booked stamp db po key request.items db' := by
  have hpost := receivePurchaseOrder_outcome h hrequest
  cases hok : receivePurchaseOrder stamp Binary64.round rt.localeLE rt.receiptHash po.tenantId
      po.id key dto db with
  | error e => exact absurd hsend (hpost.of_error hok)
  | ok p =>
      rcases hpost.of_ok hok with ⟨hused, -⟩ | hbooked
      · exact absurd hused hsend.unused
      · exact ⟨p.1, p.2, rfl, hbooked⟩

/-- A line is one the request names, or is left as it is. -/
theorem afterLine_cases (stamp : Stamp) (items : List ReceiptItemDto) (l : PurchaseOrderItem) :
    (∃ item ∈ items, item.itemId = stamp.cuid l.id ∧
      afterLine stamp items l = receivedMore l item.receivedQuantity) ∨
    afterLine stamp items l = l := by
  unfold afterLine
  split
  · rename_i item hitem
    have hid : item.itemId = stamp.cuid l.id := by simpa using List.find?_some hitem
    exact .inl ⟨item, List.mem_of_find?_eq_some hitem, hid, rfl⟩
  · exact .inr rfl

@[simp] theorem afterLine_id (stamp : Stamp) (items : List ReceiptItemDto)
    (l : PurchaseOrderItem) : (afterLine stamp items l).id = l.id := by
  rcases afterLine_cases stamp items l with ⟨item, -, -, hline⟩ | hline
  · rw [hline]
    rfl
  · rw [hline]

theorem afterReceipt_status_received :
    (afterReceipt stamp po items).status = .received ↔
      ∀ l ∈ po.items, ¬ Incomplete (afterLine stamp items l) := by
  unfold afterReceipt
  dsimp only
  by_cases hall : ∀ l ∈ po.items, ¬ Incomplete (afterLine stamp items l)
  · rw [if_pos hall]
    exact iff_of_true rfl hall
  · rw [if_neg hall]
    exact iff_of_false (by decide) hall

/-- A receipt that is booked leaves an order that is received or can be received further. -/
theorem afterReceipt_status (stamp : Stamp) (po : PurchaseOrder) (items : List ReceiptItemDto) :
    (afterReceipt stamp po items).status = .received ∨
      (afterReceipt stamp po items).status = .partiallyReceived := by
  unfold afterReceipt
  dsimp only
  split
  · exact .inl rfl
  · exact .inr rfl

theorem LinesStored.afterReceipt (h : LinesStored stamp po.items)
    (hleast : ∀ item ∈ items, 1 / 10 ≤ item.receivedQuantity) :
    LinesStored stamp (afterReceipt stamp po items).items where
  ids := by
    refine List.pairwise_map.mpr (h.ids.imp fun hne => ?_)
    rw [afterLine_id, afterLine_id]
    exact hne
  texts := by
    refine ⟨fun a ha b hb => ?_, fun l hl => ?_, fun l hl => ?_⟩
    · obtain ⟨first, hfirst, rfl⟩ := List.mem_map.mp ha
      obtain ⟨second, hsecond, rfl⟩ := List.mem_map.mp hb
      rw [afterLine_id, afterLine_id]
      exact h.texts.distinct first hfirst second hsecond
    · obtain ⟨line, hline, rfl⟩ := List.mem_map.mp hl
      rw [afterLine_id]
      exact h.texts.trimmed line hline
    · obtain ⟨line, hline, rfl⟩ := List.mem_map.mp hl
      rw [afterLine_id]
      exact h.texts.nonempty line hline
  numbers := by
    intro l hl
    obtain ⟨line, hline, rfl⟩ := List.mem_map.mp hl
    rcases afterLine_cases stamp items line with ⟨item, hitem, -, hafter⟩ | hafter
    · rw [hafter]
      have hitem' := hleast item hitem
      exact (h.numbers line hline).receivedMore (by linarith)
    · rw [hafter]
      exact h.numbers line hline

/-- What a receipt leaves can be received as before. -/
theorem Booked.receivable (h : Receivable stamp db po) (hbooked : Booked stamp db po key items db')
    (hleast : ∀ item ∈ items, 1 / 10 ≤ item.receivedQuantity) :
    Receivable stamp db' (afterReceipt stamp po items) where
  only := hbooked.only
  stocks := hbooked.stocks
  lines := h.lines.afterReceipt hleast
  open_ := by
    intro hstatus
    by_contra hnone
    have hreceived : (afterReceipt stamp po items).status = .received := by
      refine afterReceipt_status_received.mpr fun l hl hopen => hnone ?_
      exact ⟨_, List.mem_map_of_mem hl, hopen⟩
    rw [hreceived] at hstatus
    revert hstatus
    decide

/-- What the receipt says of a line it names. -/
theorem Booked.line (h : Receivable stamp db po) (hbooked : Booked stamp db po key items db')
    (hl : l ∈ po.items) {item : ReceiptItemDto} (hitem : item ∈ items)
    (hid : item.itemId = stamp.cuid l.id) :
    Takes l item.receivedQuantity ∧ Ready db po.tenantId po.warehouseId l.inventoryItemId := by
  obtain ⟨warehouseId, hwarehouse, hlines⟩ := hbooked.lines
  obtain ⟨line, hline, htext, htakes, hready⟩ := hlines item hitem
  obtain rfl : line = l := h.lines.eq_of_text hline hl (htext.trans hid)
  rw [hwarehouse]
  exact ⟨htakes, hready⟩

theorem Booked.hasWarehouse (hbooked : Booked stamp db po key items db') :
    po.warehouseId ≠ none := by
  obtain ⟨warehouseId, hwarehouse, -⟩ := hbooked.lines
  rw [hwarehouse]
  exact Option.some_ne_none warehouseId

theorem Booked.ready_iff (hbooked : Booked stamp db po key items db') (i : Id) :
    Ready db' po.tenantId po.warehouseId i ↔ Ready db po.tenantId po.warehouseId i := by
  obtain ⟨warehouseId, hwarehouse, -⟩ := hbooked.lines
  rw [hwarehouse]
  exact hbooked.ready warehouseId hwarehouse i

end Receipts

section Needed

variable {stamp : Stamp} {rt : TransferRuntime} {db db' : DB} {po po' : PurchaseOrder}
  {key : String} {items : List ReceiptItemDto} {l : PurchaseOrderItem}

/-- An order that one receipt completes. -/
theorem completable_of_last (h : Receivable stamp db po)
    (hbooked : Booked stamp db po key items db') (hvalid : validIdempotencyKey key = true)
    (hdoubles : ∀ item ∈ items, IsDouble item.receivedQuantity)
    (hleast : ∀ item ∈ items, 1 / 10 ≤ item.receivedQuantity)
    (hreceived : (afterReceipt stamp po items).status = .received) : Completable db po := by
  have hall := afterReceipt_status_received.mp hreceived
  -- a line that is not complete before the receipt is one the receipt names
  have hnamed (l : PurchaseOrderItem) (hl : l ∈ po.items) (hopen : Incomplete l) :
      ∃ item ∈ items, item.itemId = stamp.cuid l.id ∧
        afterLine stamp items l = receivedMore l item.receivedQuantity :=
    (afterLine_cases stamp items l).resolve_right fun hsame => hall l hl (by rwa [hsame])
  refine ⟨hbooked.hasWarehouse, fun l hl hopen => ?_, key, ⟨hvalid, hbooked.unused⟩,
    .inl fun l hl hopen => ?_⟩
  · obtain ⟨item, hitem, hid, -⟩ := hnamed l hl hopen
    obtain ⟨htakes, hready⟩ := hbooked.line h hl hitem hid
    exact ⟨htakes.tenth (hdoubles item hitem) (hleast item hitem), hready⟩
  · obtain ⟨item, hitem, hid, hafter⟩ := hnamed l hl hopen
    have hcomplete := hall l hl
    rw [hafter] at hcomplete
    exact ⟨item.receivedQuantity, hdoubles item hitem, hleast item hitem,
      (hbooked.line h hl hitem hid).1, (not_lt.mp hcomplete).trans (min_le_left _ _)⟩

/-- An order that a receipt leaves completable takes two. -/
theorem completable_of_more (h : Receivable stamp db po)
    (hbooked : Booked stamp db po key items db') (hvalid : validIdempotencyKey key = true)
    (hdoubles : ∀ item ∈ items, IsDouble item.receivedQuantity)
    (hleast : ∀ item ∈ items, 1 / 10 ≤ item.receivedQuantity)
    (hmore : Completable db' (afterReceipt stamp po items)) : Completable db po := by
  obtain ⟨other, hother, -⟩ := hmore.keys
  have hunused : ¬ (KeyUsed db po.id other ∨ other = key) := fun hused =>
    hother.unused ((hbooked.keys other).mpr hused)
  rw [not_or] at hunused
  refine ⟨hbooked.hasWarehouse, fun l hl hopen => ?_, key, ⟨hvalid, hbooked.unused⟩,
    .inr ⟨other, ⟨hother.valid, hunused.1⟩, hunused.2⟩⟩
  rcases afterLine_cases stamp items l with ⟨item, hitem, hid, -⟩ | hsame
  · obtain ⟨htakes, hready⟩ := hbooked.line h hl hitem hid
    exact ⟨htakes.tenth (hdoubles item hitem) (hleast item hitem), hready⟩
  · have hkept : l ∈ (afterReceipt stamp po items).items :=
      List.mem_map.mpr ⟨l, hl, hsame⟩
    obtain ⟨htakes, hready⟩ := hmore.lines l hkept hopen
    exact ⟨htakes, (hbooked.ready_iff _).mp hready⟩

/-- An order that receipts complete is completable: by the receipts from the last one back. -/
theorem completable_of_received {more : List (String × ReceiptDto)} (h : Receivable stamp db po)
    (hopen : po.status ≠ .received) (hdoubles : ∀ call ∈ more, Doubles call.2)
    (hrun : receiveCalls stamp rt po.tenantId po.id db more = .ok db')
    (hfound : findPurchaseOrder db' po.tenantId po.id = some po')
    (hreceived : po'.status = .received) : Completable db po := by
  induction more generalizing db po with
  | nil =>
      cases hrun
      obtain rfl : po = po' := Option.some.inj (h.only.find.symm.trans hfound)
      exact absurd hreceived hopen
  | cons call rest ih =>
      obtain ⟨key, dto⟩ := call
      unfold receiveCalls at hrun
      split at hrun
      · cases hrun
      rename_i receipt next hok
      have hrest : ∀ call ∈ rest, Doubles call.2 := fun call hcall =>
        hdoubles call (List.mem_cons_of_mem _ hcall)
      rcases receive_cases h hok with rfl | ⟨request, hrequest, hbooked⟩
      · exact ih h hopen hrest hrun hfound
      have hvalid := validKey_of_normalize hrequest
      have hleast := (normalizePurchaseReceipt_ok hrequest).1
      have hitems := doubles_of_normalize hrequest (hdoubles (key, dto) List.mem_cons_self)
      by_cases hlast : (afterReceipt stamp po request.items).status = .received
      · exact completable_of_last h hbooked hvalid hitems hleast hlast
      · refine completable_of_more h hbooked hvalid hitems hleast ?_
        exact ih (hbooked.receivable h hleast) hlast hrest hrun hfound

/-- Receipts that are accepted leave the order one that can be received. -/
theorem receiveCalls_receivable {calls : List (String × ReceiptDto)} (h : Receivable stamp db po)
    (hrun : receiveCalls stamp rt po.tenantId po.id db calls = .ok db') :
    ∃ po', Receivable stamp db' po' ∧ po'.id = po.id ∧ po'.tenantId = po.tenantId := by
  induction calls generalizing db po with
  | nil =>
      cases hrun
      exact ⟨po, h, rfl, rfl⟩
  | cons call rest ih =>
      obtain ⟨key, dto⟩ := call
      unfold receiveCalls at hrun
      split at hrun
      · cases hrun
      rename_i receipt next hok
      rcases receive_cases h hok with rfl | ⟨request, hrequest, hbooked⟩
      · exact ih h hrun
      · have hnext := hbooked.receivable h (normalizePurchaseReceipt_ok hrequest).1
        obtain ⟨po', hpo', hid, htenant⟩ := ih hnext hrun
        exact ⟨po', hpo', hid, htenant⟩

end Needed

section Enough

variable {stamp : Stamp} {rt : TransferRuntime} {db db' : DB} {po : PurchaseOrder}
  {key : String} {items : List ReceiptItemDto} {l : PurchaseOrderItem}
  {quantity : PurchaseOrderItem → ℚ}

/-- The lines that do not count as received in full. -/
def openLines (po : PurchaseOrder) : List PurchaseOrderItem := po.items.filter fun l => Incomplete l

/-- A receipt of all open lines. -/
def receiptOf (stamp : Stamp) (po : PurchaseOrder) (quantity : PurchaseOrderItem → ℚ) :
    ReceiptDto where
  items := (openLines po).map fun l => ⟨stamp.cuid l.id, quantity l⟩
  note := none

theorem mem_openLines : l ∈ openLines po ↔ l ∈ po.items ∧ Incomplete l := by
  unfold openLines
  rw [List.mem_filter, decide_eq_true_iff]

theorem mem_receiptOf {item : ReceiptItemDto} (h : item ∈ (receiptOf stamp po quantity).items) :
    ∃ l ∈ po.items, Incomplete l ∧ item = ⟨stamp.cuid l.id, quantity l⟩ := by
  obtain ⟨l, hl, rfl⟩ := List.mem_map.mp h
  obtain ⟨hmem, hopen⟩ := mem_openLines.mp hl
  exact ⟨l, hmem, hopen, rfl⟩

/-- The checks of the items pass when each is. -/
theorem checkReceiptItems_of {rules : ReceiptRules} {seen : List String}
    (hid : ∀ item ∈ items, item.itemId ≠ "")
    (hsmall : ∀ item ∈ items, rules.tooSmall item.receivedQuantity = false)
    (hnodup : (items.map (·.itemId)).Nodup) (hseen : ∀ item ∈ items, item.itemId ∉ seen) :
    checkReceiptItems rules items seen = .ok () := by
  induction items generalizing seen with
  | nil => rfl
  | cons item rest ih =>
      rw [List.map_cons, List.nodup_cons] at hnodup
      unfold checkReceiptItems
      rw [if_neg (hid item List.mem_cons_self), hsmall item List.mem_cons_self,
        if_neg Bool.false_ne_true, if_neg (hseen item List.mem_cons_self)]
      refine ih (fun other hother => hid other (List.mem_cons_of_mem item hother))
        (fun other hother => hsmall other (List.mem_cons_of_mem item hother)) hnodup.2
        fun other hother => ?_
      rw [List.mem_cons, not_or]
      refine ⟨fun heq => hnodup.1 ?_, hseen other (List.mem_cons_of_mem item hother)⟩
      rw [← heq]
      exact List.mem_map_of_mem hother

/-- A receipt of all open lines passes the checks before the transaction. -/
theorem normalize_receiptOf (rt : TransferRuntime) (h : LinesStored stamp po.items)
    (hkey : validIdempotencyKey key = true) (hopen : openLines po ≠ [])
    (hleast : ∀ l ∈ po.items, Incomplete l → 1 / 10 ≤ quantity l) :
    ∃ request, normalizePurchaseReceipt rt.localeLE key (receiptOf stamp po quantity) =
      .ok request ∧ request.items.Perm (receiptOf stamp po quantity).items := by
  have htrim : (receiptOf stamp po quantity).items.map
      (fun item => { item with itemId := trim item.itemId }) =
        (receiptOf stamp po quantity).items := by
    refine (List.map_congr_left fun item hitem => ?_).trans (List.map_id _)
    obtain ⟨l, hl, -, rfl⟩ := mem_receiptOf hitem
    rw [id, h.texts.trimmed l hl]
  have hnodup : ((receiptOf stamp po quantity).items.map (·.itemId)).Nodup := by
    unfold receiptOf
    rw [List.map_map]
    refine List.pairwise_map.mpr ?_
    refine (h.ids.sublist List.filter_sublist).imp_of_mem fun ha hb hne heq => hne ?_
    exact h.texts.distinct _ (List.mem_filter.mp ha).1 _ (List.mem_filter.mp hb).1 heq
  have hcheck : checkReceiptItems purchaseReceiptRules (receiptOf stamp po quantity).items
      [] = .ok () := by
    refine checkReceiptItems_of (fun item hitem => ?_) (fun item hitem => ?_) hnodup
      fun item _ => List.not_mem_nil
    · obtain ⟨l, hl, -, rfl⟩ := mem_receiptOf hitem
      exact h.texts.nonempty l hl
    · obtain ⟨l, hl, hlopen, rfl⟩ := mem_receiptOf hitem
      exact decide_eq_false (not_lt.mpr (hleast l hl hlopen))
  have hlength : ¬ (receiptOf stamp po quantity).items.length = 0 := by
    rw [List.length_eq_zero_iff]
    exact fun hnil => hopen (List.map_eq_nil_iff.mp hnil)
  refine ⟨⟨(receiptOf stamp po quantity).items.insertionSort fun a b =>
    rt.localeLE a.itemId b.itemId = true,
    normalizeNote none⟩, ?_, List.perm_insertionSort _ _⟩
  unfold normalizePurchaseReceipt normalizeReceipt
  dsimp only
  rw [htrim, hcheck, if_neg (not_not.mpr hkey), if_neg hlength]
  rfl

/-- What the receipt leaves of each line. -/
theorem afterLine_receiptOf (h : LinesStored stamp po.items)
    (hperm : items.Perm (receiptOf stamp po quantity).items) (hl : l ∈ po.items) :
    afterLine stamp items l = if Incomplete l then receivedMore l (quantity l) else l := by
  -- an item for the line is the one made of it
  have hitem (item : ReceiptItemDto) (hmem : item ∈ items)
      (hid : item.itemId = stamp.cuid l.id) :
      Incomplete l ∧ item.receivedQuantity = quantity l := by
    obtain ⟨line, hline, hopen, rfl⟩ := mem_receiptOf (hperm.mem_iff.mp hmem)
    obtain rfl : line = l := h.eq_of_text hline hl hid
    exact ⟨hopen, rfl⟩
  by_cases hopen : Incomplete l
  · rw [if_pos hopen]
    have hmade : (⟨stamp.cuid l.id, quantity l⟩ : ReceiptItemDto) ∈ items :=
      hperm.mem_iff.mpr (List.mem_map_of_mem (mem_openLines.mpr ⟨hl, hopen⟩))
    unfold afterLine
    split
    · rename_i item hfound
      have hid : item.itemId = stamp.cuid l.id := by simpa using List.find?_some hfound
      rw [(hitem item (List.mem_of_find?_eq_some hfound) hid).2]
    · rename_i hnone
      exact absurd (decide_eq_true rfl) (List.find?_eq_none.mp hnone _ hmade)
  · rw [if_neg hopen]
    rcases afterLine_cases stamp items l with ⟨item, hmem, hid, -⟩ | hsame
    · exact absurd (hitem item hmem hid).1 hopen
    · exact hsame

theorem openLines_ne_nil (h : Receivable stamp db po)
    (hstatus : po.status = .approved ∨ po.status = .partiallyReceived) : openLines po ≠ [] := by
  obtain ⟨l, hl, hopen⟩ := h.open_ hstatus
  exact List.ne_nil_of_mem (mem_openLines.mpr ⟨hl, hopen⟩)

/-- A receipt of all open lines in quantities they accept is booked. -/
theorem receive_receiptOf (rt : TransferRuntime) (h : Receivable stamp db po)
    (hstatus : po.status = .approved ∨ po.status = .partiallyReceived)
    (hfree : FreeKey db po.id key) (hwarehouse : po.warehouseId ≠ none)
    (hready : ∀ l ∈ po.items, Incomplete l →
      Ready db po.tenantId po.warehouseId l.inventoryItemId)
    (haccepts : ∀ l ∈ po.items, Incomplete l → Accepts l (quantity l)) :
    ∃ items receipt db', receivePurchaseOrder stamp Binary64.round rt.localeLE rt.receiptHash
        po.tenantId po.id key (receiptOf stamp po quantity) db = .ok (receipt, db') ∧
      Receivable stamp db' (afterReceipt stamp po items) ∧
      Booked stamp db po key items db' ∧
      ∀ l ∈ po.items, afterLine stamp items l =
        if Incomplete l then receivedMore l (quantity l) else l := by
  obtain ⟨request, hrequest, hperm⟩ := normalize_receiptOf rt h.lines hfree.valid
    (openLines_ne_nil h hstatus) fun l hl hopen => (haccepts l hl hopen).least
  obtain ⟨warehouseId, hsome⟩ := Option.ne_none_iff_exists'.mp hwarehouse
  have hsend : Sendable stamp db po key request.items := by
    refine ⟨hfree.unused, hstatus, warehouseId, hsome, fun item hitem => ?_⟩
    obtain ⟨l, hl, hopen, rfl⟩ := mem_receiptOf (hperm.mem_iff.mp hitem)
    rw [← hsome]
    exact ⟨l, hl, rfl, haccepts l hl hopen, hready l hl hopen⟩
  obtain ⟨receipt, db', hok, hbooked⟩ := receive_of_sendable h hrequest hsend
  exact ⟨request.items, receipt, db', hok,
    hbooked.receivable h (normalizePurchaseReceipt_ok hrequest).1, hbooked,
    fun l hl => afterLine_receiptOf h.lines hperm hl⟩

theorem doubles_receiptOf (haccepts : ∀ l ∈ po.items, Incomplete l → Accepts l (quantity l)) :
    Doubles (receiptOf stamp po quantity) := by
  intro item hitem
  obtain ⟨l, hl, hopen, rfl⟩ := mem_receiptOf hitem
  exact (haccepts l hl hopen).double

theorem receiveCalls_cons {receipt : PurchaseOrderReceipt} {dto : ReceiptDto} {tenantId id : Id}
    (hok : receivePurchaseOrder stamp Binary64.round rt.localeLE rt.receiptHash tenantId id key
      dto db = .ok (receipt, db')) (rest : List (String × ReceiptDto)) :
    receiveCalls stamp rt tenantId id db ((key, dto) :: rest) =
      receiveCalls stamp rt tenantId id db' rest := by
  rw [receiveCalls, hok]

/-- One receipt completes an order each of whose open lines one can complete. -/
theorem canBeReceived_of_clears (rt : TransferRuntime) (h : Receivable stamp db po)
    (hstatus : po.status = .approved ∨ po.status = .partiallyReceived)
    (hfree : FreeKey db po.id key) (hwarehouse : po.warehouseId ≠ none)
    (hready : ∀ l ∈ po.items, Incomplete l →
      Ready db po.tenantId po.warehouseId l.inventoryItemId)
    (hclears : ∀ l ∈ po.items, Incomplete l → ∃ q, Clears l q) :
    CanBeReceived stamp rt db po.tenantId po.id := by
  have hchoice (l : PurchaseOrderItem) : ∃ q, l ∈ po.items → Incomplete l → Clears l q := by
    by_cases hl : l ∈ po.items ∧ Incomplete l
    · obtain ⟨q, hq⟩ := hclears l hl.1 hl.2
      exact ⟨q, fun _ _ => hq⟩
    · exact ⟨0, fun hmem hopen => absurd ⟨hmem, hopen⟩ hl⟩
  choose quantity hquantity using hchoice
  have haccepts : ∀ l ∈ po.items, Incomplete l → Accepts l (quantity l) := fun l hl hopen =>
    (hquantity l hl hopen).accepts (h.lines.numbers l hl) hopen
  obtain ⟨items, receipt, db', hok, hnext, -, hlines⟩ :=
    receive_receiptOf rt h hstatus hfree hwarehouse hready haccepts
  refine ⟨[(key, receiptOf stamp po quantity)], db', _, fun call hcall => ?_,
    receiveCalls_cons hok [], hnext.only.find, ?_⟩
  · rw [List.mem_singleton.mp hcall]
    exact doubles_receiptOf haccepts
  · refine afterReceipt_status_received.mpr fun l hl => ?_
    rw [hlines l hl]
    split
    · rename_i hopen
      exact (hquantity l hl hopen).complete (h.lines.numbers l hl)
    · assumption

/-- What an order needs is enough: one receipt completes it, or leaves it for another. -/
theorem Completable.canBeReceived (rt : TransferRuntime) (h : Receivable stamp db po)
    (hstatus : po.status = .approved ∨ po.status = .partiallyReceived)
    (hcompletable : Completable db po) : CanBeReceived stamp rt db po.tenantId po.id := by
  obtain ⟨key, hfree, hclears | ⟨other, hother, hne⟩⟩ := hcompletable.keys
  · exact canBeReceived_of_clears rt h hstatus hfree hcompletable.warehouse
      (fun l hl hopen => (hcompletable.lines l hl hopen).2) hclears
  have hchoice (l : PurchaseOrderItem) : ∃ q, l ∈ po.items → Incomplete l → Accepts l q ∧
      (Incomplete (receivedMore l q) → ∃ q', Clears (receivedMore l q) q') := by
    by_cases hl : l ∈ po.items ∧ Incomplete l
    · obtain ⟨q, hq⟩ := exists_accepts (h.lines.numbers l hl.1) hl.2
        (hcompletable.lines l hl.1 hl.2).1
      exact ⟨q, fun _ _ => hq⟩
    · exact ⟨0, fun hmem hopen => absurd ⟨hmem, hopen⟩ hl⟩
  choose quantity hquantity using hchoice
  have haccepts : ∀ l ∈ po.items, Incomplete l → Accepts l (quantity l) := fun l hl hopen =>
    (hquantity l hl hopen).1
  obtain ⟨items, receipt, db', hok, hnext, hbooked, hlines⟩ := receive_receiptOf rt h hstatus
    hfree hcompletable.warehouse (fun l hl hopen => (hcompletable.lines l hl hopen).2) haccepts
  have hfirst : ∀ call ∈ [(key, receiptOf stamp po quantity)], Doubles call.2 := by
    intro call hcall
    rw [List.mem_singleton.mp hcall]
    exact doubles_receiptOf haccepts
  rcases afterReceipt_status stamp po items with hreceived | hpartial
  · exact ⟨_, db', _, hfirst, receiveCalls_cons hok [], hnext.only.find, hreceived⟩
  -- a line that is still open was named, and one more receipt completes it
  have hstill (line : PurchaseOrderItem) (hline : line ∈ (afterReceipt stamp po items).items)
      (hopen : Incomplete line) : ∃ l ∈ po.items, Incomplete l ∧
        line = receivedMore l (quantity l) := by
    obtain ⟨l, hl, rfl⟩ := List.mem_map.mp hline
    rw [hlines l hl] at hopen ⊢
    by_cases hbefore : Incomplete l
    · rw [if_pos hbefore]
      exact ⟨l, hl, hbefore, rfl⟩
    · rw [if_neg hbefore] at hopen
      exact absurd hopen hbefore
  have hunused : ¬ KeyUsed db' po.id other := fun hused =>
    ((hbooked.keys other).mp hused).elim hother.unused hne
  obtain ⟨more, final, received, hdoubles, hrun, hfound, hreceived⟩ :=
    canBeReceived_of_clears rt hnext (.inr hpartial) ⟨hother.valid, hunused⟩
      hcompletable.warehouse
      (fun line hline hopen => by
        obtain ⟨l, hl, hbefore, rfl⟩ := hstill line hline hopen
        exact (hbooked.ready_iff _).mpr (hcompletable.lines l hl hbefore).2)
      fun line hline hopen => by
        obtain ⟨l, hl, hbefore, rfl⟩ := hstill line hline hopen
        exact (hquantity l hl hbefore).2 hopen
  refine ⟨(key, receiptOf stamp po quantity) :: more, final, received, fun call hcall => ?_,
    (receiveCalls_cons hok more).trans hrun, hfound, hreceived⟩
  rcases List.mem_cons.mp hcall with rfl | hcall
  · exact doubles_receiptOf haccepts
  · exact hdoubles call hcall

end Enough

/-- The database in which the order that `create` makes of a request is submitted and
approved. -/
def approvedOrder (book : OrderBook) (tenantId : Id) (month : Nat) (newId : Id)
    (dto : CreatePurchaseOrderDto) : Option DB :=
  match book.create tenantId month newId dto with
  | .error _ => none
  | .ok created =>
      let submitted := commit (updateStatus tenantId newId .pending) created.db
      some (commit (updateStatus tenantId newId .approved) submitted)

section Start

variable {book book' : OrderBook} {stamp : Stamp} {rt : TransferRuntime} {tenantId newId : Id}
  {month : Nat} {dto : CreatePurchaseOrderDto} {db₀ db : DB} {po₀ po : PurchaseOrder}

/-- New lines get ids of their own, and nothing is received on them. -/
theorem lineRows_new {next : Id} {items : List PurchaseOrderItemProps} {lines : List OrderLine}
    (h : lineRows next items = .ok lines) :
    (∀ line ∈ lines, next ≤ line.id ∧ line.receivedQuantity = 0) ∧
      lines.Pairwise fun a b => a.id ≠ b.id := by
  induction items generalizing next lines with
  | nil =>
      cases h
      exact ⟨fun line hline => absurd hline List.not_mem_nil, .nil⟩
  | cons item rest ih =>
      unfold lineRows at h
      cases hprice : storeInt item.unitPrice with
      | error e =>
          rw [hprice] at h
          cases h
      | ok unitPrice =>
          cases hsubtotal : storeInt item.subtotal with
          | error e =>
              rw [hprice, hsubtotal] at h
              cases h
          | ok subtotal =>
              cases hrest : lineRows (next + 1) rest with
              | error e =>
                  rw [hprice, hsubtotal, hrest] at h
                  cases h
              | ok more =>
                  rw [hprice, hsubtotal, hrest] at h
                  cases h
                  obtain ⟨hnew, hdistinct⟩ := ih hrest
                  refine ⟨fun line hline => ?_, List.pairwise_cons.mpr ⟨fun line hline => ?_,
                    hdistinct⟩⟩
                  · rcases List.mem_cons.mp hline with rfl | hline
                    · exact ⟨le_refl next, rfl⟩
                    · obtain ⟨hle, hreceived⟩ := hnew line hline
                      exact ⟨Nat.le_of_lt hle, hreceived⟩
                  · exact Nat.ne_of_lt (hnew line hline).1

/-- The quantity of a line is one of the request. -/
theorem lineRows_quantity {next : Id} {items : List CreatePurchaseOrderItemDto}
    {lines : List OrderLine}
    (h : lineRows next (items.map CreatePurchaseOrderItemDto.props) = .ok lines) :
    ∀ line ∈ lines, ∃ item ∈ items, line.quantity = item.quantity := by
  intro line hline
  have hprops : line.props ∈ (items.map CreatePurchaseOrderItemDto.props).map
      PurchaseOrderItemProps.stored := by
    rw [← (lineRows_ok h).1]
    exact List.mem_map_of_mem hline
  obtain ⟨props, hmem, hstored⟩ := List.mem_map.mp hprops
  obtain ⟨item, hitem, rfl⟩ := List.mem_map.mp hmem
  exact ⟨item, hitem, (congrArg PurchaseOrderItemProps.quantity hstored).symm⟩

/-- What `create` appends: a well-formed order under the new id, with new lines. -/
structure Created (book : OrderBook) (newId : Id) (dto : CreatePurchaseOrderDto)
    (row : OrderRow) : Prop where
  id : row.id = newId
  free : newId ∉ book.orders.toList.map OrderRow.id
  wellFormed : WellFormed book.catalogue row
  ordered : ∀ line ∈ row.lines, ∃ item ∈ dto.items, line.quantity = item.quantity
  received : ∀ line ∈ row.lines, line.receivedQuantity = 0
  lineIds : row.lines.Pairwise fun a b => a.id ≠ b.id

theorem create_created (h : book.create tenantId month newId dto = .ok book') :
    ∃ row, Created book newId dto row ∧ book'.catalogue = book.catalogue ∧
      book'.orders.toList = book.orders.toList ++ [row] := by
  obtain ⟨hcatalogue, row, hwell, horders⟩ := create_ok h
  unfold OrderBook.create at h
  split at h
  · cases h
  split at h
  · cases h
  split at h
  · cases h
  split at h
  · cases h
  · cases h
  dsimp only at h
  split at h
  · cases h
  rename_i hfree
  split at h
  · cases h
  · cases h
  rename_i totalAmount lines htotal hlines
  cases h
  have hnew : newId ∉ book.orders.toList.map OrderRow.id := by
    intro hmem
    obtain ⟨other, hother, hid⟩ := List.mem_map.mp hmem
    exact hfree ⟨other, hother, .inl hid⟩
  have hlist := congrArg Rows.toList horders
  unfold Rows.insert at hlist
  rw [dif_neg hnew] at hlist
  by_cases hrow : row.id ∈ book.orders.toList.map OrderRow.id
  · rw [dif_pos hrow] at hlist
    simp at hlist
  rw [dif_neg hrow] at hlist
  have hsame := List.singleton_injective (List.append_cancel_left hlist)
  obtain ⟨hzero, hdistinct⟩ := lineRows_new hlines
  refine ⟨row, ⟨?_, hnew, hwell, ?_, ?_, ?_⟩, rfl, ?_⟩
  · rw [← hsame]
  · rw [← hsame]
    exact lineRows_quantity hlines
  · rw [← hsame]
    exact fun line hline => (hzero line hline).2
  · rw [← hsame]
    exact hdistinct
  · unfold Rows.insert
    rw [dif_neg hnew]
    exact hlist

/-- A change of status touches the statuses of orders only. -/
theorem updateStatus_only (honly : OnlyOrder db po) (hstocks : StockKept db) (tenantId id : Id)
    (status : PurchaseOrderStatus) : ∃ s,
      OnlyOrder (commit (updateStatus tenantId id status) db) { po with status := s } ∧
        StockKept (commit (updateStatus tenantId id status) db) := by
  have hsame : ∃ s, OnlyOrder db { po with status := s } ∧ StockKept db :=
    ⟨po.status, honly, hstocks⟩
  refine commit_of_post (P := fun db' => ∃ s, OnlyOrder db' { po with status := s } ∧
    StockKept db') (E := fun _ => True) ?_ hsame
  unfold updateStatus
  rw [post_bind, post_get, post_bind, post_expect]
  refine ⟨fun found _ => ?_, fun _ => trivial⟩
  rw [post_ite]
  refine ⟨fun _ => hsame, fun _ => ?_⟩
  simp only [post_bind, post_require, post_set]
  refine ⟨fun _ => ⟨fun _ => ⟨fun _ => ?_, fun _ => trivial⟩, fun _ => trivial⟩,
    fun _ => trivial⟩
  have hwritten := honly.update
    (fun row => row.id = id ∧ row.tenantId = tenantId ∧ row.status = found.status)
    (f := fun row => { row with status }) fun _ => rfl
  have hkept : StockKept (db.updatePurchaseOrders
      (fun row => row.id = id ∧ row.tenantId = tenantId ∧ row.status = found.status)
      fun row => { row with status }) :=
    hstocks.of_eq rfl (le_refl _)
  split at hwritten
  · exact ⟨status, hwritten, hkept⟩
  · exact ⟨po.status, hwritten, hkept⟩

/-- A new line counts as received only when something is. -/
theorem incomplete_new {l : PurchaseOrderItem} (h : LineNumbers l)
    (hnothing : l.receivedQuantity = 0) : Incomplete l := by
  have hint : ((l.quantity.num : ℤ) : ℚ) = l.quantity :=
    (Rat.den_eq_one_iff l.quantity).mp h.whole
  have hnum : 1 ≤ l.quantity.num := Rat.num_pos.mpr h.pos
  have hone : (1 : ℚ) ≤ l.quantity := by
    rw [← hint]
    exact_mod_cast hnum
  have htolerance : Binary64.round tolerance < 1 := by decide +kernel
  unfold Incomplete
  rw [hnothing]
  exact round_pos (by linarith)

/-- The order that was created, once it is approved. -/
theorem receivable_of_approvedOrder
    (h : approvedOrder book tenantId month newId dto = some db₀)
    (hstocks : StockKept book.catalogue) (hdoubles : ∀ item ∈ dto.items, IsDouble item.quantity)
    (hfound : findPurchaseOrder db₀ tenantId newId = some po₀)
    (htexts : LineTexts stamp po₀.items) : Receivable stamp db₀ po₀ := by
  unfold approvedOrder at h
  split at h
  · cases h
  rename_i created hcreate
  cases h
  obtain ⟨row, hcreated, hcatalogue, horders⟩ := create_created hcreate
  -- the only row under the new id is the one that was created
  have honly : OnlyOrder created.db row.toOrder := by
    unfold OnlyOrder OrderBook.db
    dsimp only
    rw [horders, List.map_append, List.filter_append, List.filter_eq_nil_iff.mpr]
    · rw [List.map_singleton, List.filter_singleton, decide_eq_true rfl]
      rfl
    · intro other hother
      obtain ⟨stored, hstored, rfl⟩ := List.mem_map.mp hother
      rw [decide_eq_true_iff]
      exact fun hid => hcreated.free (List.mem_map.mpr ⟨stored, hstored, hid.trans hcreated.id⟩)
  have hkept : StockKept created.db := by
    unfold OrderBook.db
    rw [hcatalogue]
    exact hstocks.of_eq rfl (le_refl _)
  obtain ⟨s₁, honly₁, hkept₁⟩ := updateStatus_only honly hkept tenantId newId .pending
  obtain ⟨s₂, honly₂, hkept₂⟩ := updateStatus_only honly₁ hkept₁ tenantId newId .approved
  have hpo : po₀ = { row.toOrder with status := s₂ } := by
    have hmem : po₀ ∈ (commit (updateStatus tenantId newId .approved)
        (commit (updateStatus tenantId newId .pending) created.db)).purchaseOrders.filter
          fun other => other.id = row.toOrder.id := by
      have hid : po₀.id = newId ∧ po₀.tenantId = tenantId := by simpa using List.find?_some hfound
      exact List.mem_filter.mpr ⟨List.mem_of_find?_eq_some hfound,
        decide_eq_true (hid.1.trans hcreated.id.symm)⟩
    rw [honly₂] at hmem
    exact List.mem_singleton.mp hmem
  have hlines : ∀ l ∈ po₀.items, LineNumbers l ∧ l.receivedQuantity = 0 := by
    rw [hpo]
    intro l hl
    obtain ⟨line, hline, rfl⟩ := List.mem_map.mp hl
    obtain ⟨hwhole, hpos⟩ := hcreated.wellFormed.quantity line hline
    have hzero : line.receivedQuantity = 0 := hcreated.received line hline
    obtain ⟨item, hitem, hquantity⟩ := hcreated.ordered line hline
    refine ⟨⟨hwhole, hpos, ?_, ?_, ?_, ?_⟩, hzero⟩
    · rw [hquantity]
      exact hdoubles item hitem
    · rw [hzero]
      exact isDouble_zero
    · exact hzero.ge
    · rw [hzero]
      exact hpos.le
  refine ⟨?_, hkept₂, ⟨?_, htexts, fun l hl => (hlines l hl).1⟩, fun _ => ?_⟩
  · rw [hpo]
    exact honly₂
  · rw [hpo]
    exact List.pairwise_map.mpr hcreated.lineIds
  · obtain ⟨line, hline⟩ := List.exists_mem_of_ne_nil _ hcreated.wellFormed.lines
    have hmem : line.toPurchaseOrderItem ∈ po₀.items := by
      rw [hpo]
      exact List.mem_map_of_mem hline
    obtain ⟨hnumbers, hzero⟩ := hlines _ hmem
    exact ⟨_, hmem, incomplete_new hnumbers hzero⟩

end Start

-- as doubles: one unit with 0.900000001 received takes no tenth more, 10^8 with 0.1 missing do
example : ¬ Takes ⟨100, 5, 1, 1000, Binary64.round (900000001 / 1000000000)⟩ tenth ∧
    Takes ⟨100, 5, 100000000, 10, Binary64.round (999999999 / 10)⟩ tenth := by
  decide +kernel

/-- The ids as decimal numbers. -/
def numbered : Stamp where
  createdAt := fun id => id
  cuid := fun id => toString id
  scan := fun _ => 0

/-- A tenant with a supplier, a warehouse and an item valued first in, first out. -/
def stockedBook : OrderBook where
  orders := .empty
  catalogue := { emptyBook.catalogue with
    warehouses := [⟨4, 1, none, true⟩]
    items := [⟨5, 1, "Flour", some .fifo, none, none, none, none⟩] }
  itemIds := by decide
  currencyCode := emptyBook.currencyCode
  nextLine := emptyBook.nextLine

def tenSacks : CreatePurchaseOrderDto := ⟨3, some 4, [⟨5, 10, 1000⟩]⟩

def sacksApproved : DB :=
  (approvedOrder stockedBook 1 24303 7 tenSacks).getD stockedBook.db

def firstSacks (quantity : ℚ) : List (String × ReceiptDto) :=
  [("first", ⟨[⟨"100", quantity⟩], none⟩)]

/-- Some of the sacks are received. -/
def sacksReceived (quantity : ℚ) : DB :=
  (receiveCalls numbered .plain 1 7 sacksApproved (firstSacks quantity)).toOption.getD
    sacksApproved

/-- The order of the ten sacks. -/
def sacksOrder (status : PurchaseOrderStatus) (received : ℚ) : PurchaseOrder :=
  ⟨7, 1, 3, some 4, status, 10000, [⟨100, 5, 10, 1000, received⟩]⟩

theorem approved_sacks : approvedOrder stockedBook 1 24303 7 tenSacks = some sacksApproved ∧
    findPurchaseOrder sacksApproved 1 7 = some (sacksOrder .approved 0) := by
  decide +kernel

theorem stockKept_stockedBook : StockKept stockedBook.catalogue :=
  ⟨⟨.nil, fun _ hrow => absurd hrow List.not_mem_nil⟩, fun _ hrow => absurd hrow List.not_mem_nil⟩

theorem doubles_tenSacks : ∀ item ∈ tenSacks.items, IsDouble item.quantity := by
  intro item hitem
  rw [List.mem_singleton.mp hitem]
  show Binary64.round 10 = 10
  decide +kernel

theorem lineTexts_sacks (status : PurchaseOrderStatus) (received : ℚ) :
    LineTexts numbered (sacksOrder status received).items := by
  refine ⟨fun a ha b hb _ => ?_, fun l hl => ?_, fun l hl => ?_⟩
  · rw [List.mem_singleton.mp ha, List.mem_singleton.mp hb]
  · rw [List.mem_singleton.mp hl]
    show trim (toString 100) = toString 100
    decide +kernel
  · rw [List.mem_singleton.mp hl]
    show toString 100 ≠ ""
    decide +kernel

end Orders
end ERP
