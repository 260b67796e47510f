import ERP.Inventory.Refinement
import ERP.Inventory.Transfer
import ERP.Inventory.Purchasing

/-!
# Transfers and purchase receipts refine to entries

The two services that move stock line by line.  What a line may take is bounded
by the plan made before the loop, so the proofs carry along that the lines are
still the ones the plan was made for.
-/

namespace ERP
namespace Inventory

open Lib.Tx

section Plans

/-- A plan stays within the limit and never takes anything back. -/
theorem planLine_bounds {limit received quantity delta next : ℚ}
    (h : planLine unrounded limit received quantity = some (delta, next)) :
    next = received + delta ∧ next ≤ limit ∧ (0 ≤ quantity → received ≤ limit → 0 ≤ delta) ∧
      (1 / 10 ≤ quantity → 0 < delta) := by
  rw [planLine_unrounded] at h
  by_cases hover : tolerance < received + quantity - limit
  · simp [hover] at h
  · simp only [hover, if_false, Option.some.injEq, Prod.mk.injEq] at h
    obtain ⟨rfl, rfl⟩ := h
    have htol : tolerance < 1 / 10 := by norm_num [tolerance]
    refine ⟨by ring, min_le_right _ _, fun hq hr => ?_, fun hq => ?_⟩
    · have : received ≤ min (received + quantity) limit := le_min (by linarith) hr
      linarith
    · have : received < min (received + quantity) limit := lt_min (by linarith) (by linarith)
      linarith

theorem checkReceiptItems_ok {rules : ReceiptRules} {items : List ReceiptItemDto}
    {seen : List String} (h : checkReceiptItems rules items seen = .ok ()) :
    (∀ item ∈ items, rules.tooSmall item.receivedQuantity = false) ∧
      (items.map (·.itemId)).Nodup ∧ ∀ item ∈ items, item.itemId ∉ seen := by
  induction items generalizing seen with
  | nil => simp
  | cons item rest ih =>
      unfold checkReceiptItems at h
      split at h
      · simp at h
      · split at h
        · simp at h
        · split at h
          · simp at h
          · rename_i hsmall hseen
            obtain ⟨hrest, hnodup, hfresh⟩ := ih h
            refine ⟨fun x hx => ?_, ?_, fun x hx => ?_⟩
            · rcases List.mem_cons.mp hx with rfl | hx
              · simpa using hsmall
              · exact hrest x hx
            · rw [List.map_cons, List.nodup_cons]
              refine ⟨fun hmem => ?_, hnodup⟩
              obtain ⟨x, hx, hxid⟩ := List.mem_map.mp hmem
              exact hfresh x hx (hxid ▸ List.mem_cons_self)
            · rcases List.mem_cons.mp hx with rfl | hx
              · exact hseen
              · exact fun hmem => hfresh x hx (List.mem_cons_of_mem _ hmem)

/-- The normalised request has the checked items, in another order. -/
theorem normalizeReceipt_ok {localeLE : String → String → Bool} {rules : ReceiptRules}
    {dto request : ReceiptDto} (h : normalizeReceipt localeLE rules dto = .ok request) :
    (∀ item ∈ request.items, rules.tooSmall item.receivedQuantity = false) ∧
      (request.items.map (·.itemId)).Nodup := by
  unfold normalizeReceipt at h
  cases hcheck : checkReceiptItems rules
      (dto.items.map fun item => { item with itemId := Lib.trim item.itemId }) [] with
  | error e => simp [hcheck, bind, Except.bind] at h
  | ok _ =>
      simp only [hcheck, bind, Except.bind, pure, Except.pure, Except.ok.injEq] at h
      obtain ⟨hsmall, hnodup, _⟩ := checkReceiptItems_ok hcheck
      rw [← h]
      have hperm := List.perm_insertionSort
        (fun a b : ReceiptItemDto => localeLE a.itemId b.itemId = true)
        (dto.items.map fun item => { item with itemId := Lib.trim item.itemId })
      refine ⟨fun item hitem => hsmall item (hperm.mem_iff.mp hitem), ?_⟩
      exact (hperm.map _).nodup_iff.mpr hnodup

end Plans

section Transfers

variable {stamp : Stamp} {A : Permit} {db : DB} {c₀ : Config} {S : Id → Prop} {E : Failure → Prop}

theorem findTransfer_post {tenantId transferId : Id} {Q : WarehouseTransfer → DB → Prop}
    (hE : Quiet E)
    (h : ∀ t ∈ db.transfers, t.id = transferId → t.tenantId = tenantId → Q t db) :
    Post (findTransfer tenantId transferId) db Q E := by
  unfold findTransfer
  rw [post_bind, post_get]
  refine expect_post hE (by simp) fun t ht => ?_
  have hkey := List.find?_some ht
  simp only [decide_eq_true_eq] at hkey
  exact h t (List.mem_of_find?_eq_some ht) hkey.1 hkey.2

theorem linesSound_updateTransfers {p : WarehouseTransfer → Bool}
    {f : WarehouseTransfer → WarehouseTransfer} (h : LinesSound db)
    (hf : ∀ t, (f t).id = t.id ∧ (f t).items = t.items) :
    LinesSound (db.updateTransfers p f) := by
  have hrow : ∀ t : WarehouseTransfer, (if p t then f t else t).id = t.id ∧
      (if p t then f t else t).items = t.items := by
    intro t
    split
    · exact hf t
    · exact ⟨rfl, rfl⟩
  refine ⟨h.ids.map fun t _ => (hrow t).1, fun t ht => ?_, fun t ht => ?_⟩
  · obtain ⟨s, hs, rfl⟩ := List.mem_map.mp ht
    rw [(hrow s).2]
    exact h.bounds s hs
  · obtain ⟨s, hs, rfl⟩ := List.mem_map.mp ht
    rw [(hrow s).2]
    exact h.distinct s hs

/-- The transfer moves from one status to another. -/
def withStatus (db : DB) (tenantId transferId : Id) (status next : TransferStatus) : DB :=
  db.updateTransfers
    (fun row => row.id = transferId ∧ row.tenantId = tenantId ∧ row.status = status)
    fun row => { row with status := next }

theorem setTransferStatus_post {tenantId transferId : Id} {status next : TransferStatus}
    {Q : Nat → DB → Prop} (hrun : Run stamp A c₀ ⟨db, []⟩) (hA : A.transfer)
    (h : ∀ n, Run stamp A c₀ ⟨withStatus db tenantId transferId status next, []⟩ →
      Q n (withStatus db tenantId transferId status next)) :
    Post (setTransferStatus tenantId transferId status next) db Q (Stuck stamp A c₀ S) := by
  unfold setTransferStatus
  simp only [post_bind, post_get, post_set, post_pure]
  refine h _ (hrun.tail (.transfers hA ⟨rfl, rfl, rfl, rfl, rfl, le_refl _⟩ fun hl => ?_))
  exact linesSound_updateTransfers hl fun t => ⟨rfl, rfl⟩

/-- The rows of the lines still to be shipped are in the stock as they were read. -/
def Unshipped (stocks : List InventoryStock) (lines : List WarehouseTransferItem) (db : DB) :
    Prop :=
  ∀ line ∈ lines, ∀ s ∈ stocks, s.inventoryItemId = line.inventoryItemId → s ∈ db.stocks

/-- The movement that takes a line out of the source. -/
def shipment (tenantId : Id) (transfer : WarehouseTransfer) (line : WarehouseTransferItem)
    (stock : InventoryStock) (id : Id) : InventoryMovement :=
  { id, tenantId, type := .transfer, quantity := line.quantity,
    beforeQuantity := some stock.quantity,
    afterQuantity := some (stock.quantity - line.quantity),
    inventoryItemId := line.inventoryItemId, referenceId := some transfer.id,
    referenceType := some .warehouseTransferShipment,
    warehouseId := some transfer.sourceWarehouseId, unitCost := none, totalCost := none }

/-- What shipping one line does. -/
structure ShipLine (stamp : Stamp) (tenantId : Id) (transfer : WarehouseTransfer)
    (line : WarehouseTransferItem) (db db' : DB) : Prop where
  issued : ∃ row, Source db row (some transfer.sourceWarehouseId) line.inventoryItemId
      line.quantity ∧
    Issued stamp
      { tenantId, inventoryItemId := line.inventoryItemId,
        warehouseId := some transfer.sourceWarehouseId, quantity := line.quantity,
        movementId := db.nextId }
      ((db.shiftStock row.id (-line.quantity)).record
        (shipment tenantId transfer line row db.nextId)) db'

theorem shipItem_post {tenantId : Id} {transfer : WarehouseTransfer}
    {stocks : List InventoryStock} {line : WarehouseTransferItem}
    {rest : List WarehouseTransferItem} {Q : Unit → DB → Prop} (hs : Sound c₀)
    (hrun : Run stamp A c₀ ⟨db, []⟩) (hA : A.issue) (hship : A.transfer)
    (hS : S line.inventoryItemId) (hq : 0 < line.quantity)
    (hstocks : ∀ s ∈ stocks, s.warehouseId = some transfer.sourceWarehouseId)
    (hrows : Unshipped stocks (line :: rest) db)
    (hdistinct : ∀ l ∈ rest, line.inventoryItemId ≠ l.inventoryItemId)
    (h : ∀ db', ShipLine stamp tenantId transfer line db db' → Run stamp A c₀ ⟨db', []⟩ →
      Unshipped stocks rest db' → Q () db') :
    Post (shipItem stamp tenantId transfer stocks line) db Q (Stuck stamp A c₀ S) := by
  have hsound := hs.run hrun
  unfold shipItem
  simp only [post_bind, post_pure]
  refine lockItem_post quiet_stuck fun _ _ => ?_
  refine expect_post quiet_stuck (by simp) fun stock hstock => ?_
  have hread : stock ∈ stocks := List.mem_of_find?_eq_some hstock
  have hitem : stock.inventoryItemId = line.inventoryItemId := by
    simpa using List.find?_some hstock
  have hmem : stock ∈ db.stocks := hrows line List.mem_cons_self stock hread hitem
  refine require_post quiet_stuck (by simp) fun _ => ?_
  refine decrementStocks_post stock.id hsound (fun row _ hp => by simpa using hp)
    (fun row hrow hid hle => ?_)
    (fun n db' hne => require_post quiet_stuck (by simp) fun h => absurd h hne)
  have heq : row = stock := hsound.stockIds.eq_of_key hrow hmem hid
  rw [heq] at hle ⊢
  refine require_post quiet_stuck (by simp) fun _ => createMovement_post ?_
  have hsource : Source db stock (some transfer.sourceWarehouseId) line.inventoryItemId
      line.quantity := ⟨hmem, hstocks stock hread, hitem, hle⟩
  refine issue_block hrun hA (fun _ => hship) hS hq hsource
    ⟨rfl, rfl, rfl, rfl, rfl, rfl, rfl, rfl⟩ rfl (.inr (.inr rfl)) fun _ db' hrun' hissued => ?_
  refine h db' ⟨stock, hsource, hissued⟩ hrun' fun l hl s hsread hsitem => ?_
  rw [hissued.stocks]
  have hsmem : s ∈ db.stocks := hrows l (List.mem_cons_of_mem line hl) s hsread hsitem
  refine List.mem_map.mpr ⟨s, hsmem, if_neg fun hsid => ?_⟩
  have hsame : s = stock := hsound.stockIds.eq_of_key hsmem hmem hsid
  exact hdistinct l hl (hitem.symm.trans (hsame ▸ hsitem))

/-- The items on the lines of a transfer. -/
def OnTransfer (db : DB) (tenantId transferId : Id) (i : Id) : Prop :=
  ∃ t ∈ db.transfers, t.id = transferId ∧ t.tenantId = tenantId ∧
    ∃ l ∈ t.items, l.inventoryItemId = i

/-- What `ship` does: nothing to a transfer that was shipped before, and otherwise
one entry for each line and the new status. -/
inductive Shipped (stamp : Stamp) (tenantId transferId : Id) (db : DB) : DB → Prop
  | again {t} (hmem : t ∈ db.transfers) (hid : t.id = transferId) (htenant : t.tenantId = tenantId)
      (hstatus : t.status = .inTransit ∨ t.status = .partiallyReceived ∨ t.status = .received) :
      Shipped stamp tenantId transferId db db
  | ship {t db₁ db'} (hmem : t ∈ db.transfers) (hid : t.id = transferId)
      (htenant : t.tenantId = tenantId) (hstatus : t.status = .pending)
      (hlines : Chain (ShipLine stamp tenantId t) t.items db db₁)
      (hsame : SameLedger (withStatus db₁ tenantId transferId .pending .inTransit) db')
      (ht : SameTransfers (withStatus db₁ tenantId transferId .pending .inTransit) db') :
      Shipped stamp tenantId transferId db db'

theorem ship_post (hs : Sound ⟨db, []⟩) (tenantId transferId : Id) (hA : A.issue)
    (htransfer : A.transfer) :
    Post (ship stamp tenantId transferId) db
      (fun _ db' => Run stamp A ⟨db, []⟩ ⟨db', []⟩ ∧ Shipped stamp tenantId transferId db db')
      (Stuck stamp A ⟨db, []⟩ (OnTransfer db tenantId transferId)) := by
  unfold ship
  rw [post_bind]
  refine findTransfer_post quiet_stuck fun transfer hmem hid htenant => ?_
  by_cases hshipped : transfer.status = .inTransit ∨ transfer.status = .partiallyReceived ∨
      transfer.status = .received
  · simp only [hshipped, if_true]
    exact findTransfer_post quiet_stuck fun _ _ _ _ =>
      ⟨.refl, .again hmem hid htenant hshipped⟩
  · simp only [hshipped, if_false, post_bind, post_get]
    refine require_post quiet_stuck (by simp) fun hpending => ?_
    refine (post_forM_chain (ShipLine stamp tenantId transfer)
      (fun lines db' => Run stamp A ⟨db, []⟩ ⟨db', []⟩ ∧
        Unshipped (sourceStocks db transfer) lines db' ∧ lines.Pairwise (fun a b =>
          a.id ≠ b.id ∧ a.inventoryItemId ≠ b.inventoryItemId)) transfer.items
      (fun line rest db' hsplit hI => ?_) ⟨.refl, fun _ _ s hs _ => ?_, ?_⟩).mono
      (fun _ db₁ hI => ?_) fun _ he => he
    · obtain ⟨hrun, hrows, hdistinct⟩ := hI
      have hline := mem_of_split hsplit
      obtain ⟨hhead, htail⟩ := List.pairwise_cons.mp hdistinct
      refine shipItem_post hs hrun hA htransfer ⟨transfer, hmem, hid, htenant, line, hline, rfl⟩
        (hs.lines.bounds transfer hmem line hline).1 (fun s hs => ?_) hrows
        (fun l hl => (hhead l hl).2) fun db'' hship hrun' hrows' => ⟨hship, hrun', hrows', htail⟩
      exact (of_decide_eq_true (List.mem_filter.mp hs).2).1
    · exact (List.mem_filter.mp hs).1
    · exact hs.lines.distinct transfer hmem
    · obtain ⟨hlines, hrun₁, _⟩ := hI
      refine setTransferStatus_post hrun₁ htransfer fun n hrun => ?_
      refine require_post quiet_stuck (by simp) fun _ => ?_
      refine writeOutbox_post fun db₃ hsame ht => ?_
      exact findTransfer_post quiet_stuck fun _ _ _ _ =>
        ⟨hrun.elsewhere hsame ht, .ship hmem hid htenant hpending hlines hsame ht⟩

theorem ship_refines (hs : Sound ⟨db, []⟩) (tenantId transferId : Id) (hA : A.issue)
    (htransfer : A.transfer) :
    Refines stamp A (OnTransfer db tenantId transferId) (ship stamp tenantId transferId) db :=
  (ship_post hs tenantId transferId hA htransfer).mono (fun _ _ h => h.1) fun _ he => he

/-- What `cancel` does: nothing to a cancelled transfer, and a pending one is
cancelled. -/
inductive Cancelled (tenantId transferId : Id) (db : DB) : DB → Prop
  | again {t} (hmem : t ∈ db.transfers) (hid : t.id = transferId) (htenant : t.tenantId = tenantId)
      (hstatus : t.status = .cancelled) : Cancelled tenantId transferId db db
  | cancel {t db'} (hmem : t ∈ db.transfers) (hid : t.id = transferId)
      (htenant : t.tenantId = tenantId) (hstatus : t.status = .pending)
      (hsame : SameLedger (withStatus db tenantId transferId .pending .cancelled) db')
      (ht : SameTransfers (withStatus db tenantId transferId .pending .cancelled) db') :
      Cancelled tenantId transferId db db'

theorem cancel_post (tenantId transferId : Id) (hA : A.transfer) :
    Post (cancel tenantId transferId) db
      (fun _ db' => Run stamp A ⟨db, []⟩ ⟨db', []⟩ ∧ Cancelled tenantId transferId db db')
      (Stuck stamp A ⟨db, []⟩ S) := by
  unfold cancel
  rw [post_bind]
  refine findTransfer_post quiet_stuck fun transfer hmem hid htenant => ?_
  by_cases hdone : transfer.status = .cancelled
  · simp only [hdone, if_true]
    exact findTransfer_post quiet_stuck fun _ _ _ _ => ⟨.refl, .again hmem hid htenant hdone⟩
  · simp only [hdone, if_false, post_bind]
    refine require_post quiet_stuck (by simp) fun hpending => ?_
    refine setTransferStatus_post .refl hA fun n hrun => ?_
    refine require_post quiet_stuck (by simp) fun _ => ?_
    refine writeOutbox_post fun db₃ hsame ht => ?_
    exact findTransfer_post quiet_stuck fun _ _ _ _ =>
      ⟨hrun.elsewhere hsame ht, .cancel hmem hid htenant hpending hsame ht⟩

theorem cancel_refines (tenantId transferId : Id) (hA : A.transfer) :
    Refines stamp A S (cancel tenantId transferId) db :=
  (cancel_post tenantId transferId hA).mono (fun _ _ h => h.1) fun _ he => he

/-- A planned line is one of the transfer's, and the plan keeps within it. -/
structure Planned (transfer : WarehouseTransfer) (p : PlannedTransferItem) : Prop where
  mem : p.transferItem ∈ transfer.items
  next : p.nextReceived = p.transferItem.receivedQuantity + p.delta
  le : p.nextReceived ≤ p.transferItem.quantity
  nonneg : 0 ≤ p.delta

theorem planTransferReceipt_post {transfer : WarehouseTransfer} {items : List ReceiptItemDto}
    {Q : List PlannedTransferItem → DB → Prop} (hE : Quiet E)
    (hbounds : ∀ l ∈ transfer.items, l.receivedQuantity ≤ l.quantity)
    (hitems : ∀ item ∈ items, 0 < item.receivedQuantity)
    (h : ∀ planned, (∀ p ∈ planned, Planned transfer p) →
      List.Forall₂ (fun (p : PlannedTransferItem) (item : ReceiptItemDto) =>
        stamp.cuid p.transferItem.id = item.itemId) planned items → Q planned db) :
    Post (planTransferReceipt stamp transfer items) db Q E := by
  induction items generalizing Q with
  | nil => exact h [] (by simp) .nil
  | cons item rest ih =>
      unfold planTransferReceipt
      simp only [post_bind, post_pure]
      refine expect_post hE (by simp) fun line hline => ?_
      have hmem : line ∈ transfer.items := List.mem_of_find?_eq_some hline
      have htext : stamp.cuid line.id = item.itemId := by simpa using List.find?_some hline
      refine expect_post hE (by simp) fun plan hplan => ?_
      obtain ⟨hnext, hle, hnonneg, _⟩ := planLine_bounds hplan
      refine ih (fun x hx => hitems x (List.mem_cons_of_mem item hx)) fun planned hall hmatch => ?_
      refine h _ (fun p hp => ?_) (.cons htext hmatch)
      rcases List.mem_cons.mp hp with rfl | hp
      · exact ⟨hmem, hnext, hle,
          hnonneg (le_of_lt (hitems item List.mem_cons_self)) (hbounds line hmem)⟩
      · exact hall p hp

/-- What a receipt does not change about a line. -/
def lineKey (l : WarehouseTransferItem) : Id × Id × ℚ := (l.id, l.inventoryItemId, l.quantity)

/-- The transfer still has the lines it had when the receipt was planned. -/
def SameLines (transfer : WarehouseTransfer) (db : DB) : Prop :=
  ∀ t ∈ db.transfers, t.id = transfer.id → t.items.map lineKey = transfer.items.map lineKey

/-- Writing what a line has received. -/
def receiveLine (itemId : Id) (quantity : ℚ) (l : WarehouseTransferItem) :
    WarehouseTransferItem :=
  if l.id = itemId then { l with receivedQuantity := quantity } else l

theorem receiveLine_key (itemId : Id) (quantity : ℚ) (l : WarehouseTransferItem) :
    lineKey (receiveLine itemId quantity l) = lineKey l := by
  unfold receiveLine
  split <;> rfl

theorem sameLines_receiveLine {transfer : WarehouseTransfer} {transferId itemId : Id}
    {quantity : ℚ} (h : SameLines transfer db) :
    SameLines transfer (db.updateTransfers (fun row => row.id = transferId) fun row =>
      { row with items := row.items.map (receiveLine itemId quantity) }) := by
  intro t ht htid
  obtain ⟨s, hs, rfl⟩ := List.mem_map.mp ht
  by_cases hid : s.id = transferId
  · simp only [hid, decide_true, if_true] at htid ⊢
    rw [List.map_map]
    have hkey : lineKey ∘ receiveLine itemId quantity = lineKey :=
      funext fun l => receiveLine_key itemId quantity l
    rw [hkey]
    exact h s hs (hid.trans htid)
  · simp only [hid, decide_false, Bool.false_eq_true, if_false] at htid ⊢
    exact h s hs htid

/-- The line of the database that has the id of a line of the plan has its item
and quantity too. -/
theorem SameLines.quantity {transfer : WarehouseTransfer} {t : WarehouseTransfer}
    {l line : WarehouseTransferItem} (h : SameLines transfer db) (ht : t ∈ db.transfers)
    (htid : t.id = transfer.id)
    (hdistinct : transfer.items.Pairwise fun a b =>
      a.id ≠ b.id ∧ a.inventoryItemId ≠ b.inventoryItemId)
    (hl : l ∈ t.items) (hline : line ∈ transfer.items) (hid : l.id = line.id) :
    l.quantity = line.quantity := by
  have hmem : lineKey l ∈ transfer.items.map lineKey := by
    rw [← h t ht htid]
    exact List.mem_map_of_mem hl
  obtain ⟨l₀, hl₀, hkey⟩ := List.mem_map.mp hmem
  have hids : l₀.id = l.id := congrArg Prod.fst hkey
  have hpair : transfer.items.Pairwise fun a b => a.id = b.id → a = b :=
    hdistinct.imp fun hab heq => absurd heq hab.1
  have hflip : transfer.items.Pairwise (flip fun a b : WarehouseTransferItem =>
      a.id = b.id → a = b) :=
    hdistinct.imp fun hab heq => absurd heq.symm hab.1
  have heq : l₀ = line := List.Pairwise.forall_of_forall_of_flip (fun _ _ _ => rfl) hpair hflip
    hl₀ hline (hids.trans hid)
  have hq : l₀.quantity = l.quantity := congrArg (fun k => k.2.2) hkey
  rw [← hq, heq]

theorem linesSound_receiveLine {transfer : WarehouseTransfer} {p : PlannedTransferItem}
    (hl : LinesSound db) (hsame : SameLines transfer db)
    (hdistinct : transfer.items.Pairwise fun a b =>
      a.id ≠ b.id ∧ a.inventoryItemId ≠ b.inventoryItemId)
    (hp : Planned transfer p) (hpos : 0 ≤ p.transferItem.receivedQuantity) :
    LinesSound (db.updateTransfers (fun row => row.id = transfer.id) fun row =>
      { row with items := row.items.map (receiveLine p.transferItem.id p.nextReceived) }) := by
  refine ⟨hl.ids.map fun t _ => ?_, fun t ht l hlmem => ?_, fun t ht => ?_⟩
  · split <;> rfl
  · obtain ⟨s, hs, rfl⟩ := List.mem_map.mp ht
    by_cases hid : s.id = transfer.id
    · simp only [hid, decide_true, if_true] at hlmem
      obtain ⟨l₀, hl₀, rfl⟩ := List.mem_map.mp hlmem
      unfold receiveLine
      obtain ⟨hqpos, hbounds⟩ := hl.bounds s hs l₀ hl₀
      by_cases hlid : l₀.id = p.transferItem.id
      · rw [if_pos hlid]
        have hq := hsame.quantity hs hid hdistinct hl₀ hp.mem hlid
        refine ⟨hqpos, ?_, ?_⟩
        · change 0 ≤ p.nextReceived
          linarith [hp.next, hp.nonneg]
        · change p.nextReceived ≤ l₀.quantity
          linarith [hp.le]
      · rw [if_neg hlid]
        exact ⟨hqpos, hbounds⟩
    · simp only [hid, decide_false, Bool.false_eq_true, if_false] at hlmem
      exact hl.bounds s hs l hlmem
  · obtain ⟨s, hs, rfl⟩ := List.mem_map.mp ht
    by_cases hid : s.id = transfer.id
    · simp only [hid, decide_true, if_true]
      refine List.pairwise_map.mpr ((hl.distinct s hs).imp fun {a b} hab => ?_)
      have ha := receiveLine_key p.transferItem.id p.nextReceived a
      have hb := receiveLine_key p.transferItem.id p.nextReceived b
      simp only [lineKey, Prod.mk.injEq] at ha hb
      rw [ha.1, hb.1, ha.2.1, hb.2.1]
      exact hab
    · simp only [hid, decide_false, Bool.false_eq_true, if_false]
      exact hl.distinct s hs

/-- Write what a line of a transfer has received. -/
def withReceived (db : DB) (transferId itemId : Id) (quantity : ℚ) : DB :=
  db.updateTransfers (fun row => row.id = transferId) fun row =>
    { row with items := row.items.map (receiveLine itemId quantity) }

/-- The movement that brings a line into the destination. -/
def transferInMovement (tenantId : Id) (transfer : WarehouseTransfer) (receiptId : Id)
    (p : PlannedTransferItem) (before : ℚ) (id : Id) : InventoryMovement :=
  { id, tenantId, type := .transfer, quantity := p.delta, beforeQuantity := some before,
    afterQuantity := some (before + p.delta), inventoryItemId := p.transferItem.inventoryItemId,
    referenceId := some receiptId, referenceType := some .warehouseTransferReceipt,
    warehouseId := some transfer.destinationWarehouseId, unitCost := none, totalCost := none }

def transferInInput (tenantId : Id) (transfer : WarehouseTransfer) (receiptId : Id)
    (p : PlannedTransferItem) (sourceMovementId movementId : Id) : ReceiveTransferInput :=
  { tenantId, inventoryItemId := p.transferItem.inventoryItemId,
    warehouseId := transfer.destinationWarehouseId, quantity := p.delta,
    alreadyReceived := p.transferItem.receivedQuantity, sourceMovementId, movementId,
    sourceReferenceId := receiptId }

/-- The database once the received line is written, the stock has come in and the
movement is inserted. -/
def transferArrived (db : DB) (tenantId : Id) (transfer : WarehouseTransfer) (receiptId : Id)
    (p : PlannedTransferItem) : DB :=
  let written := withReceived db transfer.id p.transferItem.id p.nextReceived
  let stocked := written.addStock (some transfer.destinationWarehouseId)
    p.transferItem.inventoryItemId p.delta
  stocked.record (transferInMovement tenantId transfer receiptId p
    (db.stockBefore (some transfer.destinationWarehouseId) p.transferItem.inventoryItemId)
    stocked.nextId)

/-- What receiving one line does. -/
structure ReceiveLine (stamp : Stamp) (tenantId : Id) (transfer : WarehouseTransfer)
    (receiptId : Id) (p : PlannedTransferItem) (db db' : DB) : Prop where
  received : ∃ source movementId,
    shipmentMovement db tenantId transfer p.transferItem.inventoryItemId = some source ∧
    ((withReceived db transfer.id p.transferItem.id p.nextReceived).addStock
      (some transfer.destinationWarehouseId) p.transferItem.inventoryItemId p.delta).nextId =
        movementId ∧
    ReceivedTransfer stamp (transferInInput tenantId transfer receiptId p source.id movementId)
      (transferArrived db tenantId transfer receiptId p) db'

theorem transferIn_block {input : ReceiveTransferInput} {m : InventoryMovement}
    {Q : Unit → DB → Prop} (hrun : Run stamp A c₀ ⟨db, []⟩) (hA : A.transfer)
    (hcost : ∀ source, db.movementById input.sourceMovementId = some source →
      A.receipt ⟨input.inventoryItemId, some input.warehouseId, source.unitCost⟩)
    (hq : 0 ≤ input.quantity)
    (hw : Written m
      (db.addStock (some input.warehouseId) input.inventoryItemId input.quantity).nextId
      input.tenantId (some input.warehouseId) input.inventoryItemId
      (db.stockBefore (some input.warehouseId) input.inventoryItemId)
      (db.stockBefore (some input.warehouseId) input.inventoryItemId + input.quantity))
    (hid : input.movementId = m.id) (hkind : m.referenceType = some .warehouseTransferReceipt)
    (h : ∀ db', Run stamp A c₀ ⟨db', []⟩ →
      ReceivedTransfer stamp input ((db.addStock (some input.warehouseId) input.inventoryItemId
        input.quantity).record m) db' → Q () db') :
    Post (receiveTransfer stamp input)
      ((db.addStock (some input.warehouseId) input.inventoryItemId input.quantity).record m) Q
      (Stuck stamp A c₀ S) := by
  refine receiveTransfer_post quiet_stuck (Sound.isSome_stockAt_addStock _ _ _ _ _)
    fun db' hreceived => ?_
  exact h db' (hrun.tail (.transferIn ⟨input, m, hq, hw, hid, hkind, hreceived⟩ hA hcost))
    hreceived

/-- A new movement that is no shipment does not change which shipment is found. -/
theorem shipmentMovement_append {db' : DB} {m : InventoryMovement}
    (h : db'.movements = db.movements ++ [m])
    (hkind : m.referenceType = some .warehouseTransferReceipt) (tenantId : Id)
    (transfer : WarehouseTransfer) (itemId : Id) :
    shipmentMovement db' tenantId transfer itemId =
    shipmentMovement db tenantId transfer itemId := by
  unfold shipmentMovement
  rw [h, List.find?_append]
  simp [hkind]

theorem movementById_of_shipment (hs : Sound ⟨db, []⟩) {tenantId itemId : Id}
    {transfer : WarehouseTransfer} {source : InventoryMovement}
    (h : shipmentMovement db tenantId transfer itemId = some source) :
    db.movementById source.id = some source :=
  hs.movementIds.find?_eq (List.mem_of_find?_eq_some h)

/-- The costs a receipt of a transfer may book: those of its shipments. -/
def ShippedCost (db : DB) (tenantId : Id) (transfer : WarehouseTransfer) (r : Receipt) : Prop :=
  r.warehouseId = some transfer.destinationWarehouseId ∧
    ∃ source, shipmentMovement db tenantId transfer r.inventoryItemId = some source ∧
      r.unitCost = source.unitCost

theorem receiveItem_post {tenantId receiptId : Id} {transfer : WarehouseTransfer}
    {p : PlannedTransferItem} {I : Id → Prop} {Q : Unit → DB → Prop} (hs : Sound c₀)
    (hrun : Run stamp A c₀ ⟨db, []⟩) (hA : A.transfer) (hI : I p.transferItem.inventoryItemId)
    (hcost : ∀ r, I r.inventoryItemId → ShippedCost db tenantId transfer r → A.receipt r)
    (hsame : SameLines transfer db)
    (hdistinct : transfer.items.Pairwise fun a b =>
      a.id ≠ b.id ∧ a.inventoryItemId ≠ b.inventoryItemId)
    (hp : Planned transfer p) (hpos : 0 ≤ p.transferItem.receivedQuantity)
    (h : ∀ db', ReceiveLine stamp tenantId transfer receiptId p db db' →
      Run stamp A c₀ ⟨db', []⟩ → SameLines transfer db' →
      (∀ r, I r.inventoryItemId → ShippedCost db' tenantId transfer r → A.receipt r) → Q () db') :
    Post (receiveItem stamp tenantId transfer receiptId p) db Q (Stuck stamp A c₀ S) := by
  have hsound := hs.run hrun
  unfold receiveItem setReceivedQuantity
  simp only [post_bind, post_get, post_set, post_pure]
  refine lockItem_post quiet_stuck fun _ _ => ?_
  refine require_post quiet_stuck (by simp) fun _ => ?_
  refine upsertStock_post (createMovement_post ?_)
  simp only [add_sub_cancel_right]
  refine expect_post quiet_stuck (by simp) fun source hsource => ?_
  have hlines := linesSound_receiveLine hsound.lines hsame hdistinct hp hpos
  -- the movement just inserted is no shipment, so the shipment was there before
  have hship : shipmentMovement db tenantId transfer p.transferItem.inventoryItemId =
      some source := by
    rw [← hsource]
    exact (shipmentMovement_append (congrArg (· ++ _) (DB.addStock_movements _ _ _ _)) rfl
      _ _ _).symm
  have hfound := movementById_of_shipment hsound hship
  have hrun₁ : Run stamp A c₀
      ⟨withReceived db transfer.id p.transferItem.id p.nextReceived, []⟩ :=
    hrun.tail (.transfers hA ⟨rfl, rfl, rfl, rfl, rfl, le_refl _⟩ fun _ => hlines)
  refine transferIn_block hrun₁ hA (fun s hs => ?_) hp.nonneg
    ⟨rfl, rfl, rfl, rfl, rfl, rfl, rfl, rfl⟩ rfl rfl fun db' hrun' hreceived => ?_
  · have heq : s = source := Option.some.inj (hs.symm.trans hfound)
    exact hcost _ hI ⟨rfl, source, hship, heq ▸ rfl⟩
  · have hkeys := ((hs.run hrun₁).addStock (w := some transfer.destinationWarehouseId)
      (i := p.transferItem.inventoryItemId) hp.nonneg).movementIds
    obtain ⟨u, c, hmoves⟩ := hreceived.costed.recorded rfl hkeys
    have hmoves' := hmoves.trans (congrArg (· ++ _) (DB.addStock_movements _ _ _ _))
    refine h db' ⟨source, _, hship, rfl, hreceived⟩ hrun' (fun t ht htid => ?_)
      fun r hr hshipped => ?_
    · have hout := hreceived.costed.outside.trans (DB.addStock_outside _ _ _ _)
      rw [Sound.transfers_of_outside hout] at ht
      exact sameLines_receiveLine hsame t ht htid
    · obtain ⟨hw, m, hm, hu⟩ := hshipped
      refine hcost r hr ⟨hw, m, ?_, hu⟩
      rw [← hm]
      have happend : ∀ (t : WarehouseTransfer) (itemId : Id),
          shipmentMovement db' tenantId t itemId = shipmentMovement db tenantId t itemId :=
        shipmentMovement_append hmoves' rfl _
      exact (happend _ _).symm

theorem normalizeTransferReceipt_ok {rt : TransferRuntime} {key : String}
    {dto request : ReceiptDto} (h : normalizeTransferReceipt rt key dto = .ok request) :
    (∀ item ∈ request.items, 0 < item.receivedQuantity) ∧
      (request.items.map (·.itemId)).Nodup := by
  unfold normalizeTransferReceipt at h
  simp only [bind, Except.bind, throw, throwThe, MonadExceptOf.throw] at h
  split at h
  · simp at h
  · split at h
    · simp at h
    · obtain ⟨hsmall, hnodup⟩ := normalizeReceipt_ok h
      refine ⟨fun item hitem => ?_, hnodup⟩
      have := hsmall item hitem
      simpa [transferReceiptRules] using this

/-- The receipt row `receive` inserts. -/
def receiptRow (rt : TransferRuntime) (tenantId transferId : Id) (key : String)
    (request : ReceiptDto) (planned : List PlannedTransferItem) (id : Id) :
    WarehouseTransferReceipt :=
  { id, tenantId, transferId, idempotencyKey := key, requestHash := rt.receiptHash request,
    note := request.note,
    items := planned.map fun p =>
      { transferItemId := p.transferItem.id,
        inventoryItemId := p.transferItem.inventoryItemId, receivedQuantity := p.delta } }

/-- The receipt of a transfer under an idempotency key. -/
def findReceiptByKey (db : DB) (transferId : Id) (key : String) :
    Option WarehouseTransferReceipt :=
  db.transferReceipts.find? fun row => row.transferId = transferId ∧ row.idempotencyKey = key

/-- What `receive` does: nothing when the key was used for this request before, and
otherwise a new receipt, one entry for each planned line and the new status. -/
inductive ReceivedBy (stamp : Stamp) (rt : TransferRuntime) (tenantId transferId : Id)
    (key : String) (request : ReceiptDto) (db : DB) : WarehouseTransferReceipt → DB → Prop
  | replay {receipt} (hfound : findReceiptByKey db transferId key = some receipt)
      (hhash : receipt.requestHash = rt.receiptHash request) :
      ReceivedBy stamp rt tenantId transferId key request db receipt db
  | receive {t planned db₁ db'} (hmem : t ∈ db.transfers) (hid : t.id = transferId)
      (htenant : t.tenantId = tenantId) (hnew : findReceiptByKey db transferId key = none)
      (hstatus : t.status = .inTransit ∨ t.status = .partiallyReceived)
      (hplanned : ∀ p ∈ planned, Planned t p)
      (hdistinct : planned.Pairwise fun p q => p.transferItem.id ≠ q.transferItem.id)
      (hlines : Chain (ReceiveLine stamp tenantId t db.nextId) planned
        (db.takeId.insertTransferReceipt
          (receiptRow rt tenantId transferId key request planned db.nextId)) db₁)
      (hsame : SameLedger (withStatus db₁ tenantId transferId t.status
        (transferReceiptStatus t planned)) db')
      (ht : SameTransfers (withStatus db₁ tenantId transferId t.status
        (transferReceiptStatus t planned)) db') :
      ReceivedBy stamp rt tenantId transferId key request db
        (receiptRow rt tenantId transferId key request planned db.nextId) db'

theorem exists_of_forall₂_mem {α β : Type} {R : α → β → Prop} {as : List α} {bs : List β}
    {a : α} (h : List.Forall₂ R as bs) (ha : a ∈ as) : ∃ b ∈ bs, R a b := by
  induction h with
  | nil => exact absurd ha List.not_mem_nil
  | @cons x y xs ys hxy _ ih =>
      rcases List.mem_cons.mp ha with rfl | ha
      · exact ⟨y, List.mem_cons_self, hxy⟩
      · obtain ⟨b, hb, hab⟩ := ih ha
        exact ⟨b, List.mem_cons_of_mem y hb, hab⟩

/-- Lines planned for receipt items with different ids are different. -/
theorem planned_distinct {α : Type} {lineId : α → Id} {planned : List α}
    {items : List ReceiptItemDto}
    (hmatch : List.Forall₂ (fun (p : α) (item : ReceiptItemDto) =>
      stamp.cuid (lineId p) = item.itemId) planned items)
    (hnodup : (items.map (·.itemId)).Nodup) :
    planned.Pairwise fun p q => lineId p ≠ lineId q := by
  induction hmatch with
  | nil => exact .nil
  | @cons p item planned items hp hrest ih =>
      rw [List.map_cons, List.nodup_cons] at hnodup
      refine List.pairwise_cons.mpr ⟨fun q hq heq => ?_, ih hnodup.2⟩
      obtain ⟨item', hitem', hq'⟩ := exists_of_forall₂_mem hrest hq
      exact hnodup.1 (List.mem_map.mpr ⟨item', hitem', by rw [← hp, ← hq', heq]⟩)

/-- The item is on a line of the transfer that the receipt names. -/
def OnReceipt (stamp : Stamp) (t : WarehouseTransfer) (request : ReceiptDto) (i : Id) : Prop :=
  ∃ l ∈ t.items, l.inventoryItemId = i ∧ ∃ item ∈ request.items, stamp.cuid l.id = item.itemId

/-- The receipts a receive may book. -/
def ShippedTo (stamp : Stamp) (db : DB) (tenantId transferId : Id) (request : ReceiptDto)
    (r : Receipt) : Prop :=
  ∃ t ∈ db.transfers, t.id = transferId ∧ t.tenantId = tenantId ∧
    OnReceipt stamp t request r.inventoryItemId ∧ ShippedCost db tenantId t r

theorem receiveRequest_post (hs : Sound ⟨db, []⟩) {rt : TransferRuntime}
    {tenantId transferId : Id} {key : String} {request : ReceiptDto}
    (hpos : ∀ item ∈ request.items, 0 < item.receivedQuantity)
    (hnodup : (request.items.map (·.itemId)).Nodup) (hA : A.transfer)
    (hcost : ∀ r, ShippedTo stamp db tenantId transferId request r → A.receipt r) :
    Post (receiveRequest stamp rt tenantId transferId key request) db
      (fun receipt db' => Run stamp A ⟨db, []⟩ ⟨db', []⟩ ∧
        ReceivedBy stamp rt tenantId transferId key request db receipt db')
      (Stuck stamp A ⟨db, []⟩ S) := by
  unfold receiveRequest
  simp only [post_bind, post_get]
  refine findTransfer_post quiet_stuck fun transfer hmem hid htenant => ?_
  split
  · rename_i receipt hfound
    unfold replayOrConflict
    by_cases hhash : receipt.requestHash = rt.receiptHash request
    · simp only [hhash, ne_eq, not_true, if_false]
      exact ⟨.refl, .replay hfound hhash⟩
    · simp only [ne_eq, hhash, not_false_eq_true, if_true]
      exact quiet_stuck _ (by simp)
  · rename_i hnew
    simp only [post_bind, post_modify]
    refine require_post quiet_stuck (by simp) fun hstatus => ?_
    have hlines := hs.lines.bounds transfer hmem
    refine planTransferReceipt_post quiet_stuck (fun l hl => (hlines l hl).2.2) hpos
      fun planned hplanned hmatch => ?_
    have hstart : SameLines transfer db := by
      intro t htmem htid
      rw [hs.lines.ids.eq_of_key htmem hmem htid]
    refine freshId_post (require_post quiet_stuck (by simp) fun hdelta => ?_)
    refine (post_forM_chain (ReceiveLine stamp tenantId transfer db.nextId)
      (fun _ db' => Run stamp A ⟨db, []⟩ ⟨db', []⟩ ∧ SameLines transfer db' ∧
        ∀ r, OnReceipt stamp transfer request r.inventoryItemId →
          ShippedCost db' tenantId transfer r → A.receipt r) planned
      (fun p rest db' hsplit hI => ?_) ⟨?_, ?_, fun r hon hr => ?_⟩).mono (fun _ db₁ hI => ?_)
      fun _ he => he
    · obtain ⟨hrun, hsame, hpermit⟩ := hI
      have hp := hplanned p (mem_of_split hsplit)
      have hon := exists_of_forall₂_mem hmatch (mem_of_split hsplit)
      exact receiveItem_post hs hrun hA ⟨_, hp.mem, rfl, hon⟩ hpermit hsame
        (hs.lines.distinct transfer hmem) hp
        (hlines _ hp.mem).2.1 fun _ hline hrun hsame hpermit => ⟨hline, hrun, hsame, hpermit⟩
    · refine .single (.transfers hA ⟨rfl, rfl, rfl, rfl, rfl, Nat.le_succ _⟩ fun hl => ?_)
      exact Sound.lines_mono hl rfl (Nat.le_succ _)
    · exact hstart
    · exact hcost r ⟨transfer, hmem, hid, htenant, hon, hr⟩
    · obtain ⟨hchain, hrun₁, _⟩ := hI
      refine setTransferStatus_post hrun₁ hA fun n hrun => ?_
      refine require_post quiet_stuck (by simp) fun _ => ?_
      exact writeOutbox_post fun db₃ hsame ht => ⟨hrun.elsewhere hsame ht,
        .receive hmem hid htenant hnew hstatus hplanned (planned_distinct hmatch hnodup) hchain
          hsame ht⟩

theorem receiveRequest_refines (hs : Sound ⟨db, []⟩) {rt : TransferRuntime}
    {tenantId transferId : Id} {key : String} {request : ReceiptDto}
    (hpos : ∀ item ∈ request.items, 0 < item.receivedQuantity)
    (hnodup : (request.items.map (·.itemId)).Nodup) (hA : A.transfer)
    (hcost : ∀ r, ShippedTo stamp db tenantId transferId request r → A.receipt r) :
    Refines stamp A S (receiveRequest stamp rt tenantId transferId key request) db :=
  (receiveRequest_post hs hpos hnodup hA hcost).mono (fun _ _ h => h.1) fun _ he => he

/-- What `create` leaves of its checks: every quantity is at least 0.1 and no item is
named twice. -/
theorem checkTransferItems_ok {items : List TransferItemDto} {seen : List String}
    (h : checkTransferItems items seen = .ok ()) :
    (∀ item ∈ items, 1 / 10 ≤ item.quantity) ∧ (items.map (·.inventoryItemId)).Nodup ∧
      ∀ item ∈ items, item.inventoryItemId ∉ seen := by
  induction items generalizing seen with
  | nil => simp
  | cons item rest ih =>
      unfold checkTransferItems at h
      split at h
      · simp at h
      · split at h
        · simp at h
        · split at h
          · simp at h
          · rename_i hsmall hseen
            obtain ⟨hrest, hnodup, hfresh⟩ := ih h
            refine ⟨fun x hx => ?_, ?_, fun x hx => ?_⟩
            · rcases List.mem_cons.mp hx with rfl | hx
              · exact le_of_not_gt hsmall
              · exact hrest x hx
            · rw [List.map_cons, List.nodup_cons]
              refine ⟨fun hmem => ?_, hnodup⟩
              obtain ⟨x, hx, hxid⟩ := List.mem_map.mp hmem
              exact hfresh x hx (hxid ▸ List.mem_cons_self)
            · rcases List.mem_cons.mp hx with rfl | hx
              · exact hseen
              · exact fun hmem => hfresh x hx (List.mem_cons_of_mem _ hmem)

/-- A request that passed the checks. -/
structure TransferChecked (request : CreateWarehouseTransferDto) : Prop where
  nonempty : request.items ≠ []
  minimum : ∀ item ∈ request.items, 1 / 10 ≤ item.quantity
  distinct : (request.items.map (·.inventoryItemId)).Nodup

theorem TransferChecked.pos {request : CreateWarehouseTransferDto} (h : TransferChecked request) :
    ∀ item ∈ request.items, 0 < item.quantity := by
  intro item hitem
  have hq := h.minimum item hitem
  linarith

theorem normalizeTransfer_ok {rt : TransferRuntime} {key : String}
    {dto request : CreateWarehouseTransferDto}
    (h : normalizeTransfer rt key dto = .ok request) : TransferChecked request := by
  unfold normalizeTransfer at h
  simp only [bind, Except.bind, pure, Except.pure, throw, throwThe, MonadExceptOf.throw] at h
  split at h
  · simp at h
  · split at h
    · simp at h
    · split at h
      · simp at h
      · split at h
        · simp at h
        · split at h
          · simp at h
          · rename_i hlength _ _ hcheck
            obtain ⟨hmin, hnodup, _⟩ := checkTransferItems_ok hcheck
            simp only [Except.ok.injEq] at h
            rw [← h]
            have hperm := List.perm_insertionSort
              (fun a b : TransferItemDto =>
                rt.localeLE a.inventoryItemId b.inventoryItemId = true)
              (dto.items.map fun item =>
                { item with inventoryItemId := Lib.trim item.inventoryItemId })
            refine ⟨fun hnil => ?_, fun item hitem => hmin item (hperm.mem_iff.mp hitem),
              (hperm.map _).nodup_iff.mpr hnodup⟩
            dsimp only at hnil
            rw [hnil, List.nil_perm, List.map_eq_nil_iff] at hperm
            exact hlength (.inl (by rw [hperm]; exact Nat.zero_lt_one))

/-- A line as it is created for a requested item. -/
structure LineFor (stamp : Stamp) (l : WarehouseTransferItem) (item : TransferItemDto) :
    Prop where
  quantity : l.quantity = item.quantity
  received : l.receivedQuantity = 0
  text : stamp.cuid l.inventoryItemId = item.inventoryItemId

theorem createTransferItems_post {found : List InventoryItem} {items : List TransferItemDto}
    {Q : List WarehouseTransferItem → DB → Prop} (hE : Quiet E)
    (h : ∀ lines n, db.nextId ≤ n → List.Forall₂ (LineFor stamp) lines items →
      lines.Pairwise (fun a b => a.id < b.id) → (∀ l ∈ lines, db.nextId ≤ l.id) →
      Q lines { db with nextId := n }) :
    Post (createTransferItems stamp found items) db Q E := by
  induction items generalizing db Q with
  | nil => exact h [] db.nextId (le_refl _) .nil .nil (by simp)
  | cons item rest ih =>
      unfold createTransferItems
      simp only [post_bind, post_pure]
      refine freshId_post (expect_post hE (by simp) fun row hrow => ?_)
      have htext : stamp.cuid row.id = item.inventoryItemId := by simpa using List.find?_some hrow
      refine ih fun lines n hn hmatch hsorted hge => ?_
      refine h _ n (Nat.le_of_succ_le hn) (.cons ⟨rfl, rfl, htext⟩ hmatch)
        (List.pairwise_cons.mpr ⟨fun l hl => hge l hl, hsorted⟩) fun l hl => ?_
      rcases List.mem_cons.mp hl with rfl | hl
      · exact le_refl _
      · exact Nat.le_of_succ_le (hge l hl)

/-- Lines made for items with different names are for different items. -/
theorem lines_distinct {lines : List WarehouseTransferItem} {items : List TransferItemDto}
    (hmatch : List.Forall₂ (LineFor stamp) lines items)
    (hnodup : (items.map (·.inventoryItemId)).Nodup)
    (hsorted : lines.Pairwise fun a b => a.id < b.id) :
    lines.Pairwise fun a b => a.id ≠ b.id ∧ a.inventoryItemId ≠ b.inventoryItemId := by
  induction hmatch with
  | nil => exact .nil
  | @cons l item lines items hl hrest ih =>
      obtain ⟨hhead, htail⟩ := List.pairwise_cons.mp hsorted
      rw [List.map_cons, List.nodup_cons] at hnodup
      refine List.pairwise_cons.mpr ⟨fun b hb => ⟨Nat.ne_of_lt (hhead b hb), fun heq => ?_⟩,
        ih hnodup.2 htail⟩
      obtain ⟨item', hitem', hb'⟩ := exists_of_forall₂_mem hrest hb
      refine hnodup.1 (List.mem_map.mpr ⟨item', hitem', ?_⟩)
      rw [← hl.text, ← hb'.text, heq]

/-- What the transaction of `create` does: the key is new, and a pending transfer
with a line for each item is inserted. -/
structure CreatedTransfer (stamp : Stamp) (rt : TransferRuntime) (tenantId : Id) (key : String)
    (request : CreateWarehouseTransferDto) (db : DB) (t : WarehouseTransfer) (db' : DB) :
    Prop where
  fresh : findTransferByKey db tenantId key = none
  id : t.id = db.nextId
  tenant : t.tenantId = tenantId
  key : t.idempotencyKey = key
  hash : t.requestHash = rt.transferHash request
  status : t.status = .pending
  warehouses : stamp.cuid t.sourceWarehouseId = request.sourceWarehouseId ∧
    stamp.cuid t.destinationWarehouseId = request.destinationWarehouseId
  lines : List.Forall₂ (LineFor stamp) t.items request.items
  distinct : t.items.Pairwise fun a b => a.id ≠ b.id ∧ a.inventoryItemId ≠ b.inventoryItemId
  inserted : db'.transfers = db.transfers ++ [t]
  receipts : db'.transferReceipts = db.transferReceipts
  same : SameLedger db db'

theorem insertTransfer_post {rt : TransferRuntime} {tenantId : Id}
    {key : String} {request : CreateWarehouseTransferDto}
    (hpos : ∀ item ∈ request.items, 0 < item.quantity)
    (hnodup : (request.items.map (·.inventoryItemId)).Nodup) (hA : A.transfer) :
    Post (insertTransfer stamp rt tenantId key request) db
      (fun t db' => Run stamp A ⟨db, []⟩ ⟨db', []⟩ ∧
        CreatedTransfer stamp rt tenantId key request db t db')
      (Stuck stamp A ⟨db, []⟩ S) := by
  unfold insertTransfer
  simp only [post_bind, post_get, post_modify, post_pure]
  refine expect_post quiet_stuck (by simp) fun source hsource => ?_
  refine expect_post quiet_stuck (by simp) fun destination hdestination => ?_
  refine require_post quiet_stuck (by simp) fun _ => ?_
  refine require_post quiet_stuck (by simp) fun _ => ?_
  refine require_post quiet_stuck (by simp) fun hfresh => ?_
  refine freshId_post (createTransferItems_post quiet_stuck
    fun lines n hn hmatch hsorted _ => ?_)
  refine writeOutbox_post fun db' hsame ht => ?_
  have hdistinct := lines_distinct hmatch hnodup hsorted
  have hsourceText := List.find?_some hsource
  have hdestinationText := List.find?_some hdestination
  simp only [decide_eq_true_eq] at hsourceText hdestinationText
  refine ⟨Run.elsewhere (.single (.transfers hA ?_ fun hl => ?_)) hsame ht,
    ⟨hfresh, rfl, rfl, rfl, rfl, rfl, ⟨hsourceText.1, hdestinationText.1⟩, hmatch, hdistinct,
      ht.transfers, ht.receipts, ?_⟩⟩
  · exact ⟨rfl, rfl, rfl, rfl, rfl, Nat.le_of_succ_le hn⟩
  · refine ⟨(hl.ids.append rfl).mono hn, fun t htmem l hlmem => ?_, fun t htmem => ?_⟩
    · rcases List.mem_append.mp htmem with htmem | htmem
      · exact hl.bounds t htmem l hlmem
      · rw [List.mem_singleton] at htmem
        rw [htmem] at hlmem
        obtain ⟨item, hitem, hline⟩ := exists_of_forall₂_mem hmatch hlmem
        have hq : 0 < l.quantity := hline.quantity ▸ hpos item hitem
        exact ⟨hq, hline.received ▸ le_refl _, hline.received ▸ le_of_lt hq⟩
    · rcases List.mem_append.mp htmem with htmem | htmem
      · exact hl.distinct t htmem
      · rw [List.mem_singleton] at htmem
        rw [htmem]
        exact hdistinct
  · exact ⟨hsame.items, hsame.stocks, hsame.movements, hsame.layers, hsame.allocations,
      (Nat.le_of_succ_le hn).trans hsame.nextId⟩

theorem insertTransfer_refines {rt : TransferRuntime} {tenantId : Id}
    {key : String} {request : CreateWarehouseTransferDto}
    (hpos : ∀ item ∈ request.items, 0 < item.quantity)
    (hnodup : (request.items.map (·.inventoryItemId)).Nodup) (hA : A.transfer) :
    Refines stamp A S (insertTransfer stamp rt tenantId key request) db :=
  (insertTransfer_post hpos hnodup hA).mono (fun _ _ h => h.1) fun _ he => he

theorem refines_throw {α : Type} {e : Failure} (he : e ≠ .fifoLayersDoNotCover) :
    Refines stamp A S (throw e : Tx α) db := quiet_stuck e he

end Transfers

section Purchases

variable {stamp : Stamp} {A : Permit} {db : DB} {c₀ : Config} {S : Id → Prop} {E : Failure → Prop}

/-- A planned line is one of the order's, and the plan keeps within it. -/
structure PlannedPurchase (po : PurchaseOrder) (p : PlannedPurchaseItem) : Prop where
  mem : p.orderItem ∈ po.items
  next : p.nextReceived = p.orderItem.receivedQuantity + p.delta
  le : p.nextReceived ≤ p.orderItem.quantity
  pos : 0 < p.delta

theorem planPurchaseReceipt_post {po : PurchaseOrder} {items : List ReceiptItemDto}
    {Q : List PlannedPurchaseItem → DB → Prop} (hE : Quiet E)
    (hitems : ∀ item ∈ items, 1 / 10 ≤ item.receivedQuantity)
    (h : ∀ planned, (∀ p ∈ planned, PlannedPurchase po p) →
      List.Forall₂ (fun (p : PlannedPurchaseItem) (item : ReceiptItemDto) =>
        stamp.cuid p.orderItem.id = item.itemId) planned items → Q planned db) :
    Post (planPurchaseReceipt stamp unrounded po items) db Q E := by
  induction items generalizing Q with
  | nil => exact h [] (by simp) .nil
  | cons item rest ih =>
      unfold planPurchaseReceipt
      simp only [post_bind, post_pure]
      refine expect_post hE (by simp) fun line hline => ?_
      have hmem : line ∈ po.items := List.mem_of_find?_eq_some hline
      have htext : stamp.cuid line.id = item.itemId := by simpa using List.find?_some hline
      refine expect_post hE (by simp) fun plan hplan => ?_
      obtain ⟨hnext, hle, _, hpos⟩ := planLine_bounds hplan
      refine ih (fun x hx => hitems x (List.mem_cons_of_mem item hx)) fun planned hall hmatch => ?_
      refine h _ (fun p hp => ?_) (.cons htext hmatch)
      rcases List.mem_cons.mp hp with rfl | hp
      · exact ⟨hmem, hnext, hle, hpos (hitems item List.mem_cons_self)⟩
      · exact hall p hp

theorem recordPriceVariance_post {item : InventoryItem} {receipt : PurchaseOrderReceipt}
    {p : PlannedPurchaseItem} {Q : Unit → DB → Prop} (hE : Quiet E)
    (h : ∀ db', SameLedger db db' → SameTransfers db db' → Q () db') :
    Post (recordPriceVariance item receipt p) db Q E := by
  unfold recordPriceVariance
  split
  · simp only [post_bind, post_modify]
    refine expect_post hE (by simp) fun _ _ => freshId_post ?_
    exact h _ ⟨rfl, rfl, rfl, rfl, rfl, Nat.le_succ _⟩ ⟨rfl, rfl⟩
  · exact h db ⟨rfl, rfl, rfl, rfl, rfl, le_refl _⟩ ⟨rfl, rfl⟩

theorem receivePurchaseItem_post {tenantId warehouseId : Id} {po : PurchaseOrder}
    {receipt : PurchaseOrderReceipt} {p : PlannedPurchaseItem} {Q : Unit → DB → Prop}
    (hrun : Run stamp A c₀ ⟨db, []⟩) (hpos : 0 < p.delta)
    (hA : A.receipt ⟨p.orderItem.inventoryItemId, some warehouseId, some p.orderItem.unitPrice⟩)
    (h : ∀ db', Run stamp A c₀ ⟨db', []⟩ → Q () db') :
    Post (receivePurchaseItem stamp tenantId po warehouseId receipt p) db Q
      (Stuck stamp A c₀ S) := by
  unfold receivePurchaseItem setOrderItemReceived
  simp only [post_bind, post_get, post_set, post_pure]
  refine lockItem_post quiet_stuck fun _ _ => ?_
  refine require_post quiet_stuck (by simp) fun _ => ?_
  refine upsertStock_post (createMovement_post ?_)
  refine receive_block (hrun.elsewhere ⟨rfl, rfl, rfl, rfl, rfl, le_refl _⟩ ⟨rfl, rfl⟩) hA hpos
    ⟨rfl, rfl, rfl, rfl, ?_, rfl, rfl, rfl⟩ rfl (.inr rfl) fun _ db' hrun' => ?_
  · exact congrArg some (add_sub_cancel_right _ _)
  · exact recordPriceVariance_post quiet_stuck fun db'' hsame ht =>
      h db'' (hrun'.elsewhere hsame ht)

theorem normalizePurchaseReceipt_ok {localeLE : String → String → Bool} {key : String}
    {dto request : ReceiptDto} (h : normalizePurchaseReceipt localeLE key dto = .ok request) :
    (∀ item ∈ request.items, 1 / 10 ≤ item.receivedQuantity) ∧
      (request.items.map (·.itemId)).Nodup := by
  unfold normalizePurchaseReceipt at h
  simp only [bind, Except.bind, throw, throwThe, MonadExceptOf.throw] at h
  split at h
  · simp at h
  · split at h
    · simp at h
    · obtain ⟨hsmall, hnodup⟩ := normalizeReceipt_ok h
      refine ⟨fun item hitem => ?_, hnodup⟩
      have := hsmall item hitem
      simpa [purchaseReceiptRules] using this

/-- The receipts a receipt of a purchase order may book. -/
def OrderedAt (stamp : Stamp) (db : DB) (tenantId purchaseOrderId : Id) (request : ReceiptDto)
    (r : Receipt) : Prop :=
  ∃ po ∈ db.purchaseOrders, po.id = purchaseOrderId ∧ po.tenantId = tenantId ∧
    r.warehouseId = po.warehouseId ∧
    ∃ l ∈ po.items, l.inventoryItemId = r.inventoryItemId ∧ r.unitCost = some (l.unitPrice : ℚ) ∧
      ∃ item ∈ request.items, stamp.cuid l.id = item.itemId

theorem receivePurchaseRequest_refines {receiptHash : ReceiptDto → String}
    {tenantId purchaseOrderId : Id} {key : String} {request : ReceiptDto}
    (hitems : ∀ item ∈ request.items, 1 / 10 ≤ item.receivedQuantity)
    (hA : ∀ r, OrderedAt stamp db tenantId purchaseOrderId request r → A.receipt r) :
    Refines stamp A S
      (receivePurchaseRequest stamp unrounded receiptHash tenantId purchaseOrderId key request)
      db := by
  unfold Refines receivePurchaseRequest
  simp only [post_bind, post_get]
  refine expect_post quiet_stuck (by simp) fun po hpo => ?_
  have hfound := List.find?_some hpo
  simp only [decide_eq_true_eq] at hfound
  split
  · simp only [post_bind, post_pure]
    exact require_post quiet_stuck (by simp) fun _ => .refl
  · simp only [post_bind, post_modify, post_get, post_set, post_pure]
    refine require_post quiet_stuck (by simp) fun _ => ?_
    refine expect_post quiet_stuck (by simp) fun warehouseId hwarehouse => ?_
    refine planPurchaseReceipt_post quiet_stuck hitems fun planned hplanned hmatch => ?_
    refine freshId_post ?_
    refine (post_forM (fun _ db' => Run stamp A ⟨db, []⟩ ⟨db', []⟩) planned
      (fun p rest db' hsplit hrun => ?_) ?_).mono (fun _ db' hrun => ?_) fun _ he => he
    · have hp := hplanned p (mem_of_split hsplit)
      have hon := exists_of_forall₂_mem hmatch (mem_of_split hsplit)
      refine receivePurchaseItem_post hrun hp.pos (hA _ ?_) fun _ h => h
      exact ⟨po, List.mem_of_find?_eq_some hpo, hfound.1, hfound.2, hwarehouse.symm, _, hp.mem,
        rfl, rfl, hon⟩
    · exact Run.elsewhere .refl ⟨rfl, rfl, rfl, rfl, rfl, Nat.le_succ _⟩ ⟨rfl, rfl⟩
    · refine require_post quiet_stuck (by simp) fun _ => ?_
      refine writeOutbox_post fun db₃ hsame ht => Run.elsewhere ?_ hsame ht
      exact hrun.elsewhere ⟨rfl, rfl, rfl, rfl, rfl, le_refl _⟩ ⟨rfl, rfl⟩

end Purchases

end Inventory
end ERP
