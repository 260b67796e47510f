import ERP.Inventory.TransferRefinement
import ERP.Inventory.Trail

/-!
# The books of the warehouse transfers

Goods under way between two warehouses are in the stock of neither.  What a transfer has
sent and not brought yet stands on its lines: the quantity less what was received.  The
books say what the lines, the status, the shipment movements and the receipts of a
transfer say of each other.
-/

namespace ERP
namespace Inventory

open Lib.Tx

/-- The goods have left the source. -/
def hasLeft : TransferStatus → Bool
  | .pending | .cancelled => false
  | .inTransit | .partiallyReceived | .received => true

/-- What lines are for of an item. -/
def lineQty (items : List WarehouseTransferItem) (i : Id) : ℚ :=
  (items.map fun l => if l.inventoryItemId = i then l.quantity else 0).sum

/-- What lines have not received of an item. -/
def openQty (items : List WarehouseTransferItem) (i : Id) : ℚ :=
  (items.map fun l => if l.inventoryItemId = i then l.quantity - l.receivedQuantity else 0).sum

/-- What is under way of an item. -/
def inTransit (db : DB) (i : Id) : ℚ :=
  (db.transfers.map fun t => if hasLeft t.status then openQty t.items i else 0).sum

/-- What the shipment movements of a transfer took of an item. -/
def shippedQty (db : DB) (transferId i : Id) : ℚ :=
  (db.movements.map fun m =>
    if m.referenceType = some .warehouseTransferShipment ∧ m.referenceId = some transferId ∧
      m.inventoryItemId = i then m.quantity else 0).sum

/-- What the items of a receipt booked on a line. -/
def itemQty (items : List WarehouseTransferReceiptItem) (lineId : Id) : ℚ :=
  (items.map fun item => if item.transferItemId = lineId then item.receivedQuantity else 0).sum

/-- What the receipts of a transfer booked on a line. -/
def bookedQty (receipts : List WarehouseTransferReceipt) (transferId lineId : Id) : ℚ :=
  (receipts.map fun r => if r.transferId = transferId then itemQty r.items lineId else 0).sum

/-- What the movements of an item changed that are of no transfer. -/
def otherDelta (db : DB) (i : Id) : ℚ :=
  (db.movements.map fun m =>
    if m.inventoryItemId = i ∧ ¬ IsTransfer m then
      m.afterQuantity.getD 0 - m.beforeQuantity.getD 0 else 0).sum

/-- Every line counts as received. -/
def allReceived (items : List WarehouseTransferItem) : Bool :=
  items.all fun l => lineReceived unrounded l.quantity l.receivedQuantity

/-- What the status of a transfer says of its lines. -/
def Told (t : WarehouseTransfer) : Prop :=
  match t.status with
  | .pending | .inTransit | .cancelled =>
      (∀ l ∈ t.items, l.receivedQuantity = 0) ∧ allReceived t.items = false
  | .partiallyReceived => allReceived t.items = false
  | .received => allReceived t.items = true

/-- A transfer is RECEIVED when every line counts as received, and only then. -/
theorem Told.received_iff {t : WarehouseTransfer} (h : Told t) :
    t.status = .received ↔ allReceived t.items = true := by
  unfold Told at h
  cases hst : t.status <;> simp_all

/-- The lines of every transfer have received what its receipts booked and its status
says, and its shipment took every line once if it has left and nothing otherwise. -/
structure TransferBooks (db : DB) : Prop where
  told : ∀ t ∈ db.transfers, Told t
  booked : ∀ t ∈ db.transfers, ∀ l ∈ t.items,
    l.receivedQuantity = bookedQty db.transferReceipts t.id l.id
  shipped : ∀ t ∈ db.transfers, ∀ i,
    shippedQty db t.id i = if hasLeft t.status then lineQty t.items i else 0
  receipts : ∀ r ∈ db.transferReceipts, r.transferId < db.nextId
  shipments : ∀ m ∈ db.movements, m.referenceType = some .warehouseTransferShipment →
    ∀ id, m.referenceId = some id → id < db.nextId

section Lines

variable {items : List WarehouseTransferItem} {planned : List PlannedTransferItem}
  {p : PlannedTransferItem} {l : WarehouseTransferItem} {i : Id}

/-- What the lines are once a plan is carried out. -/
def receiveLines (planned : List PlannedTransferItem) (items : List WarehouseTransferItem) :
    List WarehouseTransferItem :=
  planned.foldl (fun items p => items.map (receiveLine p.transferItem.id p.nextReceived)) items

/-- What a plan brings of an item. -/
def plannedQty (planned : List PlannedTransferItem) (i : Id) : ℚ :=
  (planned.map fun p => if p.transferItem.inventoryItemId = i then p.delta else 0).sum

/-- A plan for lines there are: each plan is for a line of its own, from what the line has
received to no more than it is for. -/
structure PlanFor (items : List WarehouseTransferItem) (planned : List PlannedTransferItem) :
    Prop where
  lines : items.Pairwise fun a b => a.id ≠ b.id
  distinct : planned.Pairwise fun p q => p.transferItem.id ≠ q.transferItem.id
  mem : ∀ p ∈ planned, p.transferItem ∈ items
  next : ∀ p ∈ planned, p.nextReceived = p.transferItem.receivedQuantity + p.delta

theorem receiveLine_of_ne {itemId : Id} {quantity : ℚ} (h : l.id ≠ itemId) :
    receiveLine itemId quantity l = l := if_neg h

theorem receiveLine_id (itemId : Id) (quantity : ℚ) (l : WarehouseTransferItem) :
    (receiveLine itemId quantity l).id = l.id := by
  unfold receiveLine
  split <;> rfl

/-- The first plan of a list is carried out, the others remain. -/
theorem PlanFor.tail (h : PlanFor items (p :: planned)) :
    PlanFor (items.map (receiveLine p.transferItem.id p.nextReceived)) planned := by
  obtain ⟨hhead, htail⟩ := List.pairwise_cons.mp h.distinct
  refine ⟨?_, htail, fun q hq => ?_, fun q hq => h.next q (List.mem_cons_of_mem p hq)⟩
  · refine List.pairwise_map.mpr (h.lines.imp fun {a b} hab => ?_)
    rw [receiveLine_id, receiveLine_id]
    exact hab
  · refine List.mem_map.mpr ⟨q.transferItem, h.mem q (List.mem_cons_of_mem p hq), ?_⟩
    exact receiveLine_of_ne (hhead q hq).symm

/-- A plan takes what it brings of an item from what the lines have not received. -/
theorem openQty_receiveLines (h : PlanFor items planned) (i : Id) :
    openQty (receiveLines planned items) i = openQty items i - plannedQty planned i := by
  induction planned generalizing items with
  | nil => exact (sub_zero _).symm
  | cons p rest ih =>
      have hupdate := Lib.sum_update_of_ne h.lines (h.mem p List.mem_cons_self)
        (fun l => { l with receivedQuantity := p.nextReceived })
        fun l => if l.inventoryItemId = i then l.quantity - l.receivedQuantity else 0
      have hone : openQty (items.map (receiveLine p.transferItem.id p.nextReceived)) i =
          openQty items i - if p.transferItem.inventoryItemId = i then p.delta else 0 := by
        refine hupdate.trans ?_
        dsimp only
        by_cases hi : p.transferItem.inventoryItemId = i
        · rw [if_pos hi, if_pos hi, if_pos hi, h.next p List.mem_cons_self]
          unfold openQty
          ring
        · rw [if_neg hi, if_neg hi, if_neg hi]
          unfold openQty
          ring
      show openQty (receiveLines rest (items.map _)) i = _
      rw [ih h.tail, hone, plannedQty, plannedQty, List.map_cons, List.sum_cons]
      ring

theorem lineQty_receiveLines (planned : List PlannedTransferItem)
    (items : List WarehouseTransferItem) (i : Id) :
    lineQty (receiveLines planned items) i = lineQty items i := by
  induction planned generalizing items with
  | nil => rfl
  | cons p rest ih =>
      show lineQty (receiveLines rest (items.map _)) i = _
      rw [ih, lineQty, lineQty, List.map_map]
      refine congrArg List.sum (List.map_congr_left fun l _ => ?_)
      have hkey := receiveLine_key p.transferItem.id p.nextReceived l
      simp only [lineKey, Prod.mk.injEq] at hkey
      rw [Function.comp_apply, hkey.2.1, hkey.2.2]

/-- What a line is once a plan is carried out. -/
theorem receiveLines_eq (hdistinct : planned.Pairwise fun p q =>
      p.transferItem.id ≠ q.transferItem.id) (items : List WarehouseTransferItem) :
    receiveLines planned items = items.map fun l =>
      { l with receivedQuantity := ((planned.find? fun p => p.transferItem.id = l.id).map
        (·.nextReceived)).getD l.receivedQuantity } := by
  induction planned generalizing items with
  | nil => exact (List.map_id items).symm
  | cons p rest ih =>
      obtain ⟨hhead, htail⟩ := List.pairwise_cons.mp hdistinct
      show receiveLines rest (items.map _) = _
      rw [ih htail, List.map_map]
      refine List.map_congr_left fun l _ => ?_
      rw [Function.comp_apply, receiveLine_id, List.find?_cons]
      by_cases hid : p.transferItem.id = l.id
      · -- no other plan is for this line
        have hnone : rest.find? (fun q => decide (q.transferItem.id = l.id)) = none :=
          List.find?_eq_none.mpr fun q hq hk => hhead q hq (hid.trans (of_decide_eq_true hk).symm)
        rw [hnone]
        simp [receiveLine, hid]
      · simp only [hid, decide_false]
        rw [receiveLine_of_ne (Ne.symm hid)]

/-- The status the receipt gives is the one the lines have then. -/
theorem transferReceiptStatus_eq {t : WarehouseTransfer} (hdistinct : planned.Pairwise fun p q =>
      p.transferItem.id ≠ q.transferItem.id) :
    transferReceiptStatus t planned =
      if allReceived (receiveLines planned t.items) then .received else .partiallyReceived := by
  unfold transferReceiptStatus allReceived
  rw [receiveLines_eq hdistinct, List.all_map]
  rfl

/-- What the receipt books on a line is what the line received. -/
theorem received_receiveLines (h : PlanFor items planned) {l' : WarehouseTransferItem}
    (hl : l' ∈ receiveLines planned items) :
    ∃ l ∈ items, l'.id = l.id ∧ l'.receivedQuantity = l.receivedQuantity +
      itemQty (planned.map fun p =>
        { transferItemId := p.transferItem.id,
          inventoryItemId := p.transferItem.inventoryItemId, receivedQuantity := p.delta })
              l.id := by
  induction planned generalizing items with
  | nil => exact ⟨l', hl, rfl, (add_zero _).symm⟩
  | cons p rest ih =>
      obtain ⟨l₁, hl₁, hid, hreceived⟩ := ih h.tail hl
      obtain ⟨l, hlmem, rfl⟩ := List.mem_map.mp hl₁
      rw [receiveLine_id] at hid hreceived
      refine ⟨l, hlmem, hid, ?_⟩
      rw [hreceived]
      unfold itemQty
      rw [List.map_cons, List.map_cons, List.sum_cons]
      by_cases hp : l.id = p.transferItem.id
      · have heq : l = p.transferItem :=
          Lib.eq_of_key_of_ne h.lines hlmem (h.mem p List.mem_cons_self) hp
        rw [if_pos hp.symm, receiveLine, if_pos hp, h.next p List.mem_cons_self, heq]
        ring
      · rw [if_neg (Ne.symm hp), receiveLine_of_ne hp, zero_add]

end Lines

section Ledger

variable {stamp : Stamp} {A : Permit} {db db' : DB} {c c' : Config} {i : Id}
  {m : InventoryMovement}

theorem sameTransfers_of_outside (h : db'.outside = db.outside) : SameTransfers db db' := by
  have hreceipts := congrArg DB.transferReceipts h
  exact ⟨Sound.transfers_of_outside h, hreceipts⟩

theorem SameTransfers.trans {db'' : DB} (h : SameTransfers db db') (h' : SameTransfers db' db'') :
    SameTransfers db db'' :=
  ⟨h'.transfers.trans h.transfers, h'.receipts.trans h.receipts⟩

/-- An entry that is of no transfer leaves the transfers and their receipts alone. -/
theorem Step.elsewhere_of_not (hA : ¬ A.transfer) (h : Step stamp A c c') :
    SameTransfers c.db c'.db ∧ c.db.nextId ≤ c'.db.nextId := by
  cases h with
  | elsewhere hsame ht => exact ⟨ht, hsame.nextId⟩
  | transfers hA' _ _ => exact absurd hA' hA
  | receive e _ =>
      refine ⟨sameTransfers_of_outside (e.received.costed.outside.trans ?_), ?_⟩
      · exact DB.addStock_outside _ _ _ _
      · exact (DB.nextId_le_addStock _ _ _ _).trans
          ((Nat.le_succ _).trans e.received.costed.nextId)
  | issue e hissued _ _ =>
      exact ⟨sameTransfers_of_outside hissued.costed.outside,
        (Nat.le_succ _).trans hissued.costed.nextId⟩
  | note _ _ _ => exact ⟨⟨rfl, rfl⟩, Nat.le_succ _⟩
  | transferIn _ hA' _ => exact absurd hA' hA
  | reserve _ _ => exact ⟨⟨rfl, rfl⟩, Nat.le_succ _⟩
  | claim _ _ => exact ⟨⟨rfl, rfl⟩, le_refl _⟩
  | restore e _ =>
      exact ⟨sameTransfers_of_outside (DB.addStock_outside _ _ _ _),
        (DB.nextId_le_addStock _ _ _ _).trans (Nat.le_succ _)⟩
  | cost _ hissued =>
      exact ⟨sameTransfers_of_outside hissued.costed.outside, hissued.costed.nextId⟩

theorem otherDelta_append (h : db'.movements = db.movements ++ [m]) (i : Id) :
    otherDelta db' i = otherDelta db i + if m.inventoryItemId = i ∧ ¬ IsTransfer m then
      m.afterQuantity.getD 0 - m.beforeQuantity.getD 0 else 0 := by
  unfold otherDelta
  rw [h, List.map_append, List.sum_append, List.map_singleton, List.sum_singleton]

theorem shippedQty_append (h : db'.movements = db.movements ++ [m]) (transferId i : Id) :
    shippedQty db' transferId i = shippedQty db transferId i +
      if m.referenceType = some .warehouseTransferShipment ∧ m.referenceId = some transferId ∧
        m.inventoryItemId = i then m.quantity else 0 := by
  unfold shippedQty
  rw [h, List.map_append, List.sum_append, List.map_singleton, List.sum_singleton]

theorem SameRecord.shipment {n : InventoryMovement} (h : SameRecord m n) :
    n.referenceType = some .warehouseTransferShipment ↔
      m.referenceType = some .warehouseTransferShipment :=
  ⟨fun hn => (h.transfer (.inl (.inl hn))).symm.trans hn,
    fun hm => (h.transfer (.inr (.inl hm))).trans hm⟩

theorem SameRecord.isTransfer {n : InventoryMovement} (h : SameRecord m n) :
    IsTransfer n ↔ IsTransfer m := by
  constructor
  · intro hn
    unfold IsTransfer
    rw [← h.transfer (.inl hn)]
    exact hn
  · intro hm
    unfold IsTransfer
    rw [h.transfer (.inr hm)]
    exact hm

/-- An entry that is of no transfer changes the stock of an item by what it recorded, and
ships nothing. -/
theorem Moves.other (h : Moves A db db') (hA : ¬ A.transfer) :
    (∀ i, onHand db' i - otherDelta db' i = onHand db i - otherDelta db i) ∧
    (∀ id i, shippedQty db' id i = shippedQty db id i) ∧
    ∀ m' ∈ db'.movements, m'.referenceType = some .warehouseTransferShipment →
      ∃ m ∈ db.movements, m.referenceType = some .warehouseTransferShipment ∧
        m'.referenceId = m.referenceId := by
  cases h with
  | @none f hf hmov _ hhand =>
      refine ⟨fun i => ?_, fun id i => ?_, fun m' hm' href => ?_⟩
      · have hsame : otherDelta db' i = otherDelta db i := by
          unfold otherDelta
          rw [hmov, List.map_map]
          refine congrArg List.sum (List.map_congr_left fun m hm => ?_)
          obtain ⟨hbefore, hafter⟩ := Prod.mk.inj (hf m hm).recorded
          rw [Function.comp_apply, (hf m hm).item, hbefore, hafter]
          exact if_congr (and_congr_right fun _ => not_congr (hf m hm).isTransfer) rfl rfl
        rw [hhand, hsame]
      · unfold shippedQty
        rw [hmov, List.map_map]
        refine congrArg List.sum (List.map_congr_left fun m hm => ?_)
        rw [Function.comp_apply, (hf m hm).reference, (hf m hm).item, (hf m hm).quantity]
        exact if_congr (and_congr_left fun _ => (hf m hm).shipment) rfl rfl
      · rw [hmov] at hm'
        obtain ⟨m, hm, rfl⟩ := List.mem_map.mp hm'
        exact ⟨m, hm, (hf m hm).shipment.mp href, (hf m hm).reference⟩
  | @one m w i q hmov hw hi hbefore hafter hkind _ hhand =>
      have hno : ¬ IsTransfer m := fun hm => hA (hkind hm)
      have hship : m.referenceType ≠ some .warehouseTransferShipment := fun hm => hno (.inl hm)
      refine ⟨fun i' => ?_, fun id i' => ?_, fun m' hm' href => ?_⟩
      · rw [otherDelta_append hmov, hhand, hi, hbefore, hafter]
        simp only [hno, not_false_eq_true, and_true, Option.getD_some, add_sub_cancel_left]
        ring
      · rw [shippedQty_append hmov, if_neg fun hk => hship hk.1, add_zero]
      · rw [hmov] at hm'
        rcases List.mem_append.mp hm' with hm' | hm'
        · exact ⟨m', hm', href, rfl⟩
        · rw [List.mem_singleton.mp hm'] at href
          exact absurd href hship

/-- The stock rows and the movements are numbered. -/
structure LedgerKeyed (db : DB) : Prop where
  stocks : Lib.Keyed (·.id) db.nextId db.stocks
  movements : Lib.Keyed (·.id) db.nextId db.movements

theorem LedgerKeyed.shift (h : LedgerKeyed db) (id : Id) (q : ℚ) :
    LedgerKeyed (db.shiftStock id q) := by
  refine ⟨h.stocks.map fun r _ => ?_, h.movements⟩
  split <;> rfl

theorem LedgerKeyed.add (h : LedgerKeyed db) (w : Option Id) (i : Id) (q : ℚ) :
    LedgerKeyed (db.addStock w i q) := by
  unfold DB.addStock
  split
  · exact h.shift _ q
  · exact ⟨h.stocks.append rfl, h.movements.mono (Nat.le_succ _)⟩

theorem LedgerKeyed.costed {movementId : Id} (h : LedgerKeyed db) (hm : m.id = db.nextId)
    (hc : Costed movementId (db.record m) db') : LedgerKeyed db' := by
  obtain ⟨f, hf, hstocks⟩ := hc.stocks
  obtain ⟨unitCost, totalCost, hmov⟩ := hc.movements
  have hrecord : Lib.Keyed (·.id) (db.record m).nextId (db.record m).movements :=
    h.movements.append hm
  refine ⟨?_, ?_⟩
  · rw [hstocks]
    exact ((h.stocks.mono (Nat.le_succ _)).map fun r _ => (hf r).id).mono hc.nextId
  · rw [hmov]
    refine (hrecord.map fun r _ => ?_).mono hc.nextId
    split <;> rfl

end Ledger

section Lines

variable {stamp : Stamp} {db db' : DB} {tenantId receiptId : Id} {t : WarehouseTransfer}

/-- A transfer movement is recorded, and the stock of its item changes by `q`. -/
structure Recorded (m : InventoryMovement) (q : ℚ) (db db' : DB) : Prop where
  movements : db'.movements = db.movements ++ [m]
  kind : IsTransfer m
  hand : ∀ i, onHand db' i = onHand db i + if m.inventoryItemId = i then q else 0
  numbered : LedgerKeyed db'
  nextId : db.nextId ≤ db'.nextId

/-- Shipping a line takes it from the stock under a movement of the transfer. -/
theorem ShipLine.recorded {line : WarehouseTransferItem} (hk : LedgerKeyed db)
    (h : ShipLine stamp tenantId t line db db') :
    SameTransfers db db' ∧ ∃ m, Recorded m (-line.quantity) db db' ∧
      m.referenceType = some .warehouseTransferShipment ∧ m.referenceId = some t.id ∧
      m.inventoryItemId = line.inventoryItemId ∧ m.quantity = line.quantity := by
  obtain ⟨row, hsource, hissued⟩ := h.issued
  have hcosted : Costed db.nextId ((db.shiftStock row.id (-line.quantity)).record
      (shipment tenantId t line row db.nextId)) db' := hissued.costed
  obtain ⟨unitCost, totalCost, hmov⟩ := hcosted.recorded rfl hk.movements
  refine ⟨sameTransfers_of_outside hcosted.outside, _, ⟨hmov, .inl rfl, fun i => ?_, ?_, ?_⟩,
    rfl, rfl, rfl, rfl⟩
  · rw [onHand_costed hcosted]
    show onHand (db.shiftStock row.id (-line.quantity)) i = _
    rw [onHand_shift hk.stocks hsource.mem, hsource.item]
    rfl
  · exact (hk.shift row.id _).costed rfl hcosted
  · exact (Nat.le_succ _).trans hcosted.nextId

/-- Receiving a line brings it into the stock under a movement of the receipt, and writes
what the line has received. -/
theorem ReceiveLine.recorded {p : PlannedTransferItem} (hk : LedgerKeyed db)
    (h : ReceiveLine stamp tenantId t receiptId p db db') :
    SameTransfers (withReceived db t.id p.transferItem.id p.nextReceived) db' ∧
      ∃ m, Recorded m p.delta db db' ∧ m.referenceType = some .warehouseTransferReceipt ∧
        m.inventoryItemId = p.transferItem.inventoryItemId := by
  obtain ⟨source, movementId, -, hid, hreceived⟩ := h.received
  have hcosted := hreceived.costed
  have hwritten : LedgerKeyed (withReceived db t.id p.transferItem.id p.nextReceived) :=
    ⟨hk.stocks, hk.movements⟩
  have hadded := hwritten.add (some t.destinationWarehouseId) p.transferItem.inventoryItemId
    p.delta
  obtain ⟨unitCost, totalCost, hmov⟩ := hcosted.recorded hid.symm hadded.movements
  rw [DB.addStock_movements] at hmov
  refine ⟨?_, _, ⟨hmov, .inr rfl, fun i => ?_, ?_, ?_⟩, rfl, rfl⟩
  · exact sameTransfers_of_outside (hcosted.outside.trans (DB.addStock_outside _ _ _ _))
  · rw [onHand_costed hcosted]
    have hbefore : onHand (withReceived db t.id p.transferItem.id p.nextReceived) i =
        onHand db i := rfl
    rw [← hbefore]
    exact onHand_add hwritten.stocks _ _ i p.delta
  · exact hadded.costed rfl hcosted
  · have hle := DB.nextId_le_addStock (withReceived db t.id p.transferItem.id p.nextReceived)
      (some t.destinationWarehouseId) p.transferItem.inventoryItemId p.delta
    exact hle.trans ((Nat.le_succ _).trans hcosted.nextId)

theorem Recorded.otherDelta {m : InventoryMovement} {q : ℚ} (h : Recorded m q db db') (i : Id) :
    otherDelta db' i = otherDelta db i := by
  rw [otherDelta_append h.movements, if_neg fun hk => hk.2 h.kind, add_zero]

/-- What shipping some lines of a transfer does to the ledger. -/
structure LinesShipped (transferId : Id) (lines : List WarehouseTransferItem) (db db' : DB) :
    Prop where
  same : SameTransfers db db'
  hand : ∀ i, onHand db' i = onHand db i - lineQty lines i
  other : ∀ i, otherDelta db' i = otherDelta db i
  shipped : ∀ id i, shippedQty db' id i =
    shippedQty db id i + if transferId = id then lineQty lines i else 0
  references : ∀ m' ∈ db'.movements, m'.referenceType = some .warehouseTransferShipment →
    m' ∈ db.movements ∨ m'.referenceId = some transferId
  nextId : db.nextId ≤ db'.nextId

theorem linesShipped_of_chain {lines : List WarehouseTransferItem} (hk : LedgerKeyed db)
    (h : Chain (ShipLine stamp tenantId t) lines db db') : LinesShipped t.id lines db db' := by
  induction h with
  | nil =>
      refine ⟨⟨rfl, rfl⟩, fun i => (sub_zero _).symm, fun _ => rfl, fun id i => ?_,
        fun m hm _ => .inl hm, le_refl _⟩
      show _ = _ + if _ then (0 : ℚ) else 0
      rw [ite_self, add_zero]
  | @cons line rest db db₁ db₂ hline _ ih =>
      obtain ⟨hsame, m, hrecorded, hkind, href, hitem, hquantity⟩ := hline.recorded hk
      have hrest := ih hrecorded.numbered
      refine ⟨hsame.trans hrest.same, fun i => ?_, fun i => ?_, fun id i => ?_,
        fun m' hm' hship => ?_, hrecorded.nextId.trans hrest.nextId⟩
      · rw [hrest.hand, hrecorded.hand, hitem, lineQty, lineQty, List.map_cons, List.sum_cons]
        split <;> ring
      · rw [hrest.other, hrecorded.otherDelta]
      · rw [hrest.shipped, shippedQty_append hrecorded.movements, href, hitem, hquantity, hkind]
        by_cases hid : t.id = id
        · simp only [hid, if_true, true_and, lineQty, List.map_cons, List.sum_cons]
          ring
        · have hne : ¬ some t.id = some id := fun heq => hid (Option.some.inj heq)
          simp only [hid, hne, false_and, and_false, if_false, add_zero]
      · rcases hrest.references m' hm' hship with hmem | hmine
        · rw [hrecorded.movements] at hmem
          rcases List.mem_append.mp hmem with hmem | hmem
          · exact .inl hmem
          · rw [List.mem_singleton.mp hmem]
            exact .inr href
        · exact .inr hmine

/-- What receiving some lines of a transfer does to the ledger. -/
structure LinesReceived (transferId : Id) (planned : List PlannedTransferItem) (db db' : DB) :
    Prop where
  transfers : db'.transfers = db.transfers.map fun row =>
    if row.id = transferId then { row with items := receiveLines planned row.items } else row
  receipts : db'.transferReceipts = db.transferReceipts
  hand : ∀ i, onHand db' i = onHand db i + plannedQty planned i
  other : ∀ i, otherDelta db' i = otherDelta db i
  shipped : ∀ id i, shippedQty db' id i = shippedQty db id i
  references : ∀ m' ∈ db'.movements, m'.referenceType = some .warehouseTransferShipment →
    m' ∈ db.movements
  nextId : db.nextId ≤ db'.nextId

theorem linesReceived_of_chain {planned : List PlannedTransferItem} (hk : LedgerKeyed db)
    (h : Chain (ReceiveLine stamp tenantId t receiptId) planned db db') :
    LinesReceived t.id planned db db' := by
  induction h with
  | nil =>
      refine ⟨?_, rfl, fun i => (add_zero _).symm, fun _ => rfl, fun _ _ => rfl,
        fun m hm _ => hm, le_refl _⟩
      refine ((List.map_congr_left fun row _ => ?_).trans (List.map_id _)).symm
      exact ite_self row
  | @cons p rest db db₁ db₂ hline _ ih =>
      obtain ⟨hsame, m, hrecorded, hkind, hitem⟩ := hline.recorded hk
      have hrest := ih hrecorded.numbered
      have hship : m.referenceType ≠ some .warehouseTransferShipment := by
        rw [hkind]
        decide
      refine ⟨?_, hrest.receipts.trans hsame.receipts, fun i => ?_, fun i => ?_, fun id i => ?_,
        fun m' hm' href => ?_, hrecorded.nextId.trans hrest.nextId⟩
      · rw [hrest.transfers, hsame.transfers]
        unfold withReceived DB.updateTransfers
        rw [List.map_map]
        refine List.map_congr_left fun row _ => ?_
        by_cases hid : row.id = t.id
        · simp only [Function.comp, hid, decide_true, if_true]
          rfl
        · simp only [Function.comp, hid, decide_false, Bool.false_eq_true, if_false]
      · rw [hrest.hand, hrecorded.hand, hitem, plannedQty, plannedQty, List.map_cons,
          List.sum_cons, add_assoc]
      · rw [hrest.other, hrecorded.otherDelta]
      · rw [hrest.shipped, shippedQty_append hrecorded.movements, if_neg fun hk => hship hk.1,
          add_zero]
      · have hmem := hrest.references m' hm' href
        rw [hrecorded.movements] at hmem
        rcases List.mem_append.mp hmem with hmem | hmem
        · exact hmem
        · rw [List.mem_singleton.mp hmem] at href
          exact absurd href hship

end Lines

end Inventory
end ERP
