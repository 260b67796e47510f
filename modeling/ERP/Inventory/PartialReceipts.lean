import ERP.Inventory.Restoring
import ERP.Inventory.TransferRefinement

/-!
# Receiving a shipment in parts

Each receipt copies the costs of the shipped allocations from where the receipts before it
stopped.  Over a whole run the copies are the front of the shipped allocations, whatever
else is done in between.
-/

namespace ERP
namespace Inventory

open Lib.Tx

/-- What a receipt copies of which allocation, when `received` units were copied before. -/
def copiedPieces (rows : List InventoryMovementCostAllocation) (received quantity : ℚ) :
    List (InventoryMovementCostAllocation × ℚ) :=
  (Lib.draw (fun e : InventoryMovementCostAllocation × ℚ => e.2)
    (Lib.left (·.quantity) rows received) quantity).map fun e => (e.1.1, e.2)

/-- The cost a piece of an allocation is copied as. -/
def copyOf (e : InventoryMovementCostAllocation × ℚ) : CostAllocation :=
  { costLayerId := none, quantity := e.2, unitCost := e.1.unitCost }

section Copies

variable {rows : List InventoryMovementCostAllocation} {skip q : ℚ}

theorem copiedPieces_nil (skip q : ℚ) : copiedPieces [] skip q = [] := rfl

theorem copiedPieces_of_nonpos (hq : q ≤ 0) : copiedPieces rows skip q = [] := by
  unfold copiedPieces
  rw [Lib.draw_of_nonpos hq]
  rfl

theorem copiedPieces_skip {row : InventoryMovementCostAllocation} (hrow : 0 < row.quantity)
    (h : row.quantity ≤ skip) :
    copiedPieces (row :: rows) skip q = copiedPieces rows (skip - row.quantity) q := by
  unfold copiedPieces
  rw [Lib.left_cons_of_le rows (hrow.trans_le h) h]

theorem copiedPieces_take {row : InventoryMovementCostAllocation} (hskip : 0 ≤ skip)
    (h : skip < row.quantity) (hq : 0 < q) :
    copiedPieces (row :: rows) skip q = (row, min (row.quantity - skip) q) ::
      copiedPieces rows 0 (q - min (row.quantity - skip) q) := by
  have hleft : Lib.left (·.quantity) (row :: rows) skip =
      (row, row.quantity - skip) :: Lib.left (·.quantity) rows 0 := by
    rw [show Lib.left (·.quantity) rows 0 = _ from Lib.left_of_nonpos (le_refl 0)]
    rcases eq_or_lt_of_le hskip with rfl | hpos
    · rw [Lib.left_of_nonpos (le_refl 0), sub_zero]
      rfl
    · exact Lib.left_cons_of_lt rows hpos h
  unfold copiedPieces
  rw [hleft, Lib.draw_cons _ _ hq]
  rfl

/-- The loop of the source copies the pieces, and misses what they fall short of. -/
theorem copyAllocations_eq (hpos : ∀ row ∈ rows, 0 < row.quantity) (hskip : 0 ≤ skip) :
    copyAllocations rows skip q =
      (q - Lib.drawn (copiedPieces rows skip q), (copiedPieces rows skip q).map copyOf) := by
  induction rows generalizing skip q with
  | nil =>
      rw [copiedPieces_nil]
      show (q, []) = (q - 0, [])
      rw [sub_zero]
  | cons row rest ih =>
      have hrow := hpos row List.mem_cons_self
      have hrest : ∀ r ∈ rest, 0 < r.quantity := fun r hr => hpos r (List.mem_cons_of_mem row hr)
      unfold copyAllocations
      by_cases hq : q ≤ 0
      · rw [if_pos hq, copiedPieces_of_nonpos hq]
        show (q, []) = (q - 0, [])
        rw [sub_zero]
      · rw [if_neg hq]
        by_cases hle : row.quantity ≤ skip
        · rw [if_pos hle, ih hrest (by linarith), copiedPieces_skip hrow hle]
        · rw [if_neg hle, copiedPieces_take hskip (lt_of_not_ge hle) (lt_of_not_ge hq)]
          dsimp only
          rw [ih hrest (le_refl 0)]
          refine Prod.ext ?_ rfl
          show q - min (row.quantity - skip) q - Lib.drawn _ = q - Lib.drawn (_ :: _)
          unfold Lib.drawn
          rw [List.map_cons, List.sum_cons]
          ring

/-- What the pieces amount to. -/
theorem drawn_copiedPieces (hpos : ∀ row ∈ rows, 0 < row.quantity) (hskip : 0 ≤ skip)
    (hle : skip ≤ (rows.map (·.quantity)).sum) (hq : 0 ≤ q) :
    Lib.drawn (copiedPieces rows skip q) = min q ((rows.map (·.quantity)).sum - skip) := by
  have hleft (e : InventoryMovementCostAllocation × ℚ)
      (he : e ∈ Lib.left (·.quantity) rows skip) : 0 ≤ e.2 := by
    exact le_of_lt (Lib.left_pos hpos he)
  have hdrawn := Lib.drawn_draw hleft hq
  rw [Lib.sum_left hpos hskip hle] at hdrawn
  rw [← hdrawn]
  unfold copiedPieces Lib.drawn
  rw [List.map_map]
  rfl

/-- The pieces copied before and those copied now are the front of the rows. -/
theorem joined_copiedPieces (hpos : ∀ row ∈ rows, 0 < row.quantity) (hnodup : rows.Nodup)
    (hskip : 0 ≤ skip) (hq : 0 ≤ q) {before : List (InventoryMovementCostAllocation × ℚ)}
    (hbefore : Lib.joined before = Lib.draw (·.quantity) rows skip) :
    Lib.joined (before ++ copiedPieces rows skip q) = Lib.draw (·.quantity) rows (skip + q) := by
  rw [← Lib.joined_append, hbefore]
  exact Lib.joined_draw_left hpos hnodup hskip hq

end Copies

/-- A movement of a FIFO item that was issued at the cost of its allocations. -/
structure Shipment (db : DB) (tenantId itemId movementId : Id) (item : InventoryItem)
    (source : InventoryMovement) : Prop where
  locked : Locked db tenantId itemId item
  fifo : item.valuationMethod = some .fifo
  found : db.movementById movementId = some source
  unitCost : source.unitCost ≠ none
  totalCost : source.totalCost =
    some ((db.allocationsOf movementId).map fun row => row.quantity * row.unitCost).sum
  positive : ∀ row ∈ db.allocationsOf movementId, 0 < row.quantity
  references : References db movementId

/-- What was shipped. -/
def shippedQuantity (db : DB) (movementId : Id) : ℚ :=
  ((db.allocationsOf movementId).map (·.quantity)).sum

/-- The stock and the movement of a receipt, as they are written before it is costed. -/
structure TransferCall (db : DB) where
  input : ReceiveTransferInput
  movement : InventoryMovement
  quantity_pos : 0 < input.quantity
  written : Written movement
    (db.addStock (some input.warehouseId) input.inventoryItemId input.quantity).nextId
    input.tenantId (some input.warehouseId) input.inventoryItemId
    (db.stockBefore (some input.warehouseId) input.inventoryItemId)
    (db.stockBefore (some input.warehouseId) input.inventoryItemId + input.quantity)
  movementId : input.movementId = movement.id
  kind : movement.referenceType = some .warehouseTransferReceipt

/-- The database `receiveTransfer` is called on. -/
def TransferCall.booked {db : DB} (e : TransferCall db) : DB :=
  (db.addStock (some e.input.warehouseId) e.input.inventoryItemId e.input.quantity).record
    e.movement

/-- A receipt as the database shows it: its quantity, the layers it opened and the cost on
its movement. -/
structure BookedReceipt where
  quantity : ℚ
  opened : List InventoryCostLayer
  totalCost : Option ℚ

def TransferCall.receipt {db : DB} (e : TransferCall db) (db' : DB) : BookedReceipt where
  quantity := e.input.quantity
  opened := db'.layers.drop db.layers.length
  totalCost := (db'.movementById e.input.movementId).bind (·.totalCost)

def receivedSoFar (receipts : List BookedReceipt) : ℚ := (receipts.map (·.quantity)).sum

/-- The call is for the next part of the shipment. -/
structure TransferCall.Next {db : DB} (e : TransferCall db) (tenantId itemId movementId : Id)
    (receipts : List BookedReceipt) : Prop where
  tenant : e.input.tenantId = tenantId
  item : e.input.inventoryItemId = itemId
  source : e.input.sourceMovementId = movementId
  received : e.input.alreadyReceived = receivedSoFar receipts

/-- The receipts of a shipment, with any other entries of the ledger between them. -/
inductive ReceivedInParts (stamp : Stamp) (tenantId itemId movementId : Id) (start : DB) :
    List BookedReceipt → DB → Prop
  | shipped : ReceivedInParts stamp tenantId itemId movementId start [] start
  | other {receipts db db'} (h : ReceivedInParts stamp tenantId itemId movementId start receipts db)
      (hrun : Run stamp .all ⟨db, []⟩ ⟨db', []⟩) :
      ReceivedInParts stamp tenantId itemId movementId start receipts db'
  | receipt {receipts db db'} (h : ReceivedInParts stamp tenantId itemId movementId
        start receipts db)
      (e : TransferCall db) (hnext : e.Next tenantId itemId movementId receipts)
      (hok : receiveTransfer stamp e.input e.booked = .ok ((), db')) :
      ReceivedInParts stamp tenantId itemId movementId start (receipts ++ [e.receipt db']) db'

/-- The pieces are the front of the rows, up to `quantity`. -/
def IsFront (rows : List InventoryMovementCostAllocation) (quantity : ℚ)
    (pieces : List (InventoryMovementCostAllocation × ℚ)) : Prop :=
  quantity = 0 ∧ pieces = [] ∨ ∃ done last later part, rows = done ++ last :: later ∧
    0 < part ∧ part ≤ last.quantity ∧ (done.map (·.quantity)).sum + part = quantity ∧
    pieces = (done.map fun row => (row, row.quantity)) ++ [(last, part)]

section Receiving

variable {stamp : Stamp} {db db' start : DB} {input : ReceiveTransferInput} {item : InventoryItem}
  {source : InventoryMovement} {tenantId itemId movementId : Id} {receipts : List BookedReceipt}

/-- The database after a receipt of a FIFO item. -/
def afterReceipt (stamp : Stamp) (db : DB) (input : ReceiveTransferInput) (item : InventoryItem)
    (unitCost : ℚ) : DB :=
  freeze stamp ((openLayersFor db (transferReceipt input unitCost)
    (copiedCosts stamp db input)).setMovementCost input.movementId
    (allocatedCost (copiedCosts stamp db input) / input.quantity)
    (allocatedCost (copiedCosts stamp db input))) item

theorem post_expect_some {α : Type} {a : α} {e : Failure} {Q : α → DB → Prop}
    {E : Failure → Prop} : Post (expect (some a) e) db Q E ↔ Q a db := by
  rw [post_expect]
  refine ⟨fun h => h.1 a rfl, fun h => ⟨fun b hb => ?_, fun hnone => nomatch hnone⟩⟩
  rw [← Option.some.inj hb]
  exact h

/-- A receipt of a FIFO item copies what the shipment covers, or fails. -/
theorem receiveTransfer_fifo (stamp : Stamp)
    (hitem : Locked db input.tenantId input.inventoryItemId item)
    (hfifo : item.valuationMethod = some .fifo)
    (hsource : db.movementById input.sourceMovementId = some source) {unitCost : ℚ}
    (hunit : source.unitCost = some unitCost) (htotal : source.totalCost ≠ none)
    (hq : 0 < input.quantity) :
    receiveTransfer stamp input db =
      if (copyAllocations (shippedAllocations stamp db input) input.alreadyReceived
          input.quantity).1 ≤ 0 then
        .ok ((), afterReceipt stamp db input item unitCost)
      else .error .transferCostDoesNotCover := by
  have hrows : Lib.orderBy (allocationKey stamp db) (db.allocationsOf input.sourceMovementId) =
      shippedAllocations stamp db input := rfl
  by_cases hcover : (copyAllocations (shippedAllocations stamp db input) input.alreadyReceived
      input.quantity).1 ≤ 0
  · rw [if_pos hcover]
    refine Post.eq_ok ?_
    unfold receiveTransfer
    rw [post_bind]
    refine post_of_run (lockItem_run hitem) ?_
    simp only [post_bind, post_get, hsource, hunit, post_expect_some, post_require, if_pos hfifo]
    refine ⟨fun _ => ⟨fun _ => ?_, fun hno => absurd hcover fun h => hno (not_lt.mpr h)⟩,
      fun hno => hno htotal⟩
    refine createLayers_post ?_
    unfold decimalDiv
    simp only [post_bind, post_require, post_pure, post_modify]
    exact ⟨fun _ => lockValuation_post ⟨trivial, rfl⟩, fun hzero => hzero (ne_of_gt hq)⟩
  · rw [if_neg hcover]
    refine Post.eq_error ?_
    unfold receiveTransfer
    rw [post_bind]
    refine post_of_run (lockItem_run hitem) ?_
    simp only [post_bind, post_get, hsource, hunit, post_expect_some, post_require, if_pos hfifo,
      hrows]
    exact ⟨fun _ => ⟨fun hno => absurd (not_lt.mp hno) hcover, fun _ => trivial⟩,
      fun hno => absurd htotal hno⟩

theorem movementById_setMovementCost (db : DB) (id : Id) (unitCost totalCost : ℚ) :
    (db.setMovementCost id unitCost totalCost).movementById id =
      (db.movementById id).map fun row =>
        { row with unitCost := some unitCost, totalCost := some totalCost } := by
  unfold DB.movementById DB.setMovementCost
  rw [List.find?_map]
  have hsame : ((fun row : InventoryMovement => decide (row.id = id)) ∘ fun row =>
      if row.id = id then { row with unitCost := some unitCost, totalCost := some totalCost }
      else row) = fun row => decide (row.id = id) := by
    funext row
    simp only [Function.comp]
    split <;> rfl
  rw [hsame]
  cases hfound : db.movements.find? fun row => row.id = id with
  | none => rfl
  | some row =>
      have hid : row.id = id := by simpa using List.find?_some hfound
      rw [Option.map_some, Option.map_some, if_pos hid]

/-- Issuing a movement of a FIFO item makes it a shipment. -/
theorem Shipment.of_issue {input : IssueInput} {r : InventoryIssueCost} {m : InventoryMovement}
    (hitem : Locked db input.tenantId input.inventoryItemId item)
    (hfifo : item.valuationMethod = some .fifo) (hq : 0 < input.quantity)
    (hmovement : db.movementById input.movementId = some m)
    (hnew : db.allocationsOf input.movementId = [])
    (hsources : ∀ l ∈ db.layers, ∀ id, l.sourceMovementId = some id → (db.movementById id).isSome)
    (hok : issue stamp input db = .ok (r, db')) :
    ∃ item' source', Shipment db' input.tenantId input.inventoryItemId input.movementId item'
      source' := by
  rw [issue_fifo hitem hfifo hq] at hok
  split at hok
  case isFalse => cases hok
  case isTrue hcover =>
    cases hok
    obtain ⟨g, hg, hitems⟩ := afterIssue_items stamp db input item
    obtain ⟨rows, happend, hrows⟩ := afterIssue_allocations stamp db input item
    have hmovements : (afterIssue stamp db input item).movementById input.movementId =
        ((db.setMovementCost input.movementId (fifoCost stamp db input).unitCost
          (fifoCost stamp db input).totalCost)).movementById input.movementId := by
      unfold DB.movementById
      rw [afterIssue_movements]
    rw [movementById_setMovementCost, hmovement] at hmovements
    -- the rows of the movement are those the issue wrote
    have hof (row : InventoryMovementCostAllocation) (hrow : row ∈ rows) :
        row.movementId = input.movementId ∧
          (⟨row.costLayerId, row.quantity, row.unitCost⟩ : CostAllocation) ∈
            fifoCharges stamp db input := by
      have hmem := List.mem_map_of_mem (f := fun row : InventoryMovementCostAllocation =>
        (row.movementId, (⟨row.costLayerId, row.quantity, row.unitCost⟩ : CostAllocation))) hrow
      rw [hrows] at hmem
      obtain ⟨a, ha, heq⟩ := List.mem_map.mp hmem
      rw [Prod.mk.injEq] at heq
      exact ⟨heq.1.symm, heq.2 ▸ ha⟩
    have hrowsOf : (afterIssue stamp db input item).allocationsOf input.movementId = rows := by
      unfold DB.allocationsOf at hnew ⊢
      rw [happend, List.filter_append, hnew, List.nil_append]
      exact List.filter_eq_self.mpr fun row hrow => decide_eq_true (hof row hrow).1
    have hcharge (row : InventoryMovementCostAllocation) (hrow : row ∈ rows) :
        ∃ l ∈ db.layers, row.costLayerId = some l.id ∧ 0 < row.quantity := by
      obtain ⟨e, he, heq⟩ := List.mem_map.mp (hof row hrow).2
      have hlayer : some e.1.id = row.costLayerId := congrArg CostAllocation.costLayerId heq
      have hquantity : e.2 = row.quantity := congrArg CostAllocation.quantity heq
      refine ⟨e.1, (mem_openLayers.mp (Lib.mem_of_mem_draw he)).1, hlayer.symm, ?_⟩
      rw [← hquantity]
      exact Lib.pos_of_mem_draw openLayers_pos he
    refine ⟨g item, _, hitem.of_items hg hitems, (hg item).method.trans hfifo, hmovements,
      Option.some_ne_none _, ?_, ?_, ?_, ?_⟩
    · have hcost := congrArg (fun rows => (rows.map fun x : Id × CostAllocation =>
        x.2.quantity * x.2.unitCost).sum) hrows
      simp only [List.map_map] at hcost
      rw [hrowsOf]
      exact congrArg some hcost.symm
    · intro row hrow
      rw [hrowsOf] at hrow
      obtain ⟨l, -, -, hpos⟩ := hcharge row hrow
      exact hpos
    · intro row hrow id hid
      rw [hrowsOf] at hrow
      obtain ⟨l, hl, hlayer, -⟩ := hcharge row hrow
      unfold DB.layerById
      rw [List.find?_isSome, afterIssue_layers]
      refine ⟨_, List.mem_map_of_mem hl, decide_eq_true ?_⟩
      exact Option.some.inj (hlayer.symm.trans hid)
    · intro l hl id hid
      rw [afterIssue_layers] at hl
      obtain ⟨l₀, hl₀, rfl⟩ := List.mem_map.mp hl
      obtain ⟨m₀, hm₀⟩ := Option.isSome_iff_exists.mp (hsources l₀ hl₀ id hid)
      unfold DB.movementById at hm₀ ⊢
      rw [List.find?_isSome, afterIssue_movements]
      refine ⟨_, List.mem_map.mpr ⟨m₀, List.mem_of_find?_eq_some hm₀, rfl⟩, decide_eq_true ?_⟩
      have hid₀ : m₀.id = id := by simpa using List.find?_some hm₀
      split <;> exact hid₀

theorem TransferCall.extends_booked (e : TransferCall db) : Extends db e.booked := by
  have hmov := congrArg (· ++ [e.movement]) (DB.addStock_movements db (some e.input.warehouseId)
    e.input.inventoryItemId e.input.quantity)
  exact .of_eq (DB.addStock_items _ _ _ _) (DB.addStock_layers _ _ _ _)
    (.of_append SameMovement.refl hmov) (DB.addStock_allocations _ _ _ _)

/-- A receipt opens the layers of its copies, and the movement shows what they cost. -/
theorem TransferCall.receipt_eq (stamp : Stamp) (e : TransferCall db) (hs : Sound ⟨db, []⟩)
    (item : InventoryItem) (unitCost : ℚ) :
    (e.receipt (afterReceipt stamp e.booked e.input item unitCost)).opened.map
        (fun l => (l.receivedQuantity, l.unitCost)) =
      (copiedCosts stamp e.booked e.input).map (fun a => (a.quantity, a.unitCost)) ∧
    (e.receipt (afterReceipt stamp e.booked e.input item unitCost)).totalCost =
      some (allocatedCost (copiedCosts stamp e.booked e.input)) := by
  constructor
  · obtain ⟨opened, happend, hopened⟩ := openLayersFor_append e.booked
      (transferReceipt e.input unitCost) (copiedCosts stamp e.booked e.input)
    have hlayers : e.booked.layers = db.layers := DB.addStock_layers _ _ _ _
    unfold TransferCall.receipt afterReceipt
    dsimp only
    rw [freeze_layers, DB.setMovementCost_layers, happend, hlayers, List.drop_left, hopened]
  · have hstocked := hs.addStock (w := some e.input.warehouseId) (i := e.input.inventoryItemId)
      (le_of_lt e.quantity_pos)
    have hkeyed : Lib.Keyed (·.id) _ e.booked.movements := hstocked.movementIds.append e.written.id
    have hfound : e.booked.movementById e.input.movementId = some e.movement := by
      rw [e.movementId]
      exact hkeyed.find?_eq (List.mem_append_right _ List.mem_cons_self)
    have hbooked : (openLayersFor e.booked (transferReceipt e.input unitCost)
        (copiedCosts stamp e.booked e.input)).movementById e.input.movementId =
        some e.movement := by
      rw [← hfound]
      unfold DB.movementById
      rw [openLayersFor_movements]
    unfold TransferCall.receipt afterReceipt
    dsimp only
    have hfreeze (db : DB) : (freeze stamp db item).movementById e.input.movementId =
        db.movementById e.input.movementId := by
      unfold DB.movementById
      rw [freeze_movements]
    rw [hfreeze, movementById_setMovementCost, hbooked]
    rfl

/-- What the receipts so far copied of a shipment. -/
structure CopiedSoFar (stamp : Stamp) (start : DB) (movementId : Id)
    (receipts : List BookedReceipt) (db : DB) : Prop where
  sound : Sound ⟨db, []⟩
  extended : Extends start db
  received_nonneg : 0 ≤ receivedSoFar receipts
  received_le : receivedSoFar receipts ≤ shippedQuantity start movementId
  pieces : ∃ pieces : List (InventoryMovementCostAllocation × ℚ),
    (receipts.flatMap (·.opened)).map (fun l => (l.receivedQuantity, l.unitCost)) =
      pieces.map (fun e => (e.2, e.1.unitCost)) ∧
    Lib.joined pieces =
      Lib.draw (·.quantity) (orderedAllocations stamp start movementId) (receivedSoFar receipts) ∧
    ∃ costs : List ℚ, receipts.map (·.totalCost) = costs.map some ∧
      costs.sum = (pieces.map fun e => e.2 * e.1.unitCost).sum

theorem Shipment.totalCost_ne (hship : Shipment start tenantId itemId movementId item source) :
    source.totalCost ≠ none := by
  rw [hship.totalCost]
  exact Option.some_ne_none _

theorem Shipment.ordered_pos (hship : Shipment start tenantId itemId movementId item source) :
    ∀ row ∈ orderedAllocations stamp start movementId,
    0 < row.quantity :=
  fun row hrow => hship.positive row (Lib.mem_orderBy.mp hrow)

theorem orderedAllocations_nodup (hs : Sound ⟨start, []⟩) :
    (orderedAllocations stamp start movementId).Nodup := by
  have hall : start.allocations.Nodup := hs.allocationIds.sorted.imp fun hlt heq =>
    Nat.ne_of_lt hlt (congrArg InventoryMovementCostAllocation.id heq)
  have hrows : (start.allocationsOf movementId).Nodup := hall.filter _
  exact (Lib.orderBy_perm _ _).nodup_iff.mpr hrows

theorem sum_orderedAllocations (f : InventoryMovementCostAllocation → ℚ) :
    ((orderedAllocations stamp start movementId).map f).sum =
      ((start.allocationsOf movementId).map f).sum :=
  ((Lib.orderBy_perm _ _).map f).sum_eq

/-- The next call of a run finds the item, and its copies are pieces of the shipment. -/
theorem Shipment.call (hship : Shipment start tenantId itemId movementId item source)
    (hcopied : CopiedSoFar stamp start movementId receipts db)
    (e : TransferCall db) (hnext : e.Next tenantId itemId movementId receipts) :
    ∃ item' unitCost,
      copyAllocations (shippedAllocations stamp e.booked e.input) e.input.alreadyReceived
        e.input.quantity =
        (e.input.quantity - min e.input.quantity
            (shippedQuantity start movementId - receivedSoFar receipts),
          (copiedPieces (orderedAllocations stamp start movementId) (receivedSoFar receipts)
            e.input.quantity).map copyOf) ∧
      Locked e.booked e.input.tenantId e.input.inventoryItemId item' ∧
      item'.valuationMethod = some .fifo ∧
      ∃ source', e.booked.movementById e.input.sourceMovementId = some source' ∧
        source'.unitCost = some unitCost ∧ source'.totalCost ≠ none := by
  have hbooked : Extends start e.booked := hcopied.extended.trans e.extends_booked
  obtain ⟨g, hg, hitems⟩ := hbooked.items
  obtain ⟨source', hfound, hsame⟩ := hbooked.movementById hship.found
  obtain ⟨unitCost, hunit⟩ := Option.ne_none_iff_exists'.mp hship.unitCost
  obtain ⟨hunit', htotal'⟩ := hsame.cost hship.totalCost_ne
  refine ⟨g item, unitCost, ?_, ?_, ?_, source', ?_, hunit'.trans hunit, ?_⟩
  · have hrows : shippedAllocations stamp e.booked e.input =
        orderedAllocations stamp start movementId := by
      rw [← hbooked.orderedAllocations hship.references hship.found hship.totalCost_ne,
        ← hnext.source]
      rfl
    have hle : receivedSoFar receipts ≤
        ((orderedAllocations stamp start movementId).map (·.quantity)).sum := by
      rw [sum_orderedAllocations]
      exact hcopied.received_le
    rw [hrows, hnext.received, copyAllocations_eq hship.ordered_pos hcopied.received_nonneg,
      drawn_copiedPieces hship.ordered_pos hcopied.received_nonneg hle (le_of_lt e.quantity_pos),
      sum_orderedAllocations]
    rfl
  · rw [hnext.tenant, hnext.item]
    exact hship.locked.of_items hg hitems
  · rw [(hg item).method]
    exact hship.fifo
  · rw [hnext.source]
    exact hfound
  · rw [htotal']
    exact hship.totalCost_ne

theorem receivedSoFar_append (receipts : List BookedReceipt) (r : BookedReceipt) :
    receivedSoFar (receipts ++ [r]) = receivedSoFar receipts + r.quantity := by
  unfold receivedSoFar
  rw [List.map_append, List.sum_append, List.map_singleton, List.sum_singleton]

/-- A call succeeds exactly when what it asks for is left of the shipment. -/
theorem Shipment.call_run (hship : Shipment start tenantId itemId movementId item source)
    (hcopied : CopiedSoFar stamp start movementId receipts db) (e : TransferCall db)
    (hnext : e.Next tenantId itemId movementId receipts) :
    ∃ item' unitCost,
      receiveTransfer stamp e.input e.booked =
        (if receivedSoFar receipts + e.input.quantity ≤ shippedQuantity start movementId then
          .ok ((), afterReceipt stamp e.booked e.input item' unitCost)
        else .error .transferCostDoesNotCover) ∧
      copiedCosts stamp e.booked e.input =
        (copiedPieces (orderedAllocations stamp start movementId) (receivedSoFar receipts)
          e.input.quantity).map copyOf ∧
      (receivedSoFar receipts + e.input.quantity ≤ shippedQuantity start movementId →
        ReceivedTransfer stamp e.input e.booked
          (afterReceipt stamp e.booked e.input item' unitCost)) := by
  obtain ⟨item', unitCost, hcopy, hlocked, hfifo, source', hfound, hunit, htotal⟩ :=
    hship.call hcopied e hnext
  have hcover : (copyAllocations (shippedAllocations stamp e.booked e.input)
      e.input.alreadyReceived e.input.quantity).1 ≤ 0 ↔
      receivedSoFar receipts + e.input.quantity ≤ shippedQuantity start movementId := by
    rw [hcopy, sub_nonpos, le_min_iff]
    constructor
    · intro h
      linarith [h.2]
    · intro h
      exact ⟨le_refl _, by linarith⟩
  have hrun := receiveTransfer_fifo stamp hlocked hfifo hfound hunit htotal
    e.quantity_pos
  refine ⟨item', unitCost, ?_, congrArg (·.2) hcopy, fun hle => ?_⟩
  · rw [hrun]
    simp only [hcover]
  · exact .fifo hlocked hfifo hfound hunit (ne_of_gt e.quantity_pos) (hcover.mpr hle)

theorem CopiedSoFar.none (hs : Sound ⟨start, []⟩)
    (hship : Shipment start tenantId itemId movementId item source) :
    CopiedSoFar stamp start movementId [] start := by
  have hnonneg : 0 ≤ shippedQuantity start movementId := by
    refine List.sum_nonneg fun q hq => ?_
    obtain ⟨row, hrow, rfl⟩ := List.mem_map.mp hq
    exact le_of_lt (hship.positive row hrow)
  refine ⟨hs, .refl start, le_refl 0, hnonneg, [], rfl, ?_, [], rfl, rfl⟩
  exact (Lib.draw_of_nonpos (le_refl 0)).symm

theorem CopiedSoFar.receipt (hs : Sound ⟨start, []⟩)
    (hship : Shipment start tenantId itemId movementId item source)
    (hcopied : CopiedSoFar stamp start movementId receipts db) (e : TransferCall db)
    (hnext : e.Next tenantId itemId movementId receipts)
    (hok : receiveTransfer stamp e.input e.booked = .ok ((), db')) :
    CopiedSoFar stamp start movementId (receipts ++ [e.receipt db']) db' := by
  obtain ⟨item', unitCost, hrun, hcosts, hreceived⟩ := hship.call_run hcopied e hnext
  rw [hrun] at hok
  split at hok
  case isFalse => cases hok
  case isTrue hle =>
    cases hok
    obtain ⟨hopened, htotal⟩ := e.receipt_eq stamp hcopied.sound item' unitCost
    rw [hcosts, List.map_map] at hopened
    rw [hcosts] at htotal
    obtain ⟨pieces, hpieces, hjoined, costs, htotals, hsum⟩ := hcopied.pieces
    have hstep : Step stamp .all ⟨db, []⟩
        ⟨afterReceipt stamp e.booked e.input item' unitCost, []⟩ :=
      .transferIn ⟨e.input, e.movement, le_of_lt e.quantity_pos, e.written, e.movementId, e.kind,
        hreceived hle⟩ trivial fun _ _ => trivial
    have hquantity : receivedSoFar (receipts ++
        [e.receipt (afterReceipt stamp e.booked e.input item' unitCost)]) =
        receivedSoFar receipts + e.input.quantity := receivedSoFar_append receipts _
    refine ⟨hcopied.sound.step hstep, hcopied.extended.trans (hstep.extends hcopied.sound), ?_, ?_,
      pieces ++ copiedPieces (orderedAllocations stamp start movementId)
        (receivedSoFar receipts) e.input.quantity, ?_, ?_,
      costs ++ [allocatedCost ((copiedPieces (orderedAllocations stamp start movementId)
        (receivedSoFar receipts) e.input.quantity).map copyOf)], ?_, ?_⟩
    · rw [hquantity]
      exact add_nonneg hcopied.received_nonneg (le_of_lt e.quantity_pos)
    · rw [hquantity]
      exact hle
    · rw [List.flatMap_append, List.map_append, hpieces, List.map_append, List.flatMap_singleton,
        hopened]
      rfl
    · rw [hquantity]
      exact joined_copiedPieces hship.ordered_pos (orderedAllocations_nodup hs)
        hcopied.received_nonneg (le_of_lt e.quantity_pos) hjoined
    · rw [List.map_append, htotals, List.map_singleton, htotal, List.map_append,
        List.map_singleton]
    · rw [List.sum_append, hsum, List.map_append, List.sum_append, List.sum_singleton]
      unfold allocatedCost
      rw [List.map_map]
      rfl

theorem post_run {α : Type} {m : Tx α} {Q : α → DB → Prop}
    (h : ∀ a db', m db = .ok (a, db') → Q a db') : Post m db Q fun _ => True := by
  unfold Post
  cases hm : m db with
  | error e => trivial
  | ok p => exact h p.1 p.2 hm

/-- A line that `receive` books is the next receipt of its shipment. -/
theorem ReceivedInParts.receiveItem_post {receiptId : Id} {transfer : WarehouseTransfer}
    {p : PlannedTransferItem} (hs : Sound ⟨db, []⟩)
    (h : ReceivedInParts stamp tenantId itemId movementId start receipts db)
    (hsame : SameLines transfer db)
    (hdistinct : transfer.items.Pairwise fun a b =>
      a.id ≠ b.id ∧ a.inventoryItemId ≠ b.inventoryItemId)
    (hp : Planned transfer p) (hitem : p.transferItem.inventoryItemId = itemId)
    (hreceived : p.transferItem.receivedQuantity = receivedSoFar receipts) (hdelta : 0 < p.delta)
    (hnonneg : 0 ≤ p.transferItem.receivedQuantity)
    (hsource : ∃ m, shipmentMovement db tenantId transfer itemId = some m ∧ m.id = movementId) :
    Post (receiveItem stamp tenantId transfer receiptId p) db (fun _ db' => ∃ receipt,
      receipt.quantity = p.delta ∧
      ReceivedInParts stamp tenantId itemId movementId start (receipts ++ [receipt]) db')
      fun _ => True := by
  have hquiet : Quiet fun _ => True := fun _ _ => trivial
  have hlines := linesSound_receiveLine hs.lines hsame hdistinct hp hnonneg
  have hwritten : ReceivedInParts stamp tenantId itemId movementId start receipts
      (withReceived db transfer.id p.transferItem.id p.nextReceived) :=
    h.other (.single (.transfers trivial ⟨rfl, rfl, rfl, rfl, rfl, le_refl _⟩ fun _ => hlines))
  unfold receiveItem setReceivedQuantity
  simp only [post_bind, post_get, post_set, post_pure]
  refine lockItem_post hquiet fun _ _ => ?_
  refine require_post hquiet (by decide) fun _ => ?_
  refine upsertStock_post (createMovement_post ?_)
  simp only [add_sub_cancel_right]
  refine expect_post hquiet (by decide) fun m hm => ?_
  -- the movement just inserted is no shipment, so the shipment was there before
  have hship : shipmentMovement db tenantId transfer p.transferItem.inventoryItemId = some m := by
    rw [← hm]
    exact (shipmentMovement_append (congrArg (· ++ _) (DB.addStock_movements _ _ _ _)) rfl
      _ _ _).symm
  obtain ⟨source', hsource', hid⟩ := hsource
  rw [hitem, hsource'] at hship
  have hsourceId : m.id = movementId := (Option.some.inj hship) ▸ hid
  refine post_run fun _ db' hok => ?_
  refine ⟨_, ?_, hwritten.receipt ⟨_, _, hdelta, ⟨rfl, rfl, rfl, rfl, rfl, rfl, rfl, rfl⟩, rfl, rfl⟩
    ⟨rfl, hitem, hsourceId, hreceived⟩ hok⟩
  rfl

theorem ReceivedInParts.copiedSoFar (hs : Sound ⟨start, []⟩)
    (hship : Shipment start tenantId itemId movementId item source)
    (h : ReceivedInParts stamp tenantId itemId movementId start receipts db) :
    CopiedSoFar stamp start movementId receipts db := by
  induction h with
  | shipped => exact .none hs hship
  | other _ hrun ih =>
      exact ⟨ih.sound.run hrun, ih.extended.trans (hrun.extends ih.sound), ih.received_nonneg,
        ih.received_le, ih.pieces⟩
  | receipt _ e hnext hok ih => exact ih.receipt hs hship e hnext hok

end Receiving

/-- The receipts of a shipment copy its allocations from the front, cost together what the
shipment cost, and succeed as long as something is left of it. -/
theorem partial_receipts_copy_shipment {stamp : Stamp} {start db : DB}
    {tenantId itemId movementId : Id} {item : InventoryItem} {source : InventoryMovement}
    {receipts : List BookedReceipt} (hs : Sound ⟨start, []⟩)
    (hship : Shipment start tenantId itemId movementId item source)
    (hrun : ReceivedInParts stamp tenantId itemId movementId start receipts db) :
    (∃ pieces : List (InventoryMovementCostAllocation × ℚ),
      (receipts.flatMap (·.opened)).map (fun l => (l.receivedQuantity, l.unitCost)) =
        pieces.map (fun e => (e.2, e.1.unitCost)) ∧
      IsFront (orderedAllocations stamp start movementId) (receivedSoFar receipts)
        (Lib.joined pieces)) ∧
    (receivedSoFar receipts = shippedQuantity start movementId →
      ∃ costs : List ℚ, receipts.map (·.totalCost) = costs.map some ∧
        source.totalCost = some costs.sum) ∧
    ∀ e : TransferCall db, e.Next tenantId itemId movementId receipts →
      ((∃ db', receiveTransfer stamp e.input e.booked = .ok ((), db')) ↔
        receivedSoFar receipts + e.input.quantity ≤ shippedQuantity start movementId) := by
  have hcopied := hrun.copiedSoFar hs hship
  obtain ⟨pieces, hpieces, hjoined, costs, htotals, hsum⟩ := hcopied.pieces
  have hshipped : ((orderedAllocations stamp start movementId).map (·.quantity)).sum =
      shippedQuantity start movementId := sum_orderedAllocations _
  refine ⟨⟨pieces, hpieces, ?_⟩, fun hall => ⟨costs, htotals, ?_⟩, fun e hnext => ?_⟩
  · rcases eq_or_lt_of_le hcopied.received_nonneg with hzero | hpos
    · refine .inl ⟨hzero.symm, ?_⟩
      rw [hjoined, ← hzero, Lib.draw_of_nonpos (le_refl 0)]
    · obtain ⟨done, last, later, part, hrows, hpart, hle, hdraw, hquantity⟩ :=
        Lib.draw_split hship.ordered_pos hpos (hcopied.received_le.trans_eq hshipped.symm)
      exact .inr ⟨done, last, later, part, hrows, hpart, hle, hquantity, hjoined.trans hdraw⟩
  · -- once everything is received the pieces make up the allocations
    have hwhole : Lib.joined pieces = (orderedAllocations stamp start movementId).map
        fun row => (row, row.quantity) := by
      rw [hjoined, hall, ← hshipped]
      exact Lib.draw_sum hship.ordered_pos
    rw [hship.totalCost, hsum, ← Lib.sum_joined (fun row => row.unitCost) pieces, hwhole,
      List.map_map]
    exact congrArg some (sum_orderedAllocations _).symm
  · obtain ⟨item', unitCost, hcall, -, -⟩ := hship.call_run hcopied e hnext
    rw [hcall]
    constructor
    · rintro ⟨db', hok⟩
      by_contra hle
      rw [if_neg hle] at hok
      cases hok
    · intro hle
      rw [if_pos hle]
      exact ⟨_, rfl⟩

/-- Five of an item are on their way from warehouse 2 to warehouse 3: three that cost 10
each and two that cost 20. -/
def fiveShipped : DB where
  nextId := 20
  tenants := [⟨1, .retail⟩]
  warehouses := [⟨2, 1, none, true⟩, ⟨3, 1, none, true⟩]
  items := [⟨5, 1, "Flour", some .fifo, none, none, none, some 9⟩]
  products := []
  stocks := [⟨6, some 2, 5, 0, none⟩]
  movements := [⟨9, 1, .transfer, 5, some 5, some 0, 5, some 12, some .warehouseTransferShipment,
    some 2, some 14, some 70⟩]
  layers := [⟨7, 1, 5, some 2, none, .openingBalance, none, 3, 0, 10⟩,
    ⟨8, 1, 5, some 2, none, .openingBalance, none, 2, 0, 20⟩]
  allocations := [⟨10, 9, some 7, 3, 10⟩, ⟨11, 9, some 8, 2, 20⟩]
  transfers := []
  transferReceipts := []
  suppliers := []
  purchaseOrders := []
  purchaseReceipts := []
  priceVariances := []
  orders := []
  outbox := []

theorem fiveShipped_sound : Sound ⟨fiveShipped, []⟩ where
  stockIds := ⟨by decide, by decide⟩
  movementIds := ⟨by decide, by decide⟩
  layerIds := ⟨by decide, by decide⟩
  allocationIds := ⟨by decide, by decide⟩
  itemIds := ⟨by decide, by decide⟩
  stockKey := by decide
  stock_nonneg := by decide
  allocated := by decide
  active := by
    intro m hm href
    rw [List.mem_singleton.mp hm] at href
    exact absurd href (by decide)
  pending := fun _ hr => absurd hr List.not_mem_nil
  pendingIds := .nil
  lines := ⟨⟨by decide, by decide⟩, by decide, by decide⟩

theorem fiveShipped_shipment : Shipment fiveShipped 1 5 9
    ⟨5, 1, "Flour", some .fifo, none, none, none, some 9⟩
    ⟨9, 1, .transfer, 5, some 5, some 0, 5, some 12, some .warehouseTransferShipment, some 2,
      some 14, some 70⟩ where
  locked := ⟨rfl, by simp, by simp, by simp⟩
  fifo := rfl
  found := rfl
  unitCost := Option.some_ne_none _
  totalCost := by decide +kernel
  positive := by decide +kernel
  references := ⟨by decide +kernel, by decide +kernel⟩

/-- The next call for `quantity` of the flour. -/
def flourCall (db : DB) (quantity received : ℚ) (hq : 0 < quantity) : TransferCall db where
  input := ⟨1, 5, 3, quantity, received, 9, (db.addStock (some 3) 5 quantity).nextId, 12⟩
  movement := ⟨(db.addStock (some 3) 5 quantity).nextId, 1, .transfer, quantity,
    some (db.stockBefore (some 3) 5), some (db.stockBefore (some 3) 5 + quantity), 5, some 12,
    some .warehouseTransferReceipt, some 3, none, none⟩
  quantity_pos := hq
  written := ⟨rfl, rfl, rfl, rfl, rfl, rfl, rfl, rfl⟩
  movementId := rfl
  kind := rfl

/-- One is received, and then the other four. -/
theorem partial_receipts_copy_shipment_example : ∃ receipts db,
    receipts.map (·.quantity) = [1, 4] ∧
    ReceivedInParts .sequential 1 5 9 fiveShipped receipts db ∧
    (∃ pieces : List (InventoryMovementCostAllocation × ℚ),
      (receipts.flatMap (·.opened)).map (fun l => (l.receivedQuantity, l.unitCost)) =
        pieces.map (fun e => (e.2, e.1.unitCost)) ∧
      IsFront (orderedAllocations .sequential fiveShipped 9) 5 (Lib.joined pieces)) ∧
    ∃ costs : List ℚ, receipts.map (·.totalCost) = costs.map some ∧ costs.sum = 70 := by
  have hshipped : shippedQuantity fiveShipped 9 = 5 := by decide +kernel
  have hnone : ReceivedInParts .sequential 1 5 9 fiveShipped [] fiveShipped := .shipped
  have hfirst := (partial_receipts_copy_shipment fiveShipped_sound fiveShipped_shipment hnone).2.2
    (flourCall fiveShipped 1 0 (by decide)) ⟨rfl, rfl, rfl, rfl⟩
  obtain ⟨db₁, hok₁⟩ := hfirst.mpr (by rw [hshipped]; decide +kernel)
  have hone := hnone.receipt (flourCall fiveShipped 1 0 (by decide)) ⟨rfl, rfl, rfl, rfl⟩ hok₁
  have hreceived : receivedSoFar ([] ++ [(flourCall fiveShipped 1 0 (by decide)).receipt db₁]) =
      1 := by
    rw [receivedSoFar_append]
    exact zero_add 1
  have hsecond := (partial_receipts_copy_shipment fiveShipped_sound fiveShipped_shipment hone).2.2
    (flourCall db₁ 4 1 (by decide)) ⟨rfl, rfl, rfl, hreceived.symm⟩
  rw [hreceived, hshipped] at hsecond
  obtain ⟨db₂, hok₂⟩ := hsecond.mpr (by norm_num [flourCall])
  have htwo := hone.receipt (flourCall db₁ 4 1 (by decide)) ⟨rfl, rfl, rfl, hreceived.symm⟩ hok₂
  have hall : receivedSoFar ([] ++ [(flourCall fiveShipped 1 0 (by decide)).receipt db₁] ++
      [(flourCall db₁ 4 1 (by decide)).receipt db₂]) = 5 := by
    rw [receivedSoFar_append, hreceived]
    norm_num [flourCall, TransferCall.receipt]
  obtain ⟨hpieces, hcost, -⟩ :=
    partial_receipts_copy_shipment fiveShipped_sound fiveShipped_shipment htwo
  rw [hall] at hpieces hcost
  obtain ⟨costs, hcosts, hsum⟩ := hcost hshipped.symm
  exact ⟨_, db₂, rfl, htwo, hpieces, costs, hcosts, (Option.some.inj hsum).symm⟩

end Inventory
end ERP
