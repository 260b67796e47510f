import ERP.Inventory.CostingSpec
import ERP.Inventory.Soundness
import ERP.Inventory.Reservation

/-!
# Operations refine to entries

Each operation, run on a sound database, is a sequence of ledger entries; and
when it fails because FIFO layers do not cover an issue, a sequence of entries
leads to that issue.
-/

namespace ERP
namespace Inventory

open Lib.Tx

/-- The failures of an operation that got from `c₀` to where it failed: an
uncovered FIFO issue was of an item in `S`. -/
def Stuck (stamp : Stamp) (A : Permit) (c₀ : Config) (S : Id → Prop) (e : Failure) : Prop :=
  e = .fifoLayersDoNotCover → ∃ i c, S i ∧ Run stamp A c₀ c ∧ Uncovered stamp i c

/-- `m` does to the ledger what some sequence of permitted entries does. -/
def Refines (stamp : Stamp) (A : Permit) (S : Id → Prop) {α : Type} (m : Tx α) (db : DB) : Prop :=
  Post m db (fun _ db' => Run stamp A ⟨db, []⟩ ⟨db', []⟩) (Stuck stamp A ⟨db, []⟩ S)

section Blocks

variable {stamp : Stamp} {A : Permit} {db : DB} {c₀ : Config} {pending : List InventoryMovement}
  {S : Id → Prop} {E : Failure → Prop}

theorem quiet_stuck : Quiet (Stuck stamp A c₀ S) := fun _ hne heq => absurd heq hne

theorem upsertStock_post {w : Option Id} {i : Id} {q : ℚ} {Q : ℚ → DB → Prop}
    (h : Q (db.stockBefore w i + q) (db.addStock w i q)) : Post (upsertStock w i q) db Q E := by
  unfold upsertStock
  unfold DB.stockBefore DB.addStock at h
  rw [post_bind, post_get]
  cases hat : db.stockAt w i with
  | some row =>
      simp only [hat] at h
      exact h
  | none =>
      simp only [hat, Option.map_none, Option.getD_none, zero_add] at h
      exact h

theorem freshId_post {Q : Id → DB → Prop} (h : Q db.nextId db.takeId) : Post freshId db Q E := h

theorem createMovement_post {f : Id → InventoryMovement} {Q : Id → DB → Prop}
    (h : Q db.nextId (db.record (f db.nextId))) : Post (createMovement f) db Q E := h

theorem movementOrThrow_post {id : Id} {Q : InventoryMovement → DB → Prop} (hE : Quiet E)
    (h : ∀ m, Q m db) : Post (movementOrThrow id) db Q E := by
  unfold movementOrThrow
  rw [post_bind, post_get]
  exact expect_post hE (by simp) fun m _ => h m

theorem assertTenantStockScope_post {tenantId itemId warehouseId : Id} {Q : Unit → DB → Prop}
    (hE : Quiet E) (h : Q () db) :
    Post (assertTenantStockScope tenantId itemId warehouseId) db Q E := by
  unfold assertTenantStockScope
  simp only [post_bind, post_get]
  refine expect_post hE (by simp) fun _ _ => ?_
  refine expect_post hE (by simp) fun _ _ => ?_
  exact require_post hE (by simp) fun _ => h

/-- A conditional decrement of the row `id` that changed one row took the quantity
from it. -/
theorem decrementStocks_post {p : InventoryStock → Bool} {q : ℚ} {Q : Nat → DB → Prop}
    (id : Id) (hs : Sound ⟨db, pending⟩)
    (hp : ∀ row ∈ db.stocks, p row = true → row.id = id ∧ q ≤ row.quantity)
    (hone : ∀ row ∈ db.stocks, row.id = id → q ≤ row.quantity → Q 1 (db.shiftStock row.id (-q)))
    (hother : ∀ n db', n ≠ 1 → Q n db') : Post (decrementStocks p q) db Q E := by
  unfold decrementStocks
  simp only [post_bind, post_get, post_set, post_pure]
  by_cases hcount : db.stocks.countP p = 1
  · obtain ⟨row, hrow, hprow⟩ := List.countP_pos_iff.mp (by omega : 0 < db.stocks.countP p)
    obtain ⟨hid, hle⟩ := hp row hrow hprow
    have hupdate : db.updateStocks p (fun r => { r with quantity := r.quantity - q }) =
        db.shiftStock row.id (-q) := by
      unfold DB.updateStocks DB.shiftStock DB.updateStock
      rw [hs.stockIds.update_eq hrow hprow fun r hr hpr => (hp r hr hpr).1.trans hid.symm]
      simp only [sub_eq_add_neg]
    rw [hcount, hupdate]
    exact hone row hrow hid hle
  · exact hother _ _ hcount

variable {Q : ℚ × ℚ → DB → Prop}

theorem receive_block {input : ReceiveInput} {m : InventoryMovement}
    (hrun : Run stamp A c₀ ⟨db, pending⟩)
    (hA : A.receipt ⟨input.inventoryItemId, input.warehouseId, input.unitCost⟩)
    (hq : 0 < input.quantity)
    (hw : Written m (db.addStock input.warehouseId input.inventoryItemId input.quantity).nextId
      input.tenantId input.warehouseId input.inventoryItemId
      (db.stockBefore input.warehouseId input.inventoryItemId)
      (db.stockBefore input.warehouseId input.inventoryItemId + input.quantity))
    (hid : input.movementId = m.id)
    (hkind : m.referenceType = none ∨ m.referenceType = some .purchaseOrderReceipt)
    (h : ∀ r db', Run stamp A c₀ ⟨db', pending⟩ → Q r db') :
    Post (receive stamp input)
      ((db.addStock input.warehouseId input.inventoryItemId input.quantity).record m) Q
      (Stuck stamp A c₀ S) := by
  refine receive_post quiet_stuck (Sound.isSome_stockAt_addStock _ _ _ _ _)
    fun r u db' hreceived => ?_
  exact h r db' (hrun.tail (.receive ⟨input, m, u, hq, hw, hid, hkind, hreceived⟩ hA))

theorem issue_block {Q : InventoryIssueCost → DB → Prop} {input : IssueInput}
    {row : InventoryStock} {m : InventoryMovement} (hrun : Run stamp A c₀ ⟨db, pending⟩)
    (hA : A.issue) (hship : m.referenceType = some .warehouseTransferShipment → A.transfer)
    (hS : S input.inventoryItemId) (hq : 0 < input.quantity)
    (hsource : Source db row input.warehouseId input.inventoryItemId input.quantity)
    (hw : Written m db.nextId input.tenantId input.warehouseId input.inventoryItemId row.quantity
      (row.quantity - input.quantity))
    (hid : input.movementId = m.id)
    (hkind : m.referenceType = none ∨ m.referenceType = some .order ∨
      m.referenceType = some .warehouseTransferShipment)
    (h : ∀ r db', Run stamp A c₀ ⟨db', pending⟩ →
      Issued stamp input ((db.shiftStock row.id (-input.quantity)).record m) db' → Q r db') :
    Post (issue stamp input) ((db.shiftStock row.id (-input.quantity)).record m) Q
      (Stuck stamp A c₀ S) := by
  let e : IssueStart db := ⟨input, row, m, hq, hsource, hw, hid, hkind⟩
  refine issue_post quiet_stuck (le_of_lt hq) (fun hshort _ => ?_) fun r db' hissued => ?_
  · exact ⟨_, _, hS, hrun, .inl ⟨e, rfl, hshort⟩⟩
  · exact h r db' (hrun.tail (.issue e hissued hA hship)) hissued

theorem cost_block {Q : InventoryIssueCost → DB → Prop} {r : InventoryMovement}
    {rest : List InventoryMovement} {tenantId : Id} (hs : Sound c₀)
    (hrun : Run stamp A c₀ ⟨db, r :: rest⟩) (hA : A.reservation) (hS : S r.inventoryItemId)
    (h : ∀ res db', Run stamp A c₀ ⟨db', rest⟩ → Q res db') :
    Post (issue stamp (reservationIssue tenantId r)) db Q (Stuck stamp A c₀ S) := by
  have hr := (hs.run hrun).pending r List.mem_cons_self
  refine issue_post quiet_stuck (le_of_lt hr.quantity_pos) (fun hshort _ => ?_)
    fun res db' hissued => ?_
  · exact ⟨_, _, hS, hrun, .inr ⟨r, rest, tenantId, rfl, rfl, hshort⟩⟩
  · exact h res db' (hrun.tail (.cost hA hissued))

end Blocks

section Manual

variable {stamp : Stamp} {A : Permit} {db : DB}

theorem stockIn_refines (S : Id → Prop) (tenantId : Id) (dto : StockInDto)
    (hA : A.receipt ⟨dto.inventoryItemId, some dto.warehouseId, dto.unitCost⟩) :
    Refines stamp A S (stockIn stamp tenantId dto) db := by
  unfold Refines stockIn
  simp only [post_bind, post_get]
  refine assertTenantStockScope_post quiet_stuck ?_
  refine lockItem_post quiet_stuck fun _ _ => ?_
  refine upsertStock_post (createMovement_post ?_)
  refine receive_block .refl hA ?_ ⟨rfl, rfl, rfl, rfl, rfl, rfl, rfl, rfl⟩ rfl (.inl rfl)
    fun _ db' hrun => movementOrThrow_post quiet_stuck fun _ => hrun
  exact Nat.cast_pos.mpr dto.quantity_min

/-- A write of the row's own quantity plus `q` is an addition. -/
theorem updateStock_set {row : InventoryStock} {q : ℚ} (hs : Sound ⟨db, []⟩)
    (hrow : row ∈ db.stocks) :
    db.updateStock row.id (fun r => { r with quantity := row.quantity + q }) =
      db.shiftStock row.id q := by
  unfold DB.shiftStock DB.updateStock
  congr 1
  refine List.map_congr_left fun r hr => ?_
  by_cases hid : r.id = row.id
  · rw [if_pos hid, if_pos hid, hs.stockIds.eq_of_key hr hrow hid]
  · rw [if_neg hid, if_neg hid]

theorem adjustment_refines (hs : Sound ⟨db, []⟩) (tenantId : Id) (dto : StockAdjustmentDto)
    (hreceipt : 0 < dto.quantity →
      A.receipt ⟨dto.inventoryItemId, some dto.warehouseId, dto.unitCost⟩)
    (hissue : dto.quantity < 0 → A.issue) :
    Refines stamp A (· = dto.inventoryItemId) (adjustment stamp tenantId dto) db := by
  unfold Refines adjustment
  simp only [post_bind, post_get, post_modify]
  refine assertTenantStockScope_post quiet_stuck ?_
  refine lockItem_post quiet_stuck fun item hlocked => ?_
  refine expect_post quiet_stuck (by simp) fun row hrow => ?_
  obtain ⟨hmem, hw, hi⟩ := Sound.mem_of_stockAt hrow
  refine require_post quiet_stuck (by simp) fun hafter => ?_
  rw [updateStock_set hs hmem]
  refine createMovement_post ?_
  have hbefore : db.stockBefore (some dto.warehouseId) dto.inventoryItemId = row.quantity := by
    rw [DB.stockBefore, hrow]
    rfl
  by_cases hpos : 0 < dto.quantity
  · have hadd : db.shiftStock row.id dto.quantity =
        db.addStock (some dto.warehouseId) dto.inventoryItemId dto.quantity := by
      rw [DB.addStock, hrow]
    simp only [hpos, if_true, post_bind, hadd]
    refine receive_block .refl (hreceipt hpos) ?_ ⟨rfl, rfl, rfl, rfl, ?_, ?_, rfl, rfl⟩ rfl
      (.inl rfl) fun _ db' hrun => movementOrThrow_post quiet_stuck fun _ => hrun
    · exact Int.cast_pos.mpr hpos
    · exact congrArg some hbefore.symm
    · exact congrArg some (by rw [hbefore])
  · by_cases hneg : dto.quantity < 0
    · simp only [hpos, hneg, if_true, if_false, post_bind]
      have hlt : (dto.quantity : ℚ) < 0 := Int.cast_lt_zero.mpr hneg
      have habs : |(dto.quantity : ℚ)| = -(dto.quantity : ℚ) := abs_of_neg hlt
      have hshift : db.shiftStock row.id dto.quantity =
          db.shiftStock row.id (-|(dto.quantity : ℚ)|) := by
        rw [habs, neg_neg]
      rw [hshift]
      refine issue_block .refl (hissue hneg) (by simp) rfl ?_ ⟨hmem, hw, hi, ?_⟩
        ⟨rfl, rfl, rfl, rfl, rfl, ?_, rfl, rfl⟩ rfl (.inl rfl) fun _ db' hrun _ =>
          movementOrThrow_post quiet_stuck fun _ => hrun
      · change 0 < |(dto.quantity : ℚ)|
        rw [habs]
        exact neg_pos.mpr hlt
      · change |(dto.quantity : ℚ)| ≤ row.quantity
        rw [habs]
        linarith
      · change some (row.quantity + (dto.quantity : ℚ)) =
          some (row.quantity - |(dto.quantity : ℚ)|)
        rw [habs, sub_neg_eq_add]
    · have hzero : dto.quantity = 0 := by omega
      have hshift : db.shiftStock row.id dto.quantity = db := by
        rw [hzero]
        unfold DB.shiftStock DB.updateStock
        simp
      simp only [hpos, hneg, if_false, hshift]
      refine movementOrThrow_post quiet_stuck fun _ => Relation.ReflTransGen.single ?_
      refine .note rfl ⟨item, hlocked.mem⟩
        ⟨rfl, rfl, rfl, rfl, congrArg some hbefore.symm, ?_, rfl, rfl⟩
      rw [hbefore, hzero, Int.cast_zero, add_zero]

theorem waste_refines (hs : Sound ⟨db, []⟩) (tenantId : Id) (dto : WasteDto) (hA : A.issue) :
    Refines stamp A (· = dto.inventoryItemId) (waste stamp tenantId dto) db := by
  unfold Refines waste
  simp only [post_bind, post_get, post_modify]
  refine assertTenantStockScope_post quiet_stuck ?_
  refine lockItem_post quiet_stuck fun _ _ => ?_
  refine expect_post quiet_stuck (by simp) fun row hrow => ?_
  obtain ⟨hmem, hw, hi⟩ := Sound.mem_of_stockAt hrow
  refine require_post quiet_stuck (by simp) fun hcovers => ?_
  rw [sub_eq_add_neg, updateStock_set hs hmem, ← sub_eq_add_neg]
  refine createMovement_post ?_
  refine issue_block .refl hA (by simp) rfl (Nat.cast_pos.mpr dto.quantity_min)
    ⟨hmem, hw, hi, hcovers⟩ ⟨rfl, rfl, rfl, rfl, rfl, rfl, rfl, rfl⟩ rfl (.inl rfl)
    fun _ db' hrun _ => movementOrThrow_post quiet_stuck fun _ => hrun

end Manual

section Fulfilment

variable {stamp : Stamp} {A : Permit} {db : DB} {c₀ : Config} {S : Id → Prop}

/-- A statement on tables the ledger does not read is an entry elsewhere. -/
theorem Run.elsewhere {db' : DB} {pending : List InventoryMovement}
    (hrun : Run stamp A c₀ ⟨db, pending⟩) (h : SameLedger db db') (ht : SameTransfers db db') :
    Run stamp A c₀ ⟨db', pending⟩ :=
  hrun.tail (.elsewhere h ht)

theorem firstStock_mem {itemId : Id} {row : InventoryStock}
    (h : firstStock stamp db itemId = some row) :
    row ∈ db.stocks ∧ row.inventoryItemId = itemId := by
  have hmem := List.mem_of_getElem? h
  simpa using hmem

theorem deductDirectly_post {tenantId orderId itemId : Id} {label : String}
    {type : MovementType} {quantity : ℚ} {Q : Unit → DB → Prop} (hs : Sound c₀)
    (hrun : Run stamp A c₀ ⟨db, []⟩) (hA : A.issue) (hS : S itemId) (hq : 0 < quantity)
    (h : ∀ db', Run stamp A c₀ ⟨db', []⟩ → Q () db') :
    Post (deductDirectly stamp tenantId orderId itemId label type quantity) db Q
      (Stuck stamp A c₀ S) := by
  have hsound := hs.run hrun
  unfold deductDirectly
  simp only [post_bind, post_get, post_pure]
  refine lockItem_post quiet_stuck fun _ _ => ?_
  refine expect_post quiet_stuck (by simp) fun stock hstock => ?_
  obtain ⟨hmem, hitem⟩ := firstStock_mem hstock
  refine require_post quiet_stuck (by simp) fun _ => ?_
  refine decrementStocks_post stock.id hsound (fun row _ hp => by simpa using hp)
    (fun row hrow hid hle => ?_)
    (fun n db' hne => require_post quiet_stuck (by simp) fun h => absurd h hne)
  have heq : row = stock := hsound.stockIds.eq_of_key hrow hmem hid
  rw [heq] at hle ⊢
  refine require_post quiet_stuck (by simp) fun _ => createMovement_post ?_
  exact issue_block hrun hA (by simp) hS hq ⟨hmem, rfl, hitem, hle⟩
    ⟨rfl, rfl, rfl, rfl, rfl, rfl, rfl, rfl⟩ rfl (.inr (.inl rfl)) fun _ db' hrun' _ => h db' hrun'

theorem fulfillWith_refines {line : SalesOrderItem × Product → Tx Unit} {orderId tenantId : Id}
    (hline : ∀ l db', Run stamp A ⟨db, []⟩ ⟨db', []⟩ →
      Post (line l) db' (fun _ db'' => Run stamp A ⟨db, []⟩ ⟨db'', []⟩)
      (Stuck stamp A ⟨db, []⟩ S)) :
    Refines stamp A S (fulfillWith line orderId tenantId) db := by
  unfold Refines fulfillWith
  simp only [post_bind, post_get]
  refine expect_post quiet_stuck (by simp) fun order _ => ?_
  by_cases hdone : order.status = .completed
  · simp only [hdone, if_true, post_pure]
    exact .refl
  · simp only [hdone, if_false, post_bind, post_get, post_set, post_pure]
    refine require_post quiet_stuck (by simp) fun _ => ?_
    refine (post_forM (fun _ db' => Run stamp A ⟨db, []⟩ ⟨db', []⟩) _
      (fun l rest db' _ hrun => hline l db' hrun) .refl).mono (fun _ db' hrun => ?_)
      (fun _ he => he)
    exact hrun.elsewhere ⟨rfl, rfl, rfl, rfl, rfl, le_refl _⟩ ⟨rfl, rfl⟩

theorem fulfillRetail_refines (hs : Sound ⟨db, []⟩) (orderId tenantId : Id) (hA : A.issue) :
    Refines stamp A (fun _ => True) (fulfillRetail stamp orderId tenantId) db := by
  refine fulfillWith_refines fun l db' hrun => ?_
  unfold fulfillRetailLine
  cases l.2.inventoryItemId with
  | none => exact hrun
  | some itemId =>
      exact deductDirectly_post hs hrun hA trivial (Nat.cast_pos.mpr l.1.quantity_pos)
        fun _ hrun' => hrun'

theorem fulfillCafe_refines (hs : Sound ⟨db, []⟩) (orderId tenantId : Id) (hA : A.issue) :
    Refines stamp A (fun _ => True) (fulfillCafe stamp orderId tenantId) db := by
  refine fulfillWith_refines fun l db' hrun => ?_
  unfold fulfillCafeLine
  cases l.2.recipe with
  | none => exact hrun
  | some recipe =>
      refine post_forM (fun _ db'' => Run stamp A ⟨db, []⟩ ⟨db'', []⟩) recipe
        (fun r rest db'' _ hrun' => ?_) hrun
      simp only [post_bind, post_get]
      refine deductDirectly_post hs hrun' hA trivial ?_ fun _ hrun'' => hrun''
      exact mul_pos (Nat.cast_pos.mpr r.quantity_pos) (Nat.cast_pos.mpr l.1.quantity_pos)

end Fulfilment

section Reservations

variable {stamp : Stamp} {A : Permit} {db : DB} {c₀ : Config} {S : Id → Prop}

/-- The rows still to be drawn on are in the stock as they were read. -/
theorem reserveRows_post {tenantId orderId itemId : Id} {rows : List InventoryStock}
    {remaining : ℚ} {Q : ℚ → DB → Prop} (hs : Sound c₀) (hrun : Run stamp A c₀ ⟨db, []⟩)
    (hA : A.reservation) (howned : Owned db tenantId itemId)
    (hrows : ∀ row ∈ rows, row ∈ db.stocks ∧ 0 < row.quantity ∧ row.inventoryItemId = itemId ∧
      row.warehouseId ≠ none)
    (hdistinct : rows.Pairwise fun r s => r.id ≠ s.id)
    (h : ∀ missing db', Run stamp A c₀ ⟨db', []⟩ → Q missing db') :
    Post (reserveRows tenantId orderId itemId rows remaining) db Q (Stuck stamp A c₀ S) := by
  induction rows generalizing db remaining with
  | nil => exact h _ db hrun
  | cons stock rest ih =>
      unfold reserveRows
      by_cases hdone : remaining ≤ 0
      · simp only [hdone, if_true, post_pure]
        exact h _ db hrun
      · have hsound := hs.run hrun
        obtain ⟨hmem, hpos, hitem, hwh⟩ := hrows stock List.mem_cons_self
        simp only [hdone, if_false, post_bind, post_get]
        refine decrementStocks_post stock.id hsound (fun row _ hp => ?_)
          (fun row hrow hid hle => ?_)
          (fun n db' hne => require_post quiet_stuck (by simp) fun h => absurd h hne)
        · simp only [decide_eq_true_eq] at hp
          exact ⟨hp.1, hp.2.1⟩
        · have heq : row = stock := hsound.stockIds.eq_of_key hrow hmem hid
          rw [heq] at hle ⊢
          refine require_post quiet_stuck (by simp) fun _ => createMovement_post ?_
          have hq : 0 < min stock.quantity remaining := lt_min hpos (lt_of_not_ge hdone)
          obtain ⟨hhead, htail⟩ := List.pairwise_cons.mp hdistinct
          refine ih (hrun.tail (.reserve ⟨stock, min stock.quantity remaining, tenantId, _, hq,
            ⟨hmem, rfl, rfl, hle⟩, hwh, hitem ▸ howned,
            ⟨rfl, rfl, rfl, hitem.symm, rfl, rfl, rfl, rfl⟩, rfl, rfl⟩ hA)) howned
            (fun r hr => ?_) htail
          obtain ⟨hrmem, hrest⟩ := hrows r (List.mem_cons_of_mem stock hr)
          refine ⟨?_, hrest⟩
          exact List.mem_map.mpr ⟨r, hrmem, if_neg fun h => hhead r hr h.symm⟩

theorem reserveRequirement_post {tenantId : Id} {order : SalesOrder}
    {requirement : StockRequirement} {Q : Unit → DB → Prop} (hs : Sound c₀)
    (hrun : Run stamp A c₀ ⟨db, []⟩) (hA : A.reservation)
    (h : ∀ db', Run stamp A c₀ ⟨db', []⟩ → Q () db') :
    Post (reserveRequirement stamp tenantId order requirement) db Q (Stuck stamp A c₀ S) := by
  have hsound := hs.run hrun
  unfold reserveRequirement
  simp only [post_bind, post_get]
  refine expect_post quiet_stuck (by simp) fun item hitem => ?_
  have hfound := List.find?_some hitem
  simp only [decide_eq_true_eq] at hfound
  refine reserveRows_post hs hrun hA ⟨item, List.mem_of_find?_eq_some hitem, hfound⟩
    (fun row hrow => ?_) ?_ fun missing db' hrun' => ?_
  · simp only [reservableStocks, Lib.mem_orderBy, List.mem_filter, decide_eq_true_eq,
      List.any_eq_true] at hrow
    obtain ⟨hmem, hitem, hpos, _, w, _, hw, _⟩ := hrow
    exact ⟨hmem, hpos, hitem, fun hnone => by simp [hnone] at hw⟩
  · refine ((Lib.orderBy_perm _ _).pairwise_iff fun h => Ne.symm h).mpr ?_
    exact (hsound.stockIds.sorted.filter _).imp fun hlt => Nat.ne_of_lt hlt
  · exact require_post quiet_stuck (by simp) fun _ => h db' hrun'

theorem reserveStockWith_refines (hs : Sound ⟨db, []⟩) (checkActive : Bool)
    (orderId tenantId : Id) (hA : A.reservation) :
    Refines stamp A (fun _ => False) (reserveStockWith checkActive stamp orderId tenantId) db := by
  unfold Refines reserveStockWith
  simp only [post_bind, post_get]
  refine expect_post quiet_stuck (by simp) fun order _ => ?_
  by_cases hheld : hasReservation db tenantId orderId = true
  · simp only [hheld, if_true, post_pure]
    exact .refl
  · simp only [hheld, Bool.false_eq_true, if_false, post_bind, post_pure]
    refine expect_post quiet_stuck (by simp) fun businessType _ => ?_
    refine require_post quiet_stuck (by simp) fun _ => ?_
    exact post_forM (fun _ db' => Run stamp A ⟨db, []⟩ ⟨db', []⟩) _
      (fun r rest db' _ hrun => reserveRequirement_post hs hrun hA fun _ hrun' => hrun') .refl

/-- A claim of rows that were ACTIVE when they were read takes exactly them. -/
theorem claimReservations_post (stamp : Stamp) (hA : A.reservation) {q : InventoryMovement → Bool}
    {f : InventoryMovement → InventoryMovement} {Q : Nat → DB → Prop} (hs : Sound ⟨db, []⟩)
    (hactive : ∀ m ∈ db.movements, q m = true → m.referenceType = some .orderReservation)
    (hclaimed : ∀ m, (f m).referenceType ≠ some .orderReservation ∧
      (f m).referenceType ≠ some .warehouseTransferShipment ∧
      (f m).referenceType ≠ some .warehouseTransferReceipt)
    (hsame : ∀ m, ∃ referenceType type, f m = { m with referenceType, type })
    (h : ∀ db', Run stamp A ⟨db, []⟩ ⟨db', db.movements.filter q⟩ →
      Q (db.movements.filter q).length db') {E : Failure → Prop} :
    Post (claimReservations (db.movements.filter q) f) db Q E := by
  unfold claimReservations
  simp only [post_bind, post_get, post_set, post_pure]
  have hiff : ∀ m ∈ db.movements,
      decide (m.id ∈ (db.movements.filter q).map (·.id) ∧
        m.referenceType = some .orderReservation) = q m := by
    intro m hm
    by_cases hq : q m = true
    · have : m.id ∈ (db.movements.filter q).map (·.id) :=
        List.mem_map.mpr ⟨m, List.mem_filter.mpr ⟨hm, hq⟩, rfl⟩
      simp [hq, hactive m hm hq, this]
    · have : ¬ m.id ∈ (db.movements.filter q).map (·.id) := by
        intro hmem
        obtain ⟨r, hr, hrid⟩ := List.mem_map.mp hmem
        obtain ⟨hrmem, hrq⟩ := List.mem_filter.mp hr
        exact hq (hs.movementIds.eq_of_key hrmem hm hrid ▸ hrq)
      simp only [this, false_and, decide_false]
      simpa using hq
  have hcount : db.movements.countP (fun m =>
      decide (m.id ∈ (db.movements.filter q).map (·.id) ∧
        m.referenceType = some .orderReservation)) = (db.movements.filter q).length := by
    rw [← List.countP_eq_length_filter]
    exact List.countP_congr fun m hm => by rw [hiff m hm]
  have hupdate : db.updateMovements (fun m =>
      decide (m.id ∈ (db.movements.filter q).map (·.id) ∧
        m.referenceType = some .orderReservation)) f = db.updateMovements q f := by
    unfold DB.updateMovements
    congr 1
    exact List.map_congr_left fun m hm => by simp only [hiff m hm]
  rw [hcount, hupdate]
  exact h _ (Relation.ReflTransGen.single (.claim ⟨q, f, hactive, hclaimed, hsame⟩ hA))

/-- A claim is a statement on the movements. -/
theorem claimReservations_orders {reservations : List InventoryMovement}
    {f : InventoryMovement → InventoryMovement} {E : Failure → Prop} :
    Post (claimReservations reservations f) db (fun _ db' => db'.orders = db.orders) E := by
  unfold claimReservations
  simp only [post_bind, post_get, post_set, post_pure]
  rfl

theorem allocationsOf_eq_nil {id : Id} (h : ∀ a ∈ db.allocations, a.movementId ≠ id) :
    db.allocationsOf id = [] := by
  unfold DB.allocationsOf
  rw [List.filter_eq_nil_iff]
  intro a ha
  simpa using h a ha

/-- A claimed reservation has a warehouse and no costs, so giving its stock back cannot
fail. -/
theorem restoreReservationMovement_post {r : InventoryMovement} {rest : List InventoryMovement}
    {referenceId : Option Id} {Q : Unit → DB → Prop} {E : Failure → Prop} (hs : Sound c₀)
    (hrun : Run stamp A c₀ ⟨db, r :: rest⟩) (hA : A.reservation)
    (h : ∀ db', Run stamp A c₀ ⟨db', rest⟩ → db'.orders = db.orders → Q () db') :
    Post (restoreReservationMovement stamp r referenceId) db Q E := by
  have hclaimed := (hs.run hrun).pending r List.mem_cons_self
  have hnone := allocationsOf_eq_nil hclaimed.uncharged
  obtain ⟨m, -, -, -, -, hwh, -, hout⟩ := hclaimed.row
  obtain ⟨w, hw⟩ := Option.ne_none_iff_exists'.mp (hwh ▸ hout.warehouse)
  unfold restoreReservationMovement
  simp only [post_bind, post_get, hw, expect, post_pure]
  simp only [hnone, List.length_nil, lt_irrefl, if_false, post_pure]
  refine upsertStock_post (createMovement_post ?_)
  refine h _ (hrun.tail (.restore ⟨w, _, hw, ?_, ?_⟩ hA)) ?_
  · exact ⟨rfl, rfl, rfl, rfl, rfl, rfl, rfl, rfl⟩
  · rfl
  · have horders := congrArg DB.orders (db.addStock_outside (some w) r.inventoryItemId r.quantity)
    exact horders

theorem writeOutbox_post {tenantId : Id} {event : DomainEvent} {Q : Unit → DB → Prop}
    {E : Failure → Prop}
    (h : ∀ db', SameLedger db db' → SameTransfers db db' → Q () db') :
    Post (writeOutbox tenantId event) db Q E :=
  h _ ⟨rfl, rfl, rfl, rfl, rfl, Nat.le_succ _⟩ ⟨rfl, rfl⟩

/-- Giving reservations back cannot fail, and leaves the orders alone. -/
theorem giveBack_post {marker : ReferenceType} {q : InventoryMovement → Bool} {andThen : Tx Unit}
    {Q : Unit → DB → Prop} {E : Failure → Prop} (hs : Sound ⟨db, []⟩) (hA : A.reservation)
    (hactive : ∀ m ∈ db.movements, q m = true → m.referenceType = some .orderReservation)
    (hmarker : marker ≠ .orderReservation ∧ marker ≠ .warehouseTransferShipment ∧
      marker ≠ .warehouseTransferReceipt)
    (hnothing : Q () db)
    (hthen : ∀ db', Run stamp A ⟨db, []⟩ ⟨db', []⟩ → db'.orders = db.orders →
      Post andThen db' Q E) :
    Post (giveBack stamp marker (db.movements.filter q) andThen) db (fun _ => Q ()) E := by
  unfold giveBack
  by_cases hnil : db.movements.filter q = []
  · rw [if_pos hnil]
    exact hnothing
  · rw [if_neg hnil, post_bind]
    have hlen : (db.movements.filter q).length ≠ 0 := fun h => hnil (List.length_eq_zero_iff.mp h)
    have hclaim : Post (claimReservations (db.movements.filter q) fun row =>
        { row with referenceType := some marker }) db
        (fun n db' => n = (db.movements.filter q).length ∧
          Run stamp A ⟨db, []⟩ ⟨db', db.movements.filter q⟩) E := by
      refine claimReservations_post stamp hA hs hactive (fun m => ?_) (fun m => ⟨_, _, rfl⟩)
        fun db₁ hrun => ⟨rfl, hrun⟩
      simpa using hmarker
    refine (hclaim.and (claimReservations_orders (E := E))).mono
      (fun n db₁ ⟨⟨hn, hrun⟩, horders⟩ => ?_)
      fun e he => he.1
    rw [hn]
    simp only [hlen, if_false, post_bind, post_pure, post_require, not_true_eq_false,
      forall_true_left, false_implies, and_true]
    refine (post_forM (fun rest db' => Run stamp A ⟨db, []⟩ ⟨db', rest⟩ ∧ db'.orders = db.orders) _
      (fun r rest db' _ hI => ?_) ⟨hrun, horders⟩).mono (fun _ db' hI => hthen db' hI.1 hI.2)
      fun _ he => he
    exact restoreReservationMovement_post hs hI.1 hA fun _ hrun' horders' =>
      ⟨hrun', horders'.trans hI.2⟩

theorem giveBack_refines {marker : ReferenceType} {q : InventoryMovement → Bool}
    {andThen : Tx Unit} (hs : Sound ⟨db, []⟩) (hA : A.reservation)
    (hactive : ∀ m ∈ db.movements, q m = true → m.referenceType = some .orderReservation)
    (hmarker : marker ≠ .orderReservation ∧ marker ≠ .warehouseTransferShipment ∧
      marker ≠ .warehouseTransferReceipt)
    (hthen : ∀ db', Run stamp A ⟨db, []⟩ ⟨db', []⟩ →
      Post andThen db' (fun _ db'' => Run stamp A ⟨db, []⟩ ⟨db'', []⟩) (Stuck stamp A ⟨db, []⟩ S)) :
    Refines stamp A S (giveBack stamp marker (db.movements.filter q) andThen) db :=
  giveBack_post hs hA hactive hmarker .refl fun db' hrun _ => hthen db' hrun

theorem activeReservations_active {tenantId orderId : Id} :
    ∀ m ∈ db.movements, decide (m.tenantId = tenantId ∧ m.referenceId = some orderId ∧
      m.referenceType = some .orderReservation) = true →
      m.referenceType = some .orderReservation := by
  intro m _ hm
  simp only [decide_eq_true_eq] at hm
  exact hm.2.2

theorem giveBackOrder_refines {marker : ReferenceType} (hs : Sound ⟨db, []⟩) (hA : A.reservation)
    (hmarker : marker ≠ .orderReservation ∧ marker ≠ .warehouseTransferShipment ∧
      marker ≠ .warehouseTransferReceipt) (orderId tenantId : Id) :
    Refines stamp A S (do
      let db ← get
      giveBack stamp marker (activeReservations db tenantId orderId) (pure ())) db := by
  unfold Refines
  simp only [post_bind, post_get]
  exact giveBack_refines hs hA activeReservations_active hmarker fun _ hrun => hrun

theorem expireReservations_refines (hs : Sound ⟨db, []⟩) (cutoff : Int) (hA : A.reservation) :
    Refines stamp A (fun _ => False) (ReservationRepository.expireReservations stamp
    cutoff) db := by
  unfold Refines ReservationRepository.expireReservations
  simp only [post_bind, post_get, post_pure]
  refine giveBack_refines hs hA (fun m _ hm => ?_) (by decide) fun db' hrun => ?_
  · simp only [decide_eq_true_eq] at hm
    exact hm.1
  · refine post_forM (fun _ db'' => Run stamp A ⟨db, []⟩ ⟨db'', []⟩) _
      (fun r rest db'' _ hrun' => ?_) hrun
    exact writeOutbox_post fun db₃ hsame ht => hrun'.elsewhere hsame ht

/-- The items an order has reserved. -/
def ReservedBy (db : DB) (tenantId orderId : Id) (i : Id) : Prop :=
  ∃ m ∈ activeReservations db tenantId orderId, m.inventoryItemId = i

theorem costReservation_post {tenantId : Id} {r : InventoryMovement}
    {rest : List InventoryMovement} {Q : Unit → DB → Prop} (hs : Sound c₀)
    (hrun : Run stamp A c₀ ⟨db, r :: rest⟩) (hA : A.reservation) (hS : S r.inventoryItemId)
    (h : ∀ db', Run stamp A c₀ ⟨db', rest⟩ → Q () db') :
    Post (costReservation stamp tenantId r) db Q (Stuck stamp A c₀ S) := by
  have hnone := allocationsOf_eq_nil ((hs.run hrun).pending r List.mem_cons_self).uncharged
  unfold costReservation
  simp only [post_bind, post_get, hnone, List.length_nil, if_true, post_pure]
  exact cost_block hs hrun hA hS fun _ db' hrun' => h db' hrun'

theorem mem_of_split {α : Type} {xs rest : List α} {x : α} (h : ∃ done, xs = done ++ x :: rest) :
    x ∈ xs := by
  obtain ⟨done, rfl⟩ := h
  exact List.mem_append_right _ List.mem_cons_self

theorem commitReservation_refines (hs : Sound ⟨db, []⟩) (orderId tenantId : Id)
    (hA : A.reservation) :
    Refines stamp A (ReservedBy db tenantId orderId) (commitReservation stamp orderId tenantId)
      db := by
  unfold Refines commitReservation
  simp only [post_bind, post_get]
  refine expect_post quiet_stuck (by simp) fun _ _ => ?_
  refine expect_post quiet_stuck (by simp) fun businessType _ => ?_
  by_cases hnil : activeReservations db tenantId orderId = []
  · simp only [hnil, if_true, post_pure]
    exact .refl
  · simp only [hnil, if_false, commitWith, post_bind]
    refine claimReservations_post stamp hA hs activeReservations_active (fun m => by simp)
      (fun m => ⟨_, _, rfl⟩) fun db₁ hrun => ?_
    have hlen : (activeReservations db tenantId orderId).length ≠ 0 :=
      fun h => hnil (List.length_eq_zero_iff.mp h)
    change Post (if (activeReservations db tenantId orderId).length = 0 then _ else _) _ _ _
    simp only [hlen, if_false, post_bind, post_pure]
    refine require_post quiet_stuck (by simp) fun _ => ?_
    exact post_forM (fun rest db' => Run stamp A ⟨db, []⟩ ⟨db', rest⟩) _
      (fun r rest db' hsplit hrun' =>
        costReservation_post hs hrun' hA ⟨r, mem_of_split hsplit, rfl⟩ fun _ hrun'' => hrun'') hrun

end Reservations

end Inventory
end ERP
