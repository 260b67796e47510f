import ERP.Inventory.Ledger

/-!
# What the costing functions do

One rule for each costing function, in the form its callers apply it: run it, and
go on from the database in closed form.  Every failure is harmless except the one
of a FIFO issue that the layers do not cover, which has a premise of its own.
-/

namespace ERP
namespace Inventory

open Lib.Tx

variable {stamp : Stamp} {db : DB} {E : Failure → Prop}

/-- `E` allows every failure but the uncovered FIFO issue. -/
def Quiet (E : Failure → Prop) : Prop := ∀ e, e ≠ .fifoLayersDoNotCover → E e

theorem require_post {c : Prop} [Decidable c] {e : Failure} {Q : Unit → DB → Prop}
    (hE : Quiet E) (he : e ≠ .fifoLayersDoNotCover) (h : c → Q () db) :
    Post (require c e) db Q E :=
  post_require.mpr ⟨h, fun _ => hE e he⟩

theorem expect_post {α : Type} {o : Option α} {e : Failure} {Q : α → DB → Prop}
    (hE : Quiet E) (he : e ≠ .fifoLayersDoNotCover) (h : ∀ a, o = some a → Q a db) :
    Post (expect o e) db Q E :=
  post_expect.mpr ⟨h, fun _ => hE e he⟩

theorem decimalDiv_post {a b : ℚ} {Q : ℚ → DB → Prop} (hE : Quiet E)
    (h : b ≠ 0 → Q (a / b) db) : Post (decimalDiv a b) db Q E := by
  unfold decimalDiv
  rw [post_bind]
  exact require_post hE (by simp) h

theorem lockItem_post {tenantId itemId : Id} {Q : InventoryItem → DB → Prop} (hE : Quiet E)
    (h : ∀ item, Locked db tenantId itemId item → Q item db) :
    Post (lockItem tenantId itemId) db Q E := by
  unfold lockItem
  simp only [post_bind, post_get, post_pure]
  refine expect_post hE (by simp) fun item hfound => ?_
  refine require_post hE (by simp) fun hmethod => ?_
  refine require_post hE (by simp) fun hscope => ?_
  refine require_post hE (by simp) fun hstandard => ?_
  exact h item ⟨hfound, hmethod, hscope, hstandard⟩

theorem lockValuation_post {item : InventoryItem} {Q : Unit → DB → Prop}
    (h : Q () (freeze stamp db item)) : Post (lockValuation stamp item) db Q E := by
  unfold lockValuation
  unfold freeze at h
  split
  · rename_i hnone
    rw [if_pos hnone] at h
    exact h
  · rename_i hsome
    rw [if_neg hsome] at h
    exact h

theorem createLayer_post {input : ReceiveInput} {quantity unitCost : ℚ}
    {Q : Unit → DB → Prop}
    (h : Q () (db.takeId.insertLayer (layerOf input db.nextId quantity unitCost))) :
    Post (createLayer input quantity unitCost) db Q E := h

theorem createAllocations_post {movementId : Id} {allocations : List CostAllocation}
    {Q : Unit → DB → Prop} (h : Q () (insertAllocations db movementId allocations)) :
    Post (createAllocations movementId allocations) db Q E := by
  induction allocations generalizing db with
  | nil => exact h
  | cons a rest ih =>
      unfold createAllocations
      rw [List.forM_eq_forM, List.forM_cons, post_bind]
      exact ih h

theorem createLayers_post {input : ReceiveInput} {costs : List CostAllocation}
    {Q : Unit → DB → Prop} (h : Q () (openLayersFor db input costs)) :
    Post (costs.forM fun a => createLayer input a.quantity a.unitCost) db Q E := by
  induction costs generalizing db with
  | nil => exact h
  | cons a rest ih =>
      rw [List.forM_eq_forM, List.forM_cons, post_bind]
      exact ih h

theorem updateMovingAverage_post {item : InventoryItem} {warehouseId : Option Id}
    {quantity unitCost : ℚ} {Q : Unit → DB → Prop} (hE : Quiet E)
    (hrow : (db.stockAt warehouseId item.id).isSome)
    (h : averagedQuantity db item warehouseId ≠ 0 →
      (0 < averagedQuantity db item warehouseId - quantity →
        averageAt db item warehouseId ≠ none) →
      Q () (setAverage db item warehouseId
        (((averagedQuantity db item warehouseId - quantity) *
            (averageAt db item warehouseId).getD 0 + quantity * unitCost) /
          averagedQuantity db item warehouseId))) :
    Post (updateMovingAverage item warehouseId quantity unitCost) db Q E := by
  unfold updateMovingAverage
  rw [post_bind, post_get]
  unfold averagedQuantity averageAt setAverage at h
  by_cases hscope : item.movingAverageScope = some .perItem
  · simp only [hscope, if_true] at h ⊢
    simp only [post_bind, post_modify]
    refine require_post hE (by simp) fun hopening => ?_
    refine decimalDiv_post hE fun htotal => ?_
    exact h htotal fun hprev hnone => hopening ⟨hprev, hnone⟩
  · obtain ⟨row, hrow⟩ := Option.isSome_iff_exists.mp hrow
    simp only [hscope, if_false, DB.stockBefore, hrow, Option.map_some, Option.getD_some,
      Option.bind_some] at h ⊢
    simp only [post_bind, post_modify]
    refine require_post hE (by simp) fun hopening => ?_
    refine decimalDiv_post hE fun htotal => ?_
    refine h (by simpa [hrow] using htotal) fun hprev hnone => hopening ⟨?_, ?_⟩
    · simpa [hrow] using hprev
    · simpa [hrow] using hnone

theorem receive_post {input : ReceiveInput} {Q : ℚ × ℚ → DB → Prop} (hE : Quiet E)
    (hrow : (db.stockAt input.warehouseId input.inventoryItemId).isSome)
    (h : ∀ r unitCost db', Received stamp input db unitCost db' → Q r db') :
    Post (receive stamp input) db Q E := by
  unfold receive
  simp only [post_bind, post_modify, post_pure]
  refine lockItem_post hE fun item hitem => ?_
  refine require_post hE (by simp) fun hcost => ?_
  have hid : item.id = input.inventoryItemId := hitem.mem.2.1
  have hgiven : item.valuationMethod ≠ some .standardCost →
      ∃ c, input.unitCost = some c := fun hne =>
    Option.ne_none_iff_exists'.mp (hcost.resolve_left hne)
  obtain ⟨method, hmethod⟩ := Option.ne_none_iff_exists'.mp hitem.method
  rw [hmethod]
  cases method with
  | fifo =>
      obtain ⟨c, hc⟩ := hgiven (by simp [hmethod])
      refine createLayer_post (lockValuation_post ?_)
      refine h _ c _ ?_
      simp only [hc, Option.getD_some]
      exact Received.fifo hitem hmethod hc
  | movingWeightedAverage =>
      obtain ⟨c, hc⟩ := hgiven (by simp [hmethod])
      refine updateMovingAverage_post hE (hid ▸ hrow) fun htotal hopening => ?_
      refine lockValuation_post (h _ c _ ?_)
      simp only [hc, Option.getD_some]
      exact Received.average hitem hmethod hc htotal hopening
  | standardCost =>
      obtain ⟨c, hc⟩ := Option.ne_none_iff_exists'.mp fun hnone =>
        hitem.standard ⟨hmethod, hnone⟩
      refine post_pure.mpr (lockValuation_post (h _ c _ ?_))
      simp only [hc, if_true, Option.getD_some]
      exact Received.standard hitem hmethod hc

/-- The loop over the open layers draws on them from the front. -/
theorem consumeLayers_post {layers : List InventoryCostLayer} {quantity : ℚ}
    {Q : ℚ × List CostAllocation → DB → Prop}
    (h : Q (quantity - Lib.drawn (Lib.draw (·.remainingQuantity) layers quantity),
        (Lib.draw (·.remainingQuantity) layers quantity).map drawnAllocation)
      (chargeLayers db
        ((Lib.draw (·.remainingQuantity) layers quantity).map drawnAllocation))) :
    Post (consumeLayers layers quantity) db Q E := by
  induction layers generalizing db quantity Q with
  | nil =>
      simp only [Lib.draw, Lib.drawn, List.map_nil, List.sum_nil, sub_zero] at h
      exact h
  | cons layer rest ih =>
      unfold consumeLayers
      rw [Lib.draw] at h
      by_cases hq : quantity ≤ 0
      · simp only [hq, if_true, Lib.drawn, List.map_nil, List.sum_nil, sub_zero] at h ⊢
        exact h
      · simp only [hq, if_false, post_bind, post_modify] at h ⊢
        refine ih ?_
        simp only [Lib.drawn, List.map_cons, List.sum_cons, ← sub_sub] at h
        exact h

theorem issueAllocations_post {item : InventoryItem} {input : IssueInput}
    {Q : List CostAllocation → DB → Prop} (hE : Quiet E)
    (hitem : Locked db input.tenantId input.inventoryItemId item)
    (hq : 0 ≤ input.quantity)
    (hshort : Short stamp input db → E .fifoLayersDoNotCover)
    (hfifo : item.valuationMethod = some .fifo →
      input.quantity ≤ ((openLayers stamp db input.tenantId input.inventoryItemId
        input.warehouseId).map (·.remainingQuantity)).sum →
      Q (fifoCharges stamp db input) (chargeLayers db (fifoCharges stamp db input)))
    (hflat : ∀ unitCost, (item.valuationMethod = some .movingWeightedAverage ∧
          averageAt db item input.warehouseId = some unitCost ∨
        item.valuationMethod = some .standardCost ∧ item.standardCost = some unitCost) →
      Q [⟨none, input.quantity, unitCost⟩] db) :
    Post (issueAllocations stamp item input) db Q E := by
  unfold issueAllocations
  match hmethod : item.valuationMethod with
  | none => exact absurd hmethod hitem.method
  | some .fifo =>
      simp only [consumeFifoLayers, post_bind, post_get]
      refine consumeLayers_post ?_
      have hpos : ∀ layer ∈ openLayers stamp db input.tenantId input.inventoryItemId
          input.warehouseId, 0 ≤ layer.remainingQuantity := by
        intro layer hlayer
        simp only [openLayers, Lib.mem_orderBy, List.mem_filter, decide_eq_true_eq] at hlayer
        exact le_of_lt hlayer.2.2.2.2
      have hdrawn := Lib.drawn_draw hpos hq
      rw [post_require, hdrawn]
      refine ⟨fun hcover => hfifo hmethod ?_, fun hmissing => hshort ⟨item, hitem, hmethod, ?_⟩⟩
      · by_contra hlt
        rw [min_eq_right (le_of_not_ge hlt)] at hcover
        exact hcover (by linarith)
      · by_contra hge
        rw [min_eq_left (le_of_not_gt hge)] at hmissing
        exact hmissing (by linarith)
  | some .movingWeightedAverage =>
      simp only [averageCost, post_bind, post_get, post_pure]
      have hscope := hitem.scope
      by_cases hitemScope : item.movingAverageScope = some .perItem
      · simp only [hitemScope, if_true]
        refine expect_post hE (by simp) fun c hc => hflat c (.inl ⟨hmethod, ?_⟩)
        rw [averageAt, if_pos hitemScope, hc]
      · simp only [hitemScope, if_false]
        refine expect_post hE (by simp) fun c hc => hflat c (.inl ⟨hmethod, ?_⟩)
        rw [averageAt, if_neg hitemScope, hc]
  | some .standardCost =>
      obtain ⟨c, hc⟩ := Option.ne_none_iff_exists'.mp fun hnone =>
        hitem.standard ⟨hmethod, hnone⟩
      simp only [post_pure, hc, Option.getD_some]
      exact hflat c (.inr ⟨hmethod, hc⟩)

theorem issue_post {input : IssueInput} {Q : InventoryIssueCost → DB → Prop} (hE : Quiet E)
    (hq : 0 ≤ input.quantity) (hshort : Short stamp input db → E .fifoLayersDoNotCover)
    (h : ∀ r db', Issued stamp input db db' → Q r db') :
    Post (issue stamp input) db Q E := by
  unfold issue
  simp only [post_bind, post_modify, post_pure]
  refine lockItem_post hE fun item hitem => ?_
  refine issueAllocations_post hE hitem hq hshort (fun hmethod hcover => ?_)
    (fun unitCost hmethod => ?_)
  · refine decimalDiv_post hE fun _ => ?_
    refine createAllocations_post (lockValuation_post (h _ _ ?_))
    exact Issued.fifo hitem hmethod hcover
  · refine decimalDiv_post hE fun _ => ?_
    refine createAllocations_post (lockValuation_post (h _ _ ?_))
    exact Issued.flat hitem hmethod

theorem receiveTransfer_post {input : ReceiveTransferInput} {Q : Unit → DB → Prop}
    (hE : Quiet E)
    (hrow : (db.stockAt (some input.warehouseId) input.inventoryItemId).isSome)
    (h : ∀ db', ReceivedTransfer stamp input db db' → Q () db') :
    Post (receiveTransfer stamp input) db Q E := by
  unfold receiveTransfer
  simp only [post_bind, post_get]
  refine lockItem_post hE fun item hitem => ?_
  refine expect_post hE (by simp) fun source hsource => ?_
  refine expect_post hE (by simp) fun unitCost hunit => ?_
  refine require_post hE (by simp) fun _ => ?_
  by_cases hmethod : item.valuationMethod = some .fifo
  · simp only [hmethod, if_true, post_bind, post_modify]
    refine require_post hE (by simp) fun hcover => ?_
    refine createLayers_post ?_
    refine decimalDiv_post hE fun hquantity => ?_
    refine lockValuation_post (h _ ?_)
    exact ReceivedTransfer.fifo hitem hmethod hsource hunit hquantity (le_of_not_gt hcover)
  · simp only [hmethod, if_false, post_bind]
    refine receive_post hE hrow fun _ unitCost' db' hreceived => ?_
    refine lockValuation_post (h _ ?_)
    exact ReceivedTransfer.other hitem hmethod hsource hunit hreceived

end Inventory
end ERP
