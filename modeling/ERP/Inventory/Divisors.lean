import ERP.Inventory.Reversal

/-!
# Divisors

Costing divides by the quantity it costs and by the stock it averages over.  A
division by zero is a failure of its own, so that a call divides by zero is that it
ends with this failure.
-/

namespace ERP
namespace Inventory

open Lib.Tx

/-- Every failure but a division by zero. -/
def Divided (e : Failure) : Prop := e ≠ .decimalNotStorable

/-- A transaction body that does not divide by zero. -/
def Divides {α : Type} (m : Tx α) (db : DB) : Prop := Post m db (fun _ _ => True) Divided

section Rules

variable {α : Type} {stamp : Stamp} {db : DB} {Q : α → DB → Prop}

theorem Divides.post {m : Tx α} {E : Failure → Prop} (h : Divides m db) (hpost : Post m db Q E) :
    Post m db Q Divided :=
  (hpost.and h).mono (fun _ _ both => both.1) fun _ both => both.2

/-- When what follows does not depend on what the body did. -/
theorem Divides.andThen {m : Tx α} (h : Divides m db) (hQ : ∀ a db', Q a db') :
    Post m db Q Divided :=
  Post.mono h (fun a db' _ => hQ a db') fun _ he => he

theorem quiet_true : Quiet fun _ => True := fun _ _ => trivial

theorem require_divided {c : Prop} [Decidable c] {e : Failure} {Q : Unit → DB → Prop}
    (he : e ≠ .decimalNotStorable) (h : c → Q () db) : Post (require c e) db Q Divided :=
  post_require.mpr ⟨h, fun _ => he⟩

theorem expect_divided {o : Option α} {e : Failure} (he : e ≠ .decimalNotStorable)
    (h : ∀ a, o = some a → Q a db) : Post (expect o e) db Q Divided :=
  post_expect.mpr ⟨h, fun _ => he⟩

theorem decimalDiv_divided {a b : ℚ} {Q : ℚ → DB → Prop} (hb : b ≠ 0) (h : Q (a / b) db) :
    Post (decimalDiv a b) db Q Divided := by
  unfold decimalDiv
  rw [post_bind, post_require]
  exact ⟨fun _ => h, fun hzero => absurd hb hzero⟩

theorem lockItem_divided {tenantId itemId : Id} {Q : InventoryItem → DB → Prop}
    (h : ∀ item, Locked db tenantId itemId item → Q item db) :
    Post (lockItem tenantId itemId) db Q Divided := by
  have hdivides : Divides (lockItem tenantId itemId) db := by
    unfold Divides lockItem
    simp [Divided]
  exact hdivides.post (lockItem_post quiet_true h)

end Rules

section Costing

variable {stamp : Stamp} {db : DB}

theorem updateMovingAverage_divides {item : InventoryItem} {w : Option Id} {quantity unitCost : ℚ}
    (hrow : (db.stockAt w item.id).isSome) (hstock : averagedQuantity db item w ≠ 0) :
    Divides (updateMovingAverage item w quantity unitCost) db := by
  unfold Divides updateMovingAverage
  rw [post_bind, post_get]
  unfold averagedQuantity at hstock
  by_cases hscope : item.movingAverageScope = some .perItem
  · rw [if_pos hscope] at hstock ⊢
    simp only [post_bind, post_modify]
    refine require_divided (by simp) fun _ => ?_
    exact decimalDiv_divided hstock trivial
  · obtain ⟨row, hat⟩ := Option.isSome_iff_exists.mp hrow
    rw [if_neg hscope] at hstock ⊢
    unfold DB.stockBefore at hstock
    rw [hat] at hstock ⊢
    simp only [post_bind, post_modify]
    refine require_divided (by simp) fun _ => ?_
    exact decimalDiv_divided hstock trivial

/-- The stock a receipt is averaged over is not zero. -/
def AveragesOverStock (db : DB) (tenantId itemId : Id) (w : Option Id) : Prop :=
  ∀ item, Locked db tenantId itemId item →
    item.valuationMethod = some .movingWeightedAverage → averagedQuantity db item w ≠ 0

theorem receive_divides {input : ReceiveInput}
    (hrow : (db.stockAt input.warehouseId input.inventoryItemId).isSome)
    (hstock : AveragesOverStock db input.tenantId input.inventoryItemId input.warehouseId) :
    Divides (receive stamp input) db := by
  unfold Divides receive
  simp only [post_bind, post_modify, post_pure]
  refine lockItem_divided fun item hitem => ?_
  refine require_divided (by simp) fun hcost => ?_
  have hid : item.id = input.inventoryItemId := hitem.mem.2.1
  obtain ⟨method, hmethod⟩ := Option.ne_none_iff_exists'.mp hitem.method
  rw [hmethod]
  cases method with
  | fifo => exact createLayer_post (lockValuation_post trivial)
  | movingWeightedAverage =>
      rw [← hid] at hrow
      refine (updateMovingAverage_divides hrow (hstock item hitem hmethod)).post
        (updateMovingAverage_post quiet_true hrow fun _ _ => ?_)
      exact lockValuation_post trivial
  | standardCost => exact post_pure.mpr (lockValuation_post trivial)

theorem issueAllocations_divides {item : InventoryItem} {input : IssueInput}
    (hitem : Locked db input.tenantId input.inventoryItemId item) :
    Divides (issueAllocations stamp item input) db := by
  unfold Divides issueAllocations
  obtain ⟨method, hmethod⟩ := Option.ne_none_iff_exists'.mp hitem.method
  rw [hmethod]
  cases method with
  | fifo =>
      simp only [consumeFifoLayers, post_bind, post_get]
      refine consumeLayers_post ?_
      exact require_divided (by simp) fun _ => trivial
  | movingWeightedAverage =>
      simp only [averageCost, post_bind, post_get, post_pure]
      by_cases hscope : item.movingAverageScope = some .perItem
      · rw [if_pos hscope]
        exact expect_divided (by simp) fun _ _ => trivial
      · rw [if_neg hscope]
        exact expect_divided (by simp) fun _ _ => trivial
  | standardCost => exact trivial

theorem issue_divides {input : IssueInput} (hq : input.quantity ≠ 0) :
    Divides (issue stamp input) db := by
  unfold Divides issue
  simp only [post_bind, post_modify, post_pure]
  refine lockItem_divided fun item hitem => ?_
  refine (issueAllocations_divides hitem).andThen fun allocations db' => ?_
  refine decimalDiv_divided hq ?_
  exact createAllocations_post (lockValuation_post trivial)

theorem receiveTransfer_divides {input : ReceiveTransferInput}
    (hrow : (db.stockAt (some input.warehouseId) input.inventoryItemId).isSome)
    (hquantity : input.quantity ≠ 0)
    (hstock : AveragesOverStock db input.tenantId input.inventoryItemId
      (some input.warehouseId)) :
    Divides (receiveTransfer stamp input) db := by
  unfold Divides receiveTransfer
  simp only [post_bind, post_get]
  refine lockItem_divided fun item _ => ?_
  refine expect_divided (by simp) fun source _ => ?_
  refine expect_divided (by simp) fun unitCost _ => ?_
  refine require_divided (by simp) fun _ => ?_
  by_cases hmethod : item.valuationMethod = some .fifo
  · simp only [hmethod, if_true, post_bind, post_modify]
    refine require_divided (by simp) fun _ => createLayers_post ?_
    exact decimalDiv_divided hquantity (lockValuation_post trivial)
  · simp only [hmethod, if_false, post_bind]
    refine Divides.andThen (receive_divides hrow hstock) fun _ db' => ?_
    exact lockValuation_post trivial

end Costing

section Booked

variable {db : DB} {w : Option Id} {i : Id} {q : ℚ} {item : InventoryItem}

theorem stockRows_of_sound {pending : List InventoryMovement} (hs : Sound ⟨db, pending⟩) :
    StockRows db :=
  ⟨hs.stockIds.sorted.imp fun hlt => Nat.ne_of_lt hlt, hs.stock_nonneg⟩

/-- After a positive quantity came in there is stock to average over. -/
theorem averagesOverStock_booked (h : StockRows db) (hq : 0 < q) (tenantId : Id)
    (m : InventoryMovement) : AveragesOverStock ((db.addStock w i q).record m) tenantId i w := by
  intro item hitem _
  have hid : item.id = i := hitem.mem.2.1
  have hsum : averagedQuantity ((db.addStock w item.id q).record m) item w =
      averagedQuantity db item w + q := averagedQuantity_booked h.ids m
  rw [hid] at hsum
  rw [hsum]
  have hnonneg : 0 ≤ averagedQuantity db item w := averagedQuantity_nonneg h
  exact ne_of_gt (by linarith)

theorem receive_booked_divides {stamp : Stamp} {input : ReceiveInput} (h : StockRows db)
    (hq : 0 < input.quantity) (m : InventoryMovement) :
    Divides (receive stamp input)
      ((db.addStock input.warehouseId input.inventoryItemId input.quantity).record m) :=
  receive_divides (Sound.isSome_stockAt_addStock _ _ _ _ _)
    (averagesOverStock_booked h hq input.tenantId m)

end Booked

end Inventory
end ERP
