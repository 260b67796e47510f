import ERP.Inventory.Divisors
import ERP.Inventory.Purchasing
import ERP.Inventory.Refinement

/-!
# Items that can be received

When a line of a purchase order can be received, and when not: its item is configured, and
where it is averaged the stock that is there already has an average.  A receipt changes for
no item whether it can be received.
-/

namespace ERP
namespace Inventory

open Lib.Tx

/-- A receipt of the item into the warehouse is costed. -/
def Ready (db : DB) (tenantId : Id) (w : Option Id) (i : Id) : Prop :=
  ∃ item, Locked db tenantId i item ∧
    (item.valuationMethod = some .movingWeightedAverage →
      0 < averagedQuantity db item w → averageAt db item w ≠ none)

/-- The rows of one item are the same. -/
structure SameItemRows (i : Id) (db db' : DB) : Prop where
  items : ∀ tenantId, db'.items.find? (fun row => row.id = i ∧ row.tenantId = tenantId) =
    db.items.find? fun row => row.id = i ∧ row.tenantId = tenantId
  stocks : (db'.stocks.filter fun row => row.inventoryItemId = i) =
    db.stocks.filter fun row => row.inventoryItemId = i

section Rows

variable {db db' : DB} {tenantId : Id} {w : Option Id} {i : Id} {item : InventoryItem}

theorem SameItemRows.refl (i : Id) (db : DB) : SameItemRows i db db := ⟨fun _ => rfl, rfl⟩

theorem SameItemRows.trans {db'' : DB} (h : SameItemRows i db db') (k : SameItemRows i db' db'') :
    SameItemRows i db db'' :=
  ⟨fun tenantId => (k.items tenantId).trans (h.items tenantId), k.stocks.trans h.stocks⟩

theorem SameItemRows.symm (h : SameItemRows i db db') : SameItemRows i db' db :=
  ⟨fun tenantId => (h.items tenantId).symm, h.stocks.symm⟩

theorem SameItemRows.of_eq (hitems : db'.items = db.items) (hstocks : db'.stocks = db.stocks) :
    SameItemRows i db db' :=
  ⟨fun _ => by rw [hitems], by rw [hstocks]⟩

theorem stockAt_eq (db : DB) (w : Option Id) (i : Id) : db.stockAt w i =
    (db.stocks.filter fun row => row.inventoryItemId = i).find? fun row =>
      row.warehouseId = w := by
  unfold DB.stockAt
  rw [List.find?_filter]
  refine congrArg (db.stocks.find? ·) (funext fun row => decide_eq_decide.mpr ?_)
  rw [decide_eq_true_iff, decide_eq_true_iff]
  exact And.comm

theorem SameItemRows.averageAt_eq (h : SameItemRows item.id db db') :
    averageAt db' item w = averageAt db item w := by
  unfold averageAt
  rw [stockAt_eq, stockAt_eq, h.stocks]

theorem SameItemRows.averagedQuantity_eq (h : SameItemRows item.id db db') :
    averagedQuantity db' item w = averagedQuantity db item w := by
  unfold averagedQuantity onHand DB.stockBefore
  rw [stockAt_eq, stockAt_eq, h.stocks]

theorem SameItemRows.ready (h : SameItemRows i db db') (hready : Ready db tenantId w i) :
    Ready db' tenantId w i := by
  obtain ⟨item, hitem, haverage⟩ := hready
  have hid : item.id = i := hitem.mem.2.1
  refine ⟨item, ⟨(h.items tenantId).trans hitem.found, hitem.method, hitem.scope,
    hitem.standard⟩, ?_⟩
  rw [← hid] at h
  rw [h.averageAt_eq, h.averagedQuantity_eq]
  exact haverage

theorem SameItemRows.ready_iff (h : SameItemRows i db db') :
    Ready db' tenantId w i ↔ Ready db tenantId w i :=
  ⟨h.symm.ready, h.ready⟩

theorem ready_of_eq (hitems : db'.items = db.items) (hstocks : db'.stocks = db.stocks) :
    Ready db' tenantId w i ↔ Ready db tenantId w i :=
  SameItemRows.ready_iff (.of_eq hitems hstocks)

theorem find_updateItem {id : Id} {f : InventoryItem → InventoryItem}
    (hf : ∀ row, (f row).id = row.id) (hne : id ≠ i) (tenantId : Id) :
    (db.updateItem id f).items.find? (fun row => row.id = i ∧ row.tenantId = tenantId) =
      db.items.find? fun row => row.id = i ∧ row.tenantId = tenantId := by
  unfold DB.updateItem
  dsimp only
  induction db.items with
  | nil => rfl
  | cons row rest ih =>
      rw [List.map_cons, List.find?_cons, List.find?_cons, ih]
      by_cases hid : row.id = id
      · have hother : ¬ row.id = i := fun heq => hne (hid.symm.trans heq)
        have hother' : ¬ (f row).id = i := fun heq => hother ((hf row).symm.trans heq)
        rw [if_pos hid, decide_eq_false fun h => hother' h.1, decide_eq_false fun h => hother h.1]
      · rw [if_neg hid]

theorem SameItemRows.updateItem {id : Id} {f : InventoryItem → InventoryItem}
    (hf : ∀ row, (f row).id = row.id) (hne : id ≠ i) : SameItemRows i db (db.updateItem id f) :=
  ⟨find_updateItem hf hne, rfl⟩

theorem SameItemRows.freeze {stamp : Stamp} (hne : item.id ≠ i) :
    SameItemRows i db (freeze stamp db item) := by
  unfold Inventory.freeze
  split
  · exact .updateItem (fun _ => rfl) hne
  · exact .refl i db

theorem SameItemRows.setAverage (hne : item.id ≠ i) (average : ℚ) :
    SameItemRows i db (setAverage db item w average) := by
  unfold Inventory.setAverage
  split
  · exact .updateItem (fun _ => rfl) hne
  · refine ⟨fun _ => rfl, ?_⟩
    unfold DB.setStockAverage
    dsimp only
    induction db.stocks with
    | nil => rfl
    | cons row rest ih =>
        rw [List.map_cons, List.filter_cons, List.filter_cons, ih]
        by_cases hrow : row.inventoryItemId = item.id ∧ row.warehouseId = w
        · have hother : ¬ row.inventoryItemId = i := fun heq => hne (hrow.1.symm.trans heq)
          rw [if_pos hrow, decide_eq_false hother]
          rfl
        · rw [if_neg hrow]

/-- A cost is written to a movement, and the item of a receipt is frozen. -/
theorem SameItemRows.costed {stamp : Stamp} {movementId : Id} {unitCost totalCost : ℚ}
    (h : SameItemRows i db db') (hne : item.id ≠ i) : SameItemRows i db
      (Inventory.freeze stamp (db'.setMovementCost movementId unitCost totalCost) item) := by
  have hset : SameItemRows i db (db'.setMovementCost movementId unitCost totalCost) :=
    ⟨h.items, h.stocks⟩
  exact hset.trans (.freeze hne)

/-- Stock of one item is booked without the others. -/
theorem SameItemRows.addStock {i' : Id} {q : ℚ}
    (hids : db.stocks.Pairwise fun r s => r.id ≠ s.id) (hne : i' ≠ i) :
    SameItemRows i db (db.addStock w i' q) := by
  refine ⟨fun _ => by rw [DB.addStock_items], ?_⟩
  unfold DB.addStock
  cases hat : db.stockAt w i' with
  | none =>
      show List.filter _ (db.stocks ++ [_]) = _
      rw [List.filter_append, List.filter_cons_of_neg (by simpa using hne), List.filter_nil,
        List.append_nil]
  | some found =>
      obtain ⟨hfound, -, hitem⟩ := Sound.mem_of_stockAt hat
      show (db.stocks.map _).filter _ = _
      rw [List.filter_map]
      have hkeeps : ((fun row : InventoryStock => decide (row.inventoryItemId = i)) ∘ fun row =>
          if row.id = found.id then { row with quantity := row.quantity + q } else row) =
          fun row => decide (row.inventoryItemId = i) := by
        funext row
        rw [Function.comp_apply]
        split
        · rfl
        · rfl
      rw [hkeeps]
      refine (List.map_congr_left fun row hrow => ?_).trans (List.map_id _)
      obtain ⟨hmem, hof⟩ := List.mem_filter.mp hrow
      refine if_neg fun hid => hne ?_
      rw [← hitem, ← Lib.eq_of_key_of_ne hids hmem hfound hid]
      exact of_decide_eq_true hof

/-- The cost of a receipt goes into the rows of its item. -/
theorem Received.sameRows {stamp : Stamp} {input : ReceiveInput} {unitCost : ℚ}
    (h : Received stamp input db unitCost db') (hne : input.inventoryItemId ≠ i) :
    SameItemRows i db db' := by
  cases h with
  | fifo hitem _ _ =>
      refine SameItemRows.costed (.of_eq ?_ ?_) (hitem.mem.2.1.trans_ne hne)
      · exact openLayersFor_items db _ input
      · exact openLayersFor_stocks db _ input
  | average hitem _ _ _ _ =>
      have hother := hitem.mem.2.1.trans_ne hne
      exact (SameItemRows.setAverage hother _).costed hother
  | standard hitem _ _ => exact (SameItemRows.refl i db).costed (hitem.mem.2.1.trans_ne hne)

end Rows

section Receiving

variable {stamp : Stamp} {db db' : DB} {tenantId : Id} {w : Option Id} {i : Id}
  {item : InventoryItem} {q : ℚ} {C : Prop}

/-- The item is found as it was, but for the freeze. -/
theorem Locked.freeze (h : Locked db tenantId i item) (w : Option Id) (frozen : InventoryItem) :
    ∃ item', Locked (freeze stamp db frozen) tenantId i item' ∧
      averageAt (Inventory.freeze stamp db frozen) item' w = averageAt db item w := by
  unfold Inventory.freeze
  split
  · have hsame (row : InventoryItem) : SameItem row (if row.id = frozen.id then
        { row with valuationLockedAt := some (stamp.createdAt db.nextId) } else row) := by
      split
      · exact ⟨rfl, rfl, rfl, rfl, rfl⟩
      · exact .refl row
    refine ⟨_, h.of_items hsame rfl, ?_⟩
    split
    · rfl
    · rfl
  · exact ⟨item, h, rfl⟩

/-- An item that was received is ready for more. -/
theorem Received.ready {input : ReceiveInput} {unitCost : ℚ}
    (h : Received stamp input db unitCost db')
    (hrow : (db.stockAt input.warehouseId input.inventoryItemId).isSome) :
    Ready db' input.tenantId input.warehouseId input.inventoryItemId := by
  have hother (item : InventoryItem) (hitem : Locked db input.tenantId input.inventoryItemId item)
      (hmethod : item.valuationMethod ≠ some .movingWeightedAverage) :
      Ready db' input.tenantId input.warehouseId input.inventoryItemId := by
    obtain ⟨g, hg, hitems⟩ := h.costed.items
    refine ⟨g item, hitem.of_items hg hitems, fun haverage => ?_⟩
    rw [(hg item).method] at haverage
    exact absurd haverage hmethod
  cases h with
  | @fifo item hitem hmethod _ => exact hother item hitem (by rw [hmethod]; decide)
  | @average item hitem _ _ _ _ =>
      rw [← hitem.mem.2.1] at hrow
      obtain ⟨item₁, hitem₁, haverage, -⟩ := setAverage_spec hitem hrow
        (((averagedQuantity db item input.warehouseId - input.quantity) *
          (averageAt db item input.warehouseId).getD 0 + input.quantity * unitCost) /
            averagedQuantity db item input.warehouseId)
      have hcosted : Locked ((Inventory.setAverage db item input.warehouseId _).setMovementCost
          input.movementId unitCost (input.quantity * unitCost)) input.tenantId
          input.inventoryItemId item₁ := ⟨hitem₁.found, hitem₁.method, hitem₁.scope,
            hitem₁.standard⟩
      obtain ⟨item₂, hitem₂, hsame⟩ := hcosted.freeze input.warehouseId item
      refine ⟨item₂, hitem₂, fun _ _ => ?_⟩
      rw [hsame]
      exact (haverage.trans_ne (Option.some_ne_none _))
  | @standard item hitem hmethod _ => exact hother item hitem (by rw [hmethod]; decide)

/-- A body that fails only when `C` does not hold. -/
theorem require_failing {c : Prop} [Decidable c] {e : Failure} {Q : Unit → DB → Prop}
    (h : c → Q () db) (hfail : ¬ c → ¬ C) : Post (require c e) db Q fun _ => ¬ C :=
  post_require.mpr ⟨h, hfail⟩

theorem expect_failing {α : Type} {o : Option α} {e : Failure} {Q : α → DB → Prop}
    (h : ∀ a, o = some a → Q a db) (hfail : o = none → ¬ C) :
    Post (expect o e) db Q fun _ => ¬ C :=
  post_expect.mpr ⟨h, hfail⟩

theorem lockItem_failing {Q : InventoryItem → DB → Prop}
    (h : ∀ item, Locked db tenantId i item → Q item db)
    (hfail : (∀ item, ¬ Locked db tenantId i item) → ¬ C) :
    Post (lockItem tenantId i) db Q fun _ => ¬ C := by
  unfold lockItem
  simp only [post_bind, post_get, post_pure]
  refine expect_failing (fun item hfound => ?_) fun hnone => hfail fun item hitem => ?_
  · have honly (item' : InventoryItem) (hitem : Locked db tenantId i item') : item' = item :=
      Option.some.inj (hitem.found.symm.trans hfound)
    refine require_failing (fun hmethod => ?_) fun hno => hfail fun item' hitem => ?_
    · refine require_failing (fun hscope => ?_) fun hno => hfail fun item' hitem => ?_
      · refine require_failing (fun hstandard => ?_) fun hno => hfail fun item' hitem => ?_
        · exact h item ⟨hfound, hmethod, hscope, hstandard⟩
        · rw [honly item' hitem] at hitem
          exact hno hitem.standard
      · rw [honly item' hitem] at hitem
        exact hno hitem.scope
    · rw [honly item' hitem] at hitem
      exact hno hitem.method
  · rw [hitem.found] at hnone
    cases hnone

/-- An item that is averaged over stock without an average, or over none. -/
theorem updateMovingAverage_failing {unitCost : ℚ} (hrow : (db.stockAt w item.id).isSome)
    (hfail : averagedQuantity db item w = 0 ∨
      0 < averagedQuantity db item w - q ∧ averageAt db item w = none → ¬ C) :
    Post (updateMovingAverage item w q unitCost) db
      (fun _ _ => 0 < averagedQuantity db item w - q → averageAt db item w ≠ none)
      fun _ => ¬ C := by
  have hdivided {a b : ℚ} {Q : ℚ → DB → Prop} (hQ : Q (a / b) db) (hzero : b = 0 → ¬ C) :
      Post (decimalDiv a b) db Q fun _ => ¬ C := by
    unfold decimalDiv
    rw [post_bind]
    exact require_failing (fun _ => hQ) fun hno => hzero (not_not.mp hno)
  unfold updateMovingAverage
  rw [post_bind, post_get]
  unfold averagedQuantity averageAt at hfail ⊢
  by_cases hscope : item.movingAverageScope = some .perItem
  · simp only [hscope, if_true, post_bind, post_modify] at hfail ⊢
    refine require_failing (fun hopening => ?_) fun hno => hfail (.inr (not_not.mp hno))
    refine hdivided (fun hpos hnone => hopening ⟨hpos, hnone⟩) fun hzero => hfail (.inl hzero)
  · obtain ⟨row, hat⟩ := Option.isSome_iff_exists.mp hrow
    simp only [hscope, if_false, DB.stockBefore, hat, Option.map_some, Option.getD_some,
      Option.bind_some, post_bind, post_modify] at hfail ⊢
    refine require_failing (fun hopening => ?_) fun hno => hfail (.inr ?_)
    · refine hdivided (fun hpos hnone => hopening ?_) fun hzero => hfail (.inl hzero)
      rw [hat]
      exact ⟨hpos, hnone⟩
    · have hstuck := not_not.mp hno
      rw [hat] at hstuck
      exact hstuck

/-- `q` of the item came in at the location. -/
structure BookedIn (db booked : DB) (w : Option Id) (i : Id) (q : ℚ) : Prop where
  items : booked.items = db.items
  row : (booked.stockAt w i).isSome
  quantity : ∀ item : InventoryItem, item.id = i →
    averagedQuantity booked item w = averagedQuantity db item w + q
  average : ∀ item : InventoryItem, item.id = i → averageAt booked item w = averageAt db item w

theorem bookedIn_addStock (h : StockRows db) (w : Option Id) (i : Id) (q : ℚ)
    (m : InventoryMovement) : BookedIn db ((db.addStock w i q).record m) w i q where
  items := DB.addStock_items _ _ _ _
  row := Sound.isSome_stockAt_addStock db w i q m
  quantity := by
    rintro item rfl
    exact averagedQuantity_booked h.ids m
  average := by
    rintro item rfl
    exact averageAt_booked m

variable {booked : DB}

theorem BookedIn.locked_iff (h : BookedIn db booked w i q) :
    Locked booked tenantId i item ↔ Locked db tenantId i item := by
  constructor
  · intro hitem
    exact ⟨h.items ▸ hitem.found, hitem.method, hitem.scope, hitem.standard⟩
  · intro hitem
    exact ⟨h.items.symm ▸ hitem.found, hitem.method, hitem.scope, hitem.standard⟩

/-- The average takes in what was booked, if and only if the item was ready for it. -/
theorem BookedIn.updateMovingAverage {unitCost : ℚ} (h : StockRows db)
    (hbooked : BookedIn db booked w i q) (hitem : Locked db tenantId i item)
    (hmethod : item.valuationMethod = some .movingWeightedAverage) :
    Post (updateMovingAverage item w q unitCost) booked (fun _ _ => Ready db tenantId w i)
      fun _ => ¬ (Ready db tenantId w i ∧ 0 < q) := by
  have hid : item.id = i := hitem.mem.2.1
  have hrow := hbooked.row
  rw [← hid] at hrow
  have hquantity := hbooked.quantity item hid
  have haverage := hbooked.average item hid
  have hnonneg : 0 ≤ averagedQuantity db item w := averagedQuantity_nonneg h
  refine (updateMovingAverage_failing hrow fun hstuck hready => ?_).mono
    (fun _ _ hopening => ⟨item, hitem, fun _ hpos => ?_⟩) fun _ he => he
  · obtain ⟨⟨found, hfound, hopen⟩, hpos⟩ := hready
    have hsame : found = item := Option.some.inj (hfound.found.symm.trans hitem.found)
    rw [hsame] at hopen
    rw [hquantity, haverage] at hstuck
    rcases hstuck with hzero | ⟨hprevious, hnone⟩
    · linarith
    · exact hopen hmethod (by linarith) hnone
  · rw [hquantity, haverage] at hopening
    exact hopening (by linarith)

/-- A receipt at a price that was booked is costed, if and only if its item was ready for it:
nothing else is in its way. -/
theorem BookedIn.receive {input : ReceiveInput} (h : StockRows db)
    (hbooked : BookedIn db booked input.warehouseId input.inventoryItemId input.quantity)
    (hcost : input.unitCost ≠ none) :
    Post (receive stamp input) booked
      (fun _ _ => Ready db input.tenantId input.warehouseId input.inventoryItemId)
      fun _ => ¬ (Ready db input.tenantId input.warehouseId input.inventoryItemId ∧
        0 < input.quantity) := by
  unfold Inventory.receive
  simp only [post_bind, post_modify, post_pure]
  refine lockItem_failing (fun item hfound => ?_) fun hnone hready => ?_
  · have hitem := hbooked.locked_iff.mp hfound
    refine require_failing (fun _ => ?_) fun hno => absurd (.inr hcost) hno
    obtain ⟨method, hmethod⟩ := Option.ne_none_iff_exists'.mp hitem.method
    have hready (hother : method ≠ .movingWeightedAverage) :
        Ready db input.tenantId input.warehouseId input.inventoryItemId :=
      ⟨item, hitem, fun haverage =>
        absurd (Option.some.inj (hmethod.symm.trans haverage)) hother⟩
    rw [hmethod]
    cases method with
    | fifo => exact createLayer_post (lockValuation_post (hready (by decide)))
    | standardCost => exact post_pure.mpr (lockValuation_post (hready (by decide)))
    | movingWeightedAverage =>
        refine (hbooked.updateMovingAverage h hitem hmethod).mono (fun _ _ hok => ?_)
          fun _ he => he
        exact lockValuation_post hok
  · obtain ⟨⟨item, hitem, -⟩, -⟩ := hready
    exact hnone item (hbooked.locked_iff.mpr hitem)

/-- And what the costing wrote then. -/
theorem receive_outcome {input : ReceiveInput} (h : StockRows db) (hcost : input.unitCost ≠ none)
    (m : InventoryMovement) :
    Post (receive stamp input)
      ((db.addStock input.warehouseId input.inventoryItemId input.quantity).record m)
      (fun _ db' => Ready db input.tenantId input.warehouseId input.inventoryItemId ∧
        ∃ unitCost, Received stamp input ((db.addStock input.warehouseId input.inventoryItemId
          input.quantity).record m) unitCost db')
      fun _ => ¬ (Ready db input.tenantId input.warehouseId input.inventoryItemId ∧
        0 < input.quantity) := by
  have hbooked := bookedIn_addStock h input.warehouseId input.inventoryItemId input.quantity m
  have hwritten : Post (receive stamp input) ((db.addStock input.warehouseId
      input.inventoryItemId input.quantity).record m) (fun _ db' => ∃ unitCost, Received stamp
        input ((db.addStock input.warehouseId input.inventoryItemId input.quantity).record m)
          unitCost db') fun _ => True :=
    receive_post quiet_true hbooked.row fun _ unitCost _ hreceived => ⟨unitCost, hreceived⟩
  exact ((hbooked.receive h hcost).and hwritten).mono (fun _ _ hboth => hboth) fun _ hboth =>
    hboth.1

end Receiving

/-- Stock rows with ids that were handed out, none of them below zero. -/
structure StockKept (db : DB) : Prop extends StockRows db where
  known : ∀ row ∈ db.stocks, row.id < db.nextId

section Kept

variable {db db' : DB} {w : Option Id} {i : Id} {q : ℚ}

/-- More stock keeps them. -/
theorem StockKept.addStock (h : StockKept db) (hq : 0 ≤ q) : StockKept (db.addStock w i q) := by
  unfold DB.addStock
  cases hat : db.stockAt w i with
  | some found =>
      refine ⟨⟨?_, fun row hrow => ?_⟩, fun row hrow => ?_⟩
      · refine List.pairwise_map.mpr (h.ids.imp fun hne => ?_)
        split
        · split
          · exact hne
          · exact hne
        · split
          · exact hne
          · exact hne
      · obtain ⟨old, hold, rfl⟩ := List.mem_map.mp hrow
        split
        · exact add_nonneg (h.nonneg old hold) hq
        · exact h.nonneg old hold
      · obtain ⟨old, hold, rfl⟩ := List.mem_map.mp hrow
        have hlt := h.known old hold
        split
        · exact hlt
        · exact hlt
  | none =>
      refine ⟨⟨?_, fun row hrow => ?_⟩, fun row hrow => ?_⟩
      · refine List.pairwise_append.mpr ⟨h.ids, List.pairwise_singleton _ _, ?_⟩
        intro row hrow new hnew
        rw [List.mem_singleton.mp hnew]
        exact Nat.ne_of_lt (h.known row hrow)
      · rcases List.mem_append.mp hrow with hrow | hrow
        · exact h.nonneg row hrow
        · rw [List.mem_singleton.mp hrow]
          exact hq
      · rcases List.mem_append.mp hrow with hrow | hrow
        · exact Nat.lt_succ_of_lt (h.known row hrow)
        · rw [List.mem_singleton.mp hrow]
          exact Nat.lt_succ_self _

/-- A movement is costed beside them. -/
theorem StockKept.costed {movementId : Id} (h : StockKept db) (hcosted : Costed movementId db db') :
    StockKept db' := by
  obtain ⟨f, hf, hstocks⟩ := hcosted.stocks
  refine ⟨⟨?_, fun row hrow => ?_⟩, fun row hrow => ?_⟩
  · rw [hstocks]
    refine List.pairwise_map.mpr (h.ids.imp fun hne => ?_)
    rw [(hf _).id, (hf _).id]
    exact hne
  · rw [hstocks] at hrow
    obtain ⟨old, hold, rfl⟩ := List.mem_map.mp hrow
    rw [(hf old).quantity]
    exact h.nonneg old hold
  · rw [hstocks] at hrow
    obtain ⟨old, hold, rfl⟩ := List.mem_map.mp hrow
    rw [(hf old).id]
    exact (h.known old hold).trans_le hcosted.nextId

/-- Rows of other tables leave them as they are. -/
theorem StockKept.of_eq (h : StockKept db) (hstocks : db'.stocks = db.stocks)
    (hnext : db.nextId ≤ db'.nextId) : StockKept db' := by
  refine ⟨⟨?_, ?_⟩, ?_⟩
  · rw [hstocks]
    exact h.ids
  · rw [hstocks]
    exact h.nonneg
  · rw [hstocks]
    exact fun row hrow => (h.known row hrow).trans_le hnext

end Kept

end Inventory
end ERP
