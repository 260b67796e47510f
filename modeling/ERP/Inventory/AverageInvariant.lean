import Mathlib.Algebra.BigOperators.Ring.List
import Mathlib.Tactic.FieldSimp
import ERP.Inventory.Valuation

/-!
# The value of a moving-average item

A receipt mixes its cost into the average of the stock rows.  What is set aside
for orders has left those rows and is valued at the average all the same, so a
receipt at another cost also revalues it.  Without that, the value of an item is
what its receipts cost less what its issues were charged.
-/

namespace ERP
namespace Inventory

/-- Item `i` of tenant `t` is valued at the moving average of scope `s`. -/
def AveragedItem (i t : Id) (s : MovingAverageScope) (db : DB) : Prop :=
  ∃ item ∈ db.items, item.id = i ∧ item.tenantId = t ∧
    item.valuationMethod = some .movingWeightedAverage ∧ item.movingAverageScope = some s

/-- The locations whose stock shares the average of `w`. -/
def InScope (s : MovingAverageScope) (w w' : Option Id) : Prop := s = .perItem ∨ w' = w

instance (s : MovingAverageScope) (w w' : Option Id) : Decidable (InScope s w w') :=
  inferInstanceAs (Decidable (_ ∨ _))

/-- The average of an item in its scope. -/
def averageIn (db : DB) (s : MovingAverageScope) (i : Id) (w : Option Id) : Option ℚ :=
  if s = .perItem then (db.items.find? fun row => row.id = i).bind (·.averageUnitCost)
  else (db.stockAt w i).bind (·.averageUnitCost)

/-- The stock the average of an item is taken over. -/
def scopeQty (db : DB) (s : MovingAverageScope) (i : Id) (w : Option Id) : ℚ :=
  (db.stocks.map fun r =>
    if r.inventoryItemId = i ∧ InScope s w r.warehouseId then r.quantity else 0).sum

/-- What left the stock rows without having been charged. -/
def held (c : Config) (i : Id) (w : Option Id) : ℚ :=
  activeQty c.db w i + pendingQty c.pending w i

/-- The stock rows of an item, and what is held besides them, at given averages. -/
def worth (stocks : List InventoryStock) (i : Id) (a h : Option Id → ℚ) : ℚ :=
  (stocks.map fun r =>
    if r.inventoryItemId = i then a r.warehouseId * (r.quantity + h r.warehouseId) else 0).sum

section Worth

variable {db : DB} {pending : List InventoryMovement} {i : Id} {a a' h h' k : Option Id → ℚ}
  {w : Option Id} {q : ℚ} {s : MovingAverageScope}

theorem onlyRowAt (hs : Sound ⟨db, pending⟩) : db.stocks.Pairwise fun r s : InventoryStock =>
    ¬ ((r.inventoryItemId = i ∧ r.warehouseId = w) ∧
      (s.inventoryItemId = i ∧ s.warehouseId = w)) :=
  hs.stockKey.imp fun hne hkey =>
    hne ⟨hkey.1.2.trans hkey.2.2.symm, hkey.1.1.trans hkey.2.1.symm⟩

theorem worth_congr {stocks : List InventoryStock}
    (heq : ∀ r ∈ stocks, r.inventoryItemId = i →
      a r.warehouseId = a' r.warehouseId ∧ h r.warehouseId = h' r.warehouseId) :
    worth stocks i a h = worth stocks i a' h' := by
  unfold worth
  congr 1
  refine List.map_congr_left fun r hr => ?_
  by_cases hi : r.inventoryItemId = i
  · rw [if_pos hi, if_pos hi, (heq r hr hi).1, (heq r hr hi).2]
  · rw [if_neg hi, if_neg hi]

theorem worth_map {stocks : List InventoryStock} {f : InventoryStock → InventoryStock}
    (hf : ∀ row, SameStock row (f row)) : worth (stocks.map f) i a h = worth stocks i a h := by
  unfold worth
  rw [List.map_map]
  congr 1
  refine List.map_congr_left fun r _ => ?_
  simp only [Function.comp, (hf r).warehouse, (hf r).item, (hf r).quantity]

theorem worth_shift (hs : Sound ⟨db, pending⟩) {row : InventoryStock} (hrow : row ∈ db.stocks) :
    worth (db.shiftStock row.id q).stocks i a h =
      worth db.stocks i a h + if row.inventoryItemId = i then a row.warehouseId * q else 0 := by
  unfold worth DB.shiftStock DB.updateStock
  rw [hs.stockIds.sum_update hrow (fun r => { r with quantity := r.quantity + q })]
  by_cases hi : row.inventoryItemId = i
  · simp only [hi, if_true]
    ring
  · simp only [hi, if_false, sub_zero]

/-- A row that is only now created holds nothing beside its stock. -/
theorem worth_add (hs : Sound ⟨db, pending⟩) {i' : Id}
    (hnew : i' = i → db.stockAt w i = none → h w = 0) :
    worth (db.addStock w i' q).stocks i a h =
      worth db.stocks i a h + if i' = i then a w * q else 0 := by
  unfold DB.addStock
  cases hat : db.stockAt w i' with
  | some row =>
      obtain ⟨hmem, hw, hi⟩ := Sound.mem_of_stockAt hat
      simp only [worth_shift hs hmem, hw, hi]
  | none =>
      simp only [worth, DB.insertStock, DB.takeId, List.map_append, List.sum_append,
        List.map_cons, List.map_nil, List.sum_cons, List.sum_nil, add_zero]
      by_cases hi : i' = i
      · rw [if_pos hi, if_pos hi, hnew hi (hi ▸ hat), add_zero]
      · rw [if_neg hi, if_neg hi]

/-- What is held at a location that has a row is worth its quantity at the average. -/
theorem worth_held (hs : Sound ⟨db, pending⟩) {row : InventoryStock} (hrow : row ∈ db.stocks)
    (hw : row.warehouseId = w) (hi : row.inventoryItemId = i)
    (hh : ∀ w', k w' = h w' + if w' = w then q else 0) :
    worth db.stocks i a k = worth db.stocks i a h + a w * q := by
  have hone := Lib.sum_unique (onlyRowAt hs) hrow ⟨hi, hw⟩ fun _ => a w * q
  rw [← hone]
  unfold worth
  rw [← List.sum_map_add]
  congr 1
  refine List.map_congr_left fun r _ => ?_
  by_cases hri : r.inventoryItemId = i
  · by_cases hrw : r.warehouseId = w
    · rw [if_pos hri, if_pos hri, if_pos ⟨hri, hrw⟩, hh, if_pos hrw, hrw]
      ring
    · rw [if_pos hri, if_pos hri, if_neg fun hk => hrw hk.2, hh, if_neg hrw]
      ring
  · rw [if_neg hri, if_neg hri, if_neg fun hk => hri hk.1]
    ring

/-- Another average in the scope of `w`, where nothing is held. -/
theorem worth_average {x y : ℚ} (hout : ∀ w', ¬ InScope s w w' → a' w' = a w')
    (hin : ∀ w', InScope s w w' → a' w' = x ∧ a w' = y ∧ h w' = 0) :
    worth db.stocks i a' h = worth db.stocks i a h + (x - y) * scopeQty db s i w := by
  unfold worth scopeQty
  rw [← List.sum_map_mul_left, ← List.sum_map_add]
  congr 1
  refine List.map_congr_left fun r _ => ?_
  by_cases hri : r.inventoryItemId = i
  · by_cases hrw : InScope s w r.warehouseId
    · obtain ⟨hx, hy, hz⟩ := hin _ hrw
      rw [if_pos hri, if_pos hri, if_pos ⟨hri, hrw⟩, hx, hy, hz]
      ring
    · rw [if_pos hri, if_pos hri, if_neg fun hk => hrw hk.2, hout _ hrw]
      ring
  · rw [if_neg hri, if_neg hri, if_neg fun hk => hri hk.1]
    ring

end Worth

section Averages

variable {db db' : DB} {pending : List InventoryMovement} {i t n : Id} {s : MovingAverageScope}
  {w w' : Option Id} {item : InventoryItem} {x q : ℚ}

theorem find?_map_of_keeps {α : Type} {rows : List α} {f : α → α} {p : α → Bool}
    (hp : ∀ r, p (f r) = p r) : (rows.map f).find? p = (rows.find? p).map f := by
  rw [List.find?_map]
  congr 2
  exact funext hp

/-- Changes of the rows that keep their keys and the averages of item `i`. -/
theorem averageIn_of_map {f : InventoryStock → InventoryStock} {g : InventoryItem → InventoryItem}
    (hf : ∀ r, (f r).warehouseId = r.warehouseId ∧ (f r).inventoryItemId = r.inventoryItemId ∧
      (r.inventoryItemId = i → (f r).averageUnitCost = r.averageUnitCost))
    (hg : ∀ r, (g r).id = r.id ∧ (r.id = i → (g r).averageUnitCost = r.averageUnitCost))
    (hstocks : db'.stocks = db.stocks.map f) (hitems : db'.items = db.items.map g) :
    averageIn db' s i w = averageIn db s i w := by
  unfold averageIn DB.stockAt
  rw [hstocks, hitems, find?_map_of_keeps fun r => by rw [(hg r).1],
    find?_map_of_keeps fun r => by rw [(hf r).1, (hf r).2.1]]
  congr 1
  · cases hfind : db.items.find? fun row => row.id = i with
    | none => rfl
    | some row =>
        have hkey : row.id = i := by simpa using List.find?_some hfind
        exact (hg row).2 hkey
  · cases hfind : db.stocks.find? fun row => row.warehouseId = w ∧ row.inventoryItemId = i with
    | none => rfl
    | some row =>
        have hkey := List.find?_some hfind
        simp only [decide_eq_true_eq] at hkey
        exact (hf row).2.2 hkey.2

theorem averageIn_congr (hstocks : db'.stocks = db.stocks) (hitems : db'.items = db.items) :
    averageIn db' s i w = averageIn db s i w := by
  unfold averageIn DB.stockAt
  rw [hstocks, hitems]

theorem averageIn_shift {id : Id} : averageIn (db.shiftStock id q) s i w = averageIn db s i w := by
  refine averageIn_of_map (fun r => ?_) (fun r => ⟨rfl, fun _ => rfl⟩) rfl (List.map_id _).symm
  split <;> exact ⟨rfl, rfl, fun _ => rfl⟩

theorem averageIn_add {i' : Id} :
    averageIn (db.addStock w' i' q) s i w = averageIn db s i w := by
  unfold DB.addStock
  cases hat : db.stockAt w' i' with
  | some row => exact averageIn_shift
  | none =>
      unfold averageIn DB.stockAt DB.insertStock DB.takeId
      simp only
      congr 1
      rw [List.find?_append]
      by_cases hkey : w' = w ∧ i' = i
      · obtain ⟨rfl, rfl⟩ := hkey
        unfold DB.stockAt at hat
        rw [hat, Option.none_or]
        simp
      · cases hfind : db.stocks.find? fun row => row.warehouseId = w ∧ row.inventoryItemId = i with
        | some row => rfl
        | none => simp [hkey]

theorem averageIn_freeze {stamp : Stamp} :
    averageIn (freeze stamp db item) s i w = averageIn db s i w := by
  unfold freeze
  split
  · refine averageIn_of_map (fun r => ⟨rfl, rfl, fun _ => rfl⟩) (fun r => ?_)
      (List.map_id _).symm rfl
    split <;> exact ⟨rfl, fun _ => rfl⟩
  · rfl

theorem averageIn_setAverage_ne (hne : item.id ≠ i) :
    averageIn (setAverage db item w' x) s i w = averageIn db s i w := by
  unfold setAverage
  split
  · refine averageIn_of_map (fun r => ⟨rfl, rfl, fun _ => rfl⟩) (fun r => ?_)
      (List.map_id _).symm rfl
    split
    · exact ⟨rfl, fun hri => absurd (‹r.id = item.id›.symm.trans hri) hne⟩
    · exact ⟨rfl, fun _ => rfl⟩
  · refine averageIn_of_map (fun r => ?_) (fun r => ⟨rfl, fun _ => rfl⟩) rfl (List.map_id _).symm
    split
    · rename_i hkey
      exact ⟨rfl, rfl, fun hri => absurd (hkey.1.symm.trans hri) hne⟩
    · exact ⟨rfl, rfl, fun _ => rfl⟩

/-- A new average holds in the scope it was written for. -/
theorem averageIn_setAverage (hmem : item ∈ db.items) (hid : item.id = i)
    (hscope : item.movingAverageScope = some s) (hrow : (db.stockAt w' i).isSome) :
    averageIn (setAverage db item w' x) s i w =
      if InScope s w' w then some x else averageIn db s i w := by
  cases s with
  | perItem =>
      rw [if_pos (.inl rfl)]
      simp only [averageIn, setAverage, hscope, if_true, DB.updateItem]
      rw [find?_map_of_keeps fun r => by split <;> rfl]
      have hfound : (db.items.find? fun row => row.id = i).isSome :=
        List.find?_isSome.mpr ⟨item, hmem, by simpa using hid⟩
      obtain ⟨row, hrow⟩ := Option.isSome_iff_exists.mp hfound
      have hkey : row.id = i := by simpa using List.find?_some hrow
      rw [hrow, Option.map_some, Option.bind_some, if_pos (hkey.trans hid.symm)]
  | perWarehouse =>
      have hne : ¬ (some MovingAverageScope.perWarehouse = some .perItem) := by decide
      simp only [averageIn, setAverage, hscope, hne, if_false, DB.setStockAverage, reduceCtorEq,
        DB.stockAt]
      rw [find?_map_of_keeps fun r => by split <;> rfl]
      by_cases hw : w = w'
      · obtain ⟨row, hrow⟩ := Option.isSome_iff_exists.mp hrow
        obtain ⟨_, hrw, hri⟩ := Sound.mem_of_stockAt hrow
        unfold DB.stockAt at hrow
        rw [if_pos (.inr hw), hw, hrow, Option.map_some, Option.bind_some,
          if_pos ⟨hri.trans hid.symm, hrw⟩]
      · have hout : ¬ InScope .perWarehouse w' w := fun h =>
          h.elim (fun hs => MovingAverageScope.noConfusion hs) hw
        rw [if_neg hout]
        cases hfind : db.stocks.find? fun row => row.warehouseId = w ∧ row.inventoryItemId = i with
        | none => rfl
        | some row =>
            have hkey := List.find?_some hfind
            simp only [decide_eq_true_eq] at hkey
            rw [Option.map_some, if_neg fun hk => hw (hkey.1.symm.trans hk.2)]

theorem averageAt_eq (hk : Lib.Keyed (·.id) n db.items) (hmem : item ∈ db.items)
    (hid : item.id = i) (hscope : item.movingAverageScope = some s) :
    averageAt db item w = averageIn db s i w := by
  unfold averageAt averageIn
  rw [hscope, ← hid, hk.find?_eq hmem]
  cases s with
  | perItem => rfl
  | perWarehouse => rfl

theorem averagedQuantity_eq (hs : Sound ⟨db, pending⟩) (hid : item.id = i)
    (hscope : item.movingAverageScope = some s) :
    averagedQuantity db item w = scopeQty db s i w := by
  unfold averagedQuantity scopeQty
  rw [hscope, hid]
  cases s with
  | perItem =>
      rw [if_pos rfl, onHand, Lib.sum_filter_eq]
      simp only [InScope, true_or, and_true]
  | perWarehouse =>
      rw [if_neg (by decide), DB.stockBefore]
      simp only [InScope, reduceCtorEq, false_or]
      cases hat : db.stockAt w i with
      | none =>
          symm
          refine List.sum_eq_zero fun x hx => ?_
          obtain ⟨r, hr, rfl⟩ := List.mem_map.mp hx
          exact if_neg fun hk => Sound.not_mem_of_stockAt hat r hr ⟨hk.2, hk.1⟩
      | some row =>
          obtain ⟨hmem, hw, hi⟩ := Sound.mem_of_stockAt hat
          exact (Lib.sum_unique (onlyRowAt hs) hmem ⟨hi, hw⟩ (·.quantity)).symm

theorem scopeQty_add (hs : Sound ⟨db, pending⟩) :
    scopeQty (db.addStock w i q) s i w = scopeQty db s i w + q := by
  have hin : InScope s w w := .inr rfl
  unfold DB.addStock
  cases hat : db.stockAt w i with
  | some row =>
      obtain ⟨hmem, hw, hi⟩ := Sound.mem_of_stockAt hat
      simp only [scopeQty, DB.shiftStock, DB.updateStock]
      rw [hs.stockIds.sum_update hmem (fun r => { r with quantity := r.quantity + q })]
      simp only [hi, hw, hin, and_self, if_true]
      ring
  | none =>
      simp [scopeQty, DB.insertStock, DB.takeId, hin]

end Averages

section Costs

variable {stamp : Stamp} {db db' : DB} {i n : Id} {m : InventoryMovement} {u c : ℚ}

theorem receiptCost_congr (h : db'.movements = db.movements) :
    receiptCost db' i = receiptCost db i := by
  unfold receiptCost
  rw [h]

theorem issueCost_congr (h : db'.movements = db.movements) :
    issueCost db' i = issueCost db i := by
  unfold issueCost
  rw [h]

theorem receiptCost_append (h : db'.movements = db.movements ++ [m]) :
    receiptCost db' i = receiptCost db i +
      if m.inventoryItemId = i ∧ 0 ≤ movementQuantityDelta m then m.totalCost.getD 0 else 0 := by
  simp [receiptCost, h]

theorem issueCost_append (h : db'.movements = db.movements ++ [m]) :
    issueCost db' i = issueCost db i +
      if m.inventoryItemId = i ∧ movementQuantityDelta m < 0 then m.totalCost.getD 0 else 0 := by
  simp [issueCost, h]

theorem movementQuantityDelta_of_some {before after : ℚ} (hb : m.beforeQuantity = some before)
    (ha : m.afterQuantity = some after) : movementQuantityDelta m = after - before := by
  unfold movementQuantityDelta
  rw [hb, ha]

theorem movementQuantityDelta_cost :
    movementQuantityDelta { m with unitCost := some u, totalCost := some c } =
      movementQuantityDelta m := rfl

/-- A recorded movement without a cost changes no cost. -/
theorem costs_record (h : m.totalCost = none) :
    receiptCost (db.record m) i = receiptCost db i ∧
    issueCost (db.record m) i = issueCost db i := by
  have happend : (db.record m).movements = db.movements ++ [m] := rfl
  rw [receiptCost_append happend, issueCost_append happend, h]
  simp

/-- The cost of a movement that took stock out and had none. -/
theorem issueCost_set (hk : Lib.Keyed (·.id) n db.movements) (hm : m ∈ db.movements)
    (hnone : m.totalCost = none) (hneg : movementQuantityDelta m < 0) :
    receiptCost (db.setMovementCost m.id u c) i = receiptCost db i ∧
      issueCost (db.setMovementCost m.id u c) i =
        issueCost db i + if m.inventoryItemId = i then c else 0 := by
  unfold receiptCost issueCost DB.setMovementCost
  simp only
  rw [hk.sum_update hm (fun r => { r with unitCost := some u, totalCost := some c }),
    hk.sum_update hm (fun r => { r with unitCost := some u, totalCost := some c })]
  simp only [movementQuantityDelta_cost, hnone, Option.getD_none, Option.getD_some, hneg,
    not_le.mpr hneg, and_true, and_false, if_false, ite_self, sub_zero, add_zero, and_self]

theorem Received.movements {input : ReceiveInput} (h : Received stamp input db u db') :
    db'.movements = (db.setMovementCost input.movementId u (input.quantity * u)).movements := by
  cases h with
  | fifo hitem hmethod hcost =>
      rw [freeze_movements]
      exact DB.setMovementCost_movements_congr _ _ _ (openLayersFor_movements db _ input)
  | average hitem hmethod hcost htotal hopening =>
      rw [freeze_movements]
      refine DB.setMovementCost_movements_congr _ _ _ ?_
      unfold setAverage
      split <;> rfl
  | standard hitem hmethod hcost => rw [freeze_movements]

/-- A receipt of an item adds what it cost. -/
theorem Received.costs {input : ReceiveInput} (h : Received stamp input (db.record m) u db')
    (hid : input.movementId = m.id) (hk : Lib.Keyed (·.id) m.id db.movements)
    (hdelta : 0 ≤ movementQuantityDelta m) :
    receiptCost db' i =
        receiptCost db i + (if m.inventoryItemId = i then input.quantity * u else 0) ∧
      issueCost db' i = issueCost db i := by
  have hmov := h.movements
  rw [hid, setMovementCost_record hk] at hmov
  rw [receiptCost_append hmov, issueCost_append hmov]
  simp only [movementQuantityDelta_cost, hdelta, not_lt.mpr hdelta, and_true, and_false, if_false,
    add_zero, Option.getD_some]

end Costs

/-- The item has a stock row at the location. -/
def HasRow (db : DB) (w : Option Id) (i : Id) : Prop :=
  ∃ row ∈ db.stocks, row.warehouseId = w ∧ row.inventoryItemId = i

/-- Every reservation of the item is its tenant's and stands beside a stock row. -/
structure Housed (i t : Id) (c : Config) : Prop where
  active : ∀ m ∈ c.db.movements, m.referenceType = some .orderReservation →
    m.inventoryItemId = i → m.tenantId = t ∧ HasRow c.db m.warehouseId i
  pending : ∀ r ∈ c.pending, r.inventoryItemId = i → HasRow c.db r.warehouseId i

/-- The value of the item is what its receipts cost less what its issues were
charged, and nothing of it is without an average. -/
structure Conserved (i t : Id) (s : MovingAverageScope) (c : Config) : Prop where
  item : AveragedItem i t s c.db
  value : worth c.db.stocks i (fun w => (averageIn c.db s i w).getD 0) (held c i) =
    receiptCost c.db i - issueCost c.db i
  valued : ∀ w, averageIn c.db s i w = none → stockQty c.db w i = 0 ∧ held c i w = 0

/-- A receipt that revalues nothing that is held: nothing is, or it comes at the
average. -/
def Undisturbed (s : MovingAverageScope) (r : Receipt) (c : Config) : Prop :=
  (∀ w, InScope s r.warehouseId w → held c r.inventoryItemId w = 0) ∨
    averageIn c.db s r.inventoryItemId r.warehouseId = r.unitCost

section Receipts

variable {stamp : Stamp} {db db' : DB} {pending : List InventoryMovement} {i t n : Id}
  {s : MovingAverageScope} {w : Option Id} {u : ℚ} {input : ReceiveInput}

theorem AveragedItem.locked (h : AveragedItem i t s db) (hk : Lib.Keyed (·.id) n db.items)
    {tenantId : Id} {item : InventoryItem} (hl : Locked db tenantId i item) :
    item.valuationMethod = some .movingWeightedAverage ∧ item.movingAverageScope = some s ∧
      tenantId = t := by
  obtain ⟨row, hrow, hid, ht, hmethod, hscope⟩ := h
  obtain ⟨hmem, hiid, hit⟩ := hl.mem
  have heq : item = row := hk.eq_of_key hmem hrow (hiid.trans hid.symm)
  rw [heq] at hit ⊢
  exact ⟨hmethod, hscope, hit.symm.trans ht⟩

theorem AveragedItem.of_items (h : AveragedItem i t s db)
    (hitems : ∃ f, (∀ row, SameItem row (f row)) ∧ db'.items = db.items.map f) :
    AveragedItem i t s db' := by
  obtain ⟨f, hf, hrows⟩ := hitems
  obtain ⟨item, hmem, hid, ht, hmethod, hscope⟩ := h
  refine ⟨f item, ?_, (hf item).id.trans hid, (hf item).tenant.trans ht,
    (hf item).method.trans hmethod, (hf item).scope.trans hscope⟩
  rw [hrows]
  exact List.mem_map_of_mem hmem

theorem Received.average_ne (h : Received stamp input db u db')
    (hne : input.inventoryItemId ≠ i) : averageIn db' s i w = averageIn db s i w := by
  cases h with
  | fifo hitem hmethod hcost =>
      rw [averageIn_freeze]
      exact averageIn_congr (openLayersFor_stocks db _ input) (openLayersFor_items db _ input)
  | average hitem hmethod hcost htotal hopening =>
      have hid := hitem.mem.2.1
      rw [averageIn_freeze]
      exact averageIn_setAverage_ne (hid ▸ hne)
  | standard hitem hmethod hcost =>
      rw [averageIn_freeze]
      rfl

/-- The average a receipt leaves in its scope. -/
theorem Received.average_eq (h : Received stamp input db u db') (hs : Sound ⟨db, pending⟩)
    (hitem : AveragedItem i t s db) (hi : input.inventoryItemId = i)
    (hrow : (db.stockAt input.warehouseId i).isSome) :
    input.unitCost = some u ∧ scopeQty db s i input.warehouseId ≠ 0 ∧
      ∀ w, averageIn db' s i w =
        if InScope s input.warehouseId w then
          some (((scopeQty db s i input.warehouseId - input.quantity) *
              (averageIn db s i input.warehouseId).getD 0 + input.quantity * u) /
            scopeQty db s i input.warehouseId)
        else averageIn db s i w := by
  cases h with
  | @fifo item hlocked hmethod hcost =>
      have := (hitem.locked hs.itemIds (hi ▸ hlocked)).1
      exact absurd (hmethod.symm.trans this) (by decide)
  | @standard item hlocked hmethod hcost =>
      have := (hitem.locked hs.itemIds (hi ▸ hlocked)).1
      exact absurd (hmethod.symm.trans this) (by decide)
  | @average item hlocked hmethod hcost htotal hopening =>
      obtain ⟨_, hscope, _⟩ := hitem.locked hs.itemIds (hi ▸ hlocked)
      obtain ⟨hmem, hid, _⟩ := hlocked.mem
      have hid' := hid.trans hi
      have hquantity : averagedQuantity db item input.warehouseId =
          scopeQty db s i input.warehouseId := averagedQuantity_eq hs hid' hscope
      have haverage : averageAt db item input.warehouseId = averageIn db s i input.warehouseId :=
        averageAt_eq hs.itemIds hmem hid' hscope
      refine ⟨hcost, hquantity ▸ htotal, fun w => ?_⟩
      rw [averageIn_freeze, hquantity, haverage]
      exact averageIn_setAverage hmem hid' hscope hrow

/-- Within a scope there is one average. -/
theorem averageIn_scope {w' : Option Id} (h : InScope s w w') :
    averageIn db s i w' = averageIn db s i w := by
  rcases h with h | h
  · unfold averageIn
    rw [if_pos h, if_pos h]
  · rw [h]

variable {m : InventoryMovement}

/-- Bringing stock in leaves what is held. -/
theorem held_book {movementId : Id} {w' : Option Id} {i' : Id} {q : ℚ}
    (hc : Costed movementId ((db.addStock w' i' q).record m) db')
    (hkind : m.referenceType ≠ some .orderReservation) :
    held ⟨db', pending⟩ i w = held ⟨db, pending⟩ i w := by
  unfold held
  rw [activeQty_costed hc, activeQty_record_other hkind,
    activeQty_congr (DB.addStock_movements db _ _ _)]

theorem Housed.held_eq_zero (h : Housed i t ⟨db, pending⟩) (hat : db.stockAt w i = none) :
    held ⟨db, pending⟩ i w = 0 := by
  have hnone := Sound.not_mem_of_stockAt hat
  have hactive : activeQty db w i = 0 := by
    refine List.sum_eq_zero fun x hx => ?_
    obtain ⟨m, hm, rfl⟩ := List.mem_map.mp hx
    refine if_neg fun hk => ?_
    obtain ⟨_, row, hrow, hw, hi⟩ := h.active m hm hk.1 hk.2.2
    exact hnone row hrow ⟨hw.trans hk.2.1, hi⟩
  have hpending : pendingQty pending w i = 0 := by
    refine List.sum_eq_zero fun x hx => ?_
    obtain ⟨r, hr, rfl⟩ := List.mem_map.mp hx
    refine if_neg fun hk => ?_
    obtain ⟨row, hrow, hw, hi⟩ := h.pending r hr hk.2
    exact hnone row hrow ⟨hw.trans hk.1, hi⟩
  change activeQty db w i + pendingQty pending w i = 0
  rw [hactive, hpending, add_zero]

/-- What is common to every receipt: the stock came in, the movement that brought it
is recorded, and its cost was booked. -/
structure Booked (stamp : Stamp) (input : ReceiveInput) (m : InventoryMovement) (u : ℚ)
    (db db' : DB) : Prop where
  quantity_nonneg : 0 ≤ input.quantity
  written : Written m
    (db.addStock input.warehouseId input.inventoryItemId input.quantity).nextId input.tenantId
    input.warehouseId input.inventoryItemId
    (db.stockBefore input.warehouseId input.inventoryItemId)
    (db.stockBefore input.warehouseId input.inventoryItemId + input.quantity)
  movementId : input.movementId = m.id
  kind : m.referenceType ≠ some .orderReservation
  received : Received stamp input
    ((db.addStock input.warehouseId input.inventoryItemId input.quantity).record m) u db'

theorem Booked.held (h : Booked stamp input m u db db') :
    held ⟨db', pending⟩ i = held ⟨db, pending⟩ i :=
  funext fun _ => held_book h.received.costed h.kind

theorem Booked.worth {a g : Option Id → ℚ} (h : Booked stamp input m u db db')
    (hs : Sound ⟨db, pending⟩)
    (hnew : input.inventoryItemId = i → db.stockAt input.warehouseId i = none →
      g input.warehouseId = 0) :
    worth db'.stocks i a g = worth db.stocks i a g +
      if input.inventoryItemId = i then a input.warehouseId * input.quantity else 0 := by
  obtain ⟨f, hf, hstocks⟩ := h.received.costed.stocks
  rw [hstocks, worth_map hf]
  exact worth_add hs hnew

theorem Booked.costs (h : Booked stamp input m u db db') (hs : Sound ⟨db, pending⟩) :
    receiptCost db' i =
        receiptCost db i + (if input.inventoryItemId = i then input.quantity * u else 0) ∧
      issueCost db' i = issueCost db i := by
  have hdelta : movementQuantityDelta m = input.quantity := by
    rw [movementQuantityDelta_of_some h.written.before h.written.after]
    ring
  have hkeys : Lib.Keyed (·.id) m.id
      (db.addStock input.warehouseId input.inventoryItemId input.quantity).movements := by
    rw [h.written.id]
    exact (hs.addStock h.quantity_nonneg).movementIds
  have hcosts := h.received.costs (i := i) h.movementId hkeys (hdelta ▸ h.quantity_nonneg)
  rw [h.written.item, receiptCost_congr (DB.addStock_movements db _ _ _),
    issueCost_congr (DB.addStock_movements db _ _ _)] at hcosts
  exact hcosts

theorem Booked.stock (h : Booked stamp input m u db db') (hs : Sound ⟨db, pending⟩) :
    stockQty db' w i =
      stockQty db w i + at_ input.warehouseId w input.inventoryItemId i input.quantity := by
  rw [stockQty_costed h.received.costed]
  exact stockQty_add hs _ _ _ _ _

theorem Booked.average_ne (h : Booked stamp input m u db db')
    (hne : input.inventoryItemId ≠ i) : averageIn db' s i w = averageIn db s i w :=
  (h.received.average_ne hne).trans averageIn_add

/-- The average a receipt of the item leaves, by what the stock was before. -/
theorem Booked.average_eq (h : Booked stamp input m u db db') (hs : Sound ⟨db, pending⟩)
    (hitem : AveragedItem i t s db) (hi : input.inventoryItemId = i) :
    input.unitCost = some u ∧ scopeQty db s i input.warehouseId + input.quantity ≠ 0 ∧
      ∀ w, averageIn db' s i w =
        if InScope s input.warehouseId w then
          some ((scopeQty db s i input.warehouseId *
              (averageIn db s i input.warehouseId).getD 0 + input.quantity * u) /
            (scopeQty db s i input.warehouseId + input.quantity))
        else averageIn db s i w := by
  have hreceived := h.received
  have hs' : Sound ⟨(db.addStock input.warehouseId input.inventoryItemId
      input.quantity).record m, pending⟩ :=
    (hs.addStock h.quantity_nonneg).record h.written.id fun href => absurd href h.kind
  have hitem' : AveragedItem i t s ((db.addStock input.warehouseId input.inventoryItemId
      input.quantity).record m) :=
    hitem.of_items ⟨id, SameItem.refl, by simp [DB.record, DB.insertMovement, DB.takeId]⟩
  have hrow := Sound.isSome_stockAt_addStock db input.warehouseId input.inventoryItemId
    input.quantity m
  have hscope : scopeQty ((db.addStock input.warehouseId input.inventoryItemId
      input.quantity).record m) s i input.warehouseId =
        scopeQty db s i input.warehouseId + input.quantity := by
    rw [← scopeQty_add hs, hi]
    rfl
  have haverage : ∀ w, averageIn ((db.addStock input.warehouseId input.inventoryItemId
      input.quantity).record m) s i w = averageIn db s i w := fun w => averageIn_add
  obtain ⟨hcost, hne, hall⟩ := hreceived.average_eq hs' hitem' hi (hi ▸ hrow)
  rw [hscope] at hne
  refine ⟨hcost, hne, fun w => ?_⟩
  rw [hall w, hscope, haverage, haverage, add_sub_cancel_right]

/-- A receipt of another item. -/
theorem Conserved.bystander {movementId i' : Id} {w' : Option Id} {q : ℚ}
    (hc : Conserved i t s ⟨db, pending⟩) (hs : Sound ⟨db, pending⟩) (hq : 0 ≤ q)
    (hid : m.id = (db.addStock w' i' q).nextId) (hmov : movementId = m.id)
    (hkind : m.referenceType ≠ some .orderReservation) (hm : m.inventoryItemId = i')
    (hne : i' ≠ i) (hcosted : Costed movementId ((db.addStock w' i' q).record m) db')
    (haverage : ∀ w, averageIn db' s i w = averageIn db s i w) :
    Conserved i t s ⟨db', pending⟩ := by
  have hkeys : Lib.Keyed (·.id) m.id (db.addStock w' i' q).movements := by
    rw [hid]
    exact (hs.addStock hq).movementIds
  obtain ⟨u, cost, hmoves⟩ := hcosted.recorded hmov hkeys
  rw [DB.addStock_movements] at hmoves
  have hmne : m.inventoryItemId ≠ i := hm ▸ hne
  have hheld : held ⟨db', pending⟩ i = held ⟨db, pending⟩ i :=
    funext fun _ => held_book hcosted hkind
  obtain ⟨f, hf, hstocks⟩ := hcosted.stocks
  refine ⟨?_, ?_, fun w hw => ?_⟩
  · refine hc.item.of_items ?_
    simpa [DB.record, DB.insertMovement, DB.takeId] using hcosted.items
  · have hvalue := hc.value
    have hworth : worth db'.stocks i (fun w => (averageIn db s i w).getD 0)
        (held ⟨db, pending⟩ i) = worth db.stocks i (fun w => (averageIn db s i w).getD 0)
          (held ⟨db, pending⟩ i) := by
      rw [hstocks, worth_map hf]
      refine (worth_add hs fun hk => absurd hk hne).trans ?_
      rw [if_neg hne, add_zero]
    simp only [haverage, hheld] at hvalue ⊢
    rw [hworth, hvalue, receiptCost_append hmoves, issueCost_append hmoves,
      if_neg fun hk => hmne hk.1, if_neg fun hk => hmne hk.1, add_zero, add_zero]
  · simp only [haverage] at hw
    simp only [hheld]
    rw [stockQty_costed hcosted]
    refine ⟨?_, (hc.valued w hw).2⟩
    refine (stockQty_add hs _ _ _ _ _).trans ?_
    rw [at_ne hne, add_zero]
    exact (hc.valued w hw).1

/-- The average stays when the receipt comes at it. -/
theorem Booked.average_kept (h : Booked stamp input m u db db') (hs : Sound ⟨db, pending⟩)
    (hitem : AveragedItem i t s db) (hi : input.inventoryItemId = i)
    (hsame : averageIn db s i input.warehouseId = input.unitCost) :
    averageIn db' s i w = averageIn db s i w := by
  obtain ⟨hcost, hne, haverage⟩ := h.average_eq hs hitem hi
  rw [haverage w]
  split
  · rename_i hin
    rw [averageIn_scope hin, hsame, hcost, Option.getD_some, ← add_mul,
      mul_div_cancel_left₀ _ hne]
  · rfl

theorem Conserved.book (hc : Conserved i t s ⟨db, pending⟩) (hs : Sound ⟨db, pending⟩)
    (hh : Housed i t ⟨db, pending⟩) (h : Booked stamp input m u db db')
    (hquiet : input.inventoryItemId = i →
      Undisturbed s ⟨i, input.warehouseId, input.unitCost⟩ ⟨db, pending⟩) :
    Conserved i t s ⟨db', pending⟩ := by
  have hvalue := hc.value
  obtain ⟨hreceipts, hissues⟩ := h.costs (i := i) hs
  have hitem' : AveragedItem i t s db' := by
    refine hc.item.of_items ?_
    simpa [DB.record, DB.insertMovement, DB.takeId] using h.received.costed.items
  by_cases hi : input.inventoryItemId = i
  · obtain ⟨hcost, hne, haverage⟩ := h.average_eq hs hc.item hi
    refine ⟨hitem', ?_, fun w hw => ?_⟩
    · simp only at hvalue ⊢
      rw [hreceipts, hissues, if_pos hi, h.held, h.worth hs fun _ hat => hh.held_eq_zero hat,
        if_pos hi]
      rcases hquiet hi with hheld | hsame
      · -- nothing is held in the scope, so the new average revalues the stock rows alone
        rw [worth_average (a := fun w => (averageIn db s i w).getD 0)
          (x := (averageIn db' s i input.warehouseId).getD 0)
          (y := (averageIn db s i input.warehouseId).getD 0) (s := s) (w := input.warehouseId)
          (fun w hout => ?_) (fun w hin => ⟨?_, ?_, hheld w hin⟩), hvalue]
        · have hx := haverage input.warehouseId
          rw [if_pos (.inr rfl)] at hx
          rw [hx, Option.getD_some]
          field_simp
          ring
        · rw [haverage w, if_neg hout]
        · rw [averageIn_scope hin]
        · rw [averageIn_scope hin]
      · -- the receipt comes at the average, which stays what it was
        have hy : averageIn db s i input.warehouseId = some u := hsame.trans hcost
        simp only [fun w => h.average_kept (w := w) hs hc.item hi hsame]
        rw [hvalue, hy, Option.getD_some]
        ring
    · simp only at hw ⊢
      by_cases hin : InScope s input.warehouseId w
      · rw [haverage w, if_pos hin] at hw
        exact absurd hw (by simp)
      · rw [haverage w, if_neg hin] at hw
        have hwne : input.warehouseId ≠ w := fun heq => hin (.inr heq.symm)
        rw [h.held, h.stock hs, at_, if_neg fun hk => hwne hk.1, add_zero]
        exact hc.valued w hw
  · exact hc.bystander hs h.quantity_nonneg h.written.id h.movementId h.kind h.written.item hi
      h.received.costed fun w => h.average_ne hi

end Receipts

section Housed

variable {stamp : Stamp} {A : Permit} {db db' : DB} {c c' : Config}
  {pending : List InventoryMovement} {i t n : Id} {w : Option Id} {m : InventoryMovement}

theorem HasRow.map {f : InventoryStock → InventoryStock} (h : HasRow db w i)
    (hf : ∀ r, (f r).warehouseId = r.warehouseId ∧ (f r).inventoryItemId = r.inventoryItemId)
    (hstocks : db'.stocks = db.stocks.map f) : HasRow db' w i := by
  obtain ⟨row, hrow, hw, hi⟩ := h
  refine ⟨f row, ?_, (hf row).1.trans hw, (hf row).2.trans hi⟩
  rw [hstocks]
  exact List.mem_map_of_mem hrow

theorem HasRow.shift {id : Id} {q : ℚ} (h : HasRow db w i) : HasRow (db.shiftStock id q) w i := by
  refine h.map (fun r => ?_) rfl
  split <;> exact ⟨rfl, rfl⟩

theorem HasRow.add {w' : Option Id} {i' : Id} {q : ℚ} (h : HasRow db w i) :
    HasRow (db.addStock w' i' q) w i := by
  unfold DB.addStock
  split
  · exact h.shift
  · obtain ⟨row, hrow, hkey⟩ := h
    exact ⟨row, List.mem_append_left _ hrow, hkey⟩

theorem HasRow.costed {movementId : Id} (h : HasRow db w i) (hc : Costed movementId db db') :
    HasRow db' w i := by
  obtain ⟨f, hf, hstocks⟩ := hc.stocks
  exact h.map (fun r => ⟨(hf r).warehouse, (hf r).item⟩) hstocks

/-- A change of the stock rows that keeps their keys. -/
theorem Housed.of_rows (h : Housed i t ⟨db, pending⟩)
    (hrows : ∀ w, HasRow db w i → HasRow db' w i) (hmov : db'.movements = db.movements) :
    Housed i t ⟨db', pending⟩ := by
  refine ⟨fun m hm href hi => ?_, fun r hr hi => hrows _ (h.pending r hr hi)⟩
  simp only [hmov] at hm
  exact ⟨(h.active m hm href hi).1, hrows _ (h.active m hm href hi).2⟩

theorem Housed.record (h : Housed i t ⟨db, pending⟩)
    (hm : m.referenceType = some .orderReservation → m.inventoryItemId = i →
      m.tenantId = t ∧ HasRow db m.warehouseId i) : Housed i t ⟨db.record m, pending⟩ := by
  refine ⟨fun r hr href hi => ?_, h.pending⟩
  rcases List.mem_append.mp hr with hr | hr
  · exact h.active r hr href hi
  · rw [List.mem_singleton] at hr
    rw [hr] at href hi ⊢
    exact hm href hi

theorem Housed.costed {movementId : Id} (h : Housed i t ⟨db, pending⟩)
    (hc : Costed movementId db db') : Housed i t ⟨db', pending⟩ := by
  obtain ⟨u, cost, hmov⟩ := hc.movements
  refine ⟨fun m hm href hi => ?_, fun r hr hi => (h.pending r hr hi).costed hc⟩
  simp only [hmov] at hm
  obtain ⟨m₀, hm₀, rfl⟩ := List.mem_map.mp hm
  by_cases hid : m₀.id = movementId
  · simp only [hid, if_true] at href hi ⊢
    obtain ⟨htenant, hrow⟩ := h.active m₀ hm₀ href hi
    exact ⟨htenant, hrow.costed hc⟩
  · simp only [hid, if_false] at href hi ⊢
    obtain ⟨htenant, hrow⟩ := h.active m₀ hm₀ href hi
    exact ⟨htenant, hrow.costed hc⟩

/-- The tenant that owns the item is its tenant. -/
theorem AveragedItem.owned {s : MovingAverageScope} (h : AveragedItem i t s db)
    (hk : Lib.Keyed (·.id) n db.items) {tenantId : Id} (howned : Owned db tenantId i) :
    tenantId = t := by
  obtain ⟨row, hrow, hid, ht, _⟩ := h
  obtain ⟨item, hitem, hiid, hit⟩ := howned
  rw [← hit, hk.eq_of_key hitem hrow (hiid.trans hid.symm), ht]

theorem Housed.step {s : MovingAverageScope} (hs : Sound c) (hitem : AveragedItem i t s c.db)
    (h : Housed i t c) (hstep : Step stamp A c c') : Housed i t c' := by
  cases hstep with
  | elsewhere hsame _ =>
      exact h.of_rows (fun w hw => hw.map (f := id) (fun _ => ⟨rfl, rfl⟩) (by simp [hsame.stocks]))
        hsame.movements
  | transfers _ hsame _ =>
      exact h.of_rows (fun w hw => hw.map (f := id) (fun _ => ⟨rfl, rfl⟩) (by simp [hsame.stocks]))
        hsame.movements
  | receive e =>
      refine Housed.costed ?_ e.received.costed
      refine (h.of_rows (fun w hw => hw.add) (DB.addStock_movements _ _ _ _)).record fun href => ?_
      rcases e.kind with hk | hk <;> rw [hk] at href <;> exact absurd href (by decide)
  | issue e hissued =>
      refine Housed.costed ?_ hissued.costed
      refine Housed.record (h.of_rows (fun w hw => hw.shift) rfl) fun href => ?_
      rcases e.kind with hk | hk | hk <;> rw [hk] at href <;> exact absurd href (by decide)
  | note hkind howned hw =>
      refine h.record fun href => ?_
      rw [hkind] at href
      exact absurd href (by decide)
  | transferIn e =>
      refine Housed.costed ?_ e.received.costed
      refine (h.of_rows (fun w hw => hw.add) (DB.addStock_movements _ _ _ _)).record fun href => ?_
      rw [e.kind] at href
      exact absurd href (by decide)
  | reserve e =>
      refine Housed.record (h.of_rows (fun w hw => hw.shift) rfl) fun _ hi => ?_
      rw [e.written.item] at hi
      rw [e.written.tenant, e.written.warehouse]
      refine ⟨hitem.owned hs.itemIds (hi ▸ e.owned), HasRow.shift ?_⟩
      exact ⟨e.row, e.source.mem, rfl, hi⟩
  | @claim db e hA =>
      refine ⟨fun m hm href hi => ?_, fun r hr hi => ?_⟩
      · obtain ⟨m₀, hm₀, rfl⟩ := List.mem_map.mp hm
        by_cases hp : e.p m₀ = true
        · rw [if_pos hp] at href
          exact absurd href (e.claimed m₀).1
        · rw [if_neg hp] at href hi ⊢
          exact h.active m₀ hm₀ href hi
      · obtain ⟨hmem, hp⟩ := List.mem_filter.mp hr
        exact (h.active r hmem (e.active r hmem hp) hi).2
  | @restore db r rest e hA =>
      have hrest : Housed i t ⟨db, rest⟩ :=
        ⟨h.active, fun x hx => h.pending x (List.mem_cons_of_mem r hx)⟩
      refine (hrest.of_rows (fun w hw => hw.add) (DB.addStock_movements _ _ _ _)).record
        fun href => ?_
      rw [e.kind] at href
      exact absurd href (by decide)
  | @cost db db' r rest tenantId hA hissued =>
      have hrest : Housed i t ⟨db, rest⟩ :=
        ⟨h.active, fun x hx => h.pending x (List.mem_cons_of_mem r hx)⟩
      exact hrest.costed hissued.costed

end Housed

section Issues

variable {stamp : Stamp} {db db' : DB} {pending : List InventoryMovement} {i t n : Id}
  {s : MovingAverageScope} {w : Option Id} {input : IssueInput}

theorem writeIssueCost_average {item : InventoryItem} {allocations : List CostAllocation} :
    averageIn (writeIssueCost stamp db input item allocations) s i w = averageIn db s i w := by
  unfold writeIssueCost
  rw [averageIn_freeze]
  exact averageIn_congr (insertAllocations_stocks _ _ _) (insertAllocations_items _ _ _)

theorem Issued.average (h : Issued stamp input db db') :
    averageIn db' s i w = averageIn db s i w := by
  cases h with
  | fifo hitem hmethod hcover =>
      rw [writeIssueCost_average]
      exact averageIn_congr (chargeLayers_stocks db _) (chargeLayers_items db _)
  | flat hitem hmethod => exact writeIssueCost_average

theorem writeIssueCost_movements {item : InventoryItem} {allocations : List CostAllocation} :
    (writeIssueCost stamp db input item allocations).movements =
      (db.setMovementCost input.movementId (allocatedCost allocations / input.quantity)
        (allocatedCost allocations)).movements := by
  unfold writeIssueCost
  rw [freeze_movements, insertAllocations_movements]

theorem Issued.movements (h : Issued stamp input db db') :
    ∃ u cost, db'.movements = (db.setMovementCost input.movementId u cost).movements := by
  cases h with
  | fifo hitem hmethod hcover =>
      have hlayers := DB.setMovementCost_movements_congr input.movementId
        (allocatedCost (fifoCharges stamp db input) / input.quantity)
        (allocatedCost (fifoCharges stamp db input))
        (chargeLayers_movements db (fifoCharges stamp db input))
      exact ⟨_, _, writeIssueCost_movements.trans hlayers⟩
  | flat hitem hmethod => exact ⟨_, _, writeIssueCost_movements⟩

/-- An issue of a moving-average item is charged at the average. -/
theorem Issued.charged (h : Issued stamp input db db') (hk : Lib.Keyed (·.id) n db.items)
    (hitem : AveragedItem i t s db) (hi : input.inventoryItemId = i) :
    ∃ a u, averageIn db s i input.warehouseId = some a ∧
      db'.movements = (db.setMovementCost input.movementId u (input.quantity * a)).movements := by
  cases h with
  | @fifo item hlocked hmethod hcover =>
      have := (hitem.locked hk (hi ▸ hlocked)).1
      exact absurd (hmethod.symm.trans this) (by decide)
  | @flat item unitCost hlocked hmethod =>
      obtain ⟨hmethod', hscope, _⟩ := hitem.locked hk (hi ▸ hlocked)
      obtain ⟨hmem, hid, _⟩ := hlocked.mem
      rcases hmethod with ⟨_, haverage⟩ | ⟨hstandard, _⟩
      · have hcost : allocatedCost [⟨none, input.quantity, unitCost⟩] =
            input.quantity * unitCost := by
          simp [allocatedCost]
        refine ⟨unitCost, input.quantity * unitCost / input.quantity,
          (averageAt_eq hk hmem (hid.trans hi) hscope).symm.trans haverage, ?_⟩
        rw [writeIssueCost_movements, hcost]
      · exact absurd (hmethod'.symm.trans hstandard) (by decide)

end Issues

section Step

variable {stamp : Stamp} {A : Permit} {db db' : DB} {c c' : Config}
  {pending : List InventoryMovement} {i t n : Id} {s : MovingAverageScope} {w : Option Id}
  {m : InventoryMovement}

theorem Conserved.sameLedger (hc : Conserved i t s ⟨db, pending⟩) (hsame : SameLedger db db') :
    Conserved i t s ⟨db', pending⟩ := by
  have haverage : ∀ w, averageIn db' s i w = averageIn db s i w :=
    fun w => averageIn_congr hsame.stocks hsame.items
  have hheld : held ⟨db', pending⟩ i = held ⟨db, pending⟩ i :=
    funext fun w => congrArg (· + pendingQty pending w i) (activeQty_congr hsame.movements)
  refine ⟨?_, ?_, fun w hw => ?_⟩
  · exact hc.item.of_items ⟨id, SameItem.refl, by simp [hsame.items]⟩
  · have hvalue := hc.value
    simp only [haverage, hheld, hsame.stocks, receiptCost_congr hsame.movements,
      issueCost_congr hsame.movements] at hvalue ⊢
    exact hvalue
  · simp only [haverage] at hw
    simp only [hheld, stockQty_congr hsame.stocks]
    exact hc.valued w hw

/-- Recording a movement without a cost that is no reservation. -/
theorem Conserved.record (hc : Conserved i t s ⟨db, pending⟩)
    (hkind : m.referenceType ≠ some .orderReservation) (hcost : m.totalCost = none) :
    Conserved i t s ⟨db.record m, pending⟩ := by
  have hheld : held ⟨db.record m, pending⟩ i = held ⟨db, pending⟩ i :=
    funext fun w => congrArg (· + pendingQty pending w i) (activeQty_record_other hkind)
  have hcosts : receiptCost (db.record m) i = receiptCost db i ∧
      issueCost (db.record m) i = issueCost db i := costs_record hcost
  refine ⟨hc.item, ?_, fun w hw => ?_⟩
  · have hvalue := hc.value
    simp only at hvalue ⊢
    rw [hcosts.1, hcosts.2, hheld]
    exact hvalue
  · simp only [hheld]
    exact hc.valued w hw

/-- An issue takes the stock out at the average. -/
theorem Conserved.issue (hc : Conserved i t s ⟨db, pending⟩) (hs : Sound ⟨db, pending⟩)
    (e : IssueStart db) (h : Issued stamp e.input e.taken db') :
    Conserved i t s ⟨db', pending⟩ := by
  have hkind : e.movement.referenceType ≠ some .orderReservation := by
    rcases e.kind with hk | hk | hk <;> rw [hk] <;> decide
  have haverage : ∀ w, averageIn db' s i w = averageIn db s i w := fun w =>
    h.average.trans averageIn_shift
  have hheld : held ⟨db', pending⟩ i = held ⟨db, pending⟩ i := by
    funext w
    unfold held
    rw [activeQty_costed h.costed]
    exact congrArg (· + _) (activeQty_record_other hkind)
  have hkeys : Lib.Keyed (·.id) e.movement.id
      (db.shiftStock e.row.id (-e.input.quantity)).movements := by
    rw [e.written.id]
    exact hs.movementIds
  have hitem' : AveragedItem i t s db' := hc.item.of_items h.costed.items
  have hstock : ∀ w, stockQty db' w i = stockQty db w i +
      at_ e.input.warehouseId w e.input.inventoryItemId i (-e.input.quantity) := by
    intro w
    rw [stockQty_congr h.stocks, ← e.source.warehouse, ← e.source.item]
    exact stockQty_shift hs e.source.mem
  have hworth : worth db'.stocks i (fun w => (averageIn db' s i w).getD 0)
      (held ⟨db', pending⟩ i) = worth db.stocks i (fun w => (averageIn db s i w).getD 0)
        (held ⟨db, pending⟩ i) + if e.input.inventoryItemId = i then
          (averageIn db s i e.input.warehouseId).getD 0 * -e.input.quantity else 0 := by
    simp only [haverage]
    rw [hheld, h.stocks, ← e.source.warehouse, ← e.source.item]
    exact worth_shift hs e.source.mem
  have hdelta : movementQuantityDelta e.movement = -e.input.quantity := by
    rw [movementQuantityDelta_of_some e.written.before e.written.after]
    ring
  have hneg : movementQuantityDelta e.movement < 0 := by
    rw [hdelta]
    exact neg_neg_of_pos e.quantity_pos
  by_cases hi : e.input.inventoryItemId = i
  · obtain ⟨a, u, ha, hmov⟩ := h.charged hs.itemIds hc.item hi
    have ha' : averageIn db s i e.input.warehouseId = some a := averageIn_shift.symm.trans ha
    rw [e.movementId] at hmov
    have hmov' := hmov.trans (setMovementCost_record hkeys)
    refine ⟨hitem', ?_, fun w hw => ?_⟩
    · have hvalue := hc.value
      simp only at hvalue ⊢
      rw [hworth, hvalue, if_pos hi, ha', receiptCost_append hmov', issueCost_append hmov',
        movementQuantityDelta_cost, if_neg fun hk => absurd hk.2 (not_le.mpr hneg),
        if_pos ⟨e.written.item.trans hi, hneg⟩]
      change _ + a * -e.input.quantity =
        receiptCost db i + 0 - (issueCost db i + e.input.quantity * a)
      ring
    · simp only [haverage] at hw
      have hwne : e.input.warehouseId ≠ w := by
        intro heq
        rw [← heq, ha'] at hw
        exact absurd hw (by simp)
      simp only [hheld]
      rw [hstock, at_, if_neg fun hk => hwne hk.1, add_zero]
      exact hc.valued w hw
  · obtain ⟨u, cost, hmov⟩ := h.movements
    rw [e.movementId] at hmov
    have hmov' := hmov.trans (setMovementCost_record hkeys)
    have hne : e.movement.inventoryItemId ≠ i := e.written.item ▸ hi
    refine ⟨hitem', ?_, fun w hw => ?_⟩
    · have hvalue := hc.value
      simp only at hvalue ⊢
      rw [hworth, hvalue, if_neg hi, receiptCost_append hmov', issueCost_append hmov',
        if_neg fun hk => hne hk.1, if_neg fun hk => hne hk.1]
      change receiptCost db i - issueCost db i + 0 = receiptCost db i + 0 - (issueCost db i + 0)
      ring
    · simp only [haverage] at hw
      simp only [hheld]
      rw [hstock, at_ne hi, add_zero]
      exact hc.valued w hw

end Step

end Inventory
end ERP
