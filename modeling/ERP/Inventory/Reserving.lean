import ERP.Inventory.Refinement
import ERP.Inventory.Restoring

/-!
# Reserving the stock of an order

What the lines of an order need of each item is merged first, and then drawn from the
rows the order may use.  A reservation takes exactly what is needed of every item, or
fails because one of them has less than that.
-/

namespace ERP
namespace Inventory

open Lib.Tx

section Requirements

variable {businessType : BusinessType} {lines : List (SalesOrderItem × Product)}
  {rs : List StockRequirement} {i : Id} {q : ℚ}

/-- What the lines of an order need of an item altogether. -/
def needed (businessType : BusinessType) (lines : List (SalesOrderItem × Product)) (i : Id) : ℚ :=
  ((demands businessType lines).map fun d => if d.1 = some i then d.2 else 0).sum

theorem demand_pos {d : Option Id × ℚ} (hd : d ∈ demands businessType lines) : 0 < d.2 := by
  unfold demands at hd
  cases businessType with
  | retail =>
      obtain ⟨line, -, rfl⟩ := List.mem_map.mp hd
      exact Nat.cast_pos.mpr line.1.quantity_pos
  | cafe =>
      obtain ⟨line, -, hline⟩ := List.mem_flatMap.mp hd
      obtain ⟨recipeItem, -, rfl⟩ := List.mem_map.mp hline
      exact mul_pos (Nat.cast_pos.mpr recipeItem.quantity_pos)
        (Nat.cast_pos.mpr line.1.quantity_pos)
  | _ => exact absurd hd List.not_mem_nil

/-- What a list of requirements asks of an item. -/
def required (rs : List StockRequirement) (i : Id) : ℚ :=
  (rs.map fun r => if r.inventoryItemId = i then r.quantity else 0).sum

/-- Requirements of different items, each of something. -/
structure Merged (rs : List StockRequirement) : Prop where
  distinct : rs.Pairwise fun r s => r.inventoryItemId ≠ s.inventoryItemId
  positive : ∀ r ∈ rs, 0 < r.quantity

theorem mem_addRequirement {itemId : Option Id} {r : StockRequirement}
    (h : r ∈ addRequirement rs itemId q) :
    itemId = some r.inventoryItemId ∨ ∃ s ∈ rs, s.inventoryItemId = r.inventoryItemId := by
  induction rs with
  | nil =>
      cases itemId with
      | none => exact absurd h List.not_mem_nil
      | some j =>
          unfold addRequirement at h
          split at h
          · exact absurd h List.not_mem_nil
          · rw [List.mem_singleton.mp h]
            exact .inl rfl
  | cons s rest ih =>
      cases itemId with
      | none => exact .inr ⟨r, h, rfl⟩
      | some j =>
          unfold addRequirement at h
          split at h
          · exact .inr ⟨r, h, rfl⟩
          · split at h
            · rcases List.mem_cons.mp h with rfl | h
              · exact .inl rfl
              · exact .inr ⟨r, List.mem_cons_of_mem s h, rfl⟩
            · rcases List.mem_cons.mp h with rfl | h
              · exact .inr ⟨r, List.mem_cons_self, rfl⟩
              · rcases ih h with hitem | ⟨s', hs', heq⟩
                · exact .inl hitem
                · exact .inr ⟨s', List.mem_cons_of_mem s hs', heq⟩

theorem Merged.add (h : Merged rs) (hq : 0 < q) (itemId : Option Id) :
    Merged (addRequirement rs itemId q) := by
  cases itemId with
  | none =>
      cases rs with
      | nil => exact h
      | cons s rest => exact h
  | some j =>
      induction rs with
      | nil =>
          unfold addRequirement
          rw [if_neg (not_le.mpr hq)]
          exact ⟨List.pairwise_singleton _ _, fun r hr => by rwa [List.mem_singleton.mp hr]⟩
      | cons s rest ih =>
          obtain ⟨hhead, hrest⟩ := List.pairwise_cons.mp h.distinct
          have hs := h.positive s List.mem_cons_self
          have hpos : ∀ r ∈ rest, 0 < r.quantity := fun r hr =>
            h.positive r (List.mem_cons_of_mem s hr)
          unfold addRequirement
          rw [if_neg (not_le.mpr hq)]
          by_cases hitem : s.inventoryItemId = j
          · rw [if_pos hitem]
            refine ⟨List.pairwise_cons.mpr ⟨fun r hr => hitem ▸ hhead r hr, hrest⟩, fun r hr => ?_⟩
            rcases List.mem_cons.mp hr with rfl | hr
            · exact add_pos hs hq
            · exact hpos r hr
          · rw [if_neg hitem]
            obtain ⟨hdistinct, hpositive⟩ := ih ⟨hrest, hpos⟩
            refine ⟨List.pairwise_cons.mpr ⟨fun r hr => ?_, hdistinct⟩, fun r hr => ?_⟩
            · rcases mem_addRequirement hr with heq | ⟨s', hs', heq⟩
              · exact fun hsame => hitem (hsame.trans (Option.some.inj heq).symm)
              · exact heq ▸ hhead s' hs'
            · rcases List.mem_cons.mp hr with rfl | hr
              · exact hs
              · exact hpositive r hr

/-- Whatever item it is of, a requirement is added to what is required of that item. -/
theorem required_addRequirement (hq : 0 < q) (itemId : Option Id) (i : Id) :
    required (addRequirement rs itemId q) i =
      required rs i + if itemId = some i then q else 0 := by
  cases itemId with
  | none =>
      cases rs with
      | nil => exact (add_zero _).symm
      | cons s rest => exact (add_zero _).symm
  | some j =>
      induction rs with
      | nil =>
          unfold addRequirement
          rw [if_neg (not_le.mpr hq)]
          simp [required]
      | cons s rest ih =>
          unfold addRequirement
          rw [if_neg (not_le.mpr hq)]
          by_cases hitem : s.inventoryItemId = j
          · rw [if_pos hitem]
            unfold required
            simp only [List.map_cons, List.sum_cons, hitem, Option.some.injEq]
            by_cases hj : j = i
            · rw [if_pos hj, if_pos hj, if_pos hj]
              ring
            · rw [if_neg hj, if_neg hj, if_neg hj]
              ring
          · rw [if_neg hitem]
            unfold required at ih ⊢
            rw [List.map_cons, List.sum_cons, ih, List.map_cons, List.sum_cons]
            ring

theorem required_of_mem (h : Merged rs) {r : StockRequirement} (hr : r ∈ rs) :
    required rs r.inventoryItemId = r.quantity := by
  obtain ⟨hdistinct, -⟩ := h
  induction rs with
  | nil => exact absurd hr List.not_mem_nil
  | cons s rest ih =>
      obtain ⟨hhead, hrest⟩ := List.pairwise_cons.mp hdistinct
      unfold required at ih ⊢
      rw [List.map_cons, List.sum_cons]
      rcases List.mem_cons.mp hr with rfl | hr
      · have hzero : (rest.map fun s => if s.inventoryItemId = r.inventoryItemId then s.quantity
            else 0).sum = 0 := by
          refine List.sum_eq_zero fun x hx => ?_
          obtain ⟨s, hs, rfl⟩ := List.mem_map.mp hx
          exact if_neg (hhead s hs).symm
        rw [if_pos rfl, hzero, add_zero]
      · rw [if_neg (hhead r hr), ih hr hrest, zero_add]

theorem exists_mem_of_required (h : required rs i ≠ 0) : ∃ r ∈ rs, r.inventoryItemId = i := by
  by_contra hnone
  refine h (List.sum_eq_zero fun x hx => ?_)
  obtain ⟨r, hr, rfl⟩ := List.mem_map.mp hx
  exact if_neg fun heq => hnone ⟨r, hr, heq⟩

theorem foldl_addRequirement (h : Merged rs) {ds : List (Option Id × ℚ)}
    (hds : ∀ d ∈ ds, 0 < d.2) :
    Merged (ds.foldl (fun rs d => addRequirement rs d.1 d.2) rs) ∧
      ∀ i, required (ds.foldl (fun rs d => addRequirement rs d.1 d.2) rs) i =
        required rs i + (ds.map fun d => if d.1 = some i then d.2 else 0).sum := by
  induction ds generalizing rs with
  | nil => exact ⟨h, fun i => (add_zero _).symm⟩
  | cons d rest ih =>
      have hd := hds d List.mem_cons_self
      obtain ⟨hmerged, hsum⟩ := ih (h.add hd d.1) fun e he => hds e (List.mem_cons_of_mem d he)
      refine ⟨hmerged, fun i => ?_⟩
      rw [List.foldl_cons, hsum, required_addRequirement hd, List.map_cons, List.sum_cons]
      ring

/-- The requirements of an order are of different items, and each is what the lines need
of its item altogether. -/
theorem buildRequirements_spec (businessType : BusinessType)
    (lines : List (SalesOrderItem × Product)) :
    Merged (buildRequirements businessType lines) ∧
      ∀ i, required (buildRequirements businessType lines) i = needed businessType lines i := by
  have hnil : Merged [] := ⟨.nil, fun r hr => absurd hr List.not_mem_nil⟩
  obtain ⟨hmerged, hsum⟩ := foldl_addRequirement hnil fun d hd => demand_pos hd
  exact ⟨hmerged, fun i => (hsum i).trans (zero_add _)⟩

end Requirements

section Rows

variable {stamp : Stamp} {db db' : DB} {tenantId orderId i : Id} {outletId : Option Id}

/-- The row is of an item of the tenant, in a warehouse an order for the outlet may draw
on: one of the outlet, one of no outlet, or any of the tenant when the order has none. -/
def Eligible (db : DB) (tenantId : Id) (outletId : Option Id) (row : InventoryStock) : Prop :=
  (∃ item ∈ db.items, item.id = row.inventoryItemId ∧ item.tenantId = tenantId) ∧
    ∃ w ∈ db.warehouses, some w.id = row.warehouseId ∧ w.tenantId = tenantId ∧
      (outletId = none ∨ w.outletId = outletId ∨ w.outletId = none)

instance (row : InventoryStock) : Decidable (Eligible db tenantId outletId row) :=
  inferInstanceAs (Decidable (_ ∧ _))

/-- What the eligible rows hold of an item. -/
def eligibleQuantity (db : DB) (tenantId : Id) (outletId : Option Id) (i : Id) : ℚ :=
  ((db.stocks.filter fun row => row.inventoryItemId = i ∧ Eligible db tenantId outletId row).map
    fun row => max row.quantity 0).sum

theorem mem_reservableStocks {row : InventoryStock} :
    row ∈ reservableStocks stamp db tenantId outletId i ↔ row ∈ db.stocks ∧
      row.inventoryItemId = i ∧ 0 < row.quantity ∧ Eligible db tenantId outletId row := by
  unfold reservableStocks Eligible
  simp only [Lib.mem_orderBy, List.mem_filter, decide_eq_true_eq, List.any_eq_true]

theorem reservableStocks_sum (stamp : Stamp) :
    ((reservableStocks stamp db tenantId outletId i).map (·.quantity)).sum =
      eligibleQuantity db tenantId outletId i := by
  have hrows : reservableStocks stamp db tenantId outletId i =
      Lib.orderBy (fun row => stamp.createdAt row.id) (db.stocks.filter fun row =>
        row.inventoryItemId = i ∧ 0 < row.quantity ∧ Eligible db tenantId outletId row) := by
    unfold reservableStocks Eligible
    refine congrArg _ (List.filter_congr fun row _ => decide_eq_decide.mpr ?_)
    simp only [List.any_eq_true, decide_eq_true_eq]
  rw [hrows, ((Lib.orderBy_perm _ _).map _).sum_eq]
  unfold eligibleQuantity
  rw [Lib.sum_filter_eq, Lib.sum_filter_eq]
  refine congrArg List.sum (List.map_congr_left fun row _ => ?_)
  by_cases hpos : 0 < row.quantity
  · simp only [hpos, true_and, max_eq_left hpos.le]
  · simp only [hpos, false_and, and_false, if_false, max_eq_right (not_lt.mp hpos), ite_self]

theorem eligibleQuantity_nonneg : 0 ≤ eligibleQuantity db tenantId outletId i := by
  refine List.sum_nonneg fun x hx => ?_
  obtain ⟨row, -, rfl⟩ := List.mem_map.mp hx
  exact le_max_right _ _

/-- The movement that reserves a part of a stock row. -/
def reservationOf (tenantId orderId : Id) (d : InventoryStock × ℚ) (id : Id) :
    InventoryMovement where
  id := id
  tenantId := tenantId
  type := .stockOut
  quantity := d.2
  beforeQuantity := some d.1.quantity
  afterQuantity := some (d.1.quantity - d.2)
  inventoryItemId := d.1.inventoryItemId
  referenceId := some orderId
  referenceType := some .orderReservation
  warehouseId := d.1.warehouseId
  unitCost := none
  totalCost := none

/-- The database after a part of each row was taken and a movement recorded for it. -/
def afterReserving (tenantId orderId : Id) (db : DB) (draws : List (InventoryStock × ℚ)) : DB :=
  draws.foldl (fun db d => (db.shiftStock d.1.id (-d.2)).record
    (reservationOf tenantId orderId d db.nextId)) db

theorem afterReserving_stocks (draws : List (InventoryStock × ℚ)) :
    (afterReserving tenantId orderId db draws).stocks = db.stocks.map fun row =>
      { row with quantity := row.quantity - Lib.drawnFrom (·.id) row.id draws } := by
  induction draws generalizing db with
  | nil => simp [afterReserving, Lib.drawnFrom]
  | cons d rest ih =>
      show (afterReserving tenantId orderId ((db.shiftStock d.1.id (-d.2)).record
        (reservationOf tenantId orderId d db.nextId)) rest).stocks = _
      rw [ih]
      show (db.stocks.map fun r => if r.id = d.1.id then { r with quantity := r.quantity + -d.2 }
        else r).map _ = _
      rw [List.map_map]
      refine List.map_congr_left fun row _ => ?_
      rw [Function.comp_apply, Lib.drawnFrom_cons]
      by_cases hid : row.id = d.1.id
      · rw [if_pos hid, if_pos hid.symm]
        refine congrArg (fun q => { row with quantity := q }) ?_
        show row.quantity + -d.2 - _ = _
        ring
      · rw [if_neg hid, if_neg (Ne.symm hid), zero_add]

theorem afterReserving_others (draws : List (InventoryStock × ℚ)) :
    afterReserving tenantId orderId db draws =
      { db with
        nextId := (afterReserving tenantId orderId db draws).nextId
        stocks := (afterReserving tenantId orderId db draws).stocks
        movements := (afterReserving tenantId orderId db draws).movements } := by
  induction draws generalizing db with
  | nil => rfl
  | cons d rest ih => exact ih

theorem afterReserving_movements (draws : List (InventoryStock × ℚ)) :
    ∃ added, (afterReserving tenantId orderId db draws).movements = db.movements ++ added ∧
      List.Forall₂ (fun d m => m = reservationOf tenantId orderId d m.id ∧ db.nextId ≤ m.id)
        draws added := by
  induction draws generalizing db with
  | nil => exact ⟨[], (List.append_nil _).symm, .nil⟩
  | cons d rest ih =>
      let taken := (db.shiftStock d.1.id (-d.2)).record (reservationOf tenantId orderId d db.nextId)
      have hrest : ∃ added, (afterReserving tenantId orderId taken rest).movements =
          taken.movements ++ added ∧ List.Forall₂ (fun d m =>
            m = reservationOf tenantId orderId d m.id ∧ taken.nextId ≤ m.id) rest added := ih
      obtain ⟨added, hmovements, hadded⟩ := hrest
      refine ⟨reservationOf tenantId orderId d db.nextId :: added, ?_, .cons ⟨rfl, le_refl _⟩ ?_⟩
      · exact hmovements.trans (List.append_assoc _ [_] added)
      · exact hadded.imp fun _ _ h => ⟨h.1, Nat.le_of_succ_le h.2⟩

theorem afterReserving_append (draws draws' : List (InventoryStock × ℚ)) :
    afterReserving tenantId orderId (afterReserving tenantId orderId db draws) draws' =
      afterReserving tenantId orderId db (draws ++ draws') :=
  (List.foldl_append ..).symm

end Rows

section Loop

variable {stamp : Stamp} {db : DB} {tenantId orderId i : Id} {outletId : Option Id}
  {E : Failure → Prop}

/-- No two stock rows share an id. -/
def StockIds (db : DB) : Prop := db.stocks.Pairwise fun r s => r.id ≠ s.id

theorem StockIds.shift (h : StockIds db) (id : Id) (q : ℚ) : StockIds (db.shiftStock id q) := by
  refine List.pairwise_map.mpr (h.imp fun {r s} hne => ?_)
  split
  · split
    · exact hne
    · exact hne
  · split
    · exact hne
    · exact hne

theorem StockIds.reserved (h : StockIds db) (draws : List (InventoryStock × ℚ)) :
    StockIds (afterReserving tenantId orderId db draws) := by
  unfold StockIds
  rw [afterReserving_stocks]
  exact List.pairwise_map.mpr h

/-- A conditional decrement of one row finds that row and no other. -/
theorem decrementStocks_row {p : InventoryStock → Bool} {q : ℚ} {stock : InventoryStock}
    {Q : Nat → DB → Prop} (hids : StockIds db) (hmem : stock ∈ db.stocks)
    (hp : ∀ row ∈ db.stocks, (p row = true ↔ row = stock))
    (h : Q 1 (db.shiftStock stock.id (-q))) : Post (decrementStocks p q) db Q E := by
  unfold decrementStocks
  simp only [post_bind, post_get, post_set, post_pure]
  have hiff : ∀ row ∈ db.stocks, (p row = true ↔ row.id = stock.id) := fun row hrow =>
    (hp row hrow).trans ⟨fun heq => heq ▸ rfl, Lib.eq_of_key_of_ne hids hrow hmem⟩
  have hupdate : db.updateStocks p (fun r => { r with quantity := r.quantity - q }) =
      db.shiftStock stock.id (-q) := by
    unfold DB.updateStocks DB.shiftStock DB.updateStock
    refine congrArg (fun rows => { db with stocks := rows })
      (List.map_congr_left fun row hrow => ?_)
    by_cases hid : row.id = stock.id
    · rw [if_pos ((hiff row hrow).mpr hid), if_pos hid]
      exact congrArg (fun x => { row with quantity := x }) (sub_eq_add_neg _ _)
    · rw [if_neg fun hpr => hid ((hiff row hrow).mp hpr), if_neg hid]
  have hcount : db.stocks.countP p = 1 := by
    have hnodup : db.stocks.Nodup := hids.imp fun hne heq => hne (congrArg (·.id) heq)
    rw [List.countP_congr fun row hrow => ?_]
    · exact List.count_eq_one_of_mem hnodup hmem
    · rw [hp row hrow, beq_iff_eq]
  rw [hcount, hupdate]
  exact h

theorem tenantOwnsStock_of_eligible {row : InventoryStock} (h : Eligible db tenantId outletId row) :
    tenantOwnsStock db tenantId row = true := by
  obtain ⟨⟨item, hitem, hid, htenant⟩, w, hw, hwid, hwtenant, -⟩ := h
  unfold tenantOwnsStock
  rw [Bool.and_eq_true, List.any_eq_true, List.any_eq_true]
  exact ⟨⟨item, hitem, decide_eq_true ⟨hid, htenant⟩⟩, w, hw, decide_eq_true ⟨hwid, hwtenant⟩⟩

/-- The loop draws on the rows from the front. -/
theorem reserveRows_draws {rows : List InventoryStock} {quantity : ℚ} {Q : ℚ → DB → Prop}
    (hids : StockIds db) (hmem : ∀ row ∈ rows, row ∈ db.stocks ∧ row.inventoryItemId = i ∧
      Eligible db tenantId outletId row)
    (hdistinct : rows.Pairwise fun r s => r.id ≠ s.id)
    (h : Q (quantity - Lib.drawn (Lib.draw (·.quantity) rows quantity))
      (afterReserving tenantId orderId db (Lib.draw (·.quantity) rows quantity))) :
    Post (reserveRows tenantId orderId i rows quantity) db Q E := by
  induction rows generalizing db quantity with
  | nil =>
      simp only [Lib.draw, Lib.drawn, List.map_nil, List.sum_nil, sub_zero] at h
      exact h
  | cons stock rest ih =>
      unfold reserveRows
      rw [Lib.draw] at h
      by_cases hdone : quantity ≤ 0
      · rw [if_pos hdone] at h ⊢
        simp only [Lib.drawn, List.map_nil, List.sum_nil, sub_zero] at h
        exact h
      · rw [if_neg hdone] at h ⊢
        obtain ⟨hstock, hitem, heligible⟩ := hmem stock List.mem_cons_self
        obtain ⟨hhead, htail⟩ := List.pairwise_cons.mp hdistinct
        simp only [post_bind, post_get]
        refine decrementStocks_row hids hstock (fun row hrow => ?_) ?_
        · rw [decide_eq_true_eq]
          refine ⟨fun hrow' => Lib.eq_of_key_of_ne hids hrow hstock hrow'.1, fun heq => ?_⟩
          rw [heq]
          exact ⟨rfl, min_le_left _ _, tenantOwnsStock_of_eligible heligible⟩
        · rw [post_require]
          refine ⟨fun _ => createMovement_post ?_, fun hne => absurd rfl hne⟩
          subst hitem
          refine ih ?_ (fun row hrow => ?_) htail ?_
          · exact hids.shift stock.id _
          · obtain ⟨hrowmem, hrest⟩ := hmem row (List.mem_cons_of_mem stock hrow)
            exact ⟨List.mem_map.mpr ⟨row, hrowmem, if_neg (hhead row hrow).symm⟩, hrest⟩
          · simp only [Lib.drawn, List.map_cons, List.sum_cons, ← sub_sub] at h
            exact h

end Loop

/-- What is drawn for a requirement. -/
def drawsFor (stamp : Stamp) (db : DB) (tenantId : Id) (outletId : Option Id)
    (r : StockRequirement) : List (InventoryStock × ℚ) :=
  Lib.draw (·.quantity) (reservableStocks stamp db tenantId outletId r.inventoryItemId) r.quantity

section Draws

variable {stamp : Stamp} {db : DB} {tenantId orderId i : Id} {outletId : Option Id}
  {r : StockRequirement} {d : InventoryStock × ℚ} {rs : List StockRequirement}

theorem reservableStocks_pos : ∀ row ∈ reservableStocks stamp db tenantId outletId i,
    0 < row.quantity := by
  intro row hrow
  obtain ⟨-, -, hpos, -⟩ := mem_reservableStocks.mp hrow
  exact hpos

theorem reservableStocks_distinct (hids : StockIds db) :
    (reservableStocks stamp db tenantId outletId i).Pairwise fun r s => r.id ≠ s.id := by
  unfold reservableStocks
  exact ((Lib.orderBy_perm _ _).pairwise_iff fun h => Ne.symm h).mpr (hids.filter _)

theorem mem_drawsFor (h : d ∈ drawsFor stamp db tenantId outletId r) :
    d.1 ∈ db.stocks ∧ d.1.inventoryItemId = r.inventoryItemId ∧
      Eligible db tenantId outletId d.1 ∧ 0 < d.2 ∧ d.2 ≤ d.1.quantity := by
  obtain ⟨hmem, hitem, -, heligible⟩ := mem_reservableStocks.mp (Lib.mem_of_mem_draw h)
  obtain ⟨hpos, hle⟩ := Lib.part_of_mem_draw reservableStocks_pos h
  exact ⟨hmem, hitem, heligible, hpos, hle⟩

/-- What is required is drawn, when the eligible rows hold that much. -/
theorem drawn_drawsFor (stamp : Stamp) (hq : 0 < r.quantity)
    (hcover : r.quantity ≤ eligibleQuantity db tenantId outletId r.inventoryItemId) :
    Lib.drawn (drawsFor stamp db tenantId outletId r) = r.quantity := by
  unfold drawsFor
  rw [Lib.drawn_draw (fun row hrow => (reservableStocks_pos row hrow).le) hq.le,
    reservableStocks_sum, min_eq_left hcover]

/-- Rows of one item do not change what an order may draw of another. -/
theorem reservableStocks_afterReserving {draws : List (InventoryStock × ℚ)} (hids : StockIds db)
    (hdraws : ∀ d ∈ draws, d.1 ∈ db.stocks ∧ d.1.inventoryItemId ≠ i) :
    reservableStocks stamp (afterReserving tenantId orderId db draws) tenantId outletId i =
      reservableStocks stamp db tenantId outletId i := by
  have hsame : ∀ row ∈ db.stocks, row.inventoryItemId = i →
      { row with quantity := row.quantity - Lib.drawnFrom (·.id) row.id draws } = row := by
    intro row hrow hitem
    have hnone : Lib.drawnFrom (·.id) row.id draws = 0 := Lib.drawnFrom_eq_zero fun d hd hid => by
      obtain ⟨hmem, hother⟩ := hdraws d hd
      exact hother ((congrArg (·.inventoryItemId)
        (Lib.eq_of_key_of_ne hids hmem hrow hid)).trans hitem)
    rw [hnone, sub_zero]
  unfold reservableStocks
  rw [afterReserving_others]
  refine congrArg _ ?_
  show ((afterReserving tenantId orderId db draws).stocks.filter _) = _
  rw [afterReserving_stocks, List.filter_map]
  have hfilter : db.stocks.filter ((fun row : InventoryStock =>
        decide (row.inventoryItemId = i ∧ 0 < row.quantity ∧
          (db.items.any fun item => item.id = row.inventoryItemId ∧ item.tenantId = tenantId) ∧
          db.warehouses.any fun w => some w.id = row.warehouseId ∧ w.tenantId = tenantId ∧
            (outletId = none ∨ w.outletId = outletId ∨ w.outletId = none))) ∘
        fun row => { row with quantity := row.quantity - Lib.drawnFrom (·.id) row.id draws }) =
      db.stocks.filter fun row => row.inventoryItemId = i ∧ 0 < row.quantity ∧
        (db.items.any fun item => item.id = row.inventoryItemId ∧ item.tenantId = tenantId) ∧
        db.warehouses.any fun w => some w.id = row.warehouseId ∧ w.tenantId = tenantId ∧
          (outletId = none ∨ w.outletId = outletId ∨ w.outletId = none) := by
    refine List.filter_congr fun row hrow => ?_
    rw [Function.comp_apply]
    by_cases hitem : row.inventoryItemId = i
    · rw [hsame row hrow hitem]
    · simp only [hitem, false_and, decide_false]
  refine (congrArg _ hfilter).trans ?_
  refine (List.map_congr_left fun row hrow => ?_).trans (List.map_id _)
  obtain ⟨hmem, hkept⟩ := List.mem_filter.mp hrow
  exact hsame row hmem (of_decide_eq_true hkept).1

theorem eligibleQuantity_afterReserving (stamp : Stamp) {draws : List (InventoryStock × ℚ)}
    (hids : StockIds db) (hdraws : ∀ d ∈ draws, d.1 ∈ db.stocks ∧ d.1.inventoryItemId ≠ i) :
    eligibleQuantity (afterReserving tenantId orderId db draws) tenantId outletId i =
      eligibleQuantity db tenantId outletId i := by
  rw [← reservableStocks_sum stamp, reservableStocks_afterReserving hids hdraws,
    reservableStocks_sum]

end Draws

section Orders

variable {stamp : Stamp} {db : DB} {tenantId : Id} {order : SalesOrder}

theorem reserveRequirement_draws {r : StockRequirement} {Q : Unit → DB → Prop}
    {E : Failure → Prop} (hids : StockIds db) (hq : 0 < r.quantity)
    (hcover : r.quantity ≤ eligibleQuantity db tenantId order.outletId r.inventoryItemId →
      Q () (afterReserving tenantId order.id db (drawsFor stamp db tenantId order.outletId r)))
    (hshort : eligibleQuantity db tenantId order.outletId r.inventoryItemId < r.quantity →
      ∀ e, E e) :
    Post (reserveRequirement stamp tenantId order r) db Q E := by
  unfold reserveRequirement
  simp only [post_bind, post_get]
  rw [post_expect]
  refine ⟨fun item _ => ?_, fun hnone => hshort ?_ _⟩
  · have hrows : ∀ row ∈ reservableStocks stamp db tenantId order.outletId r.inventoryItemId,
        row ∈ db.stocks ∧ row.inventoryItemId = r.inventoryItemId ∧
          Eligible db tenantId order.outletId row := by
      intro row hrow
      obtain ⟨hmem, hitem, -, heligible⟩ := mem_reservableStocks.mp hrow
      exact ⟨hmem, hitem, heligible⟩
    have hpos : ∀ row ∈ reservableStocks stamp db tenantId order.outletId r.inventoryItemId,
        0 ≤ row.quantity := fun row hrow => (reservableStocks_pos row hrow).le
    have hdrawn := Lib.drawn_draw hpos hq.le
    rw [reservableStocks_sum] at hdrawn
    refine reserveRows_draws hids hrows (reservableStocks_distinct hids) ?_
    rw [post_require, hdrawn]
    refine ⟨fun henough => hcover ?_, fun hmissing => hshort ?_ _⟩
    · by_contra hless
      rw [min_eq_right (le_of_not_ge hless)] at henough
      exact henough (by linarith)
    · by_contra hless
      rw [min_eq_left (le_of_not_gt hless)] at hmissing
      exact hmissing (by linarith)
  · -- the tenant has no such item, and hence no eligible row of it
    have hempty : eligibleQuantity db tenantId order.outletId r.inventoryItemId = 0 := by
      refine List.sum_eq_zero fun x hx => ?_
      obtain ⟨row, hrow, -⟩ := List.mem_map.mp hx
      obtain ⟨hitem, ⟨item, hmem, hid, htenant⟩, -⟩ :=
        of_decide_eq_true (List.mem_filter.mp hrow).2
      exact absurd (decide_eq_true ⟨hid.trans hitem, htenant⟩)
        (List.find?_eq_none.mp hnone item hmem)
    rw [hempty]
    exact hq

/-- Every requirement is drawn from the rows as they were before the first, or one of them
is not covered. -/
theorem reserveAll_draws {rs : List StockRequirement} (hmerged : Merged rs) (hids : StockIds db) :
    Post (rs.forM (reserveRequirement stamp tenantId order)) db
      (fun _ db' =>
        (∀ r ∈ rs, r.quantity ≤ eligibleQuantity db tenantId order.outletId r.inventoryItemId) ∧
        db' = afterReserving tenantId order.id db
          (rs.flatMap (drawsFor stamp db tenantId order.outletId)))
      fun _ => ∃ r ∈ rs,
        eligibleQuantity db tenantId order.outletId r.inventoryItemId < r.quantity := by
  induction rs generalizing db with
  | nil => exact ⟨fun r hr => absurd hr List.not_mem_nil, rfl⟩
  | cons r rest ih =>
      obtain ⟨hhead, htail⟩ := List.pairwise_cons.mp hmerged.distinct
      have hrest : Merged rest :=
        ⟨htail, fun r' hr' => hmerged.positive r' (List.mem_cons_of_mem r hr')⟩
      rw [List.forM_eq_forM, List.forM_cons, post_bind]
      refine reserveRequirement_draws hids (hmerged.positive r List.mem_cons_self)
        (fun hcover => ?_) fun hshort _ => ⟨r, List.mem_cons_self, hshort⟩
      have hother : ∀ r' ∈ rest, ∀ d ∈ drawsFor stamp db tenantId order.outletId r,
          d.1 ∈ db.stocks ∧ d.1.inventoryItemId ≠ r'.inventoryItemId := by
        intro r' hr' d hd
        obtain ⟨hmem, hitem, -⟩ := mem_drawsFor hd
        exact ⟨hmem, hitem ▸ hhead r' hr'⟩
      have hdraws : ∀ r' ∈ rest, drawsFor stamp (afterReserving tenantId order.id db
          (drawsFor stamp db tenantId order.outletId r)) tenantId order.outletId r' =
          drawsFor stamp db tenantId order.outletId r' := by
        intro r' hr'
        exact congrArg (fun rows => Lib.draw (·.quantity) rows r'.quantity)
          (reservableStocks_afterReserving hids (hother r' hr'))
      refine (ih hrest (hids.reserved _)).mono (fun _ db' hdone => ?_) fun _ hmissing => ?_
      · obtain ⟨hcovered, rfl⟩ := hdone
        refine ⟨fun r' hr' => ?_, ?_⟩
        · rcases List.mem_cons.mp hr' with rfl | hr'
          · exact hcover
          · rw [← eligibleQuantity_afterReserving stamp hids (hother r' hr')]
            exact hcovered r' hr'
        · rw [afterReserving_append, List.flatMap_cons, List.flatMap_congr hdraws]
      · obtain ⟨r', hr', hless⟩ := hmissing
        rw [eligibleQuantity_afterReserving stamp hids (hother r' hr')] at hless
        exact ⟨r', List.mem_cons_of_mem r hr', hless⟩

/-- What the reservation of an order takes: parts of eligible rows, each row once, that make
up what is needed of every item; each part is recorded by a movement and leaves its row,
and nothing else changes. -/
structure StockReserved (db db' : DB) (tenantId orderId : Id) (outletId : Option Id)
    (need : Id → ℚ) (draws : List (InventoryStock × ℚ)) : Prop where
  rows : ∀ d ∈ draws, d.1 ∈ db.stocks ∧ Eligible db tenantId outletId d.1 ∧ 0 < d.2 ∧
    d.2 ≤ d.1.quantity
  once : draws.Pairwise fun d e => d.1.id ≠ e.1.id
  total : ∀ i, Lib.drawnFrom (·.inventoryItemId) i draws = need i
  movements : ∃ added, db'.movements = db.movements ++ added ∧
    List.Forall₂ (fun d m => m = reservationOf tenantId orderId d m.id ∧ db.nextId ≤ m.id)
      draws added
  stocks : db'.stocks = db.stocks.map fun row =>
    { row with quantity := row.quantity - Lib.drawnFrom (·.id) row.id draws }
  others : db' =
    { db with nextId := db'.nextId, stocks := db'.stocks, movements := db'.movements }

theorem drawnFrom_flatMap {α β : Type} {key : α → Nat} {k : Nat} {f : β → List (α × ℚ)}
    {xs : List β} : Lib.drawnFrom key k (xs.flatMap f) =
      (xs.map fun x => Lib.drawnFrom key k (f x)).sum := by
  induction xs with
  | nil => rfl
  | cons x rest ih =>
      rw [List.flatMap_cons, List.map_cons, List.sum_cons, ← ih]
      unfold Lib.drawnFrom
      rw [List.map_append, List.sum_append]

theorem drawnFrom_drawsFor {outletId : Option Id} {r : StockRequirement} (hq : 0 < r.quantity)
    (hcover : r.quantity ≤ eligibleQuantity db tenantId outletId r.inventoryItemId) (i : Id) :
    Lib.drawnFrom (·.inventoryItemId) i (drawsFor stamp db tenantId outletId r) =
      if r.inventoryItemId = i then r.quantity else 0 := by
  by_cases hitem : r.inventoryItemId = i
  · rw [if_pos hitem, ← drawn_drawsFor stamp hq hcover]
    unfold Lib.drawnFrom Lib.drawn
    refine congrArg List.sum (List.map_congr_left fun d hd => ?_)
    exact if_pos ((mem_drawsFor hd).2.1.trans hitem)
  · rw [if_neg hitem]
    exact Lib.drawnFrom_eq_zero fun d hd heq => hitem ((mem_drawsFor hd).2.1.symm.trans heq)

theorem stockReserved_of_draws {rs : List StockRequirement} (hmerged : Merged rs)
    (hids : StockIds db)
    (hcover : ∀ r ∈ rs,
      r.quantity ≤ eligibleQuantity db tenantId order.outletId r.inventoryItemId) :
    StockReserved db (afterReserving tenantId order.id db
        (rs.flatMap (drawsFor stamp db tenantId order.outletId))) tenantId order.id
      order.outletId (required rs) (rs.flatMap (drawsFor stamp db tenantId order.outletId)) where
  rows d hd := by
    obtain ⟨r, -, hr⟩ := List.mem_flatMap.mp hd
    obtain ⟨hmem, -, hrest⟩ := mem_drawsFor hr
    exact ⟨hmem, hrest⟩
  once := by
    refine List.pairwise_flatMap.mpr ⟨fun r _ => ?_,
      hmerged.distinct.imp fun {r s} hne d hd e he => ?_⟩
    · exact Lib.draw_pairwise (reservableStocks_distinct hids)
    · intro heq
      obtain ⟨hd, hditem, -⟩ := mem_drawsFor hd
      obtain ⟨he, heitem, -⟩ := mem_drawsFor he
      have hsame : d.1 = e.1 := Lib.eq_of_key_of_ne hids hd he heq
      exact hne (hditem.symm.trans ((congrArg (·.inventoryItemId) hsame).trans heitem))
  total i := by
    rw [drawnFrom_flatMap]
    unfold required
    refine congrArg List.sum (List.map_congr_left fun r hr => ?_)
    exact drawnFrom_drawsFor (hmerged.positive r hr) (hcover r hr) i
  movements := afterReserving_movements _
  stocks := afterReserving_stocks _
  others := afterReserving_others _

end Orders

section Reserve

variable {db : DB} {orderId tenantId : Id} {order : SalesOrder} {businessType : BusinessType}

/-- Every item is covered when every requirement is. -/
theorem covered_iff {rs : List StockRequirement} (hmerged : Merged rs) {outletId : Option Id} :
    (∀ r ∈ rs, r.quantity ≤ eligibleQuantity db tenantId outletId r.inventoryItemId) ↔
      ∀ i, required rs i ≤ eligibleQuantity db tenantId outletId i := by
  refine ⟨fun h i => ?_, fun h r hr => ?_⟩
  · by_cases hzero : required rs i = 0
    · rw [hzero]
      exact eligibleQuantity_nonneg
    · obtain ⟨r, hr, rfl⟩ := exists_mem_of_required hzero
      rw [required_of_mem hmerged hr]
      exact h r hr
  · rw [← required_of_mem hmerged hr]
    exact h r.inventoryItemId

theorem reserveStock_post (stamp : Stamp) (hids : StockIds db)
    (horder : findOrder db orderId tenantId = some order)
    (hbusiness : tenantBusinessType db tenantId = some businessType)
    (hnone : hasReservation db tenantId orderId = false) :
    Post (ReservationService.reserveStock stamp orderId tenantId) db
      (fun reserved db' => reserved = true ∧
        (∀ i, needed businessType (orderLines db order) i ≤
          eligibleQuantity db tenantId order.outletId i) ∧
        ∃ draws, StockReserved db db' tenantId orderId order.outletId
          (needed businessType (orderLines db order)) draws)
      fun _ => ¬ ∀ i, needed businessType (orderLines db order) i ≤
        eligibleQuantity db tenantId order.outletId i := by
  obtain ⟨hmerged, hrequired⟩ := buildRequirements_spec businessType (orderLines db order)
  have hneeded : needed businessType (orderLines db order) =
      required (buildRequirements businessType (orderLines db order)) :=
    funext fun i => (hrequired i).symm
  have hid : order.id = orderId := (of_decide_eq_true (List.find?_some horder :)).1
  rw [hneeded, ← hid]
  unfold ReservationService.reserveStock reserveStockWith
  simp only [post_bind, post_get, horder, hbusiness, hid, hnone]
  rw [post_expect]
  refine ⟨fun found hfound => ?_, fun h => absurd h (Option.some_ne_none order)⟩
  cases hfound
  rw [if_neg Bool.false_ne_true, post_bind, post_expect]
  refine ⟨fun found hfound => ?_, fun h => absurd h (Option.some_ne_none businessType)⟩
  cases hfound
  simp only [post_bind, post_pure]
  rw [post_require]
  refine ⟨fun _ => ?_, fun h => absurd rfl h⟩
  refine (reserveAll_draws hmerged hids).mono (fun _ db' hdone => ?_) fun _ hmissing => ?_
  · obtain ⟨hcover, rfl⟩ := hdone
    rw [← hid]
    exact ⟨trivial, (covered_iff hmerged).mp hcover, _, stockReserved_of_draws hmerged hids hcover⟩
  · intro hall
    obtain ⟨r, hr, hless⟩ := hmissing
    exact absurd ((covered_iff hmerged).mpr hall r hr) (not_le.mpr hless)

/-- A reservation takes all that the order needs or nothing: an order that has one already
is left as it is, and another gets one if and only if the eligible rows hold what is needed of
every item. -/
theorem reserveStock_all_or_nothing (stamp : Stamp) (hids : StockIds db)
    (horder : findOrder db orderId tenantId = some order)
    (hbusiness : tenantBusinessType db tenantId = some businessType) :
    (hasReservation db tenantId orderId = true →
      ReservationService.reserveStock stamp orderId tenantId db = .ok (true, db)) ∧
    (hasReservation db tenantId orderId = false →
      ((∃ db', ReservationService.reserveStock stamp orderId tenantId db = .ok (true, db')) ↔
        ∀ i, needed businessType (orderLines db order) i ≤
          eligibleQuantity db tenantId order.outletId i) ∧
      ∀ reserved db',
        ReservationService.reserveStock stamp orderId tenantId db = .ok (reserved, db') →
        ∃ draws, StockReserved db db' tenantId orderId order.outletId
          (needed businessType (orderLines db order)) draws) ∧
    ∀ e, ReservationService.reserveStock stamp orderId tenantId db = .error e →
      commit (ReservationService.reserveStock stamp orderId tenantId) db = db := by
  refine ⟨fun hheld => ?_, fun hnone => ?_, fun e hfailed => commit_of_error hfailed⟩
  · refine Post.eq_ok ?_
    unfold ReservationService.reserveStock reserveStockWith
    simp only [post_bind, post_get, horder]
    rw [post_expect]
    refine ⟨fun found _ => ?_, fun h => absurd h (Option.some_ne_none order)⟩
    rw [if_pos hheld]
    exact ⟨rfl, rfl⟩
  · have hpost := reserveStock_post stamp hids horder hbusiness hnone
    refine ⟨⟨fun hreserved => ?_, fun hall => ?_⟩, fun reserved db' hok => (hpost.of_ok hok).2.2⟩
    · obtain ⟨db', hok⟩ := hreserved
      exact (hpost.of_ok hok).2.1
    obtain ⟨reserved, db', hok, htrue, -⟩ :=
      (hpost.mono (fun _ _ h => h) fun e hnot => hnot hall).exists_ok
    exact ⟨db', htrue ▸ hok⟩

/-- Two and then three of the beans are ordered. -/
def beansTwice : SalesOrder where
  id := 8
  tenantId := 1
  outletId := some 9
  status := .pending
  orderMode := .regular
  paymentStatus := .pending
  paidAmount := 0
  totalAmount := 0
  kitchenReleasedAt := none
  items := [⟨7, 2, by decide⟩, ⟨7, 3, by decide⟩]

/-- A warehouse of no outlet has three of them, and the one of the outlet four. -/
def beansOrdered : DB where
  nextId := 20
  tenants := [⟨1, .retail⟩]
  warehouses := [⟨2, 1, none, true⟩, ⟨3, 1, some 9, true⟩]
  items := [⟨5, 1, "Beans", some .fifo, none, none, none, none⟩]
  products := [⟨7, "Beans", true, some 5, none⟩]
  stocks := [⟨10, some 2, 5, 3, none⟩, ⟨11, some 3, 5, 4, none⟩]
  movements := []
  layers := []
  allocations := []
  transfers := []
  transferReceipts := []
  suppliers := []
  purchaseOrders := []
  purchaseReceipts := []
  priceVariances := []
  orders := [beansTwice]
  outbox := []

theorem reserveStock_all_or_nothing_example :
    ∃ db' draws, ReservationService.reserveStock .sequential 8 1 beansOrdered = .ok (true, db') ∧
      StockReserved beansOrdered db' 1 8 (some 9)
        (needed .retail (orderLines beansOrdered beansTwice)) draws := by
  have hids : StockIds beansOrdered := List.pairwise_pair.mpr (by decide)
  have horder : findOrder beansOrdered 8 1 = some beansTwice := rfl
  have hbusiness : tenantBusinessType beansOrdered 1 = some .retail := rfl
  obtain ⟨-, hreserve, -⟩ := reserveStock_all_or_nothing .sequential hids horder hbusiness
  obtain ⟨hiff, hreserved⟩ := hreserve rfl
  have hcovered : ∀ i, needed .retail (orderLines beansOrdered beansTwice) i ≤
      eligibleQuantity beansOrdered 1 (some 9) i := by
    intro i
    by_cases hi : i = 5
    · subst hi
      decide +kernel
    · have hnone : needed .retail (orderLines beansOrdered beansTwice) i = 0 :=
        List.sum_eq_zero fun x hx => by
          obtain ⟨d, hd, rfl⟩ := List.mem_map.mp hx
          have hitem : ∀ d ∈ demands .retail (orderLines beansOrdered beansTwice),
              d.1 = some 5 := by
            decide
          exact if_neg fun heq => hi (Option.some.inj (heq.symm.trans (hitem d hd)))
      rw [hnone]
      exact eligibleQuantity_nonneg
  obtain ⟨db', hok⟩ := hiff.mpr hcovered
  obtain ⟨draws, hdraws⟩ := hreserved true db' hok
  exact ⟨db', draws, hok, hdraws⟩

end Reserve

end Inventory
end ERP
