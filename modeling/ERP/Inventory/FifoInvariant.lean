import ERP.Inventory.Quantities

/-!
# The layers of a FIFO item cover its stock

A reservation takes stock but no layers, a commit takes layers but no stock.  In
between, what is ACTIVE or pending makes up the difference, and the layers of a
FIFO item hold exactly the stock, the ACTIVE and the pending quantity.
-/

namespace ERP
namespace Inventory

/-- Item `i` of tenant `t` is valued by FIFO, and its layers are in range. -/
structure Layered (i t : Id) (db : DB) : Prop where
  item : ∃ item ∈ db.items, item.id = i ∧ item.tenantId = t ∧ item.valuationMethod = some .fifo
  layers : ∀ l ∈ db.layers, l.inventoryItemId = i → l.tenantId = t ∧
    0 ≤ l.remainingQuantity ∧ l.remainingQuantity ≤ l.receivedQuantity

structure Balanced (i t : Id) (c : Config) : Prop where
  layered : Layered i t c.db
  balance : ∀ w, layerQty c.db w i =
    stockQty c.db w i + activeQty c.db w i + pendingQty c.pending w i

section Layered

variable {stamp : Stamp} {db db' : DB} {i t n : Id} {w w' : Option Id}

theorem Layered.congr (h : Layered i t db) (hitems : db'.items = db.items)
    (hlayers : db'.layers = db.layers) : Layered i t db' :=
  ⟨hitems ▸ h.item, hlayers ▸ h.layers⟩

/-- Item rows may change their average or be frozen. -/
theorem Layered.of_items (h : Layered i t db)
    (hitems : ∃ f, (∀ row, SameItem row (f row)) ∧ db'.items = db.items.map f)
    (hlayers : ∀ l ∈ db'.layers, l.inventoryItemId = i → l.tenantId = t ∧
      0 ≤ l.remainingQuantity ∧ l.remainingQuantity ≤ l.receivedQuantity) : Layered i t db' := by
  obtain ⟨f, hf, hrows⟩ := hitems
  obtain ⟨item, hmem, hid, ht, hmethod⟩ := h.item
  refine ⟨⟨f item, ?_, (hf item).id.trans hid, (hf item).tenant.trans ht,
    (hf item).method.trans hmethod⟩, hlayers⟩
  rw [hrows]
  exact List.mem_map.mpr ⟨item, hmem, rfl⟩

/-- The item the costing locks is the FIFO item, when the ids agree. -/
theorem Layered.locked (h : Layered i t db) (hk : Lib.Keyed (·.id) n db.items)
    {tenantId : Id} {item : InventoryItem} (hl : Locked db tenantId i item) :
    item.valuationMethod = some .fifo ∧ tenantId = t := by
  obtain ⟨row, hrow, hid, ht, hmethod⟩ := h.item
  obtain ⟨hmem, hiid, hit⟩ := hl.mem
  have heq : item = row := hk.eq_of_key hmem hrow (hiid.trans hid.symm)
  rw [heq] at hit
  exact ⟨heq ▸ hmethod, hit.symm.trans ht⟩

theorem mem_openLayersFor {input : ReceiveInput} {costs : List CostAllocation}
    {l : InventoryCostLayer} (h : l ∈ (openLayersFor db input costs).layers) :
    l ∈ db.layers ∨ ∃ a ∈ costs, ∃ id, l = layerOf input id a.quantity a.unitCost := by
  induction costs generalizing db with
  | nil => exact .inl h
  | cons a rest ih =>
      rcases ih h with hl | ⟨b, hb, hid⟩
      · rcases List.mem_append.mp hl with hl | hl
        · exact .inl hl
        · exact .inr ⟨a, List.mem_cons_self, _, List.mem_singleton.mp hl⟩
      · exact .inr ⟨b, List.mem_cons_of_mem a hb, hid⟩

/-- Opening layers of positive quantity for an item of the tenant. -/
theorem Layered.opened (h : Layered i t db) {input : ReceiveInput} {costs : List CostAllocation}
    (ht : input.inventoryItemId = i → input.tenantId = t) (hpos : ∀ a ∈ costs, 0 ≤ a.quantity) :
    ∀ l ∈ (openLayersFor db input costs).layers, l.inventoryItemId = i → l.tenantId = t ∧
      0 ≤ l.remainingQuantity ∧ l.remainingQuantity ≤ l.receivedQuantity := by
  intro l hl hli
  rcases mem_openLayersFor hl with hl | ⟨a, ha, id, rfl⟩
  · exact h.layers l hl hli
  · exact ⟨ht hli, hpos a ha, le_refl _⟩

end Layered

section Costing

variable {stamp : Stamp} {db db' : DB} {i t n : Id}

/-- What costing a movement of `q` units at `w'` does to the layers of item `i`. -/
structure LayerEffect (i t : Id) (w' : Option Id) (i' : Id) (q : ℚ) (db db' : DB) : Prop where
  layered : Layered i t db'
  quantity : ∀ w, layerQty db' w i = layerQty db w i + at_ w' w i' i q

/-- An item that is not valued by FIFO is not item `i`. -/
theorem Layered.ne_of_method (h : Layered i t db) (hk : Lib.Keyed (·.id) n db.items)
    {tenantId itemId : Id} {item : InventoryItem} (hl : Locked db tenantId itemId item)
    (hmethod : item.valuationMethod ≠ some .fifo) : itemId ≠ i := by
  intro heq
  rw [heq] at hl
  exact hmethod (h.locked hk hl).1

theorem Layered.untouched (h : Layered i t db) {w' : Option Id} {i' : Id} {q : ℚ}
    (hne : i' ≠ i) (hlayers : db'.layers = db.layers)
    (hitems : ∃ f, (∀ row, SameItem row (f row)) ∧ db'.items = db.items.map f) :
    LayerEffect i t w' i' q db db' := by
  refine ⟨h.of_items hitems (hlayers ▸ h.layers), fun w => ?_⟩
  rw [layerQty_congr hlayers, at_ne hne, add_zero]

theorem setAverage_layers (db : DB) (item : InventoryItem) (w : Option Id) (q : ℚ) :
    (setAverage db item w q).layers = db.layers := by
  unfold setAverage
  split <;> rfl

theorem Layered.openedEffect (h : Layered i t db) (hk : Lib.Keyed (·.id) n db.items)
    (input : ReceiveInput) (costs : List CostAllocation) {item : InventoryItem}
    (hitem : Locked db input.tenantId input.inventoryItemId item)
    (hpos : ∀ a ∈ costs, 0 ≤ a.quantity) {q : ℚ} (hsum : (costs.map (·.quantity)).sum = q)
    (hlayers : db'.layers = (openLayersFor db input costs).layers)
    (hitems : ∃ f, (∀ row, SameItem row (f row)) ∧ db'.items = db.items.map f) :
    LayerEffect i t input.warehouseId input.inventoryItemId q db db' := by
  have htenant : input.inventoryItemId = i → input.tenantId = t := by
    intro heq
    rw [heq] at hitem
    exact (h.locked hk hitem).2
  refine ⟨h.of_items hitems (hlayers ▸ h.opened htenant hpos), fun w => ?_⟩
  rw [layerQty_congr hlayers, layerQty_openLayersFor, hsum]

theorem Received.layerEffect {input : ReceiveInput} {unitCost : ℚ}
    (hr : Received stamp input db unitCost db') (h : Layered i t db)
    (hk : Lib.Keyed (·.id) n db.items) (hq : 0 < input.quantity) :
    LayerEffect i t input.warehouseId input.inventoryItemId input.quantity db db' := by
  have hitems := hr.costed.items
  cases hr with
  | fifo hitem hmethod hcost =>
      refine h.openedEffect hk input [⟨none, input.quantity, unitCost⟩] hitem ?_ (by simp)
        (by simp) hitems
      simpa using le_of_lt hq
  | average hitem hmethod hcost htotal hopening =>
      refine h.untouched (h.ne_of_method hk hitem ?_) ?_ hitems
      · rw [hmethod]
        decide
      · simp [setAverage_layers]
  | standard hitem hmethod hcost =>
      refine h.untouched (h.ne_of_method hk hitem ?_) ?_ hitems
      · rw [hmethod]
        decide
      · simp

/-- What a receipt copies of a shipment is positive, and all it asked for when
nothing is missing. -/
theorem copyAllocations_spec (rows : List InventoryMovementCostAllocation) (skip : ℚ) {q : ℚ}
    (hq : 0 ≤ q) :
    0 ≤ (copyAllocations rows skip q).1 ∧
      (∀ a ∈ (copyAllocations rows skip q).2, 0 ≤ a.quantity) ∧
      ((copyAllocations rows skip q).2.map (·.quantity)).sum =
        q - (copyAllocations rows skip q).1 := by
  induction rows generalizing skip q with
  | nil => simp [copyAllocations, hq]
  | cons row rest ih =>
      unfold copyAllocations
      split
      · simp [hq]
      · split
        · exact ih _ hq
        · rename_i hrem hskip
          have hleft : 0 ≤ q - min (row.quantity - skip) q := by
            linarith [min_le_right (row.quantity - skip) q]
          obtain ⟨hmissing, hpos, hsum⟩ := ih 0 hleft
          refine ⟨hmissing, fun a ha => ?_, ?_⟩
          · rcases List.mem_cons.mp ha with rfl | ha
            · exact le_min (by linarith) hq
            · exact hpos a ha
          · simp only [List.map_cons, List.sum_cons, hsum]
            ring

theorem ReceivedTransfer.layerEffect {input : ReceiveTransferInput}
    (hr : ReceivedTransfer stamp input db db') (h : Layered i t db)
    (hk : Lib.Keyed (·.id) n db.items) (hq : 0 ≤ input.quantity) :
    LayerEffect i t (some input.warehouseId) input.inventoryItemId input.quantity db db' := by
  have hitems := hr.costed.items
  cases hr with
  | @fifo item source unitCost hitem hmethod hsource hunit hquantity hcover =>
      obtain ⟨hmissing, hpos, hsum⟩ := copyAllocations_spec (shippedAllocations stamp db input)
        input.alreadyReceived hq
      refine h.openedEffect hk (transferReceipt input unitCost) (copiedCosts stamp db input)
        hitem hpos ?_ (by simp) hitems
      rw [copiedCosts, hsum, le_antisymm hcover hmissing, sub_zero]
  | other hitem hmethod hsource hunit hreceived =>
      have hne := h.ne_of_method hk hitem hmethod
      refine h.untouched hne ?_ hitems
      rw [freeze_layers]
      cases hreceived with
      | fifo hitem' hmethod' =>
          have hsame := hitem'.found.symm.trans hitem.found
          rw [Option.some.inj hsame] at hmethod'
          exact absurd hmethod' hmethod
      | average => simp [setAverage_layers]
      | standard => simp

theorem mem_openLayers {tenantId itemId : Id} {w : Option Id} {l : InventoryCostLayer} :
    l ∈ openLayers stamp db tenantId itemId w ↔ l ∈ db.layers ∧ l.tenantId = tenantId ∧
      l.inventoryItemId = itemId ∧ l.warehouseId = w ∧ 0 < l.remainingQuantity := by
  simp only [openLayers, Lib.mem_orderBy, List.mem_filter, decide_eq_true_eq]

theorem openLayers_nonneg {tenantId itemId : Id} {w : Option Id} :
    ∀ l ∈ openLayers stamp db tenantId itemId w, 0 ≤ l.remainingQuantity :=
  fun _ hl => le_of_lt (mem_openLayers.mp hl).2.2.2.2

theorem openLayers_ids {tenantId itemId : Id} {w : Option Id}
    (hk : Lib.Keyed (·.id) n db.layers) :
    (openLayers stamp db tenantId itemId w).Pairwise fun l l' => l.id ≠ l'.id := by
  refine (Lib.orderBy_perm _ _).symm.pairwise ?_ fun h => h.symm
  exact (hk.sorted.imp fun hlt => Nat.ne_of_lt hlt).filter _

/-- A charge takes from a layer no more than it holds. -/
theorem charged_fifoCharges (stamp : Stamp) (hk : Lib.Keyed (·.id) n db.layers) (input : IssueInput)
    {l : InventoryCostLayer} (hl : l ∈ db.layers) (hpos : 0 ≤ l.remainingQuantity) :
    0 ≤ charged (fifoCharges stamp db input) l.id ∧
      charged (fifoCharges stamp db input) l.id ≤ l.remainingQuantity := by
  rw [fifoCharges, charged_drawn]
  refine ⟨Lib.drawnFrom_nonneg openLayers_nonneg, ?_⟩
  by_cases hopen : l ∈ openLayers stamp db input.tenantId input.inventoryItemId input.warehouseId
  · exact Lib.drawnFrom_le openLayers_nonneg (openLayers_ids hk) hopen
  · rw [Lib.drawnFrom_eq_zero fun e he hid => hopen ?_]
    · exact hpos
    · have hmem := Lib.mem_of_mem_draw he
      exact hk.eq_of_key (mem_openLayers.mp hmem).1 hl hid ▸ hmem

theorem layerQty_fifoCharges (hk : Lib.Keyed (·.id) n db.layers) {input : IssueInput}
    (hq : 0 ≤ input.quantity)
    (hcover : input.quantity ≤ ((openLayers stamp db input.tenantId input.inventoryItemId
      input.warehouseId).map (·.remainingQuantity)).sum) (w : Option Id) :
    layerQty (chargeLayers db (fifoCharges stamp db input)) w i =
      layerQty db w i + at_ input.warehouseId w input.inventoryItemId i (-input.quantity) := by
  rw [layerQty_chargeLayers hk input.warehouseId input.inventoryItemId]
  · rw [fifoCharges, sum_quantity_drawn, Lib.drawn_draw openLayers_nonneg hq, min_eq_left hcover]
    unfold at_
    split
    · ring
    · ring
  · intro a ha
    obtain ⟨e, he, rfl⟩ := List.mem_map.mp ha
    obtain ⟨hmem, _, hi, hw, _⟩ := mem_openLayers.mp (Lib.mem_of_mem_draw he)
    exact ⟨e.1, hmem, rfl, hw, hi⟩

theorem writeIssueCost_layers (db : DB) (input : IssueInput) (item : InventoryItem)
    (allocations : List CostAllocation) :
    (writeIssueCost stamp db input item allocations).layers = db.layers := by
  simp [writeIssueCost]

theorem Issued.layerEffect {input : IssueInput} (hr : Issued stamp input db db')
    (h : Layered i t db) (hk : Lib.Keyed (·.id) n db.items)
    (hkl : Lib.Keyed (·.id) n db.layers) (hq : 0 ≤ input.quantity) :
    LayerEffect i t input.warehouseId input.inventoryItemId (-input.quantity) db db' := by
  have hitems := hr.costed.items
  cases hr with
  | fifo hitem hmethod hcover =>
      refine ⟨h.of_items hitems fun l hl hli => ?_, fun w => ?_⟩
      · rw [writeIssueCost_layers, chargeLayers_layers] at hl
        obtain ⟨s, hs, rfl⟩ := List.mem_map.mp hl
        obtain ⟨ht, hpos, hle⟩ := h.layers s hs hli
        obtain ⟨hc, hcle⟩ := charged_fifoCharges stamp hkl input hs hpos
        refine ⟨ht, ?_, ?_⟩ <;> dsimp only <;> linarith
      · rw [layerQty_congr (writeIssueCost_layers _ _ _ _)]
        exact layerQty_fifoCharges hkl hq hcover w
  | flat hitem hmethod =>
      refine h.untouched (h.ne_of_method hk hitem ?_) (writeIssueCost_layers _ _ _ _) hitems
      rcases hmethod with ⟨hm, _⟩ | ⟨hm, _⟩ <;> rw [hm] <;> decide

end Costing

section Step

variable {stamp : Stamp} {A : Permit} {db db' : DB} {c c' : Config}
  {pending : List InventoryMovement}
  {i t : Id} {w : Option Id}

theorem Layered.added (h : Layered i t db) (w' : Option Id) (i' : Id) (q : ℚ)
    (m : InventoryMovement) : Layered i t ((db.addStock w' i' q).record m) :=
  h.congr (DB.addStock_items db w' i' q) (DB.addStock_layers db w' i' q)

theorem items_added {n : Id} (h : Lib.Keyed (·.id) n db.items) (w' : Option Id) (i' : Id) (q : ℚ)
    (m : InventoryMovement) :
    Lib.Keyed (·.id) n ((db.addStock w' i' q).record m).items := by
  change Lib.Keyed _ _ (db.addStock w' i' q).items
  rw [DB.addStock_items]
  exact h

/-- Stock that moves together with the layers keeps the balance. -/
theorem Balanced.costed {db₁ : DB} {w' : Option Id} {i' movementId : Id} {q : ℚ}
    (h : Balanced i t ⟨db, pending⟩) (hlayers : layerQty db₁ w i = layerQty db w i)
    (hstock : stockQty db₁ w i = stockQty db w i + at_ w' w i' i q)
    (hactive : activeQty db₁ w i = activeQty db w i)
    (hc : Costed movementId db₁ db') (he : LayerEffect i t w' i' q db₁ db') :
    layerQty db' w i = stockQty db' w i + activeQty db' w i + pendingQty pending w i := by
  have hb := h.balance w
  rw [he.quantity w, stockQty_costed hc, activeQty_costed hc, hlayers, hstock, hactive]
  simp only at hb
  linarith

theorem Balanced.sameLedger (h : Balanced i t ⟨db, pending⟩) (hsame : SameLedger db db') :
    Balanced i t ⟨db', pending⟩ := by
  refine ⟨h.layered.congr hsame.items hsame.layers, fun w => ?_⟩
  have hb := h.balance w
  simp only at hb ⊢
  rw [layerQty_congr hsame.layers, stockQty_congr hsame.stocks,
    activeQty_congr hsame.movements, hb]

theorem Balanced.step (hs : Sound c) (h : Balanced i t c) (hstep : Step stamp A c c') :
    Balanced i t c' := by
  cases hstep with
  | elsewhere hsame _ => exact h.sameLedger hsame
  | transfers _ hsame _ => exact h.sameLedger hsame
  | @receive db db' pending e hA =>
      have hactive : e.movement.referenceType ≠ some .orderReservation := by
        rcases e.kind with hk | hk <;> rw [hk] <;> decide
      have he := e.received.layerEffect (h.layered.added _ _ _ _)
        (items_added hs.itemIds _ _ _ _) e.quantity_pos
      refine ⟨he.layered, fun w => h.costed (layerQty_congr ?_) ?_ ?_ e.received.costed he⟩
      · exact DB.addStock_layers db _ _ _
      · exact stockQty_add hs _ _ _ _ _
      · rw [activeQty_record_other hactive, activeQty_congr (DB.addStock_movements db _ _ _)]
  | @issue db db' pending e hissued hA hship =>
      have hactive : e.movement.referenceType ≠ some .orderReservation := by
        rcases e.kind with hk | hk | hk <;> rw [hk] <;> decide
      have he := hissued.layerEffect (h.layered.congr rfl rfl) hs.itemIds hs.layerIds
        (le_of_lt e.quantity_pos)
      refine ⟨he.layered, fun w => h.costed ?_ ?_ ?_ hissued.costed he⟩
      · exact layerQty_congr rfl
      · have hstock := stockQty_shift hs e.source.mem (w := w) (i := i) (q := -e.input.quantity)
        rw [e.source.warehouse, e.source.item] at hstock
        exact hstock
      · exact activeQty_record_other hactive
  | @note db pending movement tenantId w' i' hkind howned hw =>
      refine ⟨h.layered.congr rfl rfl, fun w => ?_⟩
      have hb := h.balance w
      have hactive : activeQty (db.record movement) w i = activeQty db w i :=
        activeQty_record_other (by rw [hkind]; decide)
      simp only at hb ⊢
      rw [hactive]
      exact hb
  | @transferIn db db' pending e hA hcost =>
      have he := e.received.layerEffect (h.layered.added _ _ _ _)
        (items_added hs.itemIds _ _ _ _) e.quantity_nonneg
      refine ⟨he.layered, fun w => h.costed (layerQty_congr ?_) ?_ ?_ e.received.costed he⟩
      · exact DB.addStock_layers db _ _ _
      · exact stockQty_add hs _ _ _ _ _
      · rw [activeQty_record_other (by rw [e.kind]; decide),
          activeQty_congr (DB.addStock_movements db _ _ _)]
  | @reserve db pending e hA =>
      refine ⟨h.layered.congr rfl rfl, fun w => ?_⟩
      have hb := h.balance w
      have hstock := stockQty_shift hs e.source.mem (w := w) (i := i) (q := -e.quantity)
      have hactive := activeQty_record (db.shiftStock e.row.id (-e.quantity)) e.movement w i
      rw [if_pos e.kind, e.written.warehouse, e.written.item, e.movementQuantity] at hactive
      rw [at_neg] at hstock
      simp only at hb ⊢
      rw [hactive]
      change layerQty db w i = stockQty (db.shiftStock e.row.id (-e.quantity)) w i +
        (activeQty db w i + _) + _
      rw [hstock, hb]
      ring
  | @claim db e hA =>
      refine ⟨h.layered.congr rfl rfl, fun w => ?_⟩
      have hb := h.balance w
      have hactive := activeQty_claim (w := w) (i := i) e
      simp only [pendingQty, List.map_nil, List.sum_nil, add_zero] at hb
      change layerQty db w i = stockQty db w i + _ + _
      rw [hb, ← hactive]
      ring
  | @restore db r rest e hA =>
      refine ⟨h.layered.added _ _ _ _, fun w => ?_⟩
      have hb := h.balance w
      have hstock := stockQty_add hs w i (some e.warehouseId) r.inventoryItemId r.quantity
      rw [pendingQty_cons, e.warehouse] at hb
      simp only
      rw [activeQty_record_other (by rw [e.kind]; decide),
        activeQty_congr (DB.addStock_movements db _ _ _)]
      change layerQty (db.addStock _ _ _) w i = stockQty (db.addStock _ _ _) w i + _ + _
      rw [layerQty_congr (DB.addStock_layers db _ _ _), hstock]
      linarith
  | @cost db db' r rest tenantId hA hissued =>
      have hclaimed := hs.pending r List.mem_cons_self
      have he := hissued.layerEffect h.layered hs.itemIds hs.layerIds
        (le_of_lt hclaimed.quantity_pos)
      refine ⟨he.layered, fun w => ?_⟩
      have hb := h.balance w
      rw [pendingQty_cons] at hb
      have hq := he.quantity w
      rw [at_neg] at hq
      simp only
      rw [hq, stockQty_costed hissued.costed, activeQty_costed hissued.costed]
      change _ + -at_ r.warehouseId w r.inventoryItemId i r.quantity = _
      linarith

theorem Balanced.run (hs : Sound c) (h : Balanced i t c) (hrun : Run stamp A c c') :
    Balanced i t c' := by
  induction hrun with
  | refl => exact h
  | tail hrun hstep ih => exact ih.step (hs.run hrun) hstep

end Step

section Cover

variable {stamp : Stamp} {db : DB} {c : Config} {pending : List InventoryMovement} {i t : Id}

/-- The open layers hold all that the layers of the item hold at the location. -/
theorem sum_openLayers (h : Layered i t db) (w : Option Id) :
    ((openLayers stamp db t i w).map (·.remainingQuantity)).sum = layerQty db w i := by
  rw [openLayers, ((Lib.orderBy_perm _ _).map _).sum_eq, layerQty]
  have hlayers := h.layers
  generalize db.layers = layers at hlayers
  induction layers with
  | nil => rfl
  | cons l rest ih =>
      have hrest := ih fun x hx => hlayers x (List.mem_cons_of_mem l hx)
      simp only [List.filter_cons, List.map_cons, List.sum_cons, decide_eq_true_eq]
      by_cases hkey : l.warehouseId = w ∧ l.inventoryItemId = i
      · obtain ⟨htenant, hpos, _⟩ := hlayers l List.mem_cons_self hkey.2
        rw [if_pos hkey, ← hrest]
        rcases lt_or_eq_of_le hpos with hlt | hzero
        · rw [if_pos ⟨htenant, hkey.2, hkey.1, hlt⟩, List.map_cons, List.sum_cons]
        · rw [if_neg fun hopen => (ne_of_lt hopen.2.2.2) hzero, ← hzero, zero_add]
      · rw [if_neg hkey, if_neg fun hopen => hkey ⟨hopen.2.2.1, hopen.2.1⟩, hrest, zero_add]

/-- No issue of a FIFO item that found its stock is short of layers. -/
theorem Balanced.covered (hs : Sound c) (h : Balanced i t c) : ¬ Uncovered stamp i c := by
  rintro (⟨e, hi, item, hlocked, _, hshort⟩ | ⟨r, rest, tenantId, hpending, hi, item, hlocked, _,
    hshort⟩)
  · have hb := h.balance e.input.warehouseId
    have htaken : Layered i t e.taken := h.layered.congr rfl rfl
    rw [hi] at hlocked hshort
    have htenant := (htaken.locked hs.itemIds hlocked).2
    rw [htenant, sum_openLayers htaken] at hshort
    have hrow := le_stockQty hs e.source.mem
    rw [e.source.warehouse, e.source.item, hi] at hrow
    have hlayers : layerQty e.taken e.input.warehouseId i = layerQty c.db e.input.warehouseId i :=
      layerQty_congr rfl
    have hcovers := e.source.covers
    have := activeQty_nonneg hs e.input.warehouseId i
    have := pendingQty_nonneg hs.pending e.input.warehouseId i
    linarith
  · have hb := h.balance r.warehouseId
    simp only [reservationIssue, hi] at hlocked hshort
    have htenant := (h.layered.locked hs.itemIds hlocked).2
    rw [htenant, sum_openLayers h.layered] at hshort
    rw [hpending, pendingQty_cons, hi, at_, if_pos ⟨rfl, rfl⟩] at hb
    have := activeQty_nonneg hs r.warehouseId i
    have := stockQty_nonneg hs r.warehouseId i
    have hrest : ∀ s ∈ rest, Claimed c.db s := fun s hmem =>
      hs.pending s (hpending ▸ List.mem_cons_of_mem r hmem)
    have := pendingQty_nonneg hrest r.warehouseId i
    linarith

end Cover

end Inventory
end ERP
