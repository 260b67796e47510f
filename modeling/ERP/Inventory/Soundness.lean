import ERP.Inventory.Entries

/-!
# What every entry keeps

The keys of the tables, the sign of the stock, and what an ACTIVE reservation is:
a positive quantity at a warehouse, not yet charged.
-/

namespace ERP
namespace Inventory

/-- A movement that took stock and has not been charged for it. -/
structure Outstanding (db : DB) (m : InventoryMovement) : Prop where
  quantity_pos : 0 < m.quantity
  warehouse : m.warehouseId ≠ none
  uncharged : ∀ a ∈ db.allocations, a.movementId ≠ m.id
  uncosted : m.totalCost = none
  taken : ∃ before, m.beforeQuantity = some before ∧ m.afterQuantity = some (before - m.quantity)

/-- The row of a reservation that was claimed: no longer ACTIVE, otherwise as it
was, and not charged. -/
structure Claimed (db : DB) (reservation : InventoryMovement) : Prop where
  row : ∃ m ∈ db.movements, m.id = reservation.id ∧
    m.referenceType ≠ some .orderReservation ∧
    m.inventoryItemId = reservation.inventoryItemId ∧
    m.warehouseId = reservation.warehouseId ∧ m.quantity = reservation.quantity ∧
    Outstanding db m

theorem Claimed.quantity_pos {db : DB} {r : InventoryMovement} (h : Claimed db r) :
    0 < r.quantity := by
  obtain ⟨m, _, _, _, _, _, hq, hout⟩ := h.row
  exact hq ▸ hout.quantity_pos

theorem Claimed.uncharged {db : DB} {r : InventoryMovement} (h : Claimed db r) :
    ∀ a ∈ db.allocations, a.movementId ≠ r.id := by
  obtain ⟨m, _, hid, _, _, _, _, hout⟩ := h.row
  exact hid ▸ hout.uncharged

structure Sound (c : Config) : Prop where
  stockIds : Lib.Keyed (·.id) c.db.nextId c.db.stocks
  movementIds : Lib.Keyed (·.id) c.db.nextId c.db.movements
  layerIds : Lib.Keyed (·.id) c.db.nextId c.db.layers
  allocationIds : Lib.Keyed (·.id) c.db.nextId c.db.allocations
  itemIds : Lib.Keyed (·.id) c.db.nextId c.db.items
  stockKey : c.db.stocks.Pairwise fun r s =>
    ¬ (r.warehouseId = s.warehouseId ∧ r.inventoryItemId = s.inventoryItemId)
  stock_nonneg : ∀ r ∈ c.db.stocks, 0 ≤ r.quantity
  allocated : ∀ a ∈ c.db.allocations, a.movementId < c.db.nextId
  active : ∀ m ∈ c.db.movements, m.referenceType = some .orderReservation → Outstanding c.db m
  pending : ∀ r ∈ c.pending, Claimed c.db r
  pendingIds : c.pending.Pairwise fun r s => r.id ≠ s.id
  lines : LinesSound c.db

namespace Sound

variable {stamp : Stamp} {A : Permit} {db db' : DB} {pending : List InventoryMovement}

theorem lines_mono (hl : LinesSound db) (ht : db'.transfers = db.transfers)
    (hn : db.nextId ≤ db'.nextId) : LinesSound db' :=
  ⟨ht ▸ hl.ids.mono hn, ht ▸ hl.bounds, ht ▸ hl.distinct⟩

theorem transfers_of_outside (h : db'.outside = db.outside) : db'.transfers = db.transfers := by
  have ht := congrArg DB.transfers h
  exact ht

/-- The row at a location is the only one there. -/
theorem stock_unique {c : Config} (h : Sound c) {r s : InventoryStock} (hr : r ∈ c.db.stocks)
    (hs : s ∈ c.db.stocks) (hw : r.warehouseId = s.warehouseId)
    (hi : r.inventoryItemId = s.inventoryItemId) : r = s := by
  have hkey : c.db.stocks.Pairwise fun r s =>
      r.warehouseId = s.warehouseId → r.inventoryItemId = s.inventoryItemId → r = s :=
    h.stockKey.imp fun hne hw hi => absurd ⟨hw, hi⟩ hne
  have hflip : c.db.stocks.Pairwise (flip fun r s : InventoryStock =>
      r.warehouseId = s.warehouseId → r.inventoryItemId = s.inventoryItemId → r = s) :=
    h.stockKey.imp fun hne hw hi => absurd ⟨hw.symm, hi.symm⟩ hne
  exact List.Pairwise.forall_of_forall_of_flip (fun _ _ _ _ => rfl) hkey hflip hr hs hw hi

theorem stockAt_of_mem {c : Config} (h : Sound c) {row : InventoryStock}
    (hrow : row ∈ c.db.stocks) :
    c.db.stockAt row.warehouseId row.inventoryItemId = some row := by
  unfold DB.stockAt
  have hsome : (c.db.stocks.find? fun s => s.warehouseId = row.warehouseId ∧
      s.inventoryItemId = row.inventoryItemId).isSome :=
    List.find?_isSome.mpr ⟨row, hrow, by simp⟩
  obtain ⟨s, hs⟩ := Option.isSome_iff_exists.mp hsome
  have hkey := List.find?_some hs
  simp only [decide_eq_true_eq] at hkey
  rw [hs, h.stock_unique (List.mem_of_find?_eq_some hs) hrow hkey.1 hkey.2]

theorem mem_of_stockAt {w : Option Id} {i : Id} {row : InventoryStock}
    (h : db.stockAt w i = some row) :
    row ∈ db.stocks ∧ row.warehouseId = w ∧ row.inventoryItemId = i := by
  have hkey := List.find?_some h
  simp only [decide_eq_true_eq] at hkey
  exact ⟨List.mem_of_find?_eq_some h, hkey⟩

theorem isSome_stockAt_addStock (db : DB) (w : Option Id) (i : Id) (q : ℚ)
    (m : InventoryMovement) : (((db.addStock w i q).record m).stockAt w i).isSome := by
  change (List.find? _ (db.addStock w i q).stocks).isSome
  rw [List.find?_isSome]
  unfold DB.addStock
  cases hat : db.stockAt w i with
  | some row =>
      obtain ⟨hmem, hw, hi⟩ := mem_of_stockAt hat
      exact ⟨_, List.mem_map.mpr ⟨row, hmem, if_pos rfl⟩, by simp [hw, hi]⟩
  | none => exact ⟨_, List.mem_append_right _ (List.mem_singleton.mpr rfl), by simp⟩

theorem not_mem_of_stockAt {w : Option Id} {i : Id} (h : db.stockAt w i = none) :
    ∀ row ∈ db.stocks, ¬ (row.warehouseId = w ∧ row.inventoryItemId = i) := by
  intro row hrow hkey
  have := List.find?_eq_none.mp h row hrow
  simp only [decide_eq_true_eq] at this
  exact this hkey

theorem outstanding_congr {m : InventoryMovement} (h : Outstanding db m)
    (halloc : db'.allocations = db.allocations) : Outstanding db' m :=
  ⟨h.quantity_pos, h.warehouse, halloc ▸ h.uncharged, h.uncosted, h.taken⟩

theorem claimed_mono {r : InventoryMovement} (h : Claimed db r)
    (hmov : ∀ m ∈ db.movements, m ∈ db'.movements) (halloc : db'.allocations = db.allocations) :
    Claimed db' r := by
  obtain ⟨m, hm, hid, href, hi, hw, hq, hout⟩ := h.row
  exact ⟨m, hmov m hm, hid, href, hi, hw, hq, outstanding_congr hout halloc⟩

theorem sameLedger (h : Sound ⟨db, pending⟩) (hsame : SameLedger db db')
    (hlines : LinesSound db → LinesSound db') : Sound ⟨db', pending⟩ where
  stockIds := by simpa [hsame.stocks] using h.stockIds.mono hsame.nextId
  movementIds := by simpa [hsame.movements] using h.movementIds.mono hsame.nextId
  layerIds := by simpa [hsame.layers] using h.layerIds.mono hsame.nextId
  allocationIds := by simpa [hsame.allocations] using h.allocationIds.mono hsame.nextId
  itemIds := by simpa [hsame.items] using h.itemIds.mono hsame.nextId
  stockKey := by simpa [hsame.stocks] using h.stockKey
  stock_nonneg := by simpa [hsame.stocks] using h.stock_nonneg
  allocated := by
    intro a ha
    rw [hsame.allocations] at ha
    exact Nat.lt_of_lt_of_le (h.allocated a ha) hsame.nextId
  active := by
    intro m hm href
    rw [hsame.movements] at hm
    exact outstanding_congr (h.active m hm href) hsame.allocations
  pending := fun r hr => claimed_mono (h.pending r hr) (fun m hm => hsame.movements ▸ hm)
    hsame.allocations
  pendingIds := h.pendingIds
  lines := hlines h.lines

/-- A change of one stock row that keeps its key and leaves it non-negative. -/
theorem updateStock (h : Sound ⟨db, pending⟩) {id : Id} {f : InventoryStock → InventoryStock}
    (hkey : ∀ r, (f r).id = r.id ∧ (f r).warehouseId = r.warehouseId ∧
      (f r).inventoryItemId = r.inventoryItemId)
    (hpos : ∀ r ∈ db.stocks, r.id = id → 0 ≤ (f r).quantity) :
    Sound ⟨db.updateStock id f, pending⟩ where
  stockIds := by
    refine h.stockIds.map fun r _ => ?_
    split
    · exact (hkey r).1
    · rfl
  movementIds := h.movementIds
  layerIds := h.layerIds
  allocationIds := h.allocationIds
  itemIds := h.itemIds
  stockKey := by
    refine List.pairwise_map.mpr (h.stockKey.imp fun {r s} hrs => ?_)
    have hr : ∀ t : InventoryStock, (if t.id = id then f t else t).warehouseId = t.warehouseId ∧
        (if t.id = id then f t else t).inventoryItemId = t.inventoryItemId := by
      intro t
      split
      · exact (hkey t).2
      · exact ⟨rfl, rfl⟩
    rw [(hr r).1, (hr r).2, (hr s).1, (hr s).2]
    exact hrs
  stock_nonneg := by
    intro r hr
    obtain ⟨s, hs, rfl⟩ := List.mem_map.mp hr
    split
    · exact hpos s hs ‹_›
    · exact h.stock_nonneg s hs
  allocated := h.allocated
  active := fun m hm href => outstanding_congr (h.active m hm href) rfl
  pending := fun r hr => claimed_mono (h.pending r hr) (fun _ hm => hm) rfl
  pendingIds := h.pendingIds
  lines := lines_mono h.lines rfl (le_refl _)

theorem insertStock (h : Sound ⟨db, pending⟩) {row : InventoryStock} (hid : row.id = db.nextId)
    (hkey : ∀ r ∈ db.stocks,
      ¬ (r.warehouseId = row.warehouseId ∧ r.inventoryItemId = row.inventoryItemId))
    (hpos : 0 ≤ row.quantity) : Sound ⟨db.takeId.insertStock row, pending⟩ where
  stockIds := h.stockIds.append hid
  movementIds := h.movementIds.mono (Nat.le_succ _)
  layerIds := h.layerIds.mono (Nat.le_succ _)
  allocationIds := h.allocationIds.mono (Nat.le_succ _)
  itemIds := h.itemIds.mono (Nat.le_succ _)
  stockKey := by
    refine List.pairwise_append.mpr ⟨h.stockKey, List.pairwise_singleton _ _, ?_⟩
    intro r hr s hs
    rw [List.mem_singleton] at hs
    exact hs ▸ hkey r hr
  stock_nonneg := by
    intro r hr
    rcases List.mem_append.mp hr with hr | hr
    · exact h.stock_nonneg r hr
    · rw [List.mem_singleton] at hr
      exact hr ▸ hpos
  allocated := fun a ha => Nat.lt_succ_of_lt (h.allocated a ha)
  active := fun m hm href => outstanding_congr (h.active m hm href) rfl
  pending := fun r hr => claimed_mono (h.pending r hr) (fun _ hm => hm) rfl
  pendingIds := h.pendingIds
  lines := lines_mono h.lines rfl (Nat.le_succ _)

theorem addStock (h : Sound ⟨db, pending⟩) {w : Option Id} {i : Id} {q : ℚ} (hq : 0 ≤ q) :
    Sound ⟨db.addStock w i q, pending⟩ := by
  unfold DB.addStock
  cases hat : db.stockAt w i with
  | some row =>
      refine h.updateStock (fun r => ⟨rfl, rfl, rfl⟩) fun r hr _ => ?_
      exact add_nonneg (h.stock_nonneg r hr) hq
  | none => exact h.insertStock rfl (not_mem_of_stockAt hat) hq

theorem takeStock (h : Sound ⟨db, pending⟩) {row : InventoryStock} {w : Option Id} {i : Id}
    {q : ℚ} (hsource : Source db row w i q) : Sound ⟨db.shiftStock row.id (-q), pending⟩ := by
  refine h.updateStock (fun r => ⟨rfl, rfl, rfl⟩) fun r hr hid => ?_
  have hrow : r = row := h.stockIds.eq_of_key hr hsource.mem hid
  have := hsource.covers
  rw [hrow]
  change 0 ≤ row.quantity + -q
  linarith

theorem record (h : Sound ⟨db, pending⟩) {m : InventoryMovement} (hid : m.id = db.nextId)
    (hactive : m.referenceType = some .orderReservation → 0 < m.quantity ∧ m.warehouseId ≠ none ∧
      m.totalCost = none ∧ ∃ before, m.beforeQuantity = some before ∧
        m.afterQuantity = some (before - m.quantity)) :
    Sound ⟨db.record m, pending⟩ where
  stockIds := h.stockIds.mono (Nat.le_succ _)
  movementIds := h.movementIds.append hid
  layerIds := h.layerIds.mono (Nat.le_succ _)
  allocationIds := h.allocationIds.mono (Nat.le_succ _)
  itemIds := h.itemIds.mono (Nat.le_succ _)
  stockKey := h.stockKey
  stock_nonneg := h.stock_nonneg
  allocated := fun a ha => Nat.lt_succ_of_lt (h.allocated a ha)
  active := by
    intro r hr href
    rcases List.mem_append.mp hr with hr | hr
    · exact outstanding_congr (h.active r hr href) rfl
    · rw [List.mem_singleton] at hr
      rw [hr] at href ⊢
      obtain ⟨hpos, hw, hcost, htaken⟩ := hactive href
      refine ⟨hpos, hw, fun a ha => ?_, hcost, htaken⟩
      rw [hid]
      exact Nat.ne_of_lt (h.allocated a ha)
  pending := fun r hr =>
    claimed_mono (h.pending r hr) (fun m hm => List.mem_append_left _ hm) rfl
  pendingIds := h.pendingIds
  lines := lines_mono h.lines rfl (Nat.le_succ _)

/-- Costing another movement leaves an outstanding one as it is. -/
theorem outstanding_costed {movementId : Id} {m : InventoryMovement} (h : Outstanding db m)
    (hc : Costed movementId db db') (hne : m.id ≠ movementId) : Outstanding db' m := by
  obtain ⟨as, halloc, hasmov⟩ := hc.allocations
  refine ⟨h.quantity_pos, h.warehouse, fun a ha => ?_, h.uncosted, h.taken⟩
  rw [halloc] at ha
  rcases List.mem_append.mp ha with ha | ha
  · exact h.uncharged a ha
  · rw [hasmov a ha]
    exact hne.symm

theorem mem_costed {movementId : Id} {m : InventoryMovement} (hm : m ∈ db.movements)
    (hc : Costed movementId db db') (hne : m.id ≠ movementId) : m ∈ db'.movements := by
  obtain ⟨u, t, hmov⟩ := hc.movements
  rw [hmov]
  exact List.mem_map.mpr ⟨m, hm, if_neg hne⟩

/-- Costing a movement that is neither ACTIVE nor waiting to be settled. -/
theorem costed {movementId : Id} (h : Sound ⟨db, pending⟩) (hc : Costed movementId db db')
    (hlt : movementId < db.nextId)
    (hactive : ∀ m ∈ db.movements, m.id = movementId →
      m.referenceType ≠ some .orderReservation)
    (hpending : ∀ r ∈ pending, r.id ≠ movementId) : Sound ⟨db', pending⟩ := by
  obtain ⟨u, t, hmov⟩ := hc.movements
  obtain ⟨f, hf, hstocks⟩ := hc.stocks
  obtain ⟨g, hg, hitems⟩ := hc.items
  obtain ⟨as, halloc, hasmov⟩ := hc.allocations
  exact
    { stockIds := by
        simpa [hstocks] using (h.stockIds.map fun r _ => (hf r).id).mono hc.nextId
      movementIds := by
        rw [hmov]
        refine (h.movementIds.map fun m _ => ?_).mono hc.nextId
        split <;> rfl
      layerIds := hc.layerIds h.layerIds
      allocationIds := hc.allocationIds h.allocationIds
      itemIds := by simpa [hitems] using (h.itemIds.map fun r _ => (hg r).id).mono hc.nextId
      stockKey := by
        change db'.stocks.Pairwise _
        rw [hstocks]
        refine List.pairwise_map.mpr (h.stockKey.imp fun {r s} hrs => ?_)
        rw [(hf r).warehouse, (hf r).item, (hf s).warehouse, (hf s).item]
        exact hrs
      stock_nonneg := by
        intro r hr
        change r ∈ db'.stocks at hr
        rw [hstocks] at hr
        obtain ⟨s, hs, rfl⟩ := List.mem_map.mp hr
        rw [(hf s).quantity]
        exact h.stock_nonneg s hs
      allocated := by
        intro a ha
        change a ∈ db'.allocations at ha
        rw [halloc] at ha
        refine Nat.lt_of_lt_of_le ?_ hc.nextId
        rcases List.mem_append.mp ha with ha | ha
        · exact h.allocated a ha
        · exact (hasmov a ha) ▸ hlt
      active := by
        intro r hr href
        change r ∈ db'.movements at hr
        rw [hmov] at hr
        obtain ⟨m, hm, hmr⟩ := List.mem_map.mp hr
        by_cases hid : m.id = movementId
        · rw [if_pos hid] at hmr
          rw [← hmr] at href
          exact absurd href (hactive m hm hid)
        · rw [if_neg hid] at hmr
          rw [← hmr] at href ⊢
          exact outstanding_costed (h.active m hm href) hc hid
      pending := by
        intro r hr
        obtain ⟨m, hm, hid, href, hitem, hw, hq, hout⟩ := (h.pending r hr).row
        have hne : m.id ≠ movementId := hid ▸ hpending r hr
        exact ⟨m, mem_costed hm hc hne, hid, href, hitem, hw, hq,
          outstanding_costed hout hc hne⟩
      pendingIds := h.pendingIds
      lines := lines_mono h.lines (transfers_of_outside hc.outside) hc.nextId }

theorem claim (h : Sound ⟨db, []⟩) (e : ClaimEntry db) :
    Sound ⟨db.updateMovements e.p e.f, db.movements.filter e.p⟩ := by
  have hclaimed : ∀ m, Outstanding db m → Outstanding (db.updateMovements e.p e.f) (e.f m) := by
    intro m hout
    obtain ⟨ref, type, hf⟩ := e.same m
    rw [hf]
    exact ⟨hout.quantity_pos, hout.warehouse, hout.uncharged, hout.uncosted, hout.taken⟩
  exact
    { stockIds := h.stockIds
      movementIds := h.movementIds.map fun m _ => by
        obtain ⟨ref, type, hf⟩ := e.same m
        split
        · rw [hf]
        · rfl
      layerIds := h.layerIds
      allocationIds := h.allocationIds
      itemIds := h.itemIds
      stockKey := h.stockKey
      stock_nonneg := h.stock_nonneg
      allocated := h.allocated
      active := by
        intro r hr href
        obtain ⟨m, hm, rfl⟩ := List.mem_map.mp hr
        by_cases hp : e.p m = true
        · rw [if_pos hp] at href
          exact absurd href (e.claimed m).1
        · rw [if_neg hp] at href ⊢
          exact outstanding_congr (h.active m hm href) rfl
      pending := by
        intro r hr
        obtain ⟨hmem, hp⟩ := List.mem_filter.mp hr
        have hout := h.active r hmem (e.active r hmem hp)
        refine ⟨e.f r, List.mem_map.mpr ⟨r, hmem, if_pos hp⟩, ?_⟩
        have hout' := hclaimed r hout
        obtain ⟨ref, type, hf⟩ := e.same r
        have href := (e.claimed r).1
        rw [hf] at href hout' ⊢
        exact ⟨rfl, href, rfl, rfl, rfl, hout'⟩
      pendingIds :=
        (h.movementIds.sorted.filter _).imp fun hlt => Nat.ne_of_lt hlt
      lines := lines_mono h.lines rfl (le_refl _) }

theorem tail {r : InventoryMovement} (h : Sound ⟨db, r :: pending⟩) : Sound ⟨db, pending⟩ :=
  { h with
    pending := fun s hs => h.pending s (List.mem_cons_of_mem r hs)
    pendingIds := (List.pairwise_cons.mp h.pendingIds).2 }

/-- A movement just recorded is neither ACTIVE nor waiting, so it can be costed. -/
theorem recorded_costed {m : InventoryMovement} {movementId : Id} (h : Sound ⟨db, pending⟩)
    (hid : m.id = db.nextId) (hmov : movementId = m.id)
    (hkind : m.referenceType ≠ some .orderReservation)
    (hc : Costed movementId (db.record m) db') : Sound ⟨db', pending⟩ := by
  refine (h.record hid fun href => absurd href hkind).costed hc ?_ ?_ ?_
  · rw [hmov, hid]
    exact Nat.lt_succ_self _
  · intro s hs hsid
    rcases List.mem_append.mp hs with hs | hs
    · exact absurd (hsid.trans (hmov.trans hid)) (h.movementIds.key_ne hs)
    · rw [List.mem_singleton] at hs
      exact hs ▸ hkind
  · intro r hr hrid
    obtain ⟨s, hs, hsid, _⟩ := (h.pending r hr).row
    exact h.movementIds.key_ne hs (hsid.trans (hrid.trans (hmov.trans hid)))

theorem step {c c' : Config} (h : Sound c) (hstep : Step stamp A c c') : Sound c' := by
  cases hstep with
  | elsewhere hsame ht =>
      exact h.sameLedger hsame fun hl => lines_mono hl ht.transfers hsame.nextId
  | transfers hA hsame hlines => exact h.sameLedger hsame hlines
  | receive e =>
      refine (h.addStock (le_of_lt e.quantity_pos)).recorded_costed e.written.id e.movementId ?_
        e.received.costed
      rcases e.kind with hk | hk <;> rw [hk] <;> decide
  | issue e hissued =>
      refine (h.takeStock e.source).recorded_costed e.written.id e.movementId ?_ hissued.costed
      rcases e.kind with hk | hk | hk <;> rw [hk] <;> decide
  | note hkind howned hw =>
      refine h.record hw.id fun href => ?_
      rw [hkind] at href
      exact absurd href (by decide)
  | transferIn e =>
      refine (h.addStock e.quantity_nonneg).recorded_costed e.written.id e.movementId ?_
        e.received.costed
      rw [e.kind]
      decide
  | reserve e =>
      refine (h.takeStock e.source).record e.written.id fun _ => ?_
      rw [e.movementQuantity, e.written.warehouse]
      exact ⟨e.quantity_pos, e.warehouse, e.written.totalCost, _, e.written.before,
        e.written.after⟩
  | claim e => exact h.claim e
  | @restore db r rest e hA =>
      have hr := h.pending r List.mem_cons_self
      refine ((h.addStock (le_of_lt hr.quantity_pos)).record e.written.id fun href => ?_).tail
      rw [e.kind] at href
      exact absurd href (by decide)
  | @cost db db' r rest tenantId hA hissued =>
      obtain ⟨m, hm, hid, hkind, _⟩ := (h.pending r List.mem_cons_self).row
      refine h.tail.costed hissued.costed ?_ ?_ ?_
      · change r.id < db.nextId
        rw [← hid]
        exact h.movementIds.lt m hm
      · intro s hs hsid
        rw [h.movementIds.eq_of_key hs hm (hsid.trans hid.symm)]
        exact hkind
      · exact fun s hs => ((List.pairwise_cons.mp h.pendingIds).1 s hs).symm

theorem run {c c' : Config} (h : Sound c) (hrun : Run stamp A c c') : Sound c' := by
  induction hrun with
  | refl => exact h
  | tail _ hstep ih => exact ih.step hstep

end Sound

end Inventory
end ERP
