import ERP.Inventory.Quantities
import ERP.Lib.Chain

/-!
# The trail of the stock

Every movement records the stock it found and the stock it left.  An entry that
changes a stock row inserts such a movement and no other entry touches what was
recorded, so the records of an item at a location form a chain that ends at the
stock there is.
-/

namespace ERP
namespace Inventory

/-- The stock a movement found and the stock it left. -/
def recorded (m : InventoryMovement) : Option ℚ × Option ℚ :=
  (m.beforeQuantity, m.afterQuantity)

/-- The movements of an item at a location, oldest first. -/
def movementsAt (db : DB) (w : Option Id) (i : Id) : List InventoryMovement :=
  db.movements.filter fun m => m.warehouseId = w ∧ m.inventoryItemId = i

/-- What the movements of an item at a location recorded, oldest first. -/
def trail (db : DB) (w : Option Id) (i : Id) : List (Option ℚ × Option ℚ) :=
  (movementsAt db w i).map recorded

/-- Records without gaps: the first found `start`, each next what the one before it
left, and the last left `stop`; none left less than nothing. -/
def Linked (start : ℚ) (records : List (Option ℚ × Option ℚ)) (stop : ℚ) : Prop :=
  ∃ entries : List (ℚ × ℚ), records = entries.map (fun e => (some e.1, some e.2)) ∧
    Lib.Contiguous Prod.fst Prod.snd start entries stop ∧ ∀ e ∈ entries, 0 ≤ e.2

section Linked

variable {start middle stop : ℚ} {xs ys : List (Option ℚ × Option ℚ)}

theorem Linked.refl (q : ℚ) : Linked q [] q := ⟨[], rfl, rfl, by simp⟩

theorem Linked.single {r : ℚ} (q : ℚ) (hr : 0 ≤ r) : Linked q [(some q, some r)] r :=
  ⟨[(q, r)], rfl, ⟨rfl, rfl⟩, by simpa using hr⟩

theorem Linked.append (h : Linked start xs middle) (h' : Linked middle ys stop) :
    Linked start (xs ++ ys) stop := by
  obtain ⟨es, rfl, hes, hnonneg⟩ := h
  obtain ⟨fs, rfl, hfs, hnonneg'⟩ := h'
  refine ⟨es ++ fs, (List.map_append ..).symm, Lib.contiguous_append.mpr ⟨middle, hes, hfs⟩,
    fun e he => ?_⟩
  rcases List.mem_append.mp he with he | he
  · exact hnonneg e he
  · exact hnonneg' e he

theorem Linked.split (h : Linked start (xs ++ ys) stop) :
    ∃ middle, Linked start xs middle ∧ Linked middle ys stop := by
  obtain ⟨es, hsplit, hes, hnonneg⟩ := h
  obtain ⟨front, back, rfl, hfront, hback⟩ := List.map_eq_append_iff.mp hsplit.symm
  obtain ⟨middle, hxs, hys⟩ := Lib.contiguous_append.mp hes
  exact ⟨middle,
    ⟨front, hfront.symm, hxs, fun e he => hnonneg e (List.mem_append_left _ he)⟩,
    back, hback.symm, hys, fun e he => hnonneg e (List.mem_append_right _ he)⟩

theorem Linked.eq (h : Linked start [] stop) : start = stop := by
  obtain ⟨entries, hentries, hchain, -⟩ := h
  rw [List.map_eq_nil_iff.mp hentries.symm] at hchain
  exact hchain

/-- The first record found what the chain starts with. -/
theorem Linked.first {x : Option ℚ × Option ℚ} (h : Linked start (x :: xs) stop) :
    ∃ next, (x = (some start, some next) ∧ 0 ≤ next) ∧ Linked next xs stop := by
  obtain ⟨entries, hentries, hchain, hnonneg⟩ := h
  obtain ⟨e, rest, rfl, rfl, rfl⟩ := List.map_eq_cons_iff.mp hentries.symm
  obtain ⟨hstart, hrest⟩ := hchain
  refine ⟨e.2, ⟨by rw [← hstart], hnonneg e List.mem_cons_self⟩, rest, rfl, hrest,
    fun f hf => hnonneg f (List.mem_cons_of_mem e hf)⟩

end Linked

/-- A movement of a transfer. -/
def IsTransfer (m : InventoryMovement) : Prop :=
  m.referenceType = some .warehouseTransferShipment ∨
    m.referenceType = some .warehouseTransferReceipt

instance : DecidablePred IsTransfer := fun _ => inferInstanceAs (Decidable (_ ∨ _))

/-- What a change of the cost or the kind of a movement leaves of it. -/
structure SameRecord (m n : InventoryMovement) : Prop where
  warehouse : n.warehouseId = m.warehouseId
  item : n.inventoryItemId = m.inventoryItemId
  recorded : recorded n = recorded m
  quantity : n.quantity = m.quantity
  reference : n.referenceId = m.referenceId
  transfer : IsTransfer n ∨ IsTransfer m → n.referenceType = m.referenceType

/-- What an entry does to the stock and to its records: nothing to either, or one movement
records what happens to the stock at its own place. -/
inductive Moves (A : Permit) (db db' : DB) : Prop
  | none {f} (hf : ∀ m ∈ db.movements, SameRecord m (f m))
      (hmov : db'.movements = db.movements.map f)
      (hstock : ∀ w i, stockQty db' w i = stockQty db w i)
      (hhand : ∀ i, onHand db' i = onHand db i)
  | one {m w i q} (hmov : db'.movements = db.movements ++ [m]) (hw : m.warehouseId = w)
      (hi : m.inventoryItemId = i) (hbefore : m.beforeQuantity = some (stockQty db w i))
      (hafter : m.afterQuantity = some (stockQty db w i + q)) (hkind : IsTransfer m → A.transfer)
      (hstock : ∀ w' i', stockQty db' w' i' = stockQty db w' i' + at_ w w' i i' q)
      (hhand : ∀ i', onHand db' i' = onHand db i' + if i = i' then q else 0)

section Moves

variable {stamp : Stamp} {A : Permit} {c c' : Config} {db db' : DB}
  {pending : List InventoryMovement} {w : Option Id} {i n : Id} {q : ℚ}

theorem SameRecord.refl (m : InventoryMovement) : SameRecord m m :=
  ⟨rfl, rfl, rfl, rfl, rfl, fun _ => rfl⟩

theorem onHand_eq (db : DB) (i : Id) : onHand db i =
    (db.stocks.map fun r => if r.inventoryItemId = i then r.quantity else 0).sum :=
  Lib.sum_filter_eq db.stocks (fun r => r.inventoryItemId = i) (·.quantity)

theorem onHand_congr (h : db'.stocks = db.stocks) : onHand db' i = onHand db i := by
  unfold onHand
  rw [h]

theorem onHand_shift (hk : Lib.Keyed (·.id) n db.stocks) {row : InventoryStock}
    (hrow : row ∈ db.stocks) (i : Id) : onHand (db.shiftStock row.id q) i =
      onHand db i + if row.inventoryItemId = i then q else 0 := by
  rw [onHand_eq, onHand_eq]
  unfold DB.shiftStock DB.updateStock
  rw [hk.sum_update hrow (fun r => { r with quantity := r.quantity + q })]
  by_cases hi : row.inventoryItemId = i
  · simp [hi]
  · simp [hi]

theorem onHand_add (hk : Lib.Keyed (·.id) n db.stocks) (w : Option Id) (i i' : Id) (q : ℚ) :
    onHand (db.addStock w i q) i' = onHand db i' + if i = i' then q else 0 := by
  unfold DB.addStock
  cases hat : db.stockAt w i with
  | some row =>
      obtain ⟨hmem, -, rfl⟩ := Sound.mem_of_stockAt hat
      exact onHand_shift hk hmem i'
  | none =>
      rw [onHand_eq, onHand_eq]
      simp only [DB.insertStock, DB.takeId, List.map_append, List.sum_append, List.map_cons,
        List.map_nil, List.sum_cons, List.sum_nil, add_zero]

theorem onHand_costed {movementId : Id} (h : Costed movementId db db') :
    onHand db' i = onHand db i := by
  obtain ⟨f, hf, hstocks⟩ := h.stocks
  rw [onHand_eq, onHand_eq, hstocks, List.map_map]
  refine congrArg List.sum (List.map_congr_left fun r _ => ?_)
  simp only [Function.comp, (hf r).item, (hf r).quantity]

/-- The row of an item at a location holds all of its stock there. -/
theorem stockQty_row (hs : Sound ⟨db, pending⟩) {row : InventoryStock} (hrow : row ∈ db.stocks) :
    stockQty db row.warehouseId row.inventoryItemId = row.quantity := by
  have hshift := stockQty_shift hs hrow (w := row.warehouseId) (i := row.inventoryItemId)
    (q := -row.quantity)
  rw [at_, if_pos ⟨rfl, rfl⟩] at hshift
  -- once the row is emptied nothing is left at its place
  have hzero : stockQty (db.shiftStock row.id (-row.quantity)) row.warehouseId
      row.inventoryItemId = 0 := by
    refine List.sum_eq_zero fun x hx => ?_
    obtain ⟨s, hsmem, rfl⟩ := List.mem_map.mp hx
    obtain ⟨r, hr, rfl⟩ := List.mem_map.mp hsmem
    by_cases hid : r.id = row.id
    · rw [hs.stockIds.eq_of_key hr hrow hid, if_pos rfl]
      simp
    · rw [if_neg hid]
      exact if_neg fun hkey => hid (by rw [hs.stock_unique hr hrow hkey.1 hkey.2])
  linarith

theorem stockBefore_eq (hs : Sound ⟨db, pending⟩) (w : Option Id) (i : Id) :
    db.stockBefore w i = stockQty db w i := by
  unfold DB.stockBefore
  cases hat : db.stockAt w i with
  | some row =>
      obtain ⟨hmem, rfl, rfl⟩ := Sound.mem_of_stockAt hat
      exact (stockQty_row hs hmem).symm
  | none =>
      have hnone := Sound.not_mem_of_stockAt hat
      refine (List.sum_eq_zero fun x hx => ?_).symm
      obtain ⟨r, hr, rfl⟩ := List.mem_map.mp hx
      exact if_neg (hnone r hr)

/-- Stock comes in behind a movement that is costed afterwards. -/
theorem Moves.added {m : InventoryMovement} {movementId tenantId : Id}
    (hs : Sound ⟨db, pending⟩) (hq : 0 ≤ q)
    (hw : Written m (db.addStock w i q).nextId tenantId w i (db.stockBefore w i)
      (db.stockBefore w i + q)) (hid : movementId = m.id)
    (hcosted : Costed movementId ((db.addStock w i q).record m) db')
    (hkind : IsTransfer m → A.transfer) : Moves A db db' := by
  have hkeys := (hs.addStock (w := w) (i := i) hq).movementIds
  obtain ⟨unitCost, totalCost, hmov⟩ := hcosted.recorded hid (hw.id ▸ hkeys)
  rw [DB.addStock_movements] at hmov
  refine .one (q := q) hmov hw.warehouse hw.item ?_ ?_ hkind (fun w' i' => ?_) fun i' => ?_
  · exact hw.before.trans (by rw [stockBefore_eq hs])
  · exact hw.after.trans (by rw [stockBefore_eq hs])
  · rw [stockQty_costed hcosted]
    exact stockQty_add hs w' i' w i q
  · rw [onHand_costed hcosted]
    exact onHand_add hs.stockIds w i i' q

theorem Step.moves (hs : Sound c) (h : Step stamp A c c') : Moves A c.db c'.db := by
  cases h with
  | elsewhere hsame _ =>
      exact .none (f := id) (fun m _ => .refl m) (hsame.movements.trans (List.map_id _).symm)
        (fun _ _ => stockQty_congr hsame.stocks) fun _ => onHand_congr hsame.stocks
  | transfers _ hsame _ =>
      exact .none (f := id) (fun m _ => .refl m) (hsame.movements.trans (List.map_id _).symm)
        (fun _ _ => stockQty_congr hsame.stocks) fun _ => onHand_congr hsame.stocks
  | receive e _ =>
      refine .added hs e.quantity_pos.le e.written e.movementId e.received.costed fun hkind => ?_
      unfold IsTransfer at hkind
      rcases e.kind with hk | hk <;> rw [hk] at hkind <;> exact absurd hkind (by decide)
  | @issue db db' pending e hissued _ hship =>
      have hcosted : Costed e.input.movementId
          ((db.shiftStock e.row.id (-e.input.quantity)).record e.movement) db' := hissued.costed
      have hkeys := (hs.takeStock e.source).movementIds
      obtain ⟨unitCost, totalCost, hmov⟩ := hcosted.recorded e.movementId (e.written.id ▸ hkeys)
      have hrow := stockQty_row hs e.source.mem
      rw [e.source.warehouse, e.source.item] at hrow
      refine .one (q := -e.input.quantity) hmov e.written.warehouse e.written.item ?_ ?_
        (fun hkind => ?_) (fun w i => ?_) fun i => ?_
      · exact e.written.before.trans (by rw [hrow])
      · exact e.written.after.trans (by rw [hrow, sub_eq_add_neg])
      · rcases hkind with hk | hk
        · exact hship hk
        · rcases e.kind with hk' | hk' | hk' <;> exact absurd (hk.symm.trans hk') (by decide)
      · rw [stockQty_costed hcosted, ← e.source.warehouse, ← e.source.item]
        exact stockQty_shift hs e.source.mem
      · rw [onHand_costed hcosted, ← e.source.item]
        exact onHand_shift hs.stockIds e.source.mem i
  | @note db pending movement tenantId w i hkind _ hw =>
      refine .one (q := 0) (w := w) (i := i) rfl hw.warehouse hw.item ?_ ?_ (fun hk => ?_)
        (fun w' i' => ?_) fun i' => ?_
      · exact hw.before.trans (by rw [stockBefore_eq hs])
      · exact hw.after.trans (by rw [stockBefore_eq hs, add_zero])
      · unfold IsTransfer at hk
        rw [hkind] at hk
        exact absurd hk (by decide)
      · show stockQty db w' i' = _
        rw [at_, ite_self, add_zero]
      · show onHand db i' = _
        rw [ite_self, add_zero]
  | transferIn e hA _ =>
      exact .added hs e.quantity_nonneg e.written e.movementId e.received.costed fun _ => hA
  | reserve e _ =>
      have hrow := stockQty_row hs e.source.mem
      refine .one (q := -e.quantity) rfl e.written.warehouse e.written.item ?_ ?_ (fun hk => ?_)
        (fun w i => ?_) fun i => ?_
      · exact e.written.before.trans (by rw [hrow])
      · exact e.written.after.trans (by rw [hrow, sub_eq_add_neg])
      · unfold IsTransfer at hk
        rw [e.kind] at hk
        exact absurd hk (by decide)
      · exact stockQty_shift hs e.source.mem
      · exact onHand_shift hs.stockIds e.source.mem i
  | claim e _ =>
      refine .none (fun m hm => ?_) rfl (fun _ _ => rfl) fun _ => rfl
      by_cases hp : e.p m = true
      · rw [if_pos hp]
        obtain ⟨referenceType, type, hf⟩ := e.same m
        have hactive := e.active m hm hp
        refine ⟨by rw [hf], by rw [hf], by rw [hf]; rfl, by rw [hf], by rw [hf], fun hk => ?_⟩
        unfold IsTransfer at hk
        rw [hactive] at hk
        rcases hk with hk | hk
        · exact absurd hk (not_or.mpr (e.claimed m).2)
        · exact absurd hk (by decide)
      · rw [if_neg hp]
        exact .refl m
  | @restore db reservation rest e _ =>
      have hmov : ((db.addStock (some e.warehouseId) reservation.inventoryItemId
          reservation.quantity).record e.movement).movements = db.movements ++ [e.movement] :=
        congrArg (· ++ [e.movement]) (DB.addStock_movements _ _ _ _)
      refine .one (q := reservation.quantity) hmov e.written.warehouse e.written.item ?_ ?_
        (fun hk => ?_) (fun w i => ?_) fun i => ?_
      · exact e.written.before.trans (by rw [stockBefore_eq hs])
      · exact e.written.after.trans (by rw [stockBefore_eq hs])
      · unfold IsTransfer at hk
        rw [e.kind] at hk
        exact absurd hk (by decide)
      · exact stockQty_add hs _ _ _ _ _
      · exact onHand_add hs.stockIds _ _ i _
  | cost _ hissued =>
      obtain ⟨unitCost, totalCost, hmov⟩ := hissued.costed.movements
      refine .none (fun m _ => ?_) hmov (fun _ _ => stockQty_congr hissued.stocks)
        fun _ => onHand_congr hissued.stocks
      split <;> exact ⟨rfl, rfl, rfl, rfl, rfl, fun _ => rfl⟩

end Moves

/-- The records of every item at every location go on from the stock there was to the
stock there is. -/
def Continues (db db' : DB) : Prop :=
  ∀ w i, ∃ records, trail db' w i = trail db w i ++ records ∧
    Linked (stockQty db w i) records (stockQty db' w i)

section Continues

variable {A : Permit} {db db' db'' : DB} {w : Option Id} {i : Id}

theorem Continues.refl (db : DB) : Continues db db := fun w i =>
  ⟨[], (List.append_nil _).symm, .refl (stockQty db w i)⟩

theorem Continues.trans (h : Continues db db') (h' : Continues db' db'') : Continues db db'' := by
  intro w i
  obtain ⟨xs, hxs, hlinked⟩ := h w i
  obtain ⟨ys, hys, hlinked'⟩ := h' w i
  exact ⟨xs ++ ys, by rw [hys, hxs, List.append_assoc], hlinked.append hlinked'⟩

/-- A change of the movements that keeps where they are and what they recorded. -/
theorem trail_map {f : InventoryMovement → InventoryMovement}
    (hf : ∀ m ∈ db.movements, SameRecord m (f m)) (h : db'.movements = db.movements.map f) :
    trail db' w i = trail db w i := by
  unfold trail movementsAt
  rw [h, List.filter_map, List.map_map]
  have hkey : db.movements.filter ((fun m : InventoryMovement =>
      decide (m.warehouseId = w ∧ m.inventoryItemId = i)) ∘ f) =
      db.movements.filter fun m => decide (m.warehouseId = w ∧ m.inventoryItemId = i) := by
    refine List.filter_congr fun m hm => ?_
    simp only [Function.comp, (hf m hm).warehouse, (hf m hm).item]
  rw [hkey]
  exact List.map_congr_left fun m hm => (hf m (List.mem_filter.mp hm).1).recorded

/-- Records go on where nothing is recorded but what the stock does. -/
theorem Moves.continues (h : Moves A db db') (hnonneg : ∀ w i, 0 ≤ stockQty db' w i) :
    Continues db db' := by
  intro w i
  cases h with
  | none hf hmov hstock _ =>
      refine ⟨[], by rw [trail_map hf hmov, List.append_nil], ?_⟩
      rw [hstock]
      exact .refl (stockQty db w i)
  | @one m w' i' q hmov hw hi hbefore hafter _ hstock _ =>
      have htrail : trail db' w i = trail db w i ++
          ([m].filter fun m => m.warehouseId = w ∧ m.inventoryItemId = i).map recorded := by
        unfold trail movementsAt
        rw [hmov, List.filter_append, List.map_append]
      refine ⟨_, htrail, ?_⟩
      rw [hstock, at_]
      by_cases hkey : w' = w ∧ i' = i
      · obtain ⟨rfl, rfl⟩ := hkey
        have hleft := hnonneg w' i'
        rw [hstock, at_, if_pos ⟨rfl, rfl⟩] at hleft
        rw [List.filter_cons_of_pos (by simp [hw, hi])]
        simp only [List.filter_nil, List.map_cons, List.map_nil, recorded, hbefore, hafter,
          and_self, if_true]
        exact .single _ hleft
      · rw [List.filter_cons_of_neg (by simpa [hw, hi] using hkey), if_neg hkey, add_zero]
        exact .refl (stockQty db w i)

end Continues

section Runs

variable {stamp : Stamp} {A : Permit} {c c' : Config}

theorem Run.continues (hs : Sound c) (h : Run stamp A c c') : Continues c.db c'.db := by
  induction h with
  | refl => exact .refl _
  | tail hrun hstep ih =>
      have hs' := hs.run hrun
      exact ih.trans ((hstep.moves hs').continues (stockQty_nonneg (hs'.step hstep)))

end Runs

end Inventory
end ERP
