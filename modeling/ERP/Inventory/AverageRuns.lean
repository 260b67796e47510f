import ERP.Inventory.AverageInvariant

/-!
# The value of a moving-average item over runs

Setting stock aside, giving it back and charging it leave the value of the item
where it was, less what is charged.  So over a run only a receipt can put the
value off, and a receipt that revalues nothing that is held does not.
-/

namespace ERP
namespace Inventory

section Reservations

variable {stamp : Stamp} {A : Permit} {db db' : DB} {c c' : Config}
  {rest : List InventoryMovement} {r : InventoryMovement} {i t : Id} {s : MovingAverageScope}
  {w : Option Id}

/-- Stock set aside moves from its row to what is held beside it. -/
theorem Conserved.reserve {pending : List InventoryMovement}
    (hc : Conserved i t s ⟨db, pending⟩) (hs : Sound ⟨db, pending⟩) (e : ReserveEntry db) :
    Conserved i t s ⟨(db.shiftStock e.row.id (-e.quantity)).record e.movement, pending⟩ := by
  have hheld : ∀ w, held ⟨(db.shiftStock e.row.id (-e.quantity)).record e.movement, pending⟩ i w =
      held ⟨db, pending⟩ i w + at_ e.row.warehouseId w e.row.inventoryItemId i e.quantity := by
    intro w
    have hactive := activeQty_record (db.shiftStock e.row.id (-e.quantity)) e.movement w i
    rw [if_pos e.kind, e.written.warehouse, e.written.item, e.movementQuantity] at hactive
    have hsame : activeQty (db.shiftStock e.row.id (-e.quantity)) w i = activeQty db w i := rfl
    simp only [held, hactive, hsame]
    ring
  have hstock : ∀ w, stockQty ((db.shiftStock e.row.id (-e.quantity)).record e.movement) w i =
      stockQty db w i + at_ e.row.warehouseId w e.row.inventoryItemId i (-e.quantity) :=
    fun w => stockQty_shift hs e.source.mem
  have haverage : ∀ w, averageIn ((db.shiftStock e.row.id (-e.quantity)).record e.movement) s i w =
      averageIn db s i w := fun w => averageIn_shift
  have hcosts : receiptCost ((db.shiftStock e.row.id (-e.quantity)).record e.movement) i =
        receiptCost db i ∧
      issueCost ((db.shiftStock e.row.id (-e.quantity)).record e.movement) i = issueCost db i :=
    costs_record e.written.totalCost
  refine ⟨hc.item, ?_, fun w hw => ?_⟩
  · have hvalue := hc.value
    simp only [haverage] at hvalue ⊢
    rw [hcosts.1, hcosts.2, ← hvalue]
    refine (worth_shift hs e.source.mem).trans ?_
    by_cases hi : e.row.inventoryItemId = i
    · have hrow := worth_held hs e.source.mem rfl hi (q := e.quantity)
        (a := fun w => (averageIn db s i w).getD 0) (h := held ⟨db, pending⟩ i)
        (k := held ⟨(db.shiftStock e.row.id (-e.quantity)).record e.movement, pending⟩ i)
        fun w => by
          rw [hheld w, at_]
          simp only [hi, and_true, eq_comm]
      rw [hrow, if_pos hi]
      ring
    · rw [if_neg hi, add_zero]
      refine worth_congr fun r _ _ => ⟨rfl, ?_⟩
      rw [hheld, at_ne hi, add_zero]
  · simp only [haverage] at hw
    obtain ⟨hzero, hnone⟩ := hc.valued w hw
    have hout : ¬ (e.row.warehouseId = w ∧ e.row.inventoryItemId = i) := by
      rintro ⟨rfl, hi⟩
      have hle := le_stockQty hs e.source.mem
      rw [hi] at hle
      have := e.source.covers
      have := e.quantity_pos
      simp only at hzero
      linarith
    simp only at hzero hnone ⊢
    rw [hheld, hstock, hzero, hnone, at_, if_neg hout, at_, if_neg hout]
    exact ⟨add_zero 0, add_zero 0⟩

/-- What is claimed had no cost. -/
theorem claim_costs (hs : Sound ⟨db, []⟩) (e : ClaimEntry db) :
    receiptCost (db.updateMovements e.p e.f) i = receiptCost db i ∧
      issueCost (db.updateMovements e.p e.f) i = issueCost db i := by
  unfold receiptCost issueCost DB.updateMovements
  simp only [List.map_map]
  refine ⟨congrArg List.sum (List.map_congr_left fun m hm => ?_),
    congrArg List.sum (List.map_congr_left fun m hm => ?_)⟩ <;>
  · simp only [Function.comp]
    by_cases hp : e.p m = true
    · obtain ⟨ref, type, hf⟩ := e.same m
      have hnone := (hs.active m hm (e.active m hm hp)).uncosted
      rw [if_pos hp, hf]
      simp [hnone]
    · rw [if_neg hp]

/-- What is claimed is held as it was while it was ACTIVE. -/
theorem Conserved.claim (hc : Conserved i t s ⟨db, []⟩) (hs : Sound ⟨db, []⟩) (e : ClaimEntry db) :
    Conserved i t s ⟨db.updateMovements e.p e.f, db.movements.filter e.p⟩ := by
  have hheld : held ⟨db.updateMovements e.p e.f, db.movements.filter e.p⟩ i =
      held ⟨db, []⟩ i := by
    funext w
    have hactive := activeQty_claim (w := w) (i := i) e
    simp only [held, pendingQty, List.map_nil, List.sum_nil, add_zero] at hactive ⊢
    exact hactive
  have hcosts := claim_costs (i := i) hs e
  refine ⟨hc.item, ?_, fun w hw => ?_⟩
  · have hvalue := hc.value
    simp only at hvalue ⊢
    rw [hcosts.1, hcosts.2, hheld]
    exact hvalue
  · simp only [hheld]
    exact hc.valued w hw

theorem held_cons (r : InventoryMovement) (rest : List InventoryMovement) (w : Option Id) :
    held ⟨db, r :: rest⟩ i w =
      held ⟨db, rest⟩ i w + at_ r.warehouseId w r.inventoryItemId i r.quantity := by
  simp only [held, pendingQty_cons]
  ring

/-- What is held of an item without an average there is nothing to give back of. -/
theorem Conserved.averaged (hc : Conserved i t s ⟨db, r :: rest⟩) (hs : Sound ⟨db, r :: rest⟩)
    (hi : r.inventoryItemId = i) : averageIn db s i r.warehouseId ≠ none := by
  intro hnone
  have hheld := (hc.valued r.warehouseId hnone).2
  rw [held_cons, at_, if_pos ⟨rfl, hi⟩] at hheld
  have hq := (hs.pending r List.mem_cons_self).quantity_pos
  have hactive := activeQty_nonneg hs r.warehouseId i
  have hpending := pendingQty_nonneg (fun x hx => hs.pending x (List.mem_cons_of_mem r hx))
    r.warehouseId i
  simp only [held] at hheld
  simp only at hactive
  linarith

theorem Conserved.restore (hc : Conserved i t s ⟨db, r :: rest⟩) (hs : Sound ⟨db, r :: rest⟩)
    (hh : Housed i t ⟨db, r :: rest⟩) (e : RestoreEntry db r) :
    Conserved i t s ⟨(db.addStock (some e.warehouseId) r.inventoryItemId r.quantity).record
      e.movement, rest⟩ := by
  have hkind : e.movement.referenceType ≠ some .orderReservation := by
    rw [e.kind]
    decide
  have hheld : ∀ w, held ⟨(db.addStock (some e.warehouseId) r.inventoryItemId
      r.quantity).record e.movement, rest⟩ i w = held ⟨db, rest⟩ i w := by
    intro w
    have hactive : activeQty ((db.addStock (some e.warehouseId) r.inventoryItemId
        r.quantity).record e.movement) w i = activeQty db w i :=
      (activeQty_record_other hkind).trans (activeQty_congr (DB.addStock_movements db _ _ _))
    simp only [held, hactive]
  have haverage : ∀ w, averageIn ((db.addStock (some e.warehouseId) r.inventoryItemId
      r.quantity).record e.movement) s i w = averageIn db s i w := fun w => averageIn_add
  have hcosts : receiptCost ((db.addStock (some e.warehouseId) r.inventoryItemId
        r.quantity).record e.movement) i = receiptCost db i ∧
      issueCost ((db.addStock (some e.warehouseId) r.inventoryItemId
        r.quantity).record e.movement) i = issueCost db i := by
    rw [← receiptCost_congr (DB.addStock_movements db (some e.warehouseId) r.inventoryItemId
        r.quantity),
      ← issueCost_congr (DB.addStock_movements db (some e.warehouseId) r.inventoryItemId
        r.quantity)]
    exact costs_record e.written.totalCost
  have hstock : ∀ w, stockQty ((db.addStock (some e.warehouseId) r.inventoryItemId
      r.quantity).record e.movement) w i = stockQty db w i +
        at_ (some e.warehouseId) w r.inventoryItemId i r.quantity :=
    fun w => stockQty_add hs _ _ _ _ _
  have hnew : r.inventoryItemId = i → db.stockAt (some e.warehouseId) i = none →
      held ⟨(db.addStock (some e.warehouseId) r.inventoryItemId r.quantity).record e.movement,
        rest⟩ i (some e.warehouseId) = 0 := by
    intro hi hat
    obtain ⟨row, hrow, hw, hri⟩ := hh.pending r List.mem_cons_self hi
    exact absurd ⟨hw.trans e.warehouse, hri⟩ (Sound.not_mem_of_stockAt hat row hrow)
  refine ⟨?_, ?_, fun w hw => ?_⟩
  · exact hc.item.of_items ⟨id, SameItem.refl, by simp [DB.record, DB.insertMovement, DB.takeId]⟩
  · have hvalue := hc.value
    simp only [haverage] at hvalue ⊢
    rw [hcosts.1, hcosts.2, ← hvalue]
    refine (worth_add hs hnew).trans ?_
    by_cases hi : r.inventoryItemId = i
    · obtain ⟨row, hrow, hw, hri⟩ := hh.pending r List.mem_cons_self hi
      have hbefore := worth_held hs hrow (hw.trans e.warehouse) hri (q := r.quantity)
        (a := fun w => (averageIn db s i w).getD 0)
        (h := held ⟨(db.addStock (some e.warehouseId) r.inventoryItemId r.quantity).record
          e.movement, rest⟩ i)
        (k := held ⟨db, r :: rest⟩ i) fun w => by
          rw [held_cons, hheld w, e.warehouse, at_]
          simp only [hi, and_true, eq_comm]
      rw [hbefore, if_pos hi]
    · rw [if_neg hi, add_zero]
      refine worth_congr fun x _ _ => ⟨rfl, ?_⟩
      rw [hheld, held_cons, at_ne hi, add_zero]
  · simp only [haverage] at hw
    have hout : ¬ (some e.warehouseId = w ∧ r.inventoryItemId = i) := by
      rintro ⟨rfl, hi⟩
      exact hc.averaged hs hi (e.warehouse ▸ hw)
    obtain ⟨hzero, hnone⟩ := hc.valued w hw
    rw [held_cons, e.warehouse, at_, if_neg hout, add_zero] at hnone
    simp only at hzero ⊢
    rw [hheld, hstock, hzero, hnone, at_, if_neg hout]
    exact ⟨add_zero 0, rfl⟩

theorem Conserved.cost {tenantId : Id} (hc : Conserved i t s ⟨db, r :: rest⟩)
    (hs : Sound ⟨db, r :: rest⟩) (hh : Housed i t ⟨db, r :: rest⟩)
    (h : Issued stamp (reservationIssue tenantId r) db db') : Conserved i t s ⟨db', rest⟩ := by
  obtain ⟨m, hm, hid, _, hitem, hwarehouse, hquantity, hout⟩ :=
    (hs.pending r List.mem_cons_self).row
  have hneg : movementQuantityDelta m < 0 := by
    obtain ⟨before, hbefore, hafter⟩ := hout.taken
    rw [movementQuantityDelta_of_some hbefore hafter]
    have := hout.quantity_pos
    linarith
  have haverage : ∀ w, averageIn db' s i w = averageIn db s i w := fun w => h.average
  have hheld : ∀ w, held ⟨db', rest⟩ i w = held ⟨db, rest⟩ i w := by
    intro w
    simp only [held, activeQty_costed h.costed]
  have hitem' : AveragedItem i t s db' := hc.item.of_items h.costed.items
  by_cases hi : r.inventoryItemId = i
  · obtain ⟨a, u, ha, hmov⟩ := h.charged hs.itemIds hc.item hi
    have hcosts := issueCost_set (i := i) (u := u) (c := r.quantity * a) hs.movementIds hm
      hout.uncosted hneg
    have hmov' : db'.movements = (db.setMovementCost m.id u (r.quantity * a)).movements := by
      rw [hid]
      exact hmov
    refine ⟨hitem', ?_, fun w hw => ?_⟩
    · have hvalue := hc.value
      obtain ⟨row, hrow, hw, hri⟩ := hh.pending r List.mem_cons_self hi
      have hbefore := worth_held hs hrow hw hri (q := r.quantity)
        (a := fun w => (averageIn db s i w).getD 0) (h := held ⟨db', rest⟩ i)
        (k := held ⟨db, r :: rest⟩ i) fun w => by
          rw [held_cons, hheld w, at_]
          simp only [hi, and_true, eq_comm]
      simp only [haverage, h.stocks] at hvalue ⊢
      rw [receiptCost_congr hmov', issueCost_congr hmov', hcosts.1, hcosts.2,
        if_pos (hitem.trans hi)]
      rw [hvalue] at hbefore
      have ha' : (averageIn db s i r.warehouseId).getD 0 = a := by
        rw [show averageIn db s i r.warehouseId = some a from ha, Option.getD_some]
      simp only [ha'] at hbefore
      linarith
    · simp only [haverage] at hw
      have hwne : r.warehouseId ≠ w := fun heq => hc.averaged hs hi (heq ▸ hw)
      obtain ⟨hzero, hnone⟩ := hc.valued w hw
      rw [held_cons, at_, if_neg fun hk => hwne hk.1, add_zero] at hnone
      simp only at hzero ⊢
      rw [hheld, stockQty_congr h.stocks]
      exact ⟨hzero, hnone⟩
  · obtain ⟨u, cost, hmov⟩ := h.movements
    have hcosts := issueCost_set (i := i) (u := u) (c := cost) hs.movementIds hm
      hout.uncosted hneg
    have hmov' : db'.movements = (db.setMovementCost m.id u cost).movements := by
      rw [hid]
      exact hmov
    have hheld' : held ⟨db', rest⟩ i = held ⟨db, r :: rest⟩ i := by
      funext w
      rw [hheld, held_cons, at_ne hi, add_zero]
    refine ⟨hitem', ?_, fun w hw => ?_⟩
    · have hvalue := hc.value
      simp only [haverage, h.stocks, hheld'] at hvalue ⊢
      rw [receiptCost_congr hmov', issueCost_congr hmov', hcosts.1, hcosts.2,
        if_neg fun hk => hi (hitem.symm.trans hk), add_zero]
      exact hvalue
    · simp only [haverage] at hw
      simp only [hheld', stockQty_congr h.stocks]
      exact hc.valued w hw

end Reservations

section Step

variable {stamp : Stamp} {A : Permit} {db db' : DB} {c c' : Config}
  {pending : List InventoryMovement} {i t : Id} {s : MovingAverageScope} {w : Option Id}

theorem ReceiveEntry.booked (e : ReceiveEntry stamp db db') :
    Booked stamp e.input e.movement e.unitCost db db' := by
  refine ⟨le_of_lt e.quantity_pos, e.written, e.movementId, ?_, e.received⟩
  rcases e.kind with hk | hk <;> rw [hk] <;> decide

/-- A transfer of an item at the moving average is received at the unit cost of its
shipment. -/
theorem ReceivedTransfer.averaged {n : Id} {input : ReceiveTransferInput}
    (h : ReceivedTransfer stamp input db db') (hk : Lib.Keyed (·.id) n db.items)
    (hitem : AveragedItem i t s db) (hi : input.inventoryItemId = i) :
    ∃ source sourceCost u db₁ item, db.movementById input.sourceMovementId = some source ∧
      source.unitCost = some sourceCost ∧
      Received stamp (transferReceipt input sourceCost) db u db₁ ∧
      db' = Inventory.freeze stamp db₁ item := by
  cases h with
  | @fifo item source unitCost hlocked hmethod hsource hunit hquantity hcover =>
      have := (hitem.locked hk (hi ▸ hlocked)).1
      exact absurd (hmethod.symm.trans this) (by decide)
  | @other item source sourceCost unitCost db₂ hlocked hmethod hsource hunit hreceived =>
      exact ⟨source, sourceCost, unitCost, db₂, item, hsource, hunit, hreceived, rfl⟩

theorem TransferInEntry.kind_ne (e : TransferInEntry stamp db db') :
    e.movement.referenceType ≠ some .orderReservation := by
  rw [e.kind]
  decide

theorem TransferInEntry.booked (e : TransferInEntry stamp db db') (hs : Sound ⟨db, pending⟩)
    (hitem : AveragedItem i t s db) (hi : e.input.inventoryItemId = i) :
    ∃ source sourceCost u db₁ item, db.movementById e.input.sourceMovementId = some source ∧
      source.unitCost = some sourceCost ∧
      Booked stamp (transferReceipt e.input sourceCost) e.movement u db db₁ ∧
      db' = freeze stamp db₁ item := by
  have hitem' : AveragedItem i t s ((db.addStock (some e.input.warehouseId)
      e.input.inventoryItemId e.input.quantity).record e.movement) :=
    hitem.of_items ⟨id, SameItem.refl, by simp [DB.record, DB.insertMovement, DB.takeId]⟩
  have hs' := (hs.addStock (w := some e.input.warehouseId) (i := e.input.inventoryItemId)
    e.quantity_nonneg).record e.written.id fun href => absurd href e.kind_ne
  obtain ⟨source, sourceCost, u, db₂, item, hsource, hunit, hreceived, hdb'⟩ :=
    e.received.averaged hs'.itemIds hitem' hi
  refine ⟨source, sourceCost, u, db₂, item, ?_, hunit,
    ⟨e.quantity_nonneg, e.written, e.movementId, e.kind_ne, hreceived⟩, hdb'⟩
  -- the movement just recorded has no cost yet, so the shipment was there before
  unfold DB.movementById DB.record DB.insertMovement DB.takeId at hsource
  simp only [DB.addStock_movements, List.find?_append] at hsource
  unfold DB.movementById
  cases hfind : db.movements.find? fun row => row.id = e.input.sourceMovementId with
  | some row =>
      rw [hfind] at hsource
      exact hsource
  | none =>
      rw [hfind, Option.none_or] at hsource
      have hmem := List.mem_of_find?_eq_some hsource
      rw [List.mem_singleton] at hmem
      rw [hmem, e.written.unitCost] at hunit
      exact absurd hunit (by simp)

theorem Conserved.freeze {item : InventoryItem} (hc : Conserved i t s ⟨db, pending⟩) :
    Conserved i t s ⟨freeze stamp db item, pending⟩ := by
  have hheld : held ⟨Inventory.freeze stamp db item, pending⟩ i = held ⟨db, pending⟩ i :=
    funext fun w => congrArg (· + pendingQty pending w i)
      (activeQty_congr (freeze_movements db stamp item))
  refine ⟨hc.item.of_items (freeze_items stamp db item), ?_, fun w hw => ?_⟩
  · have hvalue := hc.value
    simp only [averageIn_freeze, freeze_stocks, hheld,
      receiptCost_congr (freeze_movements db stamp item),
      issueCost_congr (freeze_movements db stamp item)] at hvalue ⊢
    exact hvalue
  · simp only [averageIn_freeze] at hw
    simp only [hheld, stockQty_congr (freeze_stocks db stamp item)]
    exact hc.valued w hw

theorem ReceivedTransfer.average_ne {input : ReceiveTransferInput}
    (h : ReceivedTransfer stamp input db db') (hne : input.inventoryItemId ≠ i) :
    averageIn db' s i w = averageIn db s i w := by
  cases h with
  | fifo hitem hmethod hsource hunit hquantity hcover =>
      rw [averageIn_freeze]
      exact averageIn_congr (openLayersFor_stocks db _ _) (openLayersFor_items db _ _)
  | other hitem hmethod hsource hunit hreceived =>
      rw [averageIn_freeze]
      exact hreceived.average_ne hne

/-- The receipts an operation may book revalue nothing that is held. -/
def AllUndisturbed (A : Permit) (s : MovingAverageScope) (i : Id) (c : Config) : Prop :=
  ∀ r, A.receipt r → r.inventoryItemId = i → Undisturbed s r c

theorem Conserved.step (hs : Sound c) (hh : Housed i t c) (hc : Conserved i t s c)
    (hquiet : AllUndisturbed A s i c) (hstep : Step stamp A c c') : Conserved i t s c' := by
  cases hstep with
  | elsewhere hsame _ => exact hc.sameLedger hsame
  | transfers _ hsame _ => exact hc.sameLedger hsame
  | receive e hA =>
      refine hc.book hs hh e.booked fun hi => ?_
      rw [hi] at hA
      exact hquiet _ hA rfl
  | issue e hissued _ _ => exact hc.issue hs e hissued
  | note hkind howned hw => exact hc.record (by rw [hkind]; decide) hw.totalCost
  | @transferIn db db' pending e hA hcost =>
      by_cases hi : e.input.inventoryItemId = i
      · obtain ⟨source, sourceCost, u, db₁, item, hsource, hunit, hbooked, rfl⟩ :=
          e.booked hs hc.item hi
        refine (hc.book hs hh hbooked fun _ => ?_).freeze
        have hpermit := hcost source hsource
        rw [hi, hunit] at hpermit
        exact hquiet _ hpermit rfl
      · refine hc.bystander hs e.quantity_nonneg e.written.id e.movementId e.kind_ne
          e.written.item hi e.received.costed fun w => ?_
        exact (e.received.average_ne hi).trans averageIn_add
  | reserve e _ => exact hc.reserve hs e
  | claim e _ => exact hc.claim hs e
  | restore e _ => exact hc.restore hs hh e
  | cost _ hissued => exact hc.cost hs hh hissued

/-- What an entry that is no reservation does to what a later receipt depends on:
the averages stay, or only one scope gets a new one and nothing is held there. -/
structure Settled (i : Id) (s : MovingAverageScope) (c c' : Config) : Prop where
  held : ∀ w, held c' i w = held c i w
  average : (∀ w, averageIn c'.db s i w = averageIn c.db s i w) ∨
    ∃ w₀, (∀ w, InScope s w₀ w → Inventory.held c i w = 0) ∧
      ∀ w, ¬ InScope s w₀ w → averageIn c'.db s i w = averageIn c.db s i w

theorem Booked.settled {input : ReceiveInput} {m : InventoryMovement} {u : ℚ}
    (h : Booked stamp input m u db db') (hs : Sound ⟨db, pending⟩)
    (hitem : AveragedItem i t s db)
    (hquiet : input.inventoryItemId = i →
      Undisturbed s ⟨i, input.warehouseId, input.unitCost⟩ ⟨db, pending⟩) :
    Settled i s ⟨db, pending⟩ ⟨db', pending⟩ := by
  refine ⟨fun w => congrFun h.held w, ?_⟩
  by_cases hi : input.inventoryItemId = i
  · rcases hquiet hi with hheld | hsame
    · obtain ⟨_, _, haverage⟩ := h.average_eq hs hitem hi
      refine .inr ⟨input.warehouseId, hheld, fun w hout => ?_⟩
      simp only
      rw [haverage w, if_neg hout]
    · exact .inl fun w => h.average_kept hs hitem hi hsame
  · exact .inl fun w => h.average_ne hi

theorem Settled.step (hs : Sound c) (hc : Conserved i t s c) (hA : ¬ A.reservation)
    (hquiet : AllUndisturbed A s i c) (hstep : Step stamp A c c') : Settled i s c c' := by
  cases hstep with
  | elsewhere hsame _ =>
      exact ⟨fun w => congrArg (· + _) (activeQty_congr hsame.movements),
        .inl fun w => averageIn_congr hsame.stocks hsame.items⟩
  | transfers _ hsame _ =>
      exact ⟨fun w => congrArg (· + _) (activeQty_congr hsame.movements),
        .inl fun w => averageIn_congr hsame.stocks hsame.items⟩
  | receive e hA =>
      refine e.booked.settled hs hc.item fun hi => ?_
      rw [hi] at hA
      exact hquiet _ hA rfl
  | @issue db db' pending e hissued _ _ =>
      have hkind : e.movement.referenceType ≠ some .orderReservation := by
        rcases e.kind with hk | hk | hk <;> rw [hk] <;> decide
      refine ⟨fun w => congrArg (· + _) ?_, .inl fun w => hissued.average.trans averageIn_shift⟩
      exact (activeQty_costed hissued.costed).trans (activeQty_record_other hkind)
  | note hkind howned hw =>
      refine ⟨fun w => congrArg (· + _) (activeQty_record_other ?_), .inl fun w => rfl⟩
      rw [hkind]
      decide
  | @transferIn db db' pending e hA hcost =>
      by_cases hi : e.input.inventoryItemId = i
      · obtain ⟨source, sourceCost, u, db₁, item, hsource, hunit, hbooked, rfl⟩ :=
          e.booked hs hc.item hi
        have hpermit := hcost source hsource
        rw [hi, hunit] at hpermit
        have hsettled := hbooked.settled hs hc.item fun _ => hquiet _ hpermit rfl
        have hheld := hsettled.held
        have haverage := hsettled.average
        refine ⟨fun w => ?_, ?_⟩
        · exact (congrArg (· + _) (activeQty_congr (freeze_movements db₁ stamp item))).trans
            (hheld w)
        · simp only [averageIn_freeze] at haverage ⊢
          exact haverage
      · exact ⟨fun w => held_book e.received.costed e.kind_ne,
          .inl fun w => (e.received.average_ne hi).trans averageIn_add⟩
  | reserve _ h => exact absurd h hA
  | claim _ h => exact absurd h hA
  | restore _ h => exact absurd h hA
  | cost h _ => exact absurd h hA

theorem InScope.trans {w₀ w₁ w₂ : Option Id} (h : InScope s w₀ w₁) (k : InScope s w₁ w₂) :
    InScope s w₀ w₂ := by
  rcases h with h | h
  · exact .inl h
  · exact h ▸ k

/-- A receipt that would revalue nothing still would not after such an entry. -/
theorem AllUndisturbed.settled (hquiet : AllUndisturbed A s i c) (h : Settled i s c c') :
    AllUndisturbed A s i c' := by
  intro r hr hi
  have hhere := hquiet r hr hi
  unfold Undisturbed at hhere ⊢
  rw [hi] at hhere ⊢
  rcases hhere with hheld | hsame
  · exact .inl fun w hw => (h.held w).trans (hheld w hw)
  · rcases h.average with hall | ⟨w₀, hzero, hout⟩
    · exact .inr ((hall _).trans hsame)
    · by_cases hin : InScope s w₀ r.warehouseId
      · exact .inl fun w hw => (h.held w).trans (hzero w (hin.trans hw))
      · exact .inr ((hout _ hin).trans hsame)

/-- What holds of the item between two operations. -/
structure Tallied (i t : Id) (s : MovingAverageScope) (c : Config) : Prop where
  sound : Sound c
  housed : Housed i t c
  conserved : Conserved i t s c

theorem Tallied.step (h : Tallied i t s c) (hquiet : AllUndisturbed A s i c)
    (hstep : Step stamp A c c') : Tallied i t s c' :=
  ⟨h.sound.step hstep, h.housed.step h.sound h.conserved.item hstep,
    h.conserved.step h.sound h.housed hquiet hstep⟩

/-- A run without reservations keeps its later receipts harmless. -/
theorem Tallied.run_receiving (h : Tallied i t s c) (hA : ¬ A.reservation)
    (hquiet : AllUndisturbed A s i c) (hrun : Run stamp A c c') :
    Tallied i t s c' ∧ AllUndisturbed A s i c' := by
  induction hrun with
  | refl => exact ⟨h, hquiet⟩
  | tail _ hstep ih =>
      obtain ⟨hb, hq⟩ := ih
      exact ⟨hb.step hq hstep, hq.settled (Settled.step hb.sound hb.conserved hA hq hstep)⟩

theorem Tallied.run_reserving (h : Tallied i t s c) (hA : ∀ r, ¬ A.receipt r)
    (hrun : Run stamp A c c') : Tallied i t s c' := by
  induction hrun with
  | refl => exact h
  | tail _ hstep ih => exact ih.step (fun r hr => absurd hr (hA r)) hstep

end Step

section Reserving

variable {stamp : Stamp} {A : Permit} {c c' : Config} {i : Id}

/-- Reservations book no receipt. -/
structure OnlyReserves (A : Permit) : Prop where
  receipt : ∀ r, ¬ A.receipt r
  issue : ¬ A.issue
  transfer : ¬ A.transfer

theorem receiptCost_step (hs : Sound c) (hA : OnlyReserves A) (hstep : Step stamp A c c') :
    receiptCost c'.db i = receiptCost c.db i := by
  cases hstep with
  | elsewhere hsame _ => exact receiptCost_congr hsame.movements
  | transfers h _ _ => exact absurd h hA.transfer
  | receive e h => exact absurd h (hA.receipt _)
  | issue e hissued h _ => exact absurd h hA.issue
  | note hkind howned hw => exact (costs_record hw.totalCost).1
  | transferIn e h _ => exact absurd h hA.transfer
  | reserve e _ => exact (costs_record e.written.totalCost).1
  | claim e _ => exact (claim_costs hs e).1
  | restore e _ =>
      exact (costs_record e.written.totalCost).1.trans
        (receiptCost_congr (DB.addStock_movements _ _ _ _))
  | @cost db db' r rest tenantId _ hissued =>
      obtain ⟨m, hm, hid, _, _, _, _, hout⟩ := (hs.pending r List.mem_cons_self).row
      obtain ⟨u, cost, hmov⟩ := hissued.movements
      obtain ⟨before, hbefore, hafter⟩ := hout.taken
      have hneg : movementQuantityDelta m < 0 := by
        rw [movementQuantityDelta_of_some hbefore hafter]
        have := hout.quantity_pos
        linarith
      rw [receiptCost_congr hmov, show (reservationIssue tenantId r).movementId = m.id from
        hid.symm]
      exact (issueCost_set hs.movementIds hm hout.uncosted hneg).1

theorem receiptCost_run (hs : Sound c) (hA : OnlyReserves A) (hrun : Run stamp A c c') :
    receiptCost c'.db i = receiptCost c.db i := by
  induction hrun with
  | refl => rfl
  | tail hrun hstep ih => exact (receiptCost_step (hs.run hrun) hA hstep).trans ih

end Reserving

end Inventory
end ERP
