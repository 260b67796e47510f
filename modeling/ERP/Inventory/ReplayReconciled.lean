import ERP.Inventory.AverageInvariant
import ERP.Inventory.ConfigureValued
import ERP.Inventory.Trail

/-!
# Trails that replay

The replay of the history of an item trusts a warehouse when every movement found what
the one before it left and the last left what is in stock.  A trail without gaps is such
a history, unless a reservation that is still ACTIVE stands in the middle of it: the
replay leaves those out.
-/

namespace ERP
namespace Inventory

/-- Item `i` is tenant `t`'s, with all its movements, and every ACTIVE reservation of it
stands beside a stock row. -/
structure OwnedBy (i t : Id) (c : Config) : Prop where
  item : ∃ row ∈ c.db.items, row.id = i ∧ row.tenantId = t
  movements : ∀ m ∈ c.db.movements, m.inventoryItemId = i → m.tenantId = t
  active : ∀ m ∈ c.db.movements, m.referenceType = some .orderReservation →
    m.inventoryItemId = i → HasRow c.db m.warehouseId i
  pending : ∀ r ∈ c.pending, r.inventoryItemId = i → r.tenantId = t

section OwnedBy

variable {stamp : Stamp} {A : Permit} {db db' : DB} {c c' : Config}
  {pending : List InventoryMovement} {i t n : Id} {m : InventoryMovement}

theorem Received.locked {input : ReceiveInput} {unitCost : ℚ}
    (h : Received stamp input db unitCost db') :
    ∃ item, Locked db input.tenantId input.inventoryItemId item := by
  cases h with
  | fifo hitem _ _ => exact ⟨_, hitem⟩
  | average hitem _ _ _ _ => exact ⟨_, hitem⟩
  | standard hitem _ _ => exact ⟨_, hitem⟩

theorem Issued.locked {input : IssueInput} (h : Issued stamp input db db') :
    ∃ item, Locked db input.tenantId input.inventoryItemId item := by
  cases h with
  | fifo hitem _ _ => exact ⟨_, hitem⟩
  | flat hitem _ => exact ⟨_, hitem⟩

theorem ReceivedTransfer.locked {input : ReceiveTransferInput}
    (h : ReceivedTransfer stamp input db db') :
    ∃ item, Locked db input.tenantId input.inventoryItemId item := by
  cases h with
  | fifo hitem _ _ _ _ _ => exact ⟨_, hitem⟩
  | other hitem _ _ _ _ => exact ⟨_, hitem⟩

/-- A tenant that finds the item is its tenant. -/
theorem OwnedBy.tenant (h : OwnedBy i t ⟨db, pending⟩) (hk : Lib.Keyed (·.id) n db.items)
    {tenantId : Id} (howned : Owned db tenantId i) : tenantId = t := by
  obtain ⟨row, hrow, hid, rfl⟩ := h.item
  obtain ⟨item, hitem, hiid, rfl⟩ := howned
  rw [hk.eq_of_key hitem hrow (hiid.trans hid.symm)]

theorem Locked.owned {tenantId itemId : Id} {item : InventoryItem}
    (h : Locked db tenantId itemId item) : Owned db tenantId itemId := by
  obtain ⟨hmem, hid, htenant⟩ := h.mem
  exact ⟨item, hmem, hid, htenant⟩

theorem OwnedBy.items (h : OwnedBy i t ⟨db, pending⟩)
    (hitems : ∃ f, (∀ row, SameItem row (f row)) ∧ db'.items = db.items.map f) :
    ∃ row ∈ db'.items, row.id = i ∧ row.tenantId = t := by
  obtain ⟨f, hf, hmap⟩ := hitems
  obtain ⟨row, hrow, hid, htenant⟩ := h.item
  refine ⟨f row, ?_, (hf row).id.trans hid, (hf row).tenant.trans htenant⟩
  rw [hmap]
  exact List.mem_map_of_mem hrow

/-- The movements change in their cost and their kind alone, and none becomes ACTIVE. -/
theorem OwnedBy.of_map {f : InventoryMovement → InventoryMovement} (h : OwnedBy i t ⟨db, pending⟩)
    (hitems : ∃ g, (∀ row, SameItem row (g row)) ∧ db'.items = db.items.map g)
    (hrows : ∀ w, HasRow db w i → HasRow db' w i)
    (hmov : db'.movements = db.movements.map f)
    (hf : ∀ m, (f m).inventoryItemId = m.inventoryItemId ∧ (f m).tenantId = m.tenantId ∧
      (f m).warehouseId = m.warehouseId ∧
      ((f m).referenceType = some .orderReservation → m.referenceType = some .orderReservation)) :
    OwnedBy i t ⟨db', pending⟩ := by
  refine ⟨h.items hitems, fun m hm hi => ?_, fun m hm href hi => ?_, h.pending⟩
  · simp only [hmov] at hm
    obtain ⟨r, hr, rfl⟩ := List.mem_map.mp hm
    obtain ⟨hitem, htenant, -, -⟩ := hf r
    exact htenant.trans (h.movements r hr (hitem.symm.trans hi))
  · simp only [hmov] at hm
    obtain ⟨r, hr, rfl⟩ := List.mem_map.mp hm
    obtain ⟨hitem, -, hwarehouse, hactive⟩ := hf r
    rw [hwarehouse]
    exact hrows _ (h.active r hr (hactive href) (hitem.symm.trans hi))

theorem OwnedBy.of_append (h : OwnedBy i t ⟨db, pending⟩)
    (hitems : ∃ g, (∀ row, SameItem row (g row)) ∧ db'.items = db.items.map g)
    (hrows : ∀ w, HasRow db w i → HasRow db' w i)
    (hmov : db'.movements = db.movements ++ [m]) (htenant : m.inventoryItemId = i → m.tenantId = t)
    (hactive : m.referenceType = some .orderReservation → m.inventoryItemId = i →
      HasRow db' m.warehouseId i) : OwnedBy i t ⟨db', pending⟩ := by
  refine ⟨h.items hitems, fun r hr hi => ?_, fun r hr href hi => ?_, h.pending⟩
  · simp only [hmov] at hr
    rcases List.mem_append.mp hr with hr | hr
    · exact h.movements r hr hi
    · rw [List.mem_singleton.mp hr] at hi ⊢
      exact htenant hi
  · simp only [hmov] at hr
    rcases List.mem_append.mp hr with hr | hr
    · exact hrows _ (h.active r hr href hi)
    · rw [List.mem_singleton.mp hr] at href hi ⊢
      exact hactive href hi

/-- A movement that is no reservation is recorded and costed by the tenant of the item. -/
theorem OwnedBy.recorded {db₁ : DB} {movementId tenantId itemId : Id} {w : Option Id}
    {before after : ℚ} (h : OwnedBy i t ⟨db, pending⟩) (hs : Sound ⟨db₁, pending⟩)
    (hitems : db₁.items = db.items) (hmovements : db₁.movements = db.movements)
    (hrows : ∀ w, HasRow db w i → HasRow db₁ w i)
    (hw : Written m db₁.nextId tenantId w itemId before after) (hid : movementId = m.id)
    (hcosted : Costed movementId (db₁.record m) db')
    (hkind : m.referenceType ≠ some .orderReservation) (howned : Owned db₁ tenantId itemId) :
    OwnedBy i t ⟨db', pending⟩ := by
  obtain ⟨unitCost, totalCost, hmov⟩ := hcosted.recorded hid (hw.id ▸ hs.movementIds)
  rw [hmovements] at hmov
  obtain ⟨g, hg, hmap⟩ := hcosted.items
  have hrecord (w : Option Id) (hrow : HasRow db w i) : HasRow (db₁.record m) w i := hrows w hrow
  refine h.of_append ⟨g, hg, hmap.trans (congrArg _ hitems)⟩
    (fun w hrow => (hrecord w hrow).costed hcosted) hmov (fun hi => ?_)
    fun href => absurd href hkind
  have hitem : itemId = i := hw.item.symm.trans hi
  rw [hitem] at howned
  have hkeys : Lib.Keyed (·.id) db₁.nextId db.items := hitems ▸ hs.itemIds
  exact hw.tenant.trans (h.tenant hkeys (by unfold Owned at howned ⊢; rwa [hitems] at howned))

theorem OwnedBy.step (hs : Sound c) (h : OwnedBy i t c) (hstep : Step stamp A c c') :
    OwnedBy i t c' := by
  cases hstep with
  | elsewhere hsame _ =>
      refine h.of_map (f := id) ⟨id, SameItem.refl, by simp [hsame.items]⟩ (fun w hw => ?_)
        (by simp [hsame.movements]) fun m => ⟨rfl, rfl, rfl, fun href => href⟩
      exact hw.map (f := id) (fun _ => ⟨rfl, rfl⟩) (by simp [hsame.stocks])
  | transfers _ hsame _ =>
      refine h.of_map (f := id) ⟨id, SameItem.refl, by simp [hsame.items]⟩ (fun w hw => ?_)
        (by simp [hsame.movements]) fun m => ⟨rfl, rfl, rfl, fun href => href⟩
      exact hw.map (f := id) (fun _ => ⟨rfl, rfl⟩) (by simp [hsame.stocks])
  | receive e _ =>
      obtain ⟨item, hlocked⟩ := e.received.locked
      refine h.recorded (hs.addStock e.quantity_pos.le) (DB.addStock_items _ _ _ _)
        (DB.addStock_movements _ _ _ _) (fun w hw => hw.add) e.written e.movementId
        e.received.costed ?_ hlocked.owned
      rcases e.kind with hk | hk <;> rw [hk] <;> decide
  | issue e hissued _ _ =>
      obtain ⟨item, hlocked⟩ := hissued.locked
      refine h.recorded (hs.takeStock e.source) rfl rfl (fun w hw => hw.shift) e.written
        e.movementId hissued.costed ?_ hlocked.owned
      rcases e.kind with hk | hk | hk <;> rw [hk] <;> decide
  | note hkind howned hw =>
      refine h.of_append sameItems_refl (fun w hrow => hrow) rfl (fun hi => ?_) fun href => ?_
      · have hitem := hw.item.symm.trans hi
        exact hw.tenant.trans (h.tenant hs.itemIds (hitem ▸ howned))
      · rw [hkind] at href
        cases href
  | transferIn e _ _ =>
      obtain ⟨item, hlocked⟩ := e.received.locked
      refine h.recorded (hs.addStock e.quantity_nonneg) (DB.addStock_items _ _ _ _)
        (DB.addStock_movements _ _ _ _) (fun w hw => hw.add) e.written e.movementId
        e.received.costed ?_ hlocked.owned
      rw [e.kind]
      decide
  | reserve e _ =>
      refine h.of_append sameItems_refl (fun w hrow => hrow.shift) rfl (fun hi => ?_)
        fun _ hi => ?_
      · have hitem := e.written.item.symm.trans hi
        exact e.written.tenant.trans (h.tenant hs.itemIds (hitem ▸ e.owned))
      · have hrow : HasRow _ e.row.warehouseId i :=
          ⟨e.row, e.source.mem, rfl, e.written.item.symm.trans hi⟩
        rw [e.written.warehouse]
        exact hrow.shift
  | @claim db e _ =>
      have hclaimed : OwnedBy i t ⟨db.updateMovements e.p e.f, []⟩ := by
        refine h.of_map sameItems_refl (fun w hrow => hrow) rfl fun m => ?_
        split
        · obtain ⟨referenceType, type, hf⟩ := e.same m
          refine ⟨by rw [hf], by rw [hf], by rw [hf], fun href => ?_⟩
          exact absurd href (e.claimed m).1
        · exact ⟨rfl, rfl, rfl, fun href => href⟩
      exact ⟨hclaimed.item, hclaimed.movements, hclaimed.active,
        fun r hr hi => h.movements r (List.mem_filter.mp hr).1 hi⟩
  | @restore db reservation rest e _ =>
      have hrest : OwnedBy i t ⟨db, rest⟩ :=
        ⟨h.item, h.movements, h.active, fun r hr => h.pending r (List.mem_cons_of_mem _ hr)⟩
      refine hrest.of_append ⟨id, SameItem.refl, ?_⟩ (fun w hrow => HasRow.add hrow)
        (congrArg (· ++ [e.movement]) (DB.addStock_movements _ _ _ _)) (fun hi => ?_) fun href => ?_
      · rw [List.map_id]
        exact DB.addStock_items _ _ _ _
      · exact e.written.tenant.trans
          (h.pending reservation List.mem_cons_self (e.written.item.symm.trans hi))
      · rw [e.kind] at href
        cases href
  | @cost db db' reservation rest tenantId _ hissued =>
      have hrest : OwnedBy i t ⟨db, rest⟩ :=
        ⟨h.item, h.movements, h.active, fun r hr => h.pending r (List.mem_cons_of_mem _ hr)⟩
      obtain ⟨unitCost, totalCost, hmov⟩ := hissued.costed.movements
      refine hrest.of_map hissued.costed.items (fun w hrow => hrow.costed hissued.costed) hmov
        fun m => ?_
      split <;> exact ⟨rfl, rfl, rfl, fun href => href⟩

theorem OwnedBy.run (hs : Sound c) (h : OwnedBy i t c) (hrun : Run stamp A c c') :
    OwnedBy i t c' := by
  induction hrun with
  | refl => exact h
  | tail hrun hstep ih => exact ih.step (hs.run hrun) hstep

end OwnedBy

theorem Linked.nonneg {start stop : ℚ} {xs : List (Option ℚ × Option ℚ)}
    (h : Linked start xs stop) (hstart : 0 ≤ start) : 0 ≤ stop := by
  induction xs generalizing start with
  | nil => exact h.eq ▸ hstart
  | cons x rest ih =>
      obtain ⟨next, ⟨-, hnext⟩, hrest⟩ := h.first
      exact ih hrest hnext

/-- Movements that each took their quantity leave what was there less them all. -/
theorem Linked.stop_taken {start stop : ℚ} {ms : List InventoryMovement}
    (h : Linked start (ms.map recorded) stop)
    (htaken : ∀ m ∈ ms, ∃ before, m.beforeQuantity = some before ∧
      m.afterQuantity = some (before - m.quantity)) :
    stop = start - (ms.map (·.quantity)).sum := by
  induction ms generalizing start with
  | nil =>
      rw [List.map_nil, List.sum_nil, sub_zero]
      exact h.eq.symm
  | cons m rest ih =>
      obtain ⟨next, ⟨hrecorded, -⟩, hrest⟩ := h.first
      obtain ⟨hbefore, hafter⟩ := Prod.mk.inj hrecorded
      obtain ⟨before, hfound, hleft⟩ := htaken m List.mem_cons_self
      have hstart : before = start := Option.some.inj (hfound.symm.trans hbefore)
      have hnext : before - m.quantity = next := Option.some.inj (hleft.symm.trans hafter)
      rw [ih hrest fun n hn => htaken n (List.mem_cons_of_mem m hn), ← hnext, hstart,
        List.map_cons, List.sum_cons]
      ring

section Replay

variable {costs : ReplayCosts} {warehouseId : Option Id} {start stop : ℚ}

/-- Layers that hold enough cover what is taken from them. -/
theorem consume_enough {layers : List HistoricalFifoLayer} {q : ℚ}
    (hnonneg : ∀ layer ∈ layers, 0 ≤ layer.quantity) (hq : q ≤ layerQuantity layers) :
    (consume layers q).2 ≤ 0 := by
  induction layers generalizing q with
  | nil => exact hq
  | cons layer rest ih =>
      have hrest : ∀ other ∈ rest, 0 ≤ other.quantity :=
        fun other hother => hnonneg other (List.mem_cons_of_mem layer hother)
      rw [layerQuantity_cons] at hq
      unfold consume
      split
      · assumption
      · refine ih hrest ?_
        have htotal : 0 ≤ layerQuantity rest := List.sum_nonneg fun x hx => by
          obtain ⟨other, hother, rfl⟩ := List.mem_map.mp hx
          exact hrest other hother
        rcases min_choice layer.quantity q with hmin | hmin
        · rw [hmin]
          linarith
        · rw [hmin, sub_self]
          exact htotal

/-- A movement that found the quantity of the replay and left something is replayed, and
the layers hold afterwards what it left. -/
theorem replayMovement_linked (costs : ReplayCosts) (warehouseId : Option Id)
    {layers : List HistoricalFifoLayer}
    {movement : HistoricalMovementRecord} (hnonneg : ∀ layer ∈ layers, 0 ≤ layer.quantity)
    (hlayers : layerQuantity layers = start)
    (hrecorded : recorded movement.toInventoryMovement = (some start, some stop))
    (hstop : 0 ≤ stop) :
    ∃ layers', replayMovement costs warehouseId (layers, start) movement = some (layers', stop) ∧
      (∀ layer ∈ layers', 0 ≤ layer.quantity) ∧ layerQuantity layers' = stop := by
  obtain ⟨hbefore, hafter⟩ := Prod.mk.inj hrecorded
  have hdelta : movementQuantityDelta movement.toInventoryMovement = stop - start :=
    movementQuantityDelta_of_some hbefore hafter
  have hagrees (q : ℚ) : Agrees q (some q) := by
    show |q - q| ≤ historyTolerance
    rw [sub_self, abs_zero]
    exact historyTolerance_pos.le
  -- the replay goes on, and what it goes on with has the quantity that was left
  have hsome : ∃ layers', replayMovement costs warehouseId (layers, start) movement =
      some (layers', stop) := by
    unfold replayMovement
    dsimp only
    rw [hdelta, hbefore, hafter, add_sub_cancel, Option.getD_some,
      if_neg (not_not.mpr (hagrees start)), if_neg (not_not.mpr (hagrees stop))]
    by_cases hin : 0 < stop - start
    · rw [if_pos hin]
      split
      · exact ⟨_, rfl⟩
      · exact ⟨_, rfl⟩
    · rw [if_neg hin]
      by_cases hout : stop - start < 0
      · obtain ⟨hkept, hleft, hsum⟩ := consume_spec hnonneg (abs_nonneg (stop - start))
        have henough : ¬ 0 < (consume layers |stop - start|).2 :=
          not_lt.mpr (consume_enough hnonneg (by rw [hlayers, abs_of_neg hout]; linarith))
        rw [if_pos hout, if_neg henough]
        exact ⟨_, rfl⟩
      · rw [if_neg hout]
        exact ⟨_, rfl⟩
  obtain ⟨layers', hreplay⟩ := hsome
  obtain ⟨hkept, hquantity, -, -⟩ := replayMovement_quantity hnonneg hreplay
  refine ⟨layers', hreplay, hkept, ?_⟩
  rw [hquantity, hdelta]
  show layerQuantity layers + _ = _
  rw [hlayers]
  ring

theorem layerQuantity_nil : layerQuantity [] = 0 := rfl

/-- Movements whose records have no gaps are replayed to the end. -/
theorem replay_linked (costs : ReplayCosts) (warehouseId : Option Id)
    {movements : List HistoricalMovementRecord} {layers : List HistoricalFifoLayer}
    (hnonneg : ∀ layer ∈ layers, 0 ≤ layer.quantity)
    (hlayers : layerQuantity layers = start)
    (hlinked : Linked start (movements.map fun m => recorded m.toInventoryMovement) stop) :
    ∃ layers', movements.foldlM (replayMovement costs warehouseId) (layers, start) =
        some (layers', stop) ∧
      (∀ layer ∈ layers', 0 ≤ layer.quantity) ∧ layerQuantity layers' = stop := by
  induction movements generalizing layers start with
  | nil =>
      have hend : start = stop := hlinked.eq
      exact ⟨layers, by rw [hend]; rfl, hnonneg, hlayers.trans hend⟩
  | cons movement rest ih =>
      obtain ⟨first, hfirst, hrest⟩ := hlinked.first
      obtain ⟨hrecorded, hleft⟩ := hfirst
      obtain ⟨next, hnext, hkept, hquantity⟩ :=
        replayMovement_linked costs warehouseId hnonneg hlayers hrecorded hleft
      obtain ⟨layers', hreplay, hdone⟩ := ih hkept hquantity hrest
      refine ⟨layers', ?_, hdone⟩
      rw [List.foldlM_cons, hnext]
      exact hreplay

end Replay

/-- Sorting by time and id gives the order of creation. -/
def Chronological (stamp : Stamp) : Prop :=
  ∀ a b, a < b →
    toLex (stamp.createdAt a, stamp.cuid a) ≤ toLex (stamp.createdAt b, stamp.cuid b)

/-- The balances the replay gives for an item, as it is asked for them. -/
def historicalFifoOf (stamp : Stamp) (db : DB) (tenantId inventoryItemId : Id) (now : Int) :
    List HistoricalFifoBalance :=
  reconstructHistoricalFifo (historyOf stamp db tenantId inventoryItemId) now inventoryItemId
    ((valuedStocks db tenantId inventoryItemId).map fun stock =>
      (stock.warehouseId, stock.quantity))

/-- No movement of the item at the location came after a reservation that is ACTIVE, but
for reservations that are ACTIVE too. -/
def ReservedLast (db : DB) (w : Option Id) (i : Id) : Prop :=
  (movementsAt db w i).Pairwise fun m n =>
    m.referenceType = some .orderReservation → n.referenceType = some .orderReservation

section History

variable {stamp : Stamp} {db : DB} {w : Option Id} {i t : Id}

/-- The history of the item has its movements in the order they were made. -/
theorem historyOf_movements (hstamp : Chronological stamp) (hs : Sound ⟨db, []⟩)
    (ho : OwnedBy i t ⟨db, []⟩) :
    (historyOf stamp db t i).movements =
      (db.movements.filter fun m => m.inventoryItemId = i).map (recordOf stamp db) := by
  have hmine : (db.movements.filter fun m => m.tenantId = t ∧ m.inventoryItemId = i) =
      db.movements.filter fun m => m.inventoryItemId = i := by
    refine List.filter_congr fun m hm => ?_
    rw [decide_eq_decide]
    exact ⟨fun h => h.2, fun h => ⟨ho.movements m hm h, h⟩⟩
  have hsorted : (db.movements.filter fun m => m.inventoryItemId = i).Pairwise fun m n =>
      toLex (stamp.createdAt m.id, stamp.cuid m.id) ≤
        toLex (stamp.createdAt n.id, stamp.cuid n.id) :=
    (hs.movementIds.sorted.filter _).imp fun hlt => hstamp _ _ hlt
  show (Lib.orderBy _ _).map _ = _
  rw [hmine, Lib.orderBy_eq_self hsorted]

/-- What the replay goes through at a location: the movements there that are no ACTIVE
reservations. -/
theorem historicalMovements_at (hstamp : Chronological stamp) (hs : Sound ⟨db, []⟩)
    (ho : OwnedBy i t ⟨db, []⟩) :
    (historicalMovements (historyOf stamp db t i)).filter (fun m => m.warehouseId = w) =
      ((movementsAt db w i).filter fun m =>
        !decide (m.referenceType = some .orderReservation)).map (recordOf stamp db) := by
  unfold historicalMovements movementsAt
  rw [historyOf_movements hstamp hs ho, List.filter_map, List.filter_map, List.filter_filter,
    List.filter_filter, List.filter_filter]
  refine congrArg (List.map _) (List.filter_congr fun m _ => ?_)
  simp only [Function.comp, recordOf]
  by_cases hw : m.warehouseId = w
  · by_cases hi : m.inventoryItemId = i <;>
      by_cases hr : m.referenceType = some .orderReservation <;> simp [hw, hi, hr]
  · simp [hw]

theorem activeQty_eq : activeQty db w i = (((movementsAt db w i).filter fun m =>
    decide (m.referenceType = some .orderReservation)).map (·.quantity)).sum := by
  have hboth : ((movementsAt db w i).filter fun m =>
      decide (m.referenceType = some .orderReservation)) = db.movements.filter fun m =>
        m.referenceType = some .orderReservation ∧ m.warehouseId = w ∧ m.inventoryItemId = i := by
    unfold movementsAt
    rw [List.filter_filter]
    exact List.filter_congr fun m _ => (Bool.decide_and _ _).symm
  rw [hboth, Lib.sum_filter_eq]
  rfl

/-- The records behind the last one that is replayed are of ACTIVE reservations, so what
it left is in stock or reserved. -/
theorem linked_historical (hs : Sound ⟨db, []⟩) (hlast : ReservedLast db w i)
    (hlinked : Linked 0 (trail db w i) (stockQty db w i)) :
    Linked 0 (((movementsAt db w i).filter fun m =>
        !decide (m.referenceType = some .orderReservation)).map recorded)
      (stockQty db w i + activeQty db w i) := by
  have hsplit := Lib.filter_append_filter
    (p := fun m : InventoryMovement => decide (m.referenceType = some .orderReservation))
    (hlast.imp fun h => by simpa using h)
  unfold trail at hlinked
  rw [hsplit, List.map_append] at hlinked
  obtain ⟨middle, hhistory, hactive⟩ := hlinked.split
  have htaken := hactive.stop_taken fun m hm => by
    obtain ⟨hmem, href⟩ := List.mem_filter.mp hm
    exact (hs.active m (List.mem_filter.mp hmem).1 (of_decide_eq_true href)).taken
  rw [← activeQty_eq] at htaken
  rw [htaken, sub_add_cancel]
  exact hhistory

/-- What the replay is told of the stock at a location: what is there and reserved. -/
theorem valuedStocks_at (hs : Sound ⟨db, []⟩) (ho : OwnedBy i t ⟨db, []⟩) (w : Option Id) :
    ((mapOf ((valuedStocks db t i).map fun s => (s.warehouseId, s.quantity))).get w).getD 0 =
      stockQty db w i + activeQty db w i := by
  have hreserved (w : Option Id) : reservedQuantity db t i w = activeQty db w i := by
    unfold reservedQuantity activeQty activeIn
    rw [Lib.sum_filter_eq]
    refine congrArg List.sum (List.map_congr_left fun m hm => if_congr ?_ rfl rfl)
    exact ⟨fun h => ⟨h.2.2.1, h.2.2.2, h.2.1⟩,
      fun h => ⟨ho.movements m hm h.2.2, h.2.2, h.1, h.2.1⟩⟩
  let places := (db.stocks.filter fun r => r.inventoryItemId = i).map (·.warehouseId)
  have hentries : (valuedStocks db t i).map (fun s => (s.warehouseId, s.quantity)) =
      places.map fun w => (w, stockQty db w i + activeQty db w i) := by
    unfold valuedStocks
    rw [List.map_map, List.map_map]
    refine List.map_congr_left fun r hr => ?_
    obtain ⟨hmem, hitem⟩ := List.mem_filter.mp hr
    have hrow := stockQty_row hs hmem
    rw [of_decide_eq_true hitem] at hrow
    simp only [Function.comp, hreserved, hrow]
  have hnodup : places.Nodup := by
    refine List.pairwise_map.mpr (List.pairwise_filter.mpr (hs.stockKey.imp ?_))
    intro r s hrs hr hs heq
    exact hrs ⟨heq, (of_decide_eq_true hr).trans (of_decide_eq_true hs).symm⟩
  have hkeys : (places.map fun w => (w, stockQty db w i + activeQty db w i)).map Prod.fst =
      places := by
    rw [List.map_map]
    exact List.map_id places
  rw [hentries, mapOf_getD (hkeys.symm ▸ hnodup), List.map_map]
  have hsum := sum_ite_of_nodup hnodup (fun w => stockQty db w i + activeQty db w i) w
  rw [show (fun e : Option Id × ℚ => if e.1 = w then e.2 else 0) ∘
      (fun w => (w, stockQty db w i + activeQty db w i)) =
      fun j => if j = w then stockQty db j i + activeQty db j i else 0 from rfl, hsum]
  by_cases hplace : w ∈ places
  · exact if_pos hplace
  · -- no row, so nothing in stock and no reservation
    have hnone (hrow : HasRow db w i) : False := by
      obtain ⟨row, hmem, hwarehouse, hitem⟩ := hrow
      exact hplace (List.mem_map.mpr ⟨row, List.mem_filter.mpr ⟨hmem, by simpa using hitem⟩,
        hwarehouse⟩)
    have hstock : stockQty db w i = 0 := List.sum_eq_zero fun x hx => by
      obtain ⟨r, hr, rfl⟩ := List.mem_map.mp hx
      exact if_neg fun hk => hnone ⟨r, hr, hk⟩
    have hactive : activeQty db w i = 0 := List.sum_eq_zero fun x hx => by
      obtain ⟨m, hm, rfl⟩ := List.mem_map.mp hx
      refine if_neg fun hk => hnone ?_
      obtain ⟨href, hwarehouse, hitem⟩ := hk
      exact hwarehouse ▸ ho.active m hm href hitem
    rw [if_neg hplace, hstock, hactive, add_zero]

/-- The replay trusts the location, and its layers hold what is in stock and reserved. -/
structure Trusted (db : DB) (i : Id) (balance : HistoricalFifoBalance) : Prop where
  reconciled : balance.reconciled = true
  quantity : layerQuantity balance.layers = balance.currentQuantity
  current : balance.currentQuantity =
    stockQty db balance.warehouseId i + activeQty db balance.warehouseId i

theorem replayWarehouse_linked (costs : ReplayCosts) (now : Int) (w : Option Id) (i : Id)
    {stop : ℚ} {movements : List HistoricalMovementRecord} (hstop : 0 ≤ stop)
    (hlinked : Linked 0 (movements.map fun m => recorded m.toInventoryMovement) stop) :
    ∃ layers, replayWarehouse costs now w i stop movements = some layers ∧
      (∀ layer ∈ layers, 0 ≤ layer.quantity) ∧ layerQuantity layers = stop := by
  cases movements with
  | nil =>
      have hzero : (0 : ℚ) = stop := hlinked.eq
      refine ⟨[], ?_, by simp, hzero⟩
      unfold replayWarehouse
      rw [if_neg (by rw [← hzero]; exact lt_irrefl 0)]
  | cons first rest =>
      obtain ⟨next, ⟨hrecorded, -⟩, -⟩ := hlinked.first
      have hbefore : first.beforeQuantity = some 0 := (Prod.mk.inj hrecorded).1
      obtain ⟨layers, hreplay, hkept, hquantity⟩ :=
        replay_linked costs w (List.forall_mem_nil _) layerQuantity_nil hlinked
      refine ⟨layers, ?_, hkept, hquantity⟩
      have hclose : ¬ (historyTolerance < |stop - stop| ∨ stop < 0) := by
        rw [sub_self, abs_zero, not_or]
        exact ⟨not_lt.mpr historyTolerance_pos.le, not_lt.mpr hstop⟩
      unfold replayWarehouse
      simp only [hbefore, lt_irrefl, if_false, hreplay, hclose]

theorem trusted_of_linked (hstamp : Chronological stamp) (hs : Sound ⟨db, []⟩)
    (ho : OwnedBy i t ⟨db, []⟩) (hlinked : ∀ w, Linked 0 (trail db w i) (stockQty db w i))
    (now : Int) {balance : HistoricalFifoBalance}
    (hbalance : balance ∈ historicalFifoOf stamp db t i now)
    (hlast : ReservedLast db balance.warehouseId i) : Trusted db i balance := by
  obtain ⟨w, -, rfl⟩ := List.mem_map.mp hbalance
  rw [balanceOfWarehouse_warehouseId] at hlast
  have hmovements := movementsByWarehouse_get
    (historicalMovements (historyOf stamp db t i)) w
  rw [historicalMovements_at hstamp hs ho] at hmovements
  have hcurrent := valuedStocks_at hs ho w
  have hnonneg : 0 ≤ stockQty db w i + activeQty db w i :=
    add_nonneg (stockQty_nonneg hs w i) (activeQty_nonneg hs w i)
  have hrecords : Linked 0 ((((movementsAt db w i).filter fun m =>
      !decide (m.referenceType = some .orderReservation)).map (recordOf stamp db)).map fun m =>
        recorded m.toInventoryMovement) (stockQty db w i + activeQty db w i) := by
    rw [List.map_map]
    exact linked_historical hs hlast (hlinked w)
  obtain ⟨layers, hreplay, hkept, hquantity⟩ := replayWarehouse_linked
    (replayCosts (historyOf stamp db t i)) now w i hnonneg hrecords
  rw [hmovements, hcurrent]
  unfold balanceOfWarehouse
  rw [hreplay]
  exact ⟨rfl, (layerQuantity_positive layers hkept).trans hquantity, rfl⟩

theorem replayed_of_reconciled {costs : ReplayCosts} {now : Int} {q : ℚ}
    {movements : List HistoricalMovementRecord}
    (h : (balanceOfWarehouse costs now i w q movements).reconciled = true) :
    (replayWarehouse costs now w i q movements).isSome = true := by
  unfold balanceOfWarehouse at h
  split at h
  · rename_i hsome
    rw [hsome]
    rfl
  · cases h

/-- The replay stops at a movement that did not find what the one before it left. -/
theorem replayWarehouse_break (costs : ReplayCosts) (now : Int) (q : ℚ) {found left : ℚ}
    {front back : List HistoricalMovementRecord} {x : HistoricalMovementRecord}
    (hsome : front ≠ [])
    (hlinked : Linked 0 (front.map fun m => recorded m.toInventoryMovement) found)
    (hx : x.beforeQuantity = some left) (hdisagrees : ¬ Agrees found (some left)) :
    replayWarehouse costs now w i q (front ++ x :: back) = none := by
  obtain ⟨f, rest, rfl⟩ := List.exists_cons_of_ne_nil hsome
  obtain ⟨first, ⟨hfirst, -⟩, -⟩ := hlinked.first
  have hfound : f.beforeQuantity = some 0 := (Prod.mk.inj hfirst).1
  obtain ⟨layers, hreplay, -⟩ := replay_linked costs w (List.forall_mem_nil _) layerQuantity_nil
    hlinked
  have hstuck : replayMovement costs w (layers, found) x = none := by
    unfold replayMovement
    dsimp only
    rw [hx, if_pos hdisagrees]
  have hfold : (f :: rest ++ x :: back).foldlM (replayMovement costs w) ([], 0) = none := by
    rw [List.foldlM_append, show List.foldlM _ ([], 0) _ = some (layers, found) from hreplay]
    show List.foldlM _ (layers, found) (x :: back) = none
    rw [List.foldlM_cons, hstuck]
    rfl
  unfold replayWarehouse
  simp only [List.cons_append, hfound, lt_irrefl, if_false] at hfold ⊢
  rw [hfold]

/-- A location that is trusted has its ACTIVE reservations behind everything else, when each
is of more than the tolerance of the replay. -/
theorem reservedLast_of_reconciled (hstamp : Chronological stamp) (hs : Sound ⟨db, []⟩)
    (ho : OwnedBy i t ⟨db, []⟩) (hlinked : ∀ w, Linked 0 (trail db w i) (stockQty db w i))
    (now : Int) {balance : HistoricalFifoBalance}
    (hbalance : balance ∈ historicalFifoOf stamp db t i now)
    (hlarge : ∀ m ∈ movementsAt db balance.warehouseId i,
      m.referenceType = some .orderReservation → historyTolerance < m.quantity)
    (hreconciled : balance.reconciled = true) : ReservedLast db balance.warehouseId i := by
  obtain ⟨w, -, rfl⟩ := List.mem_map.mp hbalance
  rw [balanceOfWarehouse_warehouseId] at hlarge ⊢
  by_contra hbroken
  have hbreak : ¬ (movementsAt db w i).Pairwise fun m n =>
      decide (m.referenceType = some .orderReservation) = true →
        decide (n.referenceType = some .orderReservation) = true := by
    simpa only [decide_eq_true_eq, ReservedLast] using hbroken
  obtain ⟨front, run, x, back, hsplit, hfront, hsome, hrun, hx⟩ := Lib.exists_first_break hbreak
  have hrecords := hlinked w
  unfold trail at hrecords
  rw [hsplit, List.map_append, List.map_append] at hrecords
  obtain ⟨found, hbefore, hrest⟩ := hrecords.split
  obtain ⟨left, htaken, hafter⟩ := hrest.split
  -- what the reservations took is more than the tolerance
  have hquantity : left = found - (run.map (·.quantity)).sum := htaken.stop_taken fun m hm => by
    have hmem : m ∈ movementsAt db w i := by
      rw [hsplit]
      exact List.mem_append_right _ (List.mem_append_left _ hm)
    exact (hs.active m (List.mem_filter.mp hmem).1 (of_decide_eq_true (hrun m hm))).taken
  have htook : historyTolerance < (run.map (·.quantity)).sum := by
    have hmem (m : InventoryMovement) (hm : m ∈ run) : historyTolerance < m.quantity := by
      refine hlarge m ?_ (of_decide_eq_true (hrun m hm))
      rw [hsplit]
      exact List.mem_append_right _ (List.mem_append_left _ hm)
    obtain ⟨m, others, rfl⟩ := List.exists_cons_of_ne_nil hsome
    have hothers : 0 ≤ (others.map (·.quantity)).sum := List.sum_nonneg fun q hq => by
      obtain ⟨n, hn, rfl⟩ := List.mem_map.mp hq
      exact historyTolerance_pos.le.trans (hmem n (List.mem_cons_of_mem m hn)).le
    rw [List.map_cons, List.sum_cons]
    linarith [hmem m List.mem_cons_self]
  have hleft : 0 ≤ left := htaken.nonneg (hbefore.nonneg (le_refl 0))
  obtain ⟨next, ⟨hrecorded, -⟩, -⟩ := hafter.first
  -- so the first movement behind them does not agree with the replay
  have hdisagrees : ¬ Agrees found (some left) := by
    show ¬ |found - left| ≤ historyTolerance
    rw [hquantity, sub_sub_cancel, not_le]
    exact htook.trans_le (le_abs_self _)
  have hhistorical : ((movementsAt db w i).filter fun m =>
      !decide (m.referenceType = some .orderReservation)) =
      front ++ x :: back.filter fun m => !decide (m.referenceType = some .orderReservation) := by
    have hnone : run.filter (fun m => !decide (m.referenceType = some .orderReservation)) = [] :=
      List.filter_eq_nil_iff.mpr fun m hm => by simp [hrun m hm]
    have hall : front.filter (fun m => !decide (m.referenceType = some .orderReservation)) =
      front :=
      List.filter_eq_self.mpr fun m hm => by simp [hfront m hm]
    rw [hsplit, List.filter_append, List.filter_append, hnone, hall, List.nil_append,
      List.filter_cons_of_pos (by simp [hx])]
  have hmovements := movementsByWarehouse_get (historicalMovements (historyOf stamp db t i)) w
  rw [historicalMovements_at hstamp hs ho, hhistorical, List.map_append, List.map_cons]
    at hmovements
  rw [hmovements] at hreconciled
  have hreplayed := replayed_of_reconciled hreconciled
  have hfront : front ≠ [] := by
    rintro rfl
    have hzero : (0 : ℚ) = found := hbefore.eq
    linarith [historyTolerance_pos]
  have hbroken : Linked 0 ((front.map (recordOf stamp db)).map fun m =>
      recorded m.toInventoryMovement) found := by
    rw [List.map_map]
    exact hbefore
  rw [replayWarehouse_break _ now _ (by simpa using hfront) hbroken
    (Prod.mk.inj hrecorded).1 hdisagrees] at hreplayed
  exact Bool.noConfusion hreplayed

end History

end Inventory
end ERP
