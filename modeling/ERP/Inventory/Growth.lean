import ERP.Inventory.FifoInvariant
import ERP.Lib.Growth

/-!
# What no entry takes back

Layers keep their origin and their cost, movements their item, place and cost once it is
written, and the allocations of a costed movement are never added to.
-/

namespace ERP
namespace Inventory

/-- A layer that something was taken from or given back to is the same layer. -/
def SameLayer (r s : InventoryCostLayer) : Prop :=
  s = { r with remainingQuantity := s.remainingQuantity }

/-- A movement may change its kind, and its cost once. -/
structure SameMovement (r s : InventoryMovement) : Prop where
  id : s.id = r.id
  item : s.inventoryItemId = r.inventoryItemId
  warehouse : s.warehouseId = r.warehouseId
  quantity : s.quantity = r.quantity
  cost : r.totalCost ≠ none → s.unitCost = r.unitCost ∧ s.totalCost = r.totalCost

/-- The ledger `db'` is `db` with more written in it. -/
structure Extends (db db' : DB) : Prop where
  items : ∃ g, (∀ row, SameItem row (g row)) ∧ db'.items = db.items.map g
  layers : Lib.Grown SameLayer db.layers db'.layers
  movements : Lib.Grown SameMovement db.movements db'.movements
  allocations : ∃ rows, db'.allocations = db.allocations ++ rows ∧
    ∀ a ∈ rows, ∀ m ∈ db.movements, m.id = a.movementId → m.totalCost = none

section Same

variable {l l' l'' : InventoryCostLayer} {m m' m'' : InventoryMovement}

theorem SameLayer.refl (l : InventoryCostLayer) : SameLayer l l := rfl

theorem SameLayer.trans (h : SameLayer l l') (h' : SameLayer l' l'') : SameLayer l l'' := by
  unfold SameLayer at h h' ⊢
  rw [h', h]

theorem SameLayer.id (h : SameLayer l l') : l'.id = l.id := by
  rw [h]

theorem SameLayer.source (h : SameLayer l l') : l'.sourceMovementId = l.sourceMovementId := by
  rw [h]

theorem SameMovement.refl (m : InventoryMovement) : SameMovement m m :=
  ⟨rfl, rfl, rfl, rfl, fun _ => ⟨rfl, rfl⟩⟩

theorem SameMovement.trans (h : SameMovement m m') (h' : SameMovement m' m'') :
    SameMovement m m'' := by
  refine ⟨h'.id.trans h.id, h'.item.trans h.item, h'.warehouse.trans h.warehouse,
    h'.quantity.trans h.quantity, fun hcost => ?_⟩
  obtain ⟨hunit, htotal⟩ := h.cost hcost
  obtain ⟨hunit', htotal'⟩ := h'.cost (htotal ▸ hcost)
  exact ⟨hunit'.trans hunit, htotal'.trans htotal⟩

end Same

section Extends

variable {stamp : Stamp} {A : Permit} {db db' db'' : DB} {c c' : Config}

theorem Extends.refl (db : DB) : Extends db db :=
  ⟨sameItems_refl, .refl SameLayer.refl, .refl SameMovement.refl, [],
    (List.append_nil _).symm, fun _ ha => absurd ha List.not_mem_nil⟩

theorem Extends.trans (h : Extends db db') (h' : Extends db' db'') : Extends db db'' := by
  obtain ⟨f, hf, hitems⟩ := h.items
  obtain ⟨g, hg, hitems'⟩ := h'.items
  obtain ⟨rows, hrows, hfresh⟩ := h.allocations
  obtain ⟨more, hmore, hfresh'⟩ := h'.allocations
  refine ⟨⟨fun row => g (f row), fun row => (hf row).trans (hg _), ?_⟩,
    h.layers.trans (fun _ _ _ => SameLayer.trans) h'.layers,
    h.movements.trans (fun _ _ _ => SameMovement.trans) h'.movements, rows ++ more, ?_, ?_⟩
  · rw [hitems', hitems, List.map_map]
    rfl
  · rw [hmore, hrows, List.append_assoc]
  · intro a ha m hm hid
    rcases List.mem_append.mp ha with ha | ha
    · exact hfresh a ha m hm hid
    · obtain ⟨k, added, hk, hmoves⟩ := h.movements
      have hmem : k m ∈ db'.movements :=
        hmoves ▸ List.mem_append_left _ (List.mem_map.mpr ⟨m, hm, rfl⟩)
      have hnone := hfresh' a ha (k m) hmem ((hk m hm).id.trans hid)
      by_contra hcost
      exact hcost (((hk m hm).cost hcost).2.symm.trans hnone)

theorem Extends.of_eq (hitems : db'.items = db.items) (hlayers : db'.layers = db.layers)
    (hmovements : Lib.Grown SameMovement db.movements db'.movements)
    (hallocations : db'.allocations = db.allocations) : Extends db db' :=
  ⟨⟨id, SameItem.refl, by rw [hitems, List.map_id]⟩, .of_eq SameLayer.refl hlayers, hmovements,
    [], by rw [hallocations, List.append_nil], fun _ ha => absurd ha List.not_mem_nil⟩

/-- The layers a receipt opens stand behind those there were. -/
theorem openLayersFor_append (db : DB) (input : ReceiveInput) (costs : List CostAllocation) :
    ∃ opened, (openLayersFor db input costs).layers = db.layers ++ opened ∧
      opened.map (fun l => (l.receivedQuantity, l.unitCost)) =
        costs.map fun a => (a.quantity, a.unitCost) := by
  induction costs generalizing db with
  | nil => exact ⟨[], (List.append_nil _).symm, rfl⟩
  | cons a rest ih =>
      obtain ⟨opened, happend, hopened⟩ := ih (db.takeId.insertLayer
        (layerOf input db.nextId a.quantity a.unitCost))
      refine ⟨_ :: opened, happend.trans (List.append_assoc _ [_] opened), ?_⟩
      rw [List.map_cons, List.map_cons, hopened]
      rfl

theorem Received.layers_grown {input : ReceiveInput} {unitCost : ℚ}
    (h : Received stamp input db unitCost db') : Lib.Grown SameLayer db.layers db'.layers := by
  cases h with
  | fifo hitem hmethod hcost =>
      obtain ⟨opened, happend, -⟩ :=
        openLayersFor_append db input [⟨none, input.quantity, unitCost⟩]
      have hlayers := happend
      rw [← DB.setMovementCost_layers, ← freeze_layers] at hlayers
      exact .of_append SameLayer.refl hlayers
  | average hitem hmethod hcost htotal hopening =>
      refine .of_eq SameLayer.refl ?_
      rw [freeze_layers, DB.setMovementCost_layers, setAverage_layers]
  | standard hitem hmethod hcost =>
      refine .of_eq SameLayer.refl ?_
      rw [freeze_layers, DB.setMovementCost_layers]

theorem Issued.layers_grown {input : IssueInput} (h : Issued stamp input db db') :
    Lib.Grown SameLayer db.layers db'.layers := by
  cases h with
  | fifo hitem hmethod hcover =>
      refine .of_map (fun l _ => ?_)
        ((writeIssueCost_layers _ _ _ _).trans (chargeLayers_layers _ _))
      rfl
  | flat hitem hmethod => exact .of_eq SameLayer.refl (writeIssueCost_layers _ _ _ _)

theorem ReceivedTransfer.layers_grown {input : ReceiveTransferInput}
    (h : ReceivedTransfer stamp input db db') : Lib.Grown SameLayer db.layers db'.layers := by
  cases h with
  | @fifo item source unitCost hitem hmethod hsource hunit hquantity hcover =>
      obtain ⟨opened, happend, -⟩ := openLayersFor_append db (transferReceipt input unitCost)
        (copiedCosts stamp db input)
      have hlayers := happend
      rw [← DB.setMovementCost_layers, ← freeze_layers] at hlayers
      exact .of_append SameLayer.refl hlayers
  | other hitem hmethod hsource hunit hreceived =>
      rw [freeze_layers]
      exact hreceived.layers_grown

/-- A movement that is recorded and costed in one go adds to the ledger. -/
theorem Extends.recorded {db₁ : DB} {pending : List InventoryMovement} {m : InventoryMovement}
    {movementId : Id}
    (h : Costed movementId (db₁.record m) db') (hid : movementId = m.id)
    (hitems : db₁.items = db.items) (hmovements : db₁.movements = db.movements)
    (hallocations : db₁.allocations = db.allocations)
    (hlayers : Lib.Grown SameLayer db.layers db'.layers)
    (hs : Sound ⟨db₁, pending⟩) (hnext : m.id = db₁.nextId) : Extends db db' := by
  obtain ⟨unitCost, totalCost, hmov⟩ := h.recorded hid (hnext ▸ hs.movementIds)
  obtain ⟨g, hg, hitems'⟩ := h.items
  obtain ⟨rows, hrows, hof⟩ := h.allocations
  rw [hmovements] at hmov
  refine ⟨⟨g, hg, ?_⟩, hlayers, .of_append SameMovement.refl hmov, rows, ?_,
    fun a ha r hr hrid => ?_⟩
  · rw [hitems']
    exact congrArg _ hitems
  · rw [hrows]
    exact congrArg (· ++ rows) hallocations
  · rw [hof a ha, hid, hnext] at hrid
    exact absurd hrid (Nat.ne_of_lt (hs.movementIds.lt r (hmovements ▸ hr)))

theorem Step.extends (hs : Sound c) (h : Step stamp A c c') : Extends c.db c'.db := by
  cases h with
  | elsewhere hsame ht =>
      exact .of_eq hsame.items hsame.layers (.of_eq SameMovement.refl hsame.movements)
        hsame.allocations
  | transfers hA hsame hlines =>
      exact .of_eq hsame.items hsame.layers (.of_eq SameMovement.refl hsame.movements)
        hsame.allocations
  | @receive db db' pending e hA =>
      refine .recorded e.received.costed e.movementId (DB.addStock_items _ _ _ _)
        (DB.addStock_movements _ _ _ _) (DB.addStock_allocations _ _ _ _) ?_
        (hs.addStock (le_of_lt e.quantity_pos)) e.written.id
      have hgrown := e.received.layers_grown
      exact (DB.addStock_layers _ _ _ _) ▸ hgrown
  | @issue db db' pending e hissued hA hship =>
      have hcosted : Costed e.input.movementId
          ((db.shiftStock e.row.id (-e.input.quantity)).record e.movement) db' := hissued.costed
      exact .recorded hcosted e.movementId rfl rfl rfl hissued.layers_grown (hs.takeStock e.source)
        e.written.id
  | note hkind howned hw =>
      exact .of_eq rfl rfl (.of_append SameMovement.refl rfl) rfl
  | @transferIn db db' pending e hA hcost =>
      refine .recorded e.received.costed e.movementId (DB.addStock_items _ _ _ _)
        (DB.addStock_movements _ _ _ _) (DB.addStock_allocations _ _ _ _) ?_
        (hs.addStock (e.quantity_nonneg)) e.written.id
      have hgrown := e.received.layers_grown
      exact (DB.addStock_layers _ _ _ _) ▸ hgrown
  | reserve e hA => exact .of_eq rfl rfl (.of_append SameMovement.refl rfl) rfl
  | claim e hA =>
      refine .of_eq rfl rfl (.of_map (fun m _ => ?_) rfl) rfl
      split
      · obtain ⟨referenceType, type, hf⟩ := e.same m
        rw [hf]
        exact ⟨rfl, rfl, rfl, rfl, fun _ => ⟨rfl, rfl⟩⟩
      · exact SameMovement.refl m
  | @restore db reservation rest e hA =>
      have hmov := congrArg (· ++ [e.movement]) (DB.addStock_movements db (some e.warehouseId)
        reservation.inventoryItemId reservation.quantity)
      exact .of_eq (DB.addStock_items _ _ _ _) (DB.addStock_layers _ _ _ _)
        (.of_append SameMovement.refl hmov) (DB.addStock_allocations _ _ _ _)
  | @cost db db' reservation rest tenantId hA hissued =>
      have hclaimed := hs.pending reservation List.mem_cons_self
      obtain ⟨m, hm, hid, -, -, -, -, hout⟩ := hclaimed.row
      have hcosted := hissued.costed
      obtain ⟨unitCost, totalCost, hmov⟩ := hcosted.movements
      obtain ⟨rows, hrows, hof⟩ := hcosted.allocations
      refine ⟨hcosted.items, hissued.layers_grown, .of_map (fun r hr => ?_) hmov, rows, hrows,
        fun a ha r hr hrid => ?_⟩
      · split
        · have heq : r = m := hs.movementIds.eq_of_key hr hm (by rw [hid]; assumption)
          exact ⟨rfl, rfl, rfl, rfl, fun hcost => absurd (heq ▸ hout.uncosted) hcost⟩
        · exact SameMovement.refl r
      · rw [hof a ha] at hrid
        rw [hs.movementIds.eq_of_key hr hm (hrid.trans hid.symm)]
        exact hout.uncosted

theorem Run.extends (hs : Sound c) (h : Run stamp A c c') : Extends c.db c'.db := by
  induction h with
  | refl => exact .refl _
  | tail hrun hstep ih => exact ih.trans (hstep.extends (hs.run hrun))

/-- The allocations of a movement, in the order a receipt of it reads them. -/
def orderedAllocations (stamp : Stamp) (db : DB) (movementId : Id) :
    List InventoryMovementCostAllocation :=
  Lib.orderBy (allocationKey stamp db) (db.allocationsOf movementId)

/-- The rows that the allocations of a movement refer to are there. -/
structure References (db : DB) (movementId : Id) : Prop where
  layers : ∀ row ∈ db.allocationsOf movementId, ∀ id, row.costLayerId = some id →
    (db.layerById id).isSome
  sources : ∀ l ∈ db.layers, ∀ id, l.sourceMovementId = some id → (db.movementById id).isSome

theorem Extends.allocationsOf (h : Extends db db') {movementId : Id} {m : InventoryMovement}
    (hm : db.movementById movementId = some m) (hcost : m.totalCost ≠ none) :
    db'.allocationsOf movementId = db.allocationsOf movementId := by
  obtain ⟨rows, hrows, hfresh⟩ := h.allocations
  have hid : m.id = movementId := by simpa using List.find?_some hm
  unfold DB.allocationsOf
  rw [hrows, List.filter_append]
  have hnone : rows.filter (fun row => row.movementId = movementId) = [] := by
    refine List.filter_eq_nil_iff.mpr fun a ha hof => ?_
    have hof' : a.movementId = movementId := of_decide_eq_true hof
    exact hcost (hfresh a ha m (List.mem_of_find?_eq_some hm) (hid.trans hof'.symm))
  rw [hnone, List.append_nil]

theorem Extends.movementById (h : Extends db db') {movementId : Id} {m : InventoryMovement}
    (hm : db.movementById movementId = some m) :
    ∃ m', db'.movementById movementId = some m' ∧ SameMovement m m' :=
  h.movements.find? InventoryMovement.id (fun _ _ => SameMovement.id) hm

theorem Extends.layerById (h : Extends db db') {layerId : Id} {l : InventoryCostLayer}
    (hl : db.layerById layerId = some l) :
    ∃ l', db'.layerById layerId = some l' ∧ SameLayer l l' :=
  h.layers.find? InventoryCostLayer.id (fun _ _ => SameLayer.id) hl

/-- An allocation keeps its place in the order. -/
theorem Extends.allocationKey (h : Extends db db') {movementId : Id}
    (hrefs : References db movementId)
    {row : InventoryMovementCostAllocation} (hrow : row ∈ db.allocationsOf movementId) :
    allocationKey stamp db' row = allocationKey stamp db row := by
  unfold Inventory.allocationKey
  cases hlayer : row.costLayerId with
  | none => rfl
  | some id =>
      obtain ⟨l, hl⟩ := Option.isSome_iff_exists.mp (hrefs.layers row hrow id hlayer)
      obtain ⟨l', hl', hsame⟩ := h.layerById hl
      simp only [Option.bind_some, hl, hl', hsame.source, Option.map_some, hsame.id]
      cases hsource : l.sourceMovementId with
      | none => rfl
      | some sourceId =>
          obtain ⟨m, hm⟩ := Option.isSome_iff_exists.mp
            (hrefs.sources l (List.mem_of_find?_eq_some hl) sourceId hsource)
          obtain ⟨m', hm', hsame'⟩ := h.movementById hm
          simp only [Option.bind_some, hm, hm', Option.map_some, hsame'.id]

theorem Extends.orderedAllocations (h : Extends db db') {movementId : Id}
    (hrefs : References db movementId) {m : InventoryMovement}
    (hm : db.movementById movementId = some m) (hcost : m.totalCost ≠ none) :
    orderedAllocations stamp db' movementId = orderedAllocations stamp db movementId := by
  unfold Inventory.orderedAllocations
  rw [h.allocationsOf hm hcost]
  have hkeys : Lib.orderBy (Inventory.allocationKey stamp db')
      ((db.allocationsOf movementId).map id) =
      (Lib.orderBy (Inventory.allocationKey stamp db) (db.allocationsOf movementId)).map id :=
    Lib.orderBy_map fun row hrow => h.allocationKey hrefs hrow
  rwa [List.map_id, List.map_id] at hkeys

end Extends

end Inventory
end ERP
