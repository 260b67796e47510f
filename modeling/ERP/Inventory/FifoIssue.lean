import ERP.Inventory.CostingSpec
import ERP.Inventory.Quantities
import ERP.Lib.FifoParts

/-!
# Issuing a FIFO item

An issue takes from the front of the open layers, all or nothing, and two issues one
after the other take what one issue of both quantities takes.
-/

namespace ERP
namespace Inventory

open Lib.Tx

/-- What the open layers of an item at a location hold. -/
def availableQuantity (db : DB) (input : IssueInput) : ℚ :=
  ((db.layers.filter fun layer => layer.tenantId = input.tenantId ∧
    layer.inventoryItemId = input.inventoryItemId ∧ layer.warehouseId = input.warehouseId ∧
    0 < layer.remainingQuantity).map (·.remainingQuantity)).sum

/-- What an allocation is charged to, and how much of it. -/
def CostAllocation.piece (a : CostAllocation) : (Option Id × ℚ) × ℚ :=
  ((a.costLayerId, a.unitCost), a.quantity)

/-- The allocations with neighbouring pieces of one layer made one. -/
def mergedAllocations (allocations : List CostAllocation) : List ((Option Id × ℚ) × ℚ) :=
  Lib.joined (allocations.map CostAllocation.piece)

/-- What an issue that succeeded did: oldest first, it emptied the layers `done`, took `part`
of the next one, and left the others alone. -/
structure FifoIssued (stamp : Stamp) (db : DB) (input : IssueInput) (done : List InventoryCostLayer)
    (last : InventoryCostLayer) (later : List InventoryCostLayer) (part : ℚ)
    (r : InventoryIssueCost) (db' : DB) : Prop where
  order : openLayers stamp db input.tenantId input.inventoryItemId input.warehouseId =
    done ++ last :: later
  ascending : (done ++ last :: later).Pairwise fun a b => layerKey stamp db a ≤ layerKey stamp db b
  part_pos : 0 < part
  part_le : part ≤ last.remainingQuantity
  allocations : r.allocations =
    (done.map fun l => ⟨some l.id, l.remainingQuantity, l.unitCost⟩) ++
      [⟨some last.id, part, last.unitCost⟩]
  quantity : (r.allocations.map (·.quantity)).sum = input.quantity
  totalCost : r.totalCost = allocatedCost r.allocations
  layers : db'.layers = db.layers.map fun l => { l with
    remainingQuantity :=
      if l.id ∈ done.map (·.id) then 0
      else if l.id = last.id then l.remainingQuantity - part else l.remainingQuantity }
  movement : db'.movements =
    (db.setMovementCost input.movementId r.unitCost r.totalCost).movements
  stored : ∃ rows, db'.allocations = db.allocations ++ rows ∧
    rows.map (fun row => (row.movementId,
      (⟨row.costLayerId, row.quantity, row.unitCost⟩ : CostAllocation))) =
      r.allocations.map fun a => (input.movementId, a)

section Issue

variable {stamp : Stamp} {db db' : DB} {input : IssueInput} {item : InventoryItem}
  {tenantId itemId : Id}

theorem post_of_run {α : Type} {m : Tx α} {a : α} {Q : α → DB → Prop} {E : Failure → Prop}
    (h : m db = .ok (a, db')) (hQ : Q a db') : Post m db Q E := by
  unfold Post
  rw [h]
  exact hQ

theorem lockItem_run (h : Locked db tenantId itemId item) :
    lockItem tenantId itemId db = .ok (item, db) := by
  refine Post.eq_ok ?_
  unfold lockItem
  simp only [post_bind, post_get, post_expect, post_require, post_pure, h.found]
  refine ⟨fun found hfound => ?_, fun hnone => absurd hnone (Option.some_ne_none item)⟩
  cases hfound
  exact ⟨fun _ => ⟨fun _ => ⟨fun _ => ⟨rfl, trivial⟩, fun hno => hno h.standard⟩,
    fun hno => hno h.scope⟩, fun hno => hno h.method⟩

/-- The item as another transaction finds it, when only what costing writes to an item
changed. -/
theorem Locked.of_items (h : Locked db tenantId itemId item) {g : InventoryItem → InventoryItem}
    (hg : ∀ row, SameItem row (g row)) (hitems : db'.items = db.items.map g) :
    Locked db' tenantId itemId (g item) := by
  refine ⟨?_, ?_, ?_, ?_⟩
  · rw [hitems, List.find?_map]
    have hsame : ((fun row : InventoryItem =>
      decide (row.id = itemId ∧ row.tenantId = tenantId)) ∘ g)
        = fun row => decide (row.id = itemId ∧ row.tenantId = tenantId) := by
      funext row
      simp only [Function.comp, (hg row).id, (hg row).tenant]
    rw [hsame, h.found]
    rfl
  · rw [(hg item).method]
    exact h.method
  · rw [(hg item).method, (hg item).scope]
    exact h.scope
  · rw [(hg item).method, (hg item).standard]
    exact h.standard

theorem sum_openLayers_eq :
    ((openLayers stamp db input.tenantId input.inventoryItemId input.warehouseId).map
      (·.remainingQuantity)).sum = availableQuantity db input :=
  ((Lib.orderBy_perm _ _).map _).sum_eq

theorem openLayers_pos : ∀ l ∈ openLayers stamp db input.tenantId input.inventoryItemId
    input.warehouseId, 0 < l.remainingQuantity := by
  intro l hl
  simp only [openLayers, Lib.mem_orderBy, List.mem_filter, decide_eq_true_eq] at hl
  exact hl.2.2.2.2

/-- An issue of a FIFO item draws on the open layers. -/
theorem issueAllocations_fifo (hfifo : item.valuationMethod = some .fifo)
    (hq : 0 < input.quantity) :
    issueAllocations stamp item input db =
      if input.quantity ≤ availableQuantity db input then
        .ok (fifoCharges stamp db input, chargeLayers db (fifoCharges stamp db input))
      else .error .fifoLayersDoNotCover := by
  have hdrawn : Lib.drawn (Lib.draw (·.remainingQuantity) (openLayers stamp db input.tenantId
      input.inventoryItemId input.warehouseId) input.quantity) = min input.quantity _ :=
    Lib.drawn_draw (fun l hl => le_of_lt (openLayers_pos l hl)) (le_of_lt hq)
  rw [sum_openLayers_eq] at hdrawn
  unfold issueAllocations
  rw [hfifo]
  unfold consumeFifoLayers
  by_cases hcover : input.quantity ≤ availableQuantity db input
  · rw [if_pos hcover]
    rw [min_eq_left hcover] at hdrawn
    refine Post.eq_ok ?_
    simp only [post_bind, post_get]
    refine consumeLayers_post ?_
    rw [post_require, hdrawn, sub_self]
    exact ⟨fun _ => ⟨rfl, rfl⟩, fun hmissing => hmissing (lt_irrefl 0)⟩
  · rw [if_neg hcover]
    rw [min_eq_right (le_of_not_ge hcover)] at hdrawn
    refine Post.eq_error ?_
    simp only [post_bind, post_get]
    refine consumeLayers_post ?_
    rw [post_require, hdrawn]
    exact ⟨fun hnone => hnone (by linarith [lt_of_not_ge hcover]), fun _ => rfl⟩

/-- What an issue of a FIFO item returns. -/
def fifoCost (stamp : Stamp) (db : DB) (input : IssueInput) : InventoryIssueCost where
  unitCost := allocatedCost (fifoCharges stamp db input) / input.quantity
  totalCost := allocatedCost (fifoCharges stamp db input)
  allocations := fifoCharges stamp db input

/-- The database after an issue of a FIFO item. -/
def afterIssue (stamp : Stamp) (db : DB) (input : IssueInput) (item : InventoryItem) : DB :=
  writeIssueCost stamp (chargeLayers db (fifoCharges stamp db input)) input item
    (fifoCharges stamp db input)

theorem issue_fifo (hitem : Locked db input.tenantId input.inventoryItemId item)
    (hfifo : item.valuationMethod = some .fifo) (hq : 0 < input.quantity) :
    issue stamp input db =
      if input.quantity ≤ availableQuantity db input then
        .ok (fifoCost stamp db input, afterIssue stamp db input item)
      else .error .fifoLayersDoNotCover := by
  have hcharged : issueAllocations stamp item input db = _ := issueAllocations_fifo hfifo hq
  by_cases hcover : input.quantity ≤ availableQuantity db input
  · rw [if_pos hcover] at hcharged ⊢
    refine Post.eq_ok ?_
    unfold issue
    rw [post_bind]
    refine post_of_run (lockItem_run hitem) ?_
    rw [post_bind]
    refine post_of_run hcharged ?_
    unfold decimalDiv
    simp only [post_bind, post_require, post_pure, post_modify]
    refine ⟨fun _ => ?_, fun hzero => hzero (ne_of_gt hq)⟩
    exact createAllocations_post (lockValuation_post ⟨rfl, rfl⟩)
  · rw [if_neg hcover] at hcharged ⊢
    refine Post.eq_error ?_
    unfold issue
    rw [post_bind]
    refine post_of_run (lockItem_run hitem) ?_
    rw [post_bind]
    unfold Post
    rw [hcharged]

/-- A layer once the allocations are charged to it. -/
def chargedLayer (allocations : List CostAllocation) (l : InventoryCostLayer) :
    InventoryCostLayer :=
  { l with remainingQuantity := l.remainingQuantity - charged allocations l.id }

theorem afterIssue_layers : (afterIssue stamp db input item).layers =
    db.layers.map (chargedLayer (fifoCharges stamp db input)) := by
  unfold afterIssue writeIssueCost
  rw [freeze_layers, insertAllocations_layers, DB.setMovementCost_layers, chargeLayers_layers]
  rfl

theorem afterIssue_movements : (afterIssue stamp db input item).movements =
    (db.setMovementCost input.movementId (fifoCost stamp db input).unitCost
      (fifoCost stamp db input).totalCost).movements := by
  unfold afterIssue writeIssueCost
  rw [freeze_movements, insertAllocations_movements,
    DB.setMovementCost_movements_congr _ _ _ (chargeLayers_movements _ _)]
  rfl

/-- The rows that record the allocations of a movement. -/
theorem insertAllocations_rows (db : DB) (movementId : Id) (allocations : List CostAllocation) :
    ∃ rows, (insertAllocations db movementId allocations).allocations = db.allocations ++ rows ∧
      rows.map (fun row => (row.movementId,
        (⟨row.costLayerId, row.quantity, row.unitCost⟩ : CostAllocation))) =
        allocations.map fun a => (movementId, a) := by
  induction allocations generalizing db with
  | nil => exact ⟨[], (List.append_nil _).symm, rfl⟩
  | cons a rest ih =>
      obtain ⟨rows, happend, hrows⟩ := ih (db.takeId.insertAllocation
        { id := db.nextId, movementId, costLayerId := a.costLayerId, quantity := a.quantity,
          unitCost := a.unitCost })
      refine ⟨_ :: rows, happend.trans (List.append_assoc _ [_] rows), ?_⟩
      rw [List.map_cons, List.map_cons, hrows]

theorem afterIssue_allocations (stamp : Stamp) (db : DB) (input : IssueInput)
    (item : InventoryItem) : ∃ rows,
    (afterIssue stamp db input item).allocations = db.allocations ++ rows ∧
      rows.map (fun row => (row.movementId,
        (⟨row.costLayerId, row.quantity, row.unitCost⟩ : CostAllocation))) =
        (fifoCharges stamp db input).map fun a => (input.movementId, a) := by
  unfold afterIssue writeIssueCost
  rw [freeze_allocations]
  obtain ⟨rows, happend, hrows⟩ := insertAllocations_rows
    ((chargeLayers db (fifoCharges stamp db input)).setMovementCost input.movementId
      (allocatedCost (fifoCharges stamp db input) / input.quantity)
      (allocatedCost (fifoCharges stamp db input)))
    input.movementId (fifoCharges stamp db input)
  rw [DB.setMovementCost_allocations, chargeLayers_allocations] at happend
  exact ⟨rows, happend, hrows⟩

theorem afterIssue_items (stamp : Stamp) (db : DB) (input : IssueInput) (item : InventoryItem) :
    ∃ g, (∀ row, SameItem row (g row)) ∧
    (afterIssue stamp db input item).items = db.items.map g := by
  unfold afterIssue writeIssueCost
  refine freeze_items_of ?_
  rw [insertAllocations_items, DB.setMovementCost_items, chargeLayers_items]
  exact ⟨id, SameItem.refl, (List.map_id _).symm⟩

/-- An issue does not change the place of a layer in the order. -/
theorem layerKey_afterIssue {l l' : InventoryCostLayer} (hid : l'.id = l.id)
    (hsource : l'.sourceMovementId = l.sourceMovementId) :
    layerKey stamp (afterIssue stamp db input item) l' = layerKey stamp db l := by
  have hmovement (id : Id) : ((afterIssue stamp db input item).movementById id).map (·.id) =
      (db.movementById id).map (·.id) := by
    unfold DB.movementById
    rw [afterIssue_movements]
    unfold DB.setMovementCost
    rw [List.find?_map]
    have hsame : ((fun row : InventoryMovement => decide (row.id = id)) ∘ fun row =>
        if row.id = input.movementId then { row with
          unitCost := some (fifoCost stamp db input).unitCost,
          totalCost := some (fifoCost stamp db input).totalCost } else row) =
        fun row => decide (row.id = id) := by
      funext row
      simp only [Function.comp]
      split <;> rfl
    rw [hsame, Option.map_map]
    refine congrFun (congrArg Option.map (funext fun row => ?_)) _
    simp only [Function.comp]
    split <;> rfl
  unfold layerKey
  rw [hid, hsource]
  cases l.sourceMovementId with
  | none => rfl
  | some id => rw [Option.bind_some, Option.bind_some, hmovement]

/-- The open layers after an issue are what the issue left of them. -/
theorem openLayers_afterIssue (input : IssueInput) (item : InventoryItem)
    (hids : db.layers.Pairwise fun l l' => l.id ≠ l'.id) :
    openLayers stamp (afterIssue stamp db input item) input.tenantId input.inventoryItemId
      input.warehouseId =
      (Lib.left (·.remainingQuantity) (openLayers stamp db input.tenantId input.inventoryItemId
        input.warehouseId) input.quantity).map fun e => { e.1 with remainingQuantity := e.2 } := by
  have hopen : (openLayers stamp db input.tenantId input.inventoryItemId
      input.warehouseId).Pairwise fun l l' => l.id ≠ l'.id :=
    (Lib.orderBy_perm _ _).symm.pairwise (hids.filter _) fun h => h.symm
  have hcharged (l : InventoryCostLayer) : charged (fifoCharges stamp db input) l.id =
      Lib.drawnFrom (·.id) l.id (Lib.draw (·.remainingQuantity) (openLayers stamp db input.tenantId
        input.inventoryItemId input.warehouseId) input.quantity) :=
    charged_drawn _ _
  have hnonneg (l : InventoryCostLayer) : 0 ≤ charged (fifoCharges stamp db input) l.id := by
    rw [hcharged]
    exact Lib.drawnFrom_nonneg fun l hl => le_of_lt (openLayers_pos l hl)
  rw [Lib.left_eq openLayers_pos hopen, List.map_map]
  have hsort (rows : List InventoryCostLayer) :
      Lib.orderBy (layerKey stamp (afterIssue stamp db input item))
        (rows.map (chargedLayer (fifoCharges stamp db input))) =
        (Lib.orderBy (layerKey stamp db) rows).map (chargedLayer (fifoCharges stamp db input)) :=
    Lib.orderBy_map fun l _ => layerKey_afterIssue rfl rfl
  unfold openLayers at hcharged ⊢
  rw [afterIssue_layers, List.filter_map, hsort]
  -- a layer that is open after the issue was open before it
  have hfilter : (db.layers.filter ((fun layer : InventoryCostLayer => decide
      (layer.tenantId = input.tenantId ∧ layer.inventoryItemId = input.inventoryItemId ∧
        layer.warehouseId = input.warehouseId ∧ 0 < layer.remainingQuantity)) ∘
      chargedLayer (fifoCharges stamp db input))) =
      (db.layers.filter fun layer => layer.tenantId = input.tenantId ∧
        layer.inventoryItemId = input.inventoryItemId ∧ layer.warehouseId = input.warehouseId ∧
        0 < layer.remainingQuantity).filter fun l =>
          0 < l.remainingQuantity - charged (fifoCharges stamp db input) l.id := by
    rw [List.filter_filter]
    refine List.filter_congr fun l _ => ?_
    rw [← Bool.decide_and]
    refine decide_eq_decide.mpr ⟨fun h => ⟨h.2.2.2, h.1, h.2.1, h.2.2.1, ?_⟩,
      fun h => ⟨h.2.1, h.2.2.1, h.2.2.2.1, h.1⟩⟩
    have hleft : 0 < l.remainingQuantity - charged (fifoCharges stamp db input) l.id := h.2.2.2
    linarith [hnonneg l]
  rw [hfilter, Lib.orderBy_filter]
  simp only [hcharged, Function.comp_def]
  refine List.map_congr_left fun l _ => ?_
  unfold chargedLayer
  rw [hcharged]

/-- An issue that succeeds empties the oldest layers and takes a part of the next. -/
theorem fifoIssued (hids : db.layers.Pairwise fun l l' => l.id ≠ l'.id) (hq : 0 < input.quantity)
    (hcover : input.quantity ≤ availableQuantity db input) :
    ∃ done last later part, FifoIssued stamp db input done last later part
      (fifoCost stamp db input) (afterIssue stamp db input item) := by
  have hopen : (openLayers stamp db input.tenantId input.inventoryItemId
      input.warehouseId).Pairwise fun l l' => l.id ≠ l'.id :=
    (Lib.orderBy_perm _ _).symm.pairwise (hids.filter _) fun h => h.symm
  obtain ⟨done, last, later, part, hqueue, hpart, hle, hdraw, hsum⟩ :=
    Lib.draw_split openLayers_pos hq (hcover.trans_eq sum_openLayers_eq.symm)
  have hcharges : fifoCharges stamp db input =
      (done.map fun l => ⟨some l.id, l.remainingQuantity, l.unitCost⟩) ++
        [⟨some last.id, part, last.unitCost⟩] := by
    unfold fifoCharges
    rw [hdraw, List.map_append, List.map_map]
    rfl
  have hstored (l : InventoryCostLayer) (hl : l ∈ done ++ last :: later) : l ∈ db.layers := by
    rw [← hqueue] at hl
    simp only [openLayers, Lib.mem_orderBy, List.mem_filter] at hl
    exact hl.1
  rw [hqueue, List.pairwise_append] at hopen
  obtain ⟨hdone, -, hbehind⟩ := hopen
  have hascending : (done ++ last :: later).Pairwise fun a b =>
      layerKey stamp db a ≤ layerKey stamp db b :=
    hqueue ▸ Lib.orderBy_sorted _ _
  refine ⟨done, last, later, part, hqueue, hascending, hpart, hle, hcharges, ?_, rfl, ?_,
    afterIssue_movements, afterIssue_allocations _ _ _ _⟩
  · show ((fifoCharges stamp db input).map (·.quantity)).sum = _
    rw [hcharges, List.map_append, List.sum_append, List.map_map]
    simpa [Function.comp_def] using hsum
  · rw [afterIssue_layers]
    refine List.map_congr_left fun l hl => ?_
    have hcharged : charged (fifoCharges stamp db input) l.id =
        (done.map fun d => if d.id = l.id then d.remainingQuantity else 0).sum +
          if last.id = l.id then part else 0 := by
      rw [hcharges]
      simp [charged, Function.comp_def]
    unfold chargedLayer
    rw [hcharged]
    by_cases hmem : l.id ∈ done.map (·.id)
    · obtain ⟨d, hd, hid⟩ := List.mem_map.mp hmem
      have hsame : d = l := Lib.eq_of_key_of_ne hids
        (hstored d (List.mem_append_left _ hd)) hl hid
      have hunique : done.Pairwise fun p q => ¬ (p.id = l.id ∧ q.id = l.id) :=
        hdone.imp fun hne hboth => hne (hboth.1.trans hboth.2.symm)
      have hlast : last.id ≠ l.id := by
        rw [← hid]
        exact (hbehind d hd last List.mem_cons_self).symm
      rw [if_pos hmem, if_neg hlast, Lib.sum_unique hunique hd hid (·.remainingQuantity), hsame,
        add_zero, sub_self]
    · have hzero : (done.map fun d => if d.id = l.id then d.remainingQuantity else 0).sum = 0 := by
        refine List.sum_eq_zero fun x hx => ?_
        obtain ⟨d, hd, rfl⟩ := List.mem_map.mp hx
        exact if_neg fun hid => hmem (List.mem_map.mpr ⟨d, hd, hid⟩)
      rw [if_neg hmem, hzero, zero_add]
      by_cases hid : l.id = last.id
      · rw [if_pos hid, if_pos hid.symm]
      · rw [if_neg hid, if_neg fun h => hid h.symm, sub_zero]

/-- The pieces a draw on layers charges. -/
theorem mergedAllocations_drawn {d : List (InventoryCostLayer × ℚ)}
    (hids : db.layers.Pairwise fun l l' => l.id ≠ l'.id) (hd : ∀ e ∈ d, e.1 ∈ db.layers) :
    mergedAllocations (d.map drawnAllocation) =
      (Lib.joined d).map fun e => ((some e.1.id, e.1.unitCost), e.2) := by
  unfold mergedAllocations
  rw [List.map_map]
  refine Lib.joined_map (f := fun l : InventoryCostLayer => (some l.id, l.unitCost))
    fun e he e' he' hsame => ?_
  rw [Prod.mk.injEq, Option.some.injEq] at hsame
  exact Lib.eq_of_key_of_ne hids (hd e he) (hd e' he') hsame.1

/-- The same issue of another quantity, recorded on another movement. -/
def IssueInput.of (input : IssueInput) (quantity : ℚ) (movementId : Id) : IssueInput :=
  { input with quantity, movementId }

/-- Two issues one after the other are charged to the pieces of one issue. -/
theorem mergedAllocations_issues (hids : db.layers.Pairwise fun l l' => l.id ≠ l'.id) {a b : ℚ}
    {first second : Id} (ha : 0 < a) (hb : 0 < b) (hsum : a + b = input.quantity) :
    mergedAllocations (fifoCharges stamp db (input.of a first) ++
      fifoCharges stamp (afterIssue stamp db (input.of a first) item) (input.of b second)) =
      mergedAllocations (fifoCharges stamp db input) := by
  have hstored : ∀ l ∈ openLayers stamp db input.tenantId input.inventoryItemId input.warehouseId,
      l ∈ db.layers := by
    intro l hl
    simp only [openLayers, Lib.mem_orderBy, List.mem_filter] at hl
    exact hl.1
  have hnodup : (openLayers stamp db input.tenantId input.inventoryItemId
      input.warehouseId).Nodup := by
    have hdistinct : (db.layers.filter fun layer => layer.tenantId = input.tenantId ∧
        layer.inventoryItemId = input.inventoryItemId ∧ layer.warehouseId = input.warehouseId ∧
        0 < layer.remainingQuantity).Nodup :=
      (hids.filter _).imp fun hne heq => hne (congrArg (·.id) heq)
    exact (Lib.orderBy_perm _ _).nodup_iff.mpr hdistinct
  have hsecond : fifoCharges stamp (afterIssue stamp db (input.of a first) item)
      (input.of b second) =
      ((Lib.draw (fun e : InventoryCostLayer × ℚ => e.2)
        (Lib.left (·.remainingQuantity) (openLayers stamp db input.tenantId input.inventoryItemId
          input.warehouseId) a) b).map fun e => (e.1.1, e.2)).map drawnAllocation := by
    have hopen : openLayers stamp (afterIssue stamp db (input.of a first) item) input.tenantId
        input.inventoryItemId input.warehouseId =
        (Lib.left (·.remainingQuantity) (openLayers stamp db input.tenantId input.inventoryItemId
          input.warehouseId) a).map fun e => { e.1 with remainingQuantity := e.2 } :=
      openLayers_afterIssue (input.of a first) item hids
    show (Lib.draw (·.remainingQuantity) (openLayers stamp
      (afterIssue stamp db (input.of a first) item) input.tenantId input.inventoryItemId
      input.warehouseId) b).map drawnAllocation = _
    rw [hopen, Lib.draw_map, List.map_map, List.map_map]
    rfl
  rw [hsecond]
  show mergedAllocations ((Lib.draw (·.remainingQuantity) (openLayers stamp db input.tenantId
    input.inventoryItemId input.warehouseId) a).map drawnAllocation ++ _) = _
  have hwhole : mergedAllocations (fifoCharges stamp db input) =
      (Lib.joined (Lib.draw (·.remainingQuantity) (openLayers stamp db input.tenantId
        input.inventoryItemId input.warehouseId) input.quantity)).map
        fun e => ((some e.1.id, e.1.unitCost), e.2) :=
    mergedAllocations_drawn hids fun e he => hstored e.1 (Lib.mem_of_mem_draw he)
  rw [hwhole, Lib.joined_eq_self (Lib.draw_pairwise hnodup), ← hsum,
    ← Lib.joined_draw_left openLayers_pos hnodup (le_of_lt ha) (le_of_lt hb), ← List.map_append]
  refine mergedAllocations_drawn hids fun e he => ?_
  rcases List.mem_append.mp he with he | he
  · exact hstored e.1 (Lib.mem_of_mem_draw he)
  · obtain ⟨drawnPiece, hdrawn, rfl⟩ := List.mem_map.mp he
    have hleft := Lib.mem_of_mem_left (Lib.mem_of_mem_draw hdrawn)
    exact hstored _ hleft

/-- A sum over allocations, by the pieces they merge to. -/
theorem sum_mergedAllocations (f : Option Id × ℚ → ℚ) (allocations : List CostAllocation) :
    ((mergedAllocations allocations).map fun e => e.2 * f e.1).sum =
      (allocations.map fun a => a.quantity * f (a.costLayerId, a.unitCost)).sum := by
  unfold mergedAllocations
  rw [Lib.sum_joined, List.map_map]
  rfl

theorem allocatedCost_of_merged {c c' : List CostAllocation}
    (h : mergedAllocations c = mergedAllocations c') : allocatedCost c = allocatedCost c' := by
  have hc := sum_mergedAllocations (fun k => k.2) c
  have hc' := sum_mergedAllocations (fun k => k.2) c'
  rw [h] at hc
  exact hc.symm.trans hc'

theorem charged_of_merged {c c' : List CostAllocation}
    (h : mergedAllocations c = mergedAllocations c') (layerId : Id) :
    charged c layerId = charged c' layerId := by
  have hcharged (c : List CostAllocation) : charged c layerId =
      (c.map fun a => a.quantity * if a.costLayerId = some layerId then 1 else 0).sum := by
    unfold charged
    simp
  have hc := sum_mergedAllocations (fun k => if k.1 = some layerId then 1 else 0) c
  have hc' := sum_mergedAllocations (fun k => if k.1 = some layerId then 1 else 0) c'
  rw [h] at hc
  rw [hcharged, hcharged]
  exact hc.symm.trans hc'

theorem charged_append (c c' : List CostAllocation) (layerId : Id) :
    charged (c ++ c') layerId = charged c layerId + charged c' layerId := by
  unfold charged
  rw [List.map_append, List.sum_append]

/-- What is available after an issue. -/
theorem availableQuantity_afterIssue (input : IssueInput) (item : InventoryItem)
    (hids : db.layers.Pairwise fun l l' => l.id ≠ l'.id) (hq : 0 < input.quantity)
    (hcover : input.quantity ≤ availableQuantity db input) :
    availableQuantity (afterIssue stamp db input item) input =
      availableQuantity db input - input.quantity := by
  have hopen : ((openLayers stamp db input.tenantId input.inventoryItemId input.warehouseId).map
      (·.remainingQuantity)).sum = availableQuantity db input := sum_openLayers_eq
  have hleft := Lib.sum_left openLayers_pos (le_of_lt hq) (hcover.trans_eq hopen.symm)
  rw [hopen] at hleft
  have hafter : ((openLayers stamp (afterIssue stamp db input item) input.tenantId
      input.inventoryItemId input.warehouseId).map (·.remainingQuantity)).sum = _ :=
    sum_openLayers_eq
  rw [← hafter, openLayers_afterIssue input item hids, List.map_map]
  exact hleft

end Issue

/-- An issue of a FIFO item takes the oldest stock first, all or nothing, and two issues
one after the other do what one issue of both quantities does. -/
theorem fifo_issue_additive {stamp : Stamp} {db : DB} {input : IssueInput} {item : InventoryItem}
    (hids : db.layers.Pairwise fun l l' => l.id ≠ l'.id)
    (hitem : Locked db input.tenantId input.inventoryItemId item)
    (hfifo : item.valuationMethod = some .fifo) (hq : 0 < input.quantity) :
    ((∃ r db', issue stamp input db = .ok (r, db')) ↔
      input.quantity ≤ availableQuantity db input) ∧
    (∀ r db', issue stamp input db = .ok (r, db') → ∃ done last later part,
      FifoIssued stamp db input done last later part r db') ∧
    (∀ e, issue stamp input db = .error e → commit (issue stamp input) db = db) ∧
    ∀ a b first second, 0 < a → 0 < b → a + b = input.quantity →
      input.quantity ≤ availableQuantity db input →
      ∃ r₁ db₁ r₂ db₂ r db', issue stamp (input.of a first) db = .ok (r₁, db₁) ∧
        issue stamp (input.of b second) db₁ = .ok (r₂, db₂) ∧
        issue stamp input db = .ok (r, db') ∧ db₂.layers = db'.layers ∧
        r₁.totalCost + r₂.totalCost = r.totalCost ∧
        mergedAllocations (r₁.allocations ++ r₂.allocations) = mergedAllocations r.allocations := by
  have hissue : issue stamp input db = _ := issue_fifo hitem hfifo hq
  refine ⟨⟨fun hok => ?_, fun hcover => ?_⟩, fun r db' hok => ?_, fun e herror => ?_,
    fun a b first second ha hb hsum hcover => ?_⟩
  · by_contra hshort
    rw [hissue, if_neg hshort] at hok
    obtain ⟨r, db', hok⟩ := hok
    cases hok
  · rw [hissue, if_pos hcover]
    exact ⟨_, _, rfl⟩
  · by_cases hcover : input.quantity ≤ availableQuantity db input
    · rw [hissue, if_pos hcover] at hok
      cases hok
      exact fifoIssued hids hq hcover
    · rw [hissue, if_neg hcover] at hok
      cases hok
  · exact commit_of_error herror
  · have hfirst : issue stamp (input.of a first) db = _ := issue_fifo hitem hfifo ha
    have hfits : (input.of a first).quantity ≤ availableQuantity db (input.of a first) := by
      show a ≤ availableQuantity db input
      linarith
    rw [if_pos hfits] at hfirst
    -- the second issue finds the item as before, and what the first left of its layers
    obtain ⟨g, hg, hitems⟩ := afterIssue_items stamp db (input.of a first) item
    have hitem' : Locked (afterIssue stamp db (input.of a first) item) input.tenantId
        input.inventoryItemId (g item) := hitem.of_items hg hitems
    have hrest : (input.of b second).quantity ≤ availableQuantity
        (afterIssue stamp db (input.of a first) item) (input.of b second) := by
      have hleft : availableQuantity (afterIssue stamp db (input.of a first) item)
          (input.of a first) = _ :=
        availableQuantity_afterIssue (input.of a first) item hids ha hfits
      show b ≤ availableQuantity (afterIssue stamp db (input.of a first) item) (input.of a first)
      rw [hleft]
      show b ≤ availableQuantity db input - a
      linarith
    have hsecond : issue stamp (input.of b second)
      (afterIssue stamp db (input.of a first) item) = _ :=
      issue_fifo hitem' ((hg item).method.trans hfifo) hb
    rw [if_pos hrest] at hsecond
    have hmerged : mergedAllocations (fifoCharges stamp db (input.of a first) ++
        fifoCharges stamp (afterIssue stamp db (input.of a first) item) (input.of b second)) =
        mergedAllocations (fifoCharges stamp db input) :=
      mergedAllocations_issues hids ha hb hsum
    rw [if_pos hcover] at hissue
    refine ⟨_, _, _, _, _, _, hfirst, hsecond, hissue, ?_, ?_, hmerged⟩
    · rw [afterIssue_layers, afterIssue_layers, afterIssue_layers, List.map_map]
      refine List.map_congr_left fun l _ => ?_
      have hcharged := charged_of_merged hmerged l.id
      rw [charged_append] at hcharged
      simp only [Function.comp, chargedLayer, ← hcharged, sub_sub]
    · have hcost := allocatedCost_of_merged hmerged
      unfold allocatedCost at hcost
      rw [List.map_append, List.sum_append] at hcost
      exact hcost

/-- Flour in two layers at warehouse 4, four of it at 15 and six at 10, the latter opened
first. -/
def flourInTwoLayers : DB where
  nextId := 10
  tenants := [⟨1, .retail⟩]
  warehouses := [⟨4, 1, none, true⟩]
  items := [⟨5, 1, "Flour", some .fifo, none, none, none, none⟩]
  products := []
  stocks := [⟨6, some 4, 5, 10, none⟩]
  movements := [⟨9, 1, .sale, 8, some 10, some 2, 5, none, none, some 4, none, none⟩]
  layers := [⟨7, 1, 5, some 4, none, .openingBalance, none, 6, 6, 10⟩,
    ⟨8, 1, 5, some 4, none, .openingBalance, none, 4, 4, 15⟩]
  allocations := []
  transfers := []
  transferReceipts := []
  suppliers := []
  purchaseOrders := []
  purchaseReceipts := []
  priceVariances := []
  orders := []
  outbox := []

/-- Eight of it leave the first layer empty. -/
theorem fifo_issue_additive_example :
    ∃ r db', issue .sequential ⟨1, 5, some 4, 8, 9⟩ flourInTwoLayers = .ok (r, db') ∧
      r.totalCost = 90 ∧ ∃ done last later part,
        FifoIssued .sequential flourInTwoLayers ⟨1, 5, some 4, 8, 9⟩ done last later
        part r db' := by
  have hitem : Locked flourInTwoLayers 1 5 ⟨5, 1, "Flour", some .fifo, none, none, none, none⟩ :=
    ⟨rfl, by simp, by simp, by simp⟩
  have hiff : (∃ r db', issue .sequential ⟨1, 5, some 4, 8, 9⟩ flourInTwoLayers = .ok (r, db')) ↔
    _ :=
    (fifo_issue_additive (by decide) hitem rfl (by decide)).1
  obtain ⟨r, db', hok⟩ := hiff.mpr (by decide +kernel)
  refine ⟨r, db', hok, ?_,
    (fifo_issue_additive (by decide) hitem rfl (by decide)).2.1 r db' hok⟩
  have hrun : (issue .sequential ⟨1, 5, some 4, 8, 9⟩ flourInTwoLayers).toOption.map
      (·.1.totalCost) = some 90 := by
    decide +kernel
  rw [hok] at hrun
  exact Option.some.inj hrun

end Inventory
end ERP
