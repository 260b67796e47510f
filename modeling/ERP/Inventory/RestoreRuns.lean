import ERP.Inventory.PartialReceipts

/-!
# Runs of costing calls

Whatever calls come between, a movement's allocations are what its issue charged, and what
a layer lacks of its receipt is at least what the movements that are still issued took of it.
-/

namespace ERP
namespace Inventory

open Lib.Tx

/-- What the issued movements took of a layer. -/
def outstanding (db : DB) (issued : List Id) (layerId : Id) : ℚ :=
  (db.allocations.map fun row =>
    if row.movementId ∈ issued ∧ row.costLayerId = some layerId then row.quantity else 0).sum

/-- The database, and the movements that were issued and not restored. -/
structure Books where
  db : DB
  issued : List Id

/-- What is left of a layer and what the issued movements took of it are within its receipt. -/
structure Accounted (b : Books) : Prop where
  layerIds : ∀ l ∈ b.db.layers, l.id < b.db.nextId
  references : ∀ row ∈ b.db.allocations, ∀ id, row.costLayerId = some id → id < b.db.nextId
  nonneg : ∀ row ∈ b.db.allocations, row.costLayerId ≠ none → 0 ≤ row.quantity
  within : ∀ l ∈ b.db.layers,
    l.remainingQuantity + outstanding b.db b.issued l.id ≤ l.receivedQuantity

/-- What the callers write between two costing calls: stock, and movements of their own. -/
structure CallerWrites (db db' : DB) : Prop where
  items : db'.items = db.items
  layers : db'.layers = db.layers
  allocations : db'.allocations = db.allocations
  movements : Lib.Grown SameMovement db.movements db'.movements
  nextId : db.nextId ≤ db'.nextId

/-- A costing call that commits.  Each costs a movement of its own, and a restore is of a
movement that was issued and not restored. -/
inductive CostingCall (stamp : Stamp) : Books → Books → Prop
  | write {db db' issued} (h : CallerWrites db db') : CostingCall stamp ⟨db, issued⟩ ⟨db', issued⟩
  | receive {db db' issued} {input : ReceiveInput} {r : ℚ × ℚ}
      (hok : Inventory.receive stamp input db = .ok (r, db')) (hown : input.movementId ∉ issued) :
      CostingCall stamp ⟨db, issued⟩ ⟨db', issued⟩
  | issue {db db' issued} {input : IssueInput} {r : InventoryIssueCost} (hq : 0 < input.quantity)
      (hok : Inventory.issue stamp input db = .ok (r, db')) (hown : input.movementId ∉ issued)
      (hnew : db.allocationsOf input.movementId = []) :
      CostingCall stamp ⟨db, issued⟩ ⟨db', input.movementId :: issued⟩
  | restore {db db' issued} {input : RestoreInput}
      (hok : Inventory.restore stamp input db = .ok ((), db'))
      (hissued : input.sourceMovementId ∈ issued) (hown : input.reversalMovementId ∉ issued) :
      CostingCall stamp ⟨db, issued⟩ ⟨db', issued.filter fun id => id ≠ input.sourceMovementId⟩

/-- A sequence of costing calls, with what their callers write. -/
def CostingCalls (stamp : Stamp) : Books → Books → Prop :=
  Relation.ReflTransGen (CostingCall stamp)

section Rows

variable {stamp : Stamp} {db db' : DB} {issued : List Id}

/-- What a movement's allocations took of a layer. -/
theorem charged_restoredCosts (stamp : Stamp) (db : DB) (movementId layerId : Id) :
    charged (restoredCosts stamp db movementId) layerId =
      (db.allocations.map fun row =>
        if row.movementId = movementId ∧ row.costLayerId = some layerId then row.quantity
        else 0).sum := by
  unfold charged restoredCosts
  rw [List.map_map, ((Lib.orderBy_perm _ _).map _).sum_eq]
  unfold DB.allocationsOf
  rw [Lib.sum_filter_eq]
  refine congrArg List.sum (List.map_congr_left fun row _ => ?_)
  unfold rowCost
  simp only [Function.comp, ite_and]

theorem outstanding_append {rows : List InventoryMovementCostAllocation} {layerId : Id}
    (h : db'.allocations = db.allocations ++ rows) :
    outstanding db' issued layerId = outstanding db issued layerId +
      (rows.map fun row => if row.movementId ∈ issued ∧ row.costLayerId = some layerId
        then row.quantity else 0).sum := by
  unfold outstanding
  rw [h, List.map_append, List.sum_append]

theorem outstanding_append_of_not_mem {rows : List InventoryMovementCostAllocation} {layerId : Id}
    (h : db'.allocations = db.allocations ++ rows) (hrows : ∀ row ∈ rows, row.movementId ∉ issued) :
    outstanding db' issued layerId = outstanding db issued layerId := by
  rw [outstanding_append h]
  have hzero : (rows.map fun row => if row.movementId ∈ issued ∧ row.costLayerId = some layerId
      then row.quantity else 0).sum = 0 := by
    refine List.sum_eq_zero fun q hq => ?_
    obtain ⟨row, hrow, rfl⟩ := List.mem_map.mp hq
    exact if_neg fun hboth => hrows row hrow hboth.1
  rw [hzero, add_zero]

/-- A movement that is issued adds what it was charged. -/
theorem outstanding_cons {movementId layerId : Id} (hnew : db.allocationsOf movementId = []) :
    outstanding db (movementId :: issued) layerId = outstanding db issued layerId := by
  unfold outstanding
  refine congrArg List.sum (List.map_congr_left fun row hrow => ?_)
  have hne : row.movementId ≠ movementId := by
    intro heq
    have hmem : row ∈ db.allocationsOf movementId :=
      List.mem_filter.mpr ⟨hrow, decide_eq_true heq⟩
    rw [hnew] at hmem
    exact absurd hmem List.not_mem_nil
  simp only [List.mem_cons, hne, false_or]

/-- A movement that is no longer issued takes with it what it was charged. -/
theorem outstanding_filter (stamp : Stamp) {movementId : Id} (hissued : movementId ∈ issued)
    (layerId : Id) : outstanding db issued layerId =
      outstanding db (issued.filter fun id => id ≠ movementId) layerId +
        charged (restoredCosts stamp db movementId) layerId := by
  rw [charged_restoredCosts]
  unfold outstanding
  rw [← List.sum_map_add]
  refine congrArg List.sum (List.map_congr_left fun row _ => ?_)
  by_cases heq : row.movementId = movementId
  · simp only [heq, hissued, List.mem_filter, ne_eq, not_true_eq_false, decide_false,
      Bool.false_eq_true, and_false, false_and, if_false, true_and, zero_add]
  · simp only [heq, List.mem_filter, ne_eq, not_false_eq_true, decide_true, and_true, false_and,
      if_false, add_zero]

end Rows

section Accounts

variable {stamp : Stamp} {db db' : DB} {issued : List Id} {b b' : Books}

theorem Accounted.receive {input : ReceiveInput} {r : ℚ × ℚ} (h : Accounted ⟨db, issued⟩)
    (hok : Inventory.receive stamp input db = .ok (r, db')) : Accounted ⟨db', issued⟩ := by
  obtain ⟨hcosted, ⟨opened, hlayers, hopened⟩, hallocations⟩ := receive_writes.of_ok hok
  have hsame (layerId : Id) : outstanding db' issued layerId = outstanding db issued layerId := by
    unfold outstanding
    rw [hallocations]
  refine ⟨fun l hl => ?_, fun row hrow id hid => ?_, fun row hrow => ?_, fun l hl => ?_⟩
  · rw [hlayers] at hl
    rcases List.mem_append.mp hl with hl | hl
    · exact (h.layerIds l hl).trans_le hcosted.nextId
    · exact (hopened l hl).2.1
  · rw [hallocations] at hrow
    exact (h.references row hrow id hid).trans_le hcosted.nextId
  · rw [hallocations] at hrow
    exact h.nonneg row hrow
  · show l.remainingQuantity + outstanding db' issued l.id ≤ _
    rw [hsame]
    rw [hlayers] at hl
    rcases List.mem_append.mp hl with hl | hl
    · exact h.within l hl
    · -- nothing was charged to a layer that was just opened
      have hzero : outstanding db issued l.id = 0 := by
        refine List.sum_eq_zero fun q hq => ?_
        obtain ⟨row, hrow, rfl⟩ := List.mem_map.mp hq
        refine if_neg fun hboth => ?_
        exact Nat.not_le_of_lt (h.references row hrow l.id hboth.2) (hopened l hl).1
      rw [hzero, add_zero, (hopened l hl).2.2]

theorem Accounted.issue {input : IssueInput} {item : InventoryItem} {r : InventoryIssueCost}
    (h : Accounted ⟨db, issued⟩)
    (hissued : IssuedAs stamp db input item r db') (hnew : db.allocationsOf input.movementId = []) :
    Accounted ⟨db', input.movementId :: issued⟩ := by
  obtain ⟨rows, happend, hrows⟩ := hissued.rows
  have hnext : db.nextId ≤ db'.nextId := by
    rw [hissued.written]
    unfold writeIssueCost
    rw [freeze_nextId, nextId_insertAllocations, DB.setMovementCost_nextId, chargeLayers_nextId]
    exact Nat.le_add_right _ _
  have hmem := rows_movementId hrows
  refine ⟨fun l hl => ?_, fun row hrow id hid => ?_, fun row hrow hlayer => ?_, fun l hl => ?_⟩
  · rw [hissued.layers] at hl
    obtain ⟨l₀, hl₀, rfl⟩ := List.mem_map.mp hl
    exact (h.layerIds l₀ hl₀).trans_le hnext
  · refine Nat.lt_of_lt_of_le ?_ hnext
    rw [happend] at hrow
    rcases List.mem_append.mp hrow with hrow | hrow
    · exact h.references row hrow id hid
    · obtain ⟨-, l, hl, rfl⟩ := hissued.taken _ (hmem row hrow).2 id hid
      exact h.layerIds l hl
  · rw [happend] at hrow
    rcases List.mem_append.mp hrow with hrow | hrow
    · exact h.nonneg row hrow hlayer
    · obtain ⟨id, hid⟩ := Option.ne_none_iff_exists'.mp hlayer
      exact le_of_lt (hissued.taken _ (hmem row hrow).2 id hid).1
  · rw [hissued.layers] at hl
    obtain ⟨l₀, hl₀, rfl⟩ := List.mem_map.mp hl
    have hwithin : l₀.remainingQuantity + outstanding db issued l₀.id ≤ l₀.receivedQuantity :=
      h.within l₀ hl₀
    have hrowsSum := sum_rows (fun x : Id × CostAllocation =>
      if x.1 ∈ input.movementId :: issued ∧ x.2.costLayerId = some l₀.id then x.2.quantity
      else 0) hrows
    have hcharged : (r.allocations.map fun a =>
        if input.movementId ∈ input.movementId :: issued ∧ a.costLayerId = some l₀.id
        then a.quantity else 0).sum = charged r.allocations l₀.id := by
      simp only [List.mem_cons_self, true_and]
      rfl
    have hout : outstanding db' (input.movementId :: issued) l₀.id =
        outstanding db issued l₀.id + charged r.allocations l₀.id := by
      rw [outstanding_append happend, outstanding_cons hnew, ← hcharged, ← hrowsSum]
      rfl
    show l₀.remainingQuantity - charged r.allocations l₀.id +
      outstanding db' (input.movementId :: issued) l₀.id ≤ l₀.receivedQuantity
    rw [hout]
    linarith

theorem Accounted.restore {input : RestoreInput} {item : InventoryItem}
    (h : Accounted ⟨db, issued⟩) (hissued : input.sourceMovementId ∈ issued)
    (hown : input.reversalMovementId ∉ issued) :
    Accounted ⟨afterRestore stamp db item input,
      issued.filter fun id => id ≠ input.sourceMovementId⟩ := by
  obtain ⟨rows, happend, hrows⟩ := afterRestore_rows stamp db item input
  have hnext : db.nextId ≤ (afterRestore stamp db item input).nextId := afterRestore_nextId
  have hmem := rows_movementId hrows
  have hcopy (row : InventoryMovementCostAllocation) (hrow : row ∈ rows) :
      ∃ row₀ ∈ db.allocations, rowCost row₀ = rowCost row := by
    obtain ⟨row₀, hrow₀, -, heq⟩ := mem_restoredCosts (hmem row hrow).2
    exact ⟨row₀, hrow₀, heq⟩
  refine ⟨fun l hl => ?_, fun row hrow id hid => ?_, fun row hrow hlayer => ?_, fun l hl => ?_⟩
  · have hl' : l ∈ (afterRestore stamp db item input).layers := hl
    rw [afterRestore_layers] at hl'
    obtain ⟨l₀, hl₀, rfl⟩ := List.mem_map.mp hl'
    exact (h.layerIds l₀ hl₀).trans_le hnext
  · refine Nat.lt_of_lt_of_le ?_ hnext
    have hrow' : row ∈ (afterRestore stamp db item input).allocations := hrow
    rw [happend] at hrow'
    rcases List.mem_append.mp hrow' with hold | hadded
    · exact h.references row hold id hid
    · obtain ⟨row₀, hrow₀, heq⟩ := hcopy row hadded
      have hlayer₀ : row₀.costLayerId = row.costLayerId := congrArg CostAllocation.costLayerId heq
      exact h.references row₀ hrow₀ id (hlayer₀.trans hid)
  · have hrow' : row ∈ (afterRestore stamp db item input).allocations := hrow
    rw [happend] at hrow'
    rcases List.mem_append.mp hrow' with hold | hadded
    · exact h.nonneg row hold hlayer
    · obtain ⟨row₀, hrow₀, heq⟩ := hcopy row hadded
      have hlayer₀ : row₀.costLayerId = row.costLayerId := congrArg CostAllocation.costLayerId heq
      have hquantity : row₀.quantity = row.quantity := congrArg CostAllocation.quantity heq
      rw [← hquantity]
      exact h.nonneg row₀ hrow₀ (hlayer₀ ▸ hlayer)
  · have hl' : l ∈ (afterRestore stamp db item input).layers := hl
    rw [afterRestore_layers] at hl'
    obtain ⟨l₀, hl₀, rfl⟩ := List.mem_map.mp hl'
    have hwithin : l₀.remainingQuantity + outstanding db issued l₀.id ≤ l₀.receivedQuantity :=
      h.within l₀ hl₀
    rw [outstanding_filter stamp hissued] at hwithin
    have hout : outstanding (afterRestore stamp db item input)
        (issued.filter fun id => id ≠ input.sourceMovementId) l₀.id =
        outstanding db (issued.filter fun id => id ≠ input.sourceMovementId) l₀.id := by
      refine outstanding_append_of_not_mem happend fun row hrow hin => hown ?_
      rw [(hmem row hrow).1] at hin
      exact List.mem_of_mem_filter hin
    have hcharged : 0 ≤ charged (restoredCosts stamp db input.sourceMovementId) l₀.id := by
      refine List.sum_nonneg fun q hq => ?_
      obtain ⟨a, ha, rfl⟩ := List.mem_map.mp hq
      split
      · rename_i hlayer
        obtain ⟨row, hrow, -, rfl⟩ := mem_restoredCosts ha
        have hlayer' : row.costLayerId = some l₀.id := hlayer
        exact h.nonneg row hrow (by rw [hlayer']; exact Option.some_ne_none _)
      · exact le_refl 0
    show l₀.remainingQuantity + (if item.valuationMethod = some .fifo then
      charged (restoredCosts stamp db input.sourceMovementId) l₀.id else 0) +
      outstanding (afterRestore stamp db item input)
        (issued.filter fun id => id ≠ input.sourceMovementId) l₀.id ≤ l₀.receivedQuantity
    rw [hout]
    split
    · linarith
    · linarith

theorem CostingCall.accounted (h : Accounted b) (hcall : CostingCall stamp b b') :
    Accounted b' := by
  cases hcall with
  | @write db db' issued hwrites =>
      refine ⟨fun l hl => ?_, fun row hrow id hid => ?_, fun row hrow => ?_, fun l hl => ?_⟩
      · rw [hwrites.layers] at hl
        exact (h.layerIds l hl).trans_le hwrites.nextId
      · rw [hwrites.allocations] at hrow
        exact (h.references row hrow id hid).trans_le hwrites.nextId
      · rw [hwrites.allocations] at hrow
        exact h.nonneg row hrow
      · rw [hwrites.layers] at hl
        have hsame : outstanding db' issued l.id = outstanding db issued l.id := by
          unfold outstanding
          rw [hwrites.allocations]
        show l.remainingQuantity + outstanding db' issued l.id ≤ _
        rw [hsame]
        exact h.within l hl
  | receive hok hown => exact h.receive hok
  | issue hq hok hown hnew =>
      obtain ⟨item, -, hissued⟩ := issue_writes hq hok
      exact h.issue hissued hnew
  | restore hok hissued hown =>
      obtain ⟨item, -, -, rfl⟩ := restore_ok hok
      exact h.restore hissued hown

/-- What no call but its own restore changes about an issued movement. -/
structure Kept (movementId : Id) (db db' : DB) : Prop where
  items : ∃ g, (∀ row, SameItem row (g row)) ∧ db'.items = db.items.map g
  allocations : db'.allocationsOf movementId = db.allocationsOf movementId
  movement : ∀ row totalCost, db.movementById movementId = some row →
    row.totalCost = some totalCost →
      ∃ row', db'.movementById movementId = some row' ∧ row'.totalCost = some totalCost

theorem Kept.refl (movementId : Id) (db : DB) : Kept movementId db db :=
  ⟨sameItems_refl, rfl, fun row _ hrow hcost => ⟨row, hrow, hcost⟩⟩

theorem Kept.trans {movementId : Id} {db'' : DB} (h : Kept movementId db db')
    (h' : Kept movementId db' db'') : Kept movementId db db'' := by
  obtain ⟨f, hf, hitems⟩ := h.items
  obtain ⟨g, hg, hitems'⟩ := h'.items
  refine ⟨⟨fun row => g (f row), fun row => (hf row).trans (hg _), ?_⟩,
    h'.allocations.trans h.allocations, fun row totalCost hrow hcost => ?_⟩
  · rw [hitems', hitems, List.map_map]
    rfl
  · obtain ⟨row', hrow', hcost'⟩ := h.movement row totalCost hrow hcost
    exact h'.movement row' totalCost hrow' hcost'

/-- The rows of another movement are not those of this one. -/
theorem allocationsOf_append {movementId other : Id} {rows : List InventoryMovementCostAllocation}
    (h : db'.allocations = db.allocations ++ rows) (hrows : ∀ row ∈ rows, row.movementId = other)
    (hne : other ≠ movementId) : db'.allocationsOf movementId = db.allocationsOf movementId := by
  unfold DB.allocationsOf
  rw [h, List.filter_append]
  have hnone : rows.filter (fun row => row.movementId = movementId) = [] := by
    refine List.filter_eq_nil_iff.mpr fun row hrow hof => hne ?_
    rw [← hrows row hrow]
    exact of_decide_eq_true hof
  rw [hnone, List.append_nil]

theorem movementById_setMovementCost_ne {movementId other : Id} (hne : other ≠ movementId)
    (unitCost totalCost : ℚ) :
    (db.setMovementCost other unitCost totalCost).movementById movementId =
      db.movementById movementId := by
  unfold DB.movementById DB.setMovementCost
  rw [List.find?_map]
  have hsame : ((fun row : InventoryMovement => decide (row.id = movementId)) ∘ fun row =>
      if row.id = other then { row with unitCost := some unitCost, totalCost := some totalCost }
      else row) = fun row => decide (row.id = movementId) := by
    funext row
    simp only [Function.comp]
    split <;> rfl
  rw [hsame]
  cases hfound : db.movements.find? fun row => row.id = movementId with
  | none => rfl
  | some row =>
      have hid : row.id = movementId := by simpa using List.find?_some hfound
      rw [Option.map_some, if_neg (hid ▸ hne.symm)]

theorem Costed.kept {movementId other : Id} (h : Costed other db db') (hne : other ≠ movementId) :
    Kept movementId db db' := by
  obtain ⟨rows, happend, hrows⟩ := h.allocations
  obtain ⟨unitCost, totalCost, hmov⟩ := h.movements
  refine ⟨h.items, allocationsOf_append happend hrows hne, fun row cost hrow hcost => ?_⟩
  have hfound : db'.movementById movementId =
      (db.setMovementCost other unitCost totalCost).movementById movementId := by
    unfold DB.movementById
    rw [hmov]
  exact ⟨row, by rw [hfound, movementById_setMovementCost_ne hne, hrow], hcost⟩

theorem IssuedAs.costed {input : IssueInput} {item : InventoryItem} {r : InventoryIssueCost}
    (h : IssuedAs stamp db input item r db') : Costed input.movementId db db' := by
  rw [h.written]
  refine Costed.of_write _ (chargeLayers_movements db _) ?_ ?_ (chargeLayers_allocations db _)
    (fun hk => ?_) ?_ (chargeLayers_outside db _)
  · rw [chargeLayers_stocks]
    exact sameStocks_refl
  · rw [chargeLayers_items]
    exact sameItems_refl
  · rw [chargeLayers_nextId]
    exact chargeLayers_layerIds hk
  · rw [chargeLayers_nextId]

theorem afterRestore_kept {movementId : Id} {input : RestoreInput} {item : InventoryItem}
    (hne : input.reversalMovementId ≠ movementId) :
    Kept movementId db (afterRestore stamp db item input) := by
  obtain ⟨rows, happend, hrows⟩ := afterRestore_rows stamp db item input
  refine ⟨afterRestore_items,
    allocationsOf_append happend (fun row hrow => (rows_movementId hrows row hrow).1) hne,
    fun row cost hrow hcost => ⟨row, ?_, hcost⟩⟩
  have hfound : (afterRestore stamp db item input).movementById movementId =
      (db.setMovementCost input.reversalMovementId
        (allocatedCost (restoredCosts stamp db input.sourceMovementId) / input.quantity)
        (allocatedCost (restoredCosts stamp db input.sourceMovementId))).movementById
        movementId := by
    unfold DB.movementById
    rw [afterRestore_movements]
  rw [hfound, movementById_setMovementCost_ne hne, hrow]

/-- A movement that is issued still was issued before, and the call left it alone. -/
theorem CostingCall.kept {movementId : Id} (h : CostingCall stamp b b')
    (hbefore : movementId ∈ b.issued) : Kept movementId b.db b'.db := by
  have hne {other : Id} (hother : other ∉ b.issued) : other ≠ movementId :=
    fun heq => hother (heq ▸ hbefore)
  cases h with
  | write hwrites =>
      refine ⟨?_, ?_, fun row cost hrow hcost => ?_⟩
      · rw [hwrites.items]
        exact sameItems_refl
      · unfold DB.allocationsOf
        rw [hwrites.allocations]
      · obtain ⟨row', hrow', hsame⟩ :=
          hwrites.movements.find? InventoryMovement.id (fun _ _ => SameMovement.id) hrow
        refine ⟨row', hrow', (hsame.cost ?_).2.trans hcost⟩
        rw [hcost]
        exact Option.some_ne_none _
  | receive hok hown => exact (receive_writes.of_ok hok).1.kept (hne hown)
  | issue hq hok hown hnew =>
      obtain ⟨item, -, hissued⟩ := issue_writes hq hok
      exact hissued.costed.kept (hne hown)
  | restore hok hissued hown =>
      obtain ⟨item, -, -, rfl⟩ := restore_ok hok
      exact afterRestore_kept (hne hown)

theorem CostingCall.appends (h : CostingCall stamp b b') :
    ∃ rows, b'.db.allocations = b.db.allocations ++ rows := by
  cases h with
  | write hwrites => exact ⟨[], by rw [hwrites.allocations, List.append_nil]⟩
  | receive hok hown =>
      obtain ⟨-, -, hallocations⟩ := receive_writes.of_ok hok
      exact ⟨[], by rw [hallocations, List.append_nil]⟩
  | issue hq hok hown hnew =>
      obtain ⟨item, -, hissued⟩ := issue_writes hq hok
      obtain ⟨rows, happend, -⟩ := hissued.rows
      exact ⟨rows, happend⟩
  | restore hok hissued hown =>
      obtain ⟨item, -, -, rfl⟩ := restore_ok hok
      obtain ⟨rows, happend, -⟩ := afterRestore_rows stamp _ item _
      exact ⟨rows, happend⟩

/-- No call issues a movement that was charged before. -/
theorem CostingCall.issued_before {movementId : Id} (h : CostingCall stamp b b')
    (hcharged : b.db.allocationsOf movementId ≠ []) (hafter : movementId ∈ b'.issued) :
    movementId ∈ b.issued := by
  cases h with
  | write hwrites => exact hafter
  | receive hok hown => exact hafter
  | issue hq hok hown hnew =>
      rcases List.mem_cons.mp hafter with heq | hmem
      · rw [heq] at hcharged
        exact absurd hnew hcharged
      · exact hmem
  | restore hok hissued hown => exact List.mem_of_mem_filter hafter

/-- A movement with allocations that is issued at the end of a run was issued all along. -/
theorem CostingCalls.kept {movementId : Id} (h : CostingCalls stamp b b')
    (hcharged : b.db.allocationsOf movementId ≠ []) :
    b'.db.allocationsOf movementId ≠ [] ∧
      (movementId ∈ b'.issued → Kept movementId b.db b'.db) := by
  induction h with
  | refl => exact ⟨hcharged, fun _ => .refl _ _⟩
  | tail _ hcall ih =>
      refine ⟨?_, fun hafter => ?_⟩
      · obtain ⟨rows, happend⟩ := hcall.appends
        unfold DB.allocationsOf at ih ⊢
        rw [happend, List.filter_append]
        exact List.append_ne_nil_of_left_ne_nil ih.1 _
      · have hbefore := hcall.issued_before ih.1 hafter
        exact (ih.2 hbefore).trans (hcall.kept hbefore)

theorem CostingCalls.accounted (h : Accounted b) (hrun : CostingCalls stamp b b') :
    Accounted b' := by
  induction hrun with
  | refl => exact h
  | tail _ hcall ih => exact hcall.accounted ih

end Accounts

end Inventory
end ERP
