import Mathlib.Logic.Relation
import ERP.Inventory.Ledger

/-!
# Entries of the ledger as steps

`Step` lists what an operation can do to the ledger, one constructor for each
kind of entry, and `Run` is any sequence of them.  A `Permit` says which kinds an
operation makes and which receipts it books.  A configuration also carries
the reservations that were claimed but not yet settled: between the two, the
stock they stand for is in neither the stock rows nor the ACTIVE movements.
-/

namespace ERP
namespace Inventory

/-- A database in the middle of an operation. -/
structure Config where
  db : DB
  pending : List InventoryMovement

/-- A stock row with another average is the same row otherwise. -/
structure SameStock (r s : InventoryStock) : Prop where
  id : s.id = r.id
  warehouse : s.warehouseId = r.warehouseId
  item : s.inventoryItemId = r.inventoryItemId
  quantity : s.quantity = r.quantity

/-- An item row with another average or frozen since is the same row otherwise. -/
structure SameItem (r s : InventoryItem) : Prop where
  id : s.id = r.id
  tenant : s.tenantId = r.tenantId
  method : s.valuationMethod = r.valuationMethod
  scope : s.movingAverageScope = r.movingAverageScope
  standard : s.standardCost = r.standardCost

/-- What costing a movement leaves of the database, whatever the method. -/
structure Costed (movementId : Id) (db db' : DB) : Prop where
  movements : ∃ unitCost totalCost, db'.movements =
    (db.setMovementCost movementId unitCost totalCost).movements
  stocks : ∃ f, (∀ row, SameStock row (f row)) ∧ db'.stocks = db.stocks.map f
  items : ∃ f, (∀ row, SameItem row (f row)) ∧ db'.items = db.items.map f
  allocations : ∃ as, db'.allocations = db.allocations ++ as ∧
    ∀ a ∈ as, a.movementId = movementId
  allocationIds : Lib.Keyed (·.id) db.nextId db.allocations →
    Lib.Keyed (·.id) db'.nextId db'.allocations
  layerIds : Lib.Keyed (·.id) db.nextId db.layers → Lib.Keyed (·.id) db'.nextId db'.layers
  nextId : db.nextId ≤ db'.nextId
  outside : db'.outside = db.outside

section Costed

variable {stamp : Stamp} {db db' : DB}

theorem SameStock.refl (r : InventoryStock) : SameStock r r := ⟨rfl, rfl, rfl, rfl⟩

theorem SameItem.refl (r : InventoryItem) : SameItem r r := ⟨rfl, rfl, rfl, rfl, rfl⟩

theorem SameItem.trans {r s t : InventoryItem} (h : SameItem r s) (k : SameItem s t) :
    SameItem r t :=
  ⟨k.id.trans h.id, k.tenant.trans h.tenant, k.method.trans h.method, k.scope.trans h.scope,
    k.standard.trans h.standard⟩

/-- An update of the item rows that keeps what `SameItem` keeps. -/
theorem updateItem_items {id : Id} {f : InventoryItem → InventoryItem}
    (hf : ∀ row, SameItem row (f row)) :
    ∃ g, (∀ row, SameItem row (g row)) ∧ (db.updateItem id f).items = db.items.map g := by
  refine ⟨fun row => if row.id = id then f row else row, fun row => ?_, rfl⟩
  dsimp only
  split
  · exact hf row
  · exact SameItem.refl row

theorem freeze_items (stamp : Stamp) (db : DB) (item : InventoryItem) :
    ∃ g, (∀ row, SameItem row (g row)) ∧ (freeze stamp db item).items = db.items.map g := by
  unfold freeze
  split
  · exact updateItem_items fun row => ⟨rfl, rfl, rfl, rfl, rfl⟩
  · exact ⟨id, SameItem.refl, (List.map_id _).symm⟩

theorem freeze_items_of {item : InventoryItem} {rows : List InventoryItem}
    (h : ∃ g, (∀ row, SameItem row (g row)) ∧ db.items = rows.map g) :
    ∃ g, (∀ row, SameItem row (g row)) ∧ (freeze stamp db item).items = rows.map g := by
  obtain ⟨f, hf, hrows⟩ := h
  obtain ⟨g, hg, hitems⟩ := freeze_items stamp db item
  refine ⟨fun row => g (f row), fun row => (hf row).trans (hg _), ?_⟩
  rw [hitems, hrows, List.map_map]
  rfl

theorem openLayersFor_layerIds {input : ReceiveInput} {costs : List CostAllocation}
    (h : Lib.Keyed (·.id) db.nextId db.layers) :
    Lib.Keyed (·.id) (openLayersFor db input costs).nextId
      (openLayersFor db input costs).layers := by
  induction costs generalizing db with
  | nil => exact h
  | cons a rest ih => exact ih (h.append rfl)

theorem insertAllocations_ids {movementId : Id} {allocations : List CostAllocation}
    (h : Lib.Keyed (·.id) db.nextId db.allocations) :
    Lib.Keyed (·.id) (insertAllocations db movementId allocations).nextId
      (insertAllocations db movementId allocations).allocations := by
  induction allocations generalizing db with
  | nil => exact h
  | cons a rest ih => exact ih (h.append rfl)

theorem insertAllocations_append (db : DB) (movementId : Id)
    (allocations : List CostAllocation) :
    ∃ as, (insertAllocations db movementId allocations).allocations = db.allocations ++ as ∧
      ∀ a ∈ as, a.movementId = movementId := by
  induction allocations generalizing db with
  | nil => exact ⟨[], (List.append_nil _).symm, by simp⟩
  | cons a rest ih =>
      obtain ⟨as, has, hmov⟩ := ih (db.takeId.insertAllocation
        { id := db.nextId, movementId, costLayerId := a.costLayerId, quantity := a.quantity,
          unitCost := a.unitCost })
      refine ⟨_ :: as, has.trans (List.append_assoc _ [_] as), fun b hb => ?_⟩
      rcases List.mem_cons.mp hb with rfl | hb
      · rfl
      · exact hmov b hb

theorem chargeLayers_layerIds {n : Id} {allocations : List CostAllocation}
    (h : Lib.Keyed (·.id) n db.layers) :
    Lib.Keyed (·.id) n (chargeLayers db allocations).layers := by
  induction allocations generalizing db with
  | nil => exact h
  | cons a rest ih =>
      refine ih ?_
      dsimp only
      cases a.costLayerId with
      | none => exact h
      | some id =>
          refine h.map fun row _ => ?_
          split <;> rfl

/-- Costing comes down to a change of stock averages, item averages and layers,
followed by the cost on the movement, its allocations and the freeze. -/
theorem Costed.of_write {db₁ : DB} {movementId : Id} {unitCost totalCost : ℚ}
    {item : InventoryItem} (allocations : List CostAllocation)
    (hmovements : db₁.movements = db.movements)
    (hstocks : ∃ f, (∀ row, SameStock row (f row)) ∧ db₁.stocks = db.stocks.map f)
    (hitems : ∃ g, (∀ row, SameItem row (g row)) ∧ db₁.items = db.items.map g)
    (hallocations : db₁.allocations = db.allocations)
    (hlayers : Lib.Keyed (·.id) db.nextId db.layers → Lib.Keyed (·.id) db₁.nextId db₁.layers)
    (hnext : db.nextId ≤ db₁.nextId) (houtside : db₁.outside = db.outside) :
    Costed movementId db
      (freeze stamp (insertAllocations (db₁.setMovementCost movementId unitCost totalCost)
        movementId allocations) item) := by
  have hle : db₁.nextId ≤ (insertAllocations (db₁.setMovementCost movementId unitCost totalCost)
      movementId allocations).nextId := by
    rw [nextId_insertAllocations]
    exact Nat.le_add_right _ _
  refine ⟨⟨unitCost, totalCost, ?_⟩, ?_, freeze_items_of ?_, ?_, fun hk => ?_, fun hk => ?_, ?_, ?_⟩
  · rw [freeze_movements, insertAllocations_movements,
      DB.setMovementCost_movements_congr _ _ _ hmovements]
  · simpa using hstocks
  · simpa using hitems
  · have happend := insertAllocations_append
      (db₁.setMovementCost movementId unitCost totalCost) movementId allocations
    simpa [hallocations] using happend
  · rw [freeze_nextId, freeze_allocations]
    refine insertAllocations_ids ?_
    rw [DB.setMovementCost_nextId, DB.setMovementCost_allocations, hallocations]
    exact hk.mono hnext
  · rw [freeze_nextId, freeze_layers, insertAllocations_layers]
    exact (hlayers hk).mono hle
  · rw [freeze_nextId]
    exact hnext.trans hle
  · rw [freeze_outside, insertAllocations_outside, DB.setMovementCost_outside, houtside]

theorem sameStocks_refl : ∃ f, (∀ row, SameStock row (f row)) ∧ db.stocks = db.stocks.map f :=
  ⟨id, SameStock.refl, (List.map_id _).symm⟩

theorem sameItems_refl : ∃ f, (∀ row, SameItem row (f row)) ∧ db.items = db.items.map f :=
  ⟨id, SameItem.refl, (List.map_id _).symm⟩

theorem costed_openLayersFor {input : ReceiveInput} {costs : List CostAllocation}
    {movementId : Id} {unitCost totalCost : ℚ} {item : InventoryItem} :
    Costed movementId db
      (freeze stamp ((openLayersFor db input costs).setMovementCost movementId unitCost totalCost)
        item) := by
  refine Costed.of_write [] (openLayersFor_movements db costs input) ?_ ?_
    (openLayersFor_allocations db costs input) openLayersFor_layerIds ?_
    (openLayersFor_outside db costs input)
  · rw [openLayersFor_stocks]
    exact sameStocks_refl
  · rw [openLayersFor_items]
    exact sameItems_refl
  · rw [nextId_openLayersFor]
    exact Nat.le_add_right _ _

theorem Received.costed {input : ReceiveInput} {unitCost : ℚ}
    (h : Received stamp input db unitCost db') : Costed input.movementId db db' := by
  cases h with
  | fifo hitem hmethod hcost => exact costed_openLayersFor
  | @average item hitem hmethod hcost htotal hopening =>
      refine Costed.of_write [] ?_ ?_ ?_ ?_ (fun hk => ?_) ?_ ?_ <;>
        unfold setAverage <;> split
      · rfl
      · rfl
      · exact sameStocks_refl
      · refine ⟨_, fun row => ?_, rfl⟩
        split
        · exact ⟨rfl, rfl, rfl, rfl⟩
        · exact SameStock.refl row
      · exact updateItem_items fun row => ⟨rfl, rfl, rfl, rfl, rfl⟩
      · exact sameItems_refl
      · rfl
      · rfl
      · exact hk
      · exact hk
      · exact le_refl _
      · exact le_refl _
      · rfl
      · rfl
  | standard hitem hmethod hcost =>
      exact Costed.of_write [] rfl sameStocks_refl sameItems_refl rfl id
        (le_refl _) rfl

theorem Issued.costed {input : IssueInput} (h : Issued stamp input db db') :
    Costed input.movementId db db' := by
  cases h with
  | fifo hitem hmethod hcover =>
      refine Costed.of_write _ (chargeLayers_movements db _) ?_ ?_ (chargeLayers_allocations db _)
        (fun hk => ?_) ?_ (chargeLayers_outside db _)
      · rw [chargeLayers_stocks]
        exact sameStocks_refl
      · rw [chargeLayers_items]
        exact sameItems_refl
      · rw [chargeLayers_nextId]
        exact chargeLayers_layerIds hk
      · rw [chargeLayers_nextId]
  | flat hitem hmethod =>
      exact Costed.of_write _ rfl sameStocks_refl sameItems_refl rfl id (le_refl _) rfl

theorem Issued.stocks {input : IssueInput} (h : Issued stamp input db db') :
    db'.stocks = db.stocks := by
  cases h with
  | fifo hitem hmethod hcover => simp [writeIssueCost]
  | flat hitem hmethod => simp [writeIssueCost]

theorem ReceivedTransfer.costed {input : ReceiveTransferInput}
    (h : ReceivedTransfer stamp input db db') : Costed input.movementId db db' := by
  cases h with
  | fifo hitem hmethod hsource hunit hquantity hcover => exact costed_openLayersFor
  | @other item source sourceCost unitCost db₁ hitem hmethod hsource hunit hreceived =>
      have hc := hreceived.costed
      refine ⟨?_, ?_, freeze_items_of hc.items, ?_, fun hk => ?_, fun hk => ?_, ?_, ?_⟩
      · rw [freeze_movements]
        exact hc.movements
      · rw [freeze_stocks]
        exact hc.stocks
      · rw [freeze_allocations]
        exact hc.allocations
      · rw [freeze_nextId, freeze_allocations]
        exact hc.allocationIds hk
      · rw [freeze_nextId, freeze_layers]
        exact hc.layerIds hk
      · rw [freeze_nextId]
        exact hc.nextId
      · rw [freeze_outside]
        exact hc.outside

theorem setMovementCost_record {m : InventoryMovement} {unitCost totalCost : ℚ}
    (hk : Lib.Keyed (·.id) m.id db.movements) :
    ((db.record m).setMovementCost m.id unitCost totalCost).movements =
      db.movements ++ [{ m with unitCost := some unitCost, totalCost := some totalCost }] := by
  change (db.movements ++ [m]).map _ = _
  rw [List.map_append, List.map_singleton, if_pos rfl]
  congr 1
  conv_rhs => rw [← List.map_id db.movements]
  refine List.map_congr_left fun row hrow => ?_
  rw [if_neg (Nat.ne_of_lt (hk.lt row hrow))]
  rfl

/-- A movement recorded and costed stands behind the movements there were. -/
theorem Costed.recorded {m : InventoryMovement} {movementId : Id}
    (h : Costed movementId (db.record m) db') (hid : movementId = m.id)
    (hkey : Lib.Keyed (·.id) m.id db.movements) :
    ∃ unitCost totalCost, db'.movements =
      db.movements ++ [{ m with unitCost := some unitCost, totalCost := some totalCost }] := by
  obtain ⟨u, t, hmov⟩ := h.movements
  rw [hid] at hmov
  exact ⟨u, t, hmov.trans (setMovementCost_record hkey)⟩

end Costed

/-- A movement as it is inserted, before its cost is known. -/
structure Written (movement : InventoryMovement) (id tenantId : Id) (warehouseId : Option Id)
    (itemId : Id) (before after : ℚ) : Prop where
  id : movement.id = id
  tenant : movement.tenantId = tenantId
  warehouse : movement.warehouseId = warehouseId
  item : movement.inventoryItemId = itemId
  before : movement.beforeQuantity = some before
  after : movement.afterQuantity = some after
  unitCost : movement.unitCost = none
  totalCost : movement.totalCost = none

/-- The item belongs to the tenant. -/
def Owned (db : DB) (tenantId itemId : Id) : Prop :=
  ∃ item ∈ db.items, item.id = itemId ∧ item.tenantId = tenantId

/-- Stock comes in at a known cost. -/
structure ReceiveEntry (stamp : Stamp) (db db' : DB) where
  input : ReceiveInput
  movement : InventoryMovement
  unitCost : ℚ
  quantity_pos : 0 < input.quantity
  written : Written movement
    (db.addStock input.warehouseId input.inventoryItemId input.quantity).nextId input.tenantId
    input.warehouseId input.inventoryItemId
    (db.stockBefore input.warehouseId input.inventoryItemId)
    (db.stockBefore input.warehouseId input.inventoryItemId + input.quantity)
  movementId : input.movementId = movement.id
  kind : movement.referenceType = none ∨ movement.referenceType = some .purchaseOrderReceipt
  received : Received stamp input
    ((db.addStock input.warehouseId input.inventoryItemId input.quantity).record movement)
    unitCost db'

/-- The stock row an entry takes a quantity from. -/
structure Source (db : DB) (row : InventoryStock) (warehouseId : Option Id) (itemId : Id)
    (quantity : ℚ) : Prop where
  mem : row ∈ db.stocks
  warehouse : row.warehouseId = warehouseId
  item : row.inventoryItemId = itemId
  covers : quantity ≤ row.quantity

/-- Stock is about to go out: the row is decremented and the movement inserted,
the cost is still to be charged. -/
structure IssueStart (db : DB) where
  input : IssueInput
  row : InventoryStock
  movement : InventoryMovement
  quantity_pos : 0 < input.quantity
  source : Source db row input.warehouseId input.inventoryItemId input.quantity
  written : Written movement db.nextId input.tenantId input.warehouseId input.inventoryItemId
    row.quantity (row.quantity - input.quantity)
  movementId : input.movementId = movement.id
  kind : movement.referenceType = none ∨ movement.referenceType = some .order ∨
    movement.referenceType = some .warehouseTransferShipment

/-- The database once the row is decremented and the movement inserted. -/
def IssueStart.taken {db : DB} (e : IssueStart db) : DB :=
  (db.shiftStock e.row.id (-e.input.quantity)).record e.movement

/-- A transferred line comes in, at the costs it was shipped with. -/
structure TransferInEntry (stamp : Stamp) (db db' : DB) where
  input : ReceiveTransferInput
  movement : InventoryMovement
  quantity_nonneg : 0 ≤ input.quantity
  written : Written movement
    (db.addStock (some input.warehouseId) input.inventoryItemId input.quantity).nextId
    input.tenantId (some input.warehouseId) input.inventoryItemId
    (db.stockBefore (some input.warehouseId) input.inventoryItemId)
    (db.stockBefore (some input.warehouseId) input.inventoryItemId + input.quantity)
  movementId : input.movementId = movement.id
  kind : movement.referenceType = some .warehouseTransferReceipt
  received : ReceivedTransfer stamp input
    ((db.addStock (some input.warehouseId) input.inventoryItemId input.quantity).record movement)
    db'

/-- Stock is set aside for an order. -/
structure ReserveEntry (db : DB) where
  row : InventoryStock
  quantity : ℚ
  tenantId : Id
  movement : InventoryMovement
  quantity_pos : 0 < quantity
  source : Source db row row.warehouseId row.inventoryItemId quantity
  warehouse : row.warehouseId ≠ none
  owned : Owned db tenantId row.inventoryItemId
  written : Written movement db.nextId tenantId row.warehouseId row.inventoryItemId row.quantity
    (row.quantity - quantity)
  kind : movement.referenceType = some .orderReservation
  movementQuantity : movement.quantity = quantity

/-- The reservations that satisfy `p` are taken out of the ACTIVE ones. -/
structure ClaimEntry (db : DB) where
  p : InventoryMovement → Bool
  f : InventoryMovement → InventoryMovement
  active : ∀ m ∈ db.movements, p m = true → m.referenceType = some .orderReservation
  claimed : ∀ m, (f m).referenceType ≠ some .orderReservation ∧
    (f m).referenceType ≠ some .warehouseTransferShipment ∧
    (f m).referenceType ≠ some .warehouseTransferReceipt
  same : ∀ m, ∃ referenceType type, f m = { m with referenceType, type }

/-- The stock of a claimed reservation is given back. -/
structure RestoreEntry (db : DB) (reservation : InventoryMovement) where
  warehouseId : Id
  movement : InventoryMovement
  warehouse : reservation.warehouseId = some warehouseId
  written : Written movement
    (db.addStock (some warehouseId) reservation.inventoryItemId reservation.quantity).nextId
    reservation.tenantId (some warehouseId) reservation.inventoryItemId
    (db.stockBefore (some warehouseId) reservation.inventoryItemId)
    (db.stockBefore (some warehouseId) reservation.inventoryItemId + reservation.quantity)
  kind : movement.referenceType = some .orderReservationRelease

/-- The issue that charges a committed reservation. -/
def reservationIssue (tenantId : Id) (reservation : InventoryMovement) : IssueInput :=
  { tenantId, inventoryItemId := reservation.inventoryItemId,
    warehouseId := reservation.warehouseId, quantity := reservation.quantity,
    movementId := reservation.id }

/-- Nothing of the ledger changed. -/
structure SameLedger (db db' : DB) : Prop where
  items : db'.items = db.items
  stocks : db'.stocks = db.stocks
  movements : db'.movements = db.movements
  layers : db'.layers = db.layers
  allocations : db'.allocations = db.allocations
  nextId : db.nextId ≤ db'.nextId

/-- Nothing of the transfers and their receipts changed. -/
structure SameTransfers (db db' : DB) : Prop where
  transfers : db'.transfers = db.transfers
  receipts : db'.transferReceipts = db.transferReceipts

/-- Every transfer line is for something and has received no more than that, and
the lines of a transfer differ in id and in item. -/
structure LinesSound (db : DB) : Prop where
  ids : Lib.Keyed (·.id) db.nextId db.transfers
  bounds : ∀ t ∈ db.transfers, ∀ l ∈ t.items,
    0 < l.quantity ∧ 0 ≤ l.receivedQuantity ∧ l.receivedQuantity ≤ l.quantity
  distinct : ∀ t ∈ db.transfers, t.items.Pairwise fun a b =>
    a.id ≠ b.id ∧ a.inventoryItemId ≠ b.inventoryItemId

/-- An item received at a location at a cost. -/
structure Receipt where
  inventoryItemId : Id
  warehouseId : Option Id
  unitCost : Option ℚ

/-- The entries an operation may make. -/
structure Permit where
  receipt : Receipt → Prop
  issue : Prop
  reservation : Prop
  transfer : Prop

inductive Step (stamp : Stamp) (A : Permit) : Config → Config → Prop
  | elsewhere {db db' pending} (h : SameLedger db db') (ht : SameTransfers db db') :
      Step stamp A ⟨db, pending⟩ ⟨db', pending⟩
  | transfers {db db' pending} (hA : A.transfer) (h : SameLedger db db')
      (hlines : LinesSound db → LinesSound db') : Step stamp A ⟨db, pending⟩ ⟨db', pending⟩
  | receive {db db' pending} (e : ReceiveEntry stamp db db')
      (hA : A.receipt ⟨e.input.inventoryItemId, e.input.warehouseId, e.input.unitCost⟩) :
      Step stamp A ⟨db, pending⟩ ⟨db', pending⟩
  | issue {db db' pending} (e : IssueStart db) (h : Issued stamp e.input e.taken db')
      (hA : A.issue)
      (hship : e.movement.referenceType = some .warehouseTransferShipment → A.transfer) :
      Step stamp A ⟨db, pending⟩ ⟨db', pending⟩
  | note {db pending movement tenantId w i} (hkind : movement.referenceType = none)
      (howned : Owned db tenantId i)
      (h : Written movement db.nextId tenantId w i (db.stockBefore w i) (db.stockBefore w i)) :
      Step stamp A ⟨db, pending⟩ ⟨db.record movement, pending⟩
  | transferIn {db db' pending} (e : TransferInEntry stamp db db') (hA : A.transfer)
      (hcost : ∀ source, db.movementById e.input.sourceMovementId = some source →
        A.receipt ⟨e.input.inventoryItemId, some e.input.warehouseId, source.unitCost⟩) :
      Step stamp A ⟨db, pending⟩ ⟨db', pending⟩
  | reserve {db pending} (e : ReserveEntry db) (hA : A.reservation) :
      Step stamp A ⟨db, pending⟩
        ⟨(db.shiftStock e.row.id (-e.quantity)).record e.movement, pending⟩
  | claim {db} (e : ClaimEntry db) (hA : A.reservation) :
      Step stamp A ⟨db, []⟩ ⟨db.updateMovements e.p e.f, db.movements.filter e.p⟩
  | restore {db reservation rest} (e : RestoreEntry db reservation) (hA : A.reservation) :
      Step stamp A ⟨db, reservation :: rest⟩
        ⟨(db.addStock (some e.warehouseId) reservation.inventoryItemId
          reservation.quantity).record e.movement, rest⟩
  | cost {db db' reservation rest tenantId} (hA : A.reservation)
      (h : Issued stamp (reservationIssue tenantId reservation) db db') :
      Step stamp A ⟨db, reservation :: rest⟩ ⟨db', rest⟩

/-- A sequence of entries. -/
def Run (stamp : Stamp) (A : Permit) : Config → Config → Prop :=
  Relation.ReflTransGen (Step stamp A)

/-- An issue of item `i` is due that the FIFO layers do not cover. -/
def Uncovered (stamp : Stamp) (i : Id) (c : Config) : Prop :=
  (∃ e : IssueStart c.db, e.input.inventoryItemId = i ∧ Short stamp e.input e.taken) ∨
    ∃ reservation rest tenantId, c.pending = reservation :: rest ∧
      reservation.inventoryItemId = i ∧
      Short stamp (reservationIssue tenantId reservation) c.db

/-- `A` allows no more than `B` does. -/
structure Permit.Le (A B : Permit) : Prop where
  receipt : ∀ r, A.receipt r → B.receipt r
  issue : A.issue → B.issue
  reservation : A.reservation → B.reservation
  transfer : A.transfer → B.transfer

def Permit.all : Permit := ⟨fun _ => True, True, True, True⟩

theorem Permit.le_all (A : Permit) : A.Le Permit.all :=
  ⟨fun _ _ => trivial, fun _ => trivial, fun _ => trivial, fun _ => trivial⟩

theorem Step.mono {stamp : Stamp} {A B : Permit} (hAB : A.Le B) {c c' : Config}
    (h : Step stamp A c c') : Step stamp B c c' := by
  cases h with
  | elsewhere h ht => exact .elsewhere h ht
  | transfers hA h hlines => exact .transfers (hAB.transfer hA) h hlines
  | receive e hA => exact .receive e (hAB.receipt _ hA)
  | issue e h hA hship => exact .issue e h (hAB.issue hA) fun hk => hAB.transfer (hship hk)
  | note hkind howned h => exact .note hkind howned h
  | transferIn e hA hcost =>
      exact .transferIn e (hAB.transfer hA) fun s hs => hAB.receipt _ (hcost s hs)
  | reserve e hA => exact .reserve e (hAB.reservation hA)
  | claim e hA => exact .claim e (hAB.reservation hA)
  | restore e hA => exact .restore e (hAB.reservation hA)
  | cost hA h => exact .cost (hAB.reservation hA) h

theorem Run.mono {stamp : Stamp} {A B : Permit} (hAB : A.Le B) {c c' : Config}
    (h : Run stamp A c c') : Run stamp B c c' := by
  induction h with
  | refl => exact .refl
  | tail _ hstep ih => exact ih.tail (hstep.mono hAB)

end Inventory
end ERP
