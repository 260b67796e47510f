import ERP.Migrations.LegacyReservations

/-!
# What the reconciliation leaves

Whatever it commits, no order that is done with keeps an active reservation, each stock
grows by what is released there, and each release is booked once.  The booked balances are
a chain in the order of the reservations; the history reads the booked rows in the order of
their hashed ids.
-/

namespace ERP
namespace Migrations

/-- The keys of the tables. -/
structure Keyed (db : LegacyDB) : Prop where
  orders : db.orders.Pairwise fun a b => a.id ≠ b.id
  orderTenants : ∀ order ∈ db.orders, ∃ tenant ∈ db.tenants, tenant.id = order.tenantId
  movements : db.movements.Pairwise fun a b => a.id ≠ b.id
  stocks : db.stocks.Pairwise fun a b => a.id ≠ b.id
  locations : db.stocks.Pairwise fun a b => ¬ StoredAt a b.warehouseId b.inventoryItemId

/-- The reservations of cancelled orders at a location. -/
def releasedAt (db : LegacyDB) (warehouseId : Option String) (inventoryItemId : String) :
    List InventoryMovement :=
  partitionOf (cancelledReservations db) warehouseId inventoryItemId

/-- The movements that were not there before. -/
def insertedMovements (db db' : LegacyDB) : List InventoryMovement :=
  db'.movements.filter fun movement => ¬ db.movements.any fun old => old.id = movement.id

structure IsReleaseOf (md5 : String → String) (reservation movement : InventoryMovement) :
    Prop where
  id : movement.id = releaseId md5 reservation.id
  tenant : movement.tenantId = reservation.tenantId
  warehouse : movement.warehouseId = reservation.warehouseId
  item : movement.inventoryItemId = reservation.inventoryItemId
  type : movement.type = .return
  reference : movement.referenceType = some .orderReservationRelease
  order : movement.referenceId = reservation.referenceId
  quantity : movement.quantity = reservation.quantity
  balances : ∃ before, movement.beforeQuantity = some before ∧
    movement.afterQuantity = some (before + reservation.quantity)

/-- What is released to a stock row. -/
def releasedTo (db : LegacyDB) (stock : InventoryStock) : ℚ :=
  if stock.warehouseId = none then 0
  else ((releasedAt db stock.warehouseId stock.inventoryItemId).map (·.quantity)).sum

/-- A row for a location of which there was none, with what is released there. -/
structure IsBackfill (db : LegacyDB) (stock : InventoryStock) : Prop where
  warehouse : stock.warehouseId ≠ none
  missing : stockOf db stock.warehouseId stock.inventoryItemId = none
  released : releasedAt db stock.warehouseId stock.inventoryItemId ≠ []
  quantity : stock.quantity = releasedTo db stock

structure Reconciled (md5 : String → String) (db db' : LegacyDB) : Prop where
  noneActive : ∀ movement ∈ db'.movements, ∀ order ∈ db'.orders,
    movement.referenceId = some order.id → order.status = .completed ∨ order.status = .cancelled →
    movement.referenceType ≠ some .orderReservation
  grown : ∀ warehouseId inventoryItemId, quantityAt db' (some warehouseId) inventoryItemId =
    quantityAt db (some warehouseId) inventoryItemId +
      ((releasedAt db (some warehouseId) inventoryItemId).map (·.quantity)).sum
  stocks : ∃ added, db'.stocks = (db.stocks.map fun stock =>
    { stock with quantity := stock.quantity + releasedTo db stock }) ++ added ∧
    ∀ stock ∈ added, IsBackfill db stock
  released : ∀ reservation ∈ cancelledReservations db,
    { reservation with referenceType := some .orderReservationReleased } ∈ db'.movements ∧
    ∃! movement, movement ∈ insertedMovements db db' ∧ IsReleaseOf md5 reservation movement
  inserted : List.Forall₂ (IsReleaseOf md5) (cancelledReservations db)
    (insertedMovements db db')

/-- The inserted movements of a location as the history reads them. -/
def insertedAt (collation : Collation) (db db' : LegacyDB) (warehouseId : Option String)
    (inventoryItemId : String) : List InventoryMovement :=
  Lib.orderBy (historyKey collation)
    (partitionOf (insertedMovements db db') warehouseId inventoryItemId)

/-- The first starts at the stock before, each next where the one before it stopped, the
last stops at the stock after. -/
def Chained (collation : Collation) (db db' : LegacyDB) : Prop :=
  ∀ warehouseId inventoryItemId,
    Lib.Contiguous (fun movement => movement.beforeQuantity.getD 0)
      (fun movement => movement.afterQuantity.getD 0)
      (quantityAt db (some warehouseId) inventoryItemId)
      (insertedAt collation db db' (some warehouseId) inventoryItemId)
      (quantityAt db' (some warehouseId) inventoryItemId)

/-- `ORDER BY` the id of the release. -/
def releaseKey (collation : Collation) (md5 : String → String) (reservation : InventoryMovement) :
    collation.SortKey :=
  collation.sortKey (releaseId md5 reservation.id)

/-- Before each reservation of its location stands the same quantity by time and id and by
the hashed id. -/
def PriorsAgree (collation : Collation) (md5 : String → String) (db : LegacyDB) : Prop :=
  ∀ reservation ∈ cancelledReservations db,
    Lib.sumBefore (·.id) (·.quantity) (Lib.orderBy (historyKey collation)
      (releasedAt db reservation.warehouseId reservation.inventoryItemId)) reservation.id =
    Lib.sumBefore (·.id) (·.quantity) (Lib.orderBy (releaseKey collation md5)
      (releasedAt db reservation.warehouseId reservation.inventoryItemId)) reservation.id

/-- At each location the reservations stand in one order by time and id and by the hashed
id. -/
def SameOrder (collation : Collation) (md5 : String → String) (db : LegacyDB) : Prop :=
  ∀ warehouseId inventoryItemId,
    Lib.orderBy (historyKey collation) (releasedAt db warehouseId inventoryItemId) =
      Lib.orderBy (releaseKey collation md5) (releasedAt db warehouseId inventoryItemId)

section Committing

variable {db : LegacyDB} {movement : InventoryMovement}

theorem commitMovement_cases (db : LegacyDB) (movement : InventoryMovement) :
    (commitMovement db movement = movement ∧ (movement.referenceType = some .orderReservation →
      completedOrderTenant db movement = none)) ∨
    ∃ tenant, completedOrderTenant db movement = some tenant ∧
      commitMovement db movement =
        { movement with
          referenceType := some .orderReservationCommitted
          type := committedType tenant.businessType } := by
  unfold commitMovement
  by_cases hactive : movement.referenceType = some .orderReservation
  · rw [if_pos hactive]
    cases htenant : completedOrderTenant db movement with
    | none => exact .inl ⟨rfl, fun _ => rfl⟩
    | some tenant => exact .inr ⟨tenant, rfl, rfl⟩
  · rw [if_neg hactive]
    exact .inl ⟨rfl, fun h => absurd h hactive⟩

@[simp] theorem commitMovement_id : (commitMovement db movement).id = movement.id := by
  rcases commitMovement_cases db movement with ⟨heq, -⟩ | ⟨tenant, -, heq⟩
  · rw [heq]
  · rw [heq]

/-- Paying an order leaves what the joins read of it. -/
theorem payOrder_joins (order : SalesOrder) :
    (payOrder order).id = order.id ∧ (payOrder order).tenantId = order.tenantId ∧
      (payOrder order).status = order.status := by
  unfold payOrder
  split
  · exact ⟨rfl, rfl, rfl⟩
  · exact ⟨rfl, rfl, rfl⟩

theorem ofOrder_payOrder {order : SalesOrder} :
    OfOrder movement (payOrder order) ↔ OfOrder movement order := by
  obtain ⟨hid, htenant, -⟩ := payOrder_joins order
  unfold OfOrder
  rw [hid, htenant]

theorem mem_payCompletedOrders {order : SalesOrder} :
    order ∈ (payCompletedOrders db).orders ↔ ∃ old ∈ db.orders, payOrder old = order :=
  List.mem_map

theorem any_cancelled_paid : ((payCompletedOrders db).orders.any fun order =>
      OfOrder movement order ∧ order.status = .cancelled) =
    db.orders.any fun order => OfOrder movement order ∧ order.status = .cancelled := by
  unfold payCompletedOrders
  rw [List.any_map]
  refine congrArg (fun p => db.orders.any p) (funext fun order => decide_eq_decide.mpr ?_)
  rw [ofOrder_payOrder, (payOrder_joins order).2.2]

/-- A completed order has a tenant, which its active reservations are committed with. -/
theorem completedOrderTenant_of_completed (hkeys : Keyed db) {order : SalesOrder}
    (horder : order ∈ db.orders) (hof : OfOrder movement order)
    (hstatus : order.status = .completed) :
    completedOrderTenant (payCompletedOrders db) movement ≠ none := by
  have hsome : ((payCompletedOrders db).orders.find? fun order =>
      OfOrder movement order ∧ order.status = .completed).isSome := by
    rw [List.find?_isSome]
    refine ⟨payOrder order, mem_payCompletedOrders.mpr ⟨order, horder, rfl⟩, decide_eq_true ?_⟩
    exact ⟨ofOrder_payOrder.mpr hof, (payOrder_joins order).2.2.trans hstatus⟩
  obtain ⟨found, hfound⟩ := Option.isSome_iff_exists.mp hsome
  obtain ⟨old, hold, hpaid⟩ := mem_payCompletedOrders.mp (List.mem_of_find?_eq_some hfound)
  obtain ⟨tenant, htenant, hid⟩ := hkeys.orderTenants old hold
  have hsame : found.tenantId = old.tenantId := hpaid ▸ (payOrder_joins old).2.1
  unfold completedOrderTenant
  rw [hfound, Option.bind_some]
  intro hnone
  have hmiss := List.find?_eq_none.mp hnone tenant htenant
  exact hmiss (decide_eq_true (hid.trans hsame.symm))

/-- An order is not both completed and cancelled. -/
theorem completedOrderTenant_of_cancelled (hkeys : Keyed db) {order : SalesOrder}
    (horder : order ∈ db.orders) (hof : OfOrder movement order)
    (hstatus : order.status = .cancelled) :
    completedOrderTenant (payCompletedOrders db) movement = none := by
  have hnone : ((payCompletedOrders db).orders.find? fun order =>
      OfOrder movement order ∧ order.status = .completed) = none := by
    refine List.find?_eq_none.mpr fun paid hpaid hcompleted => ?_
    obtain ⟨hof', hstatus'⟩ := of_decide_eq_true hcompleted
    obtain ⟨old, hold, rfl⟩ := mem_payCompletedOrders.mp hpaid
    rw [ofOrder_payOrder] at hof'
    have heq : old = order := Lib.eq_of_key_of_ne hkeys.orders hold horder
      (Option.some.inj (hof'.1.trans hof.1.symm))
    rw [(payOrder_joins old).2.2, heq, hstatus] at hstatus'
    exact OrderStatus.noConfusion hstatus'
  unfold completedOrderTenant
  rw [hnone]
  rfl

theorem mem_cancelledReservations :
    movement ∈ cancelledReservations db ↔ movement ∈ db.movements ∧
      movement.referenceType = some .orderReservation ∧
      ∃ order ∈ db.orders, OfOrder movement order ∧ order.status = .cancelled := by
  unfold cancelledReservations
  simp only [List.mem_filter, decide_eq_true_eq, List.any_eq_true]

theorem commitMovement_cancelled (hkeys : Keyed db) (hmem : movement ∈ cancelledReservations db) :
    commitMovement (payCompletedOrders db) movement = movement := by
  obtain ⟨-, -, order, horder, hof, hstatus⟩ := mem_cancelledReservations.mp hmem
  rcases commitMovement_cases (payCompletedOrders db) movement with ⟨heq, -⟩ | ⟨tenant, hsome, -⟩
  · exact heq
  · have hnone := completedOrderTenant_of_cancelled hkeys horder hof hstatus
    exact absurd (hsome.symm.trans hnone) (Option.some_ne_none tenant)

/-- Committing the completed orders leaves the reservations of the cancelled ones. -/
theorem cancelledReservations_committed (hkeys : Keyed db) :
    cancelledReservations (commitCompletedOrders (payCompletedOrders db)) =
      cancelledReservations db := by
  have hfilter : cancelledReservations (commitCompletedOrders (payCompletedOrders db)) =
      (cancelledReservations db).map (commitMovement (payCompletedOrders db)) := by
    unfold cancelledReservations
    show ((db.movements.map (commitMovement (payCompletedOrders db))).filter fun movement =>
      movement.referenceType = some .orderReservation ∧
        (payCompletedOrders db).orders.any fun order =>
          OfOrder movement order ∧ order.status = .cancelled) = _
    simp only [any_cancelled_paid]
    rw [List.filter_map]
    refine congrArg _ (List.filter_congr fun movement hmem => ?_)
    rw [Function.comp_apply]
    rcases commitMovement_cases (payCompletedOrders db) movement with
      ⟨heq, -⟩ | ⟨tenant, hsome, heq⟩
    · rw [heq]
    · rw [heq]
      refine decide_eq_decide.mpr ⟨fun h => ReferenceType.noConfusion (Option.some.inj h.1), ?_⟩
      rintro ⟨hactive, hany⟩
      have hcancelled : movement ∈ cancelledReservations db :=
        List.mem_filter.mpr ⟨hmem, decide_eq_true ⟨hactive, hany⟩⟩
      have hsame := congrArg (·.referenceType)
        (heq.symm.trans (commitMovement_cancelled hkeys hcancelled))
      rw [hactive] at hsame
      exact ReferenceType.noConfusion (Option.some.inj hsame)
  rw [hfilter]
  exact (List.map_congr_left fun movement hmem => commitMovement_cancelled hkeys hmem).trans
    (List.map_id _)

theorem releasePlan_committed (hkeys : Keyed db) (collation : Collation) :
    releasePlan collation (commitCompletedOrders (payCompletedOrders db)) =
      (cancelledReservations db).map (planRow collation db) := by
  unfold releasePlan
  rw [cancelledReservations_committed hkeys]
  refine List.map_congr_left fun movement _ => ?_
  unfold planRow
  rw [cancelledReservations_committed hkeys]
  rfl

end Committing

section Inserting

theorem insertMovements_ok {rows movements movements' : List InventoryMovement}
    (h : insertMovements rows movements = .ok movements') :
    movements' = movements ++ rows ∧
      (∀ row ∈ rows, ∀ movement ∈ movements, movement.id ≠ row.id) ∧
      rows.Pairwise fun a b => a.id ≠ b.id := by
  induction rows generalizing movements with
  | nil =>
      cases h
      exact ⟨(List.append_nil _).symm, fun row hrow => absurd hrow List.not_mem_nil, .nil⟩
  | cons row rest ih =>
      unfold insertMovements at h
      split at h
      · exact absurd h (by simp)
      · rename_i hfresh
        obtain ⟨hall, hnew, hdistinct⟩ := ih h
        have hrow : ∀ movement ∈ movements, movement.id ≠ row.id := fun movement hmem heq =>
          hfresh (List.any_eq_true.mpr ⟨movement, hmem, decide_eq_true heq⟩)
        refine ⟨by rw [hall, List.append_assoc]; rfl, fun new hin => ?_, ?_⟩
        · rcases List.mem_cons.mp hin with rfl | hin
          · exact hrow
          · exact fun movement hmem => hnew new hin movement (List.mem_append_left _ hmem)
        · refine List.pairwise_cons.mpr ⟨fun new hin => ?_, hdistinct⟩
          exact hnew new hin row (List.mem_append_right _ List.mem_cons_self)

/-- Rows for locations without a row, each of its own, are added as they are. -/
theorem insertStocks_ok {rows stocks stocks' : List InventoryStock}
    (hmissing : ∀ row ∈ rows, ∀ stock ∈ stocks,
      ¬ StoredAt stock row.warehouseId row.inventoryItemId)
    (hdistinct : rows.Pairwise fun a b => ¬ StoredAt a b.warehouseId b.inventoryItemId)
    (h : insertStocks rows stocks = .ok stocks') : stocks' = stocks ++ rows := by
  induction rows generalizing stocks with
  | nil =>
      cases h
      exact (List.append_nil _).symm
  | cons row rest ih =>
      obtain ⟨hhead, htail⟩ := List.pairwise_cons.mp hdistinct
      have hnone : ¬ (stocks.any fun stock =>
          StoredAt stock row.warehouseId row.inventoryItemId) = true := fun hany => by
        obtain ⟨stock, hmem, hat⟩ := List.any_eq_true.mp hany
        exact hmissing row List.mem_cons_self stock hmem (of_decide_eq_true hat)
      unfold insertStocks insertStock at h
      rw [if_neg hnone] at h
      by_cases hid : (stocks.any fun stock => stock.id = row.id) = true
      · rw [if_pos hid] at h
        exact absurd h (by simp [bind, Except.bind])
      · rw [if_neg hid] at h
        have hrest : insertStocks rest (stocks ++ [row]) = .ok stocks' := h
        rw [ih (fun row' hrow' stock hstock => ?_) htail hrest, List.append_assoc]
        · rfl
        · rcases List.mem_append.mp hstock with hstock | hstock
          · exact hmissing row' (List.mem_cons_of_mem row hrow') stock hstock
          · rw [List.mem_singleton.mp hstock]
            exact hhead row' hrow'

end Inserting

section Plan

variable {db db' : LegacyDB} {collation : Collation} {md5 : String → String} {now : Int}
  {stock : InventoryStock} {warehouseId : Option String} {inventoryItemId : String}

theorem stockOf_eq_some_iff (hkeys : Keyed db) :
    stockOf db warehouseId inventoryItemId = some stock ↔
      stock ∈ db.stocks ∧ StoredAt stock warehouseId inventoryItemId := by
  constructor
  · intro h
    exact ⟨List.mem_of_find?_eq_some h, of_decide_eq_true (List.find?_some h :)⟩
  · rintro ⟨hmem, hat⟩
    have hsome : (stockOf db warehouseId inventoryItemId).isSome := by
      unfold stockOf
      rw [List.find?_isSome]
      exact ⟨stock, hmem, decide_eq_true hat⟩
    obtain ⟨found, hfound⟩ := Option.isSome_iff_exists.mp hsome
    have hfoundAt : StoredAt found warehouseId inventoryItemId :=
      of_decide_eq_true (List.find?_some hfound :)
    have hone : db.stocks.Pairwise fun a b => StoredAt a b.warehouseId b.inventoryItemId → a = b :=
      hkeys.locations.imp fun hne h => absurd h hne
    have hflip : db.stocks.Pairwise
        (flip fun a b => StoredAt a b.warehouseId b.inventoryItemId → a = b) :=
      hkeys.locations.imp fun {a b} hne (h : StoredAt b a.warehouseId a.inventoryItemId) =>
        absurd ⟨fun hnull => h.1 (h.2.1.trans hnull), h.2.1.symm, h.2.2.symm⟩ hne
    have heq := List.Pairwise.forall_of_forall_of_flip (fun _ _ _ => rfl) hone hflip
      (List.mem_of_find?_eq_some hfound) hmem
    rw [hfound]
    refine congrArg some (heq ⟨hfoundAt.1, ?_, ?_⟩)
    · exact hfoundAt.2.1.trans hat.2.1.symm
    · exact hfoundAt.2.2.trans hat.2.2.symm

/-- What the plan has for a stock row is what is released at its location. -/
theorem planned_for_stock (hkeys : Keyed db) (hmem : stock ∈ db.stocks) :
    (((releasePlan collation db).filter fun row => row.stockId = some stock.id).map
      (·.quantity)).sum = releasedTo db stock := by
  unfold releasePlan
  rw [List.filter_map, List.map_map]
  have hjoined (movement : InventoryMovement) :
      (stockOf db movement.warehouseId movement.inventoryItemId).map (·.id) = some stock.id ↔
        StoredAt stock movement.warehouseId movement.inventoryItemId := by
    rw [Option.map_eq_some_iff]
    constructor
    · rintro ⟨found, hfound, hid⟩
      obtain ⟨hfoundMem, hat⟩ := (stockOf_eq_some_iff hkeys).mp hfound
      rwa [← Lib.eq_of_key_of_ne hkeys.stocks hfoundMem hmem hid]
    · intro hat
      exact ⟨stock, (stockOf_eq_some_iff hkeys).mpr ⟨hmem, hat⟩, rfl⟩
  have hfilter : (cancelledReservations db).filter ((fun row : ReleasePlan =>
        decide (row.stockId = some stock.id)) ∘ planRow collation db) =
      (cancelledReservations db).filter fun movement =>
        StoredAt stock movement.warehouseId movement.inventoryItemId :=
    List.filter_congr fun movement _ => decide_eq_decide.mpr (hjoined movement)
  rw [hfilter]
  unfold releasedTo
  by_cases hnull : stock.warehouseId = none
  · rw [if_pos hnull]
    have hnone : (cancelledReservations db).filter (fun movement =>
        StoredAt stock movement.warehouseId movement.inventoryItemId) = [] :=
      List.filter_eq_nil_iff.mpr fun movement _ hat => (of_decide_eq_true hat).1 hnull
    rw [hnone]
    rfl
  · rw [if_neg hnull]
    unfold releasedAt partitionOf
    refine congrArg (fun rows => (List.map (fun row : InventoryMovement => row.quantity) rows).sum)
      (List.filter_congr fun movement _ => decide_eq_decide.mpr ?_)
    unfold StoredAt
    exact ⟨fun h => ⟨h.2.1.symm, h.2.2.symm⟩, fun h => ⟨hnull, h.1.symm, h.2.symm⟩⟩

theorem mem_missingLocations :
    (warehouseId, inventoryItemId) ∈ missingLocations (releasePlan collation db) ↔
      stockOf db warehouseId inventoryItemId = none ∧
        releasedAt db warehouseId inventoryItemId ≠ [] := by
  unfold missingLocations releasePlan
  rw [List.mem_dedup, List.filter_map, List.map_map, List.mem_map]
  constructor
  · rintro ⟨movement, hmem, hat⟩
    obtain ⟨hmem, hnone⟩ := List.mem_filter.mp hmem
    have hwarehouse : movement.warehouseId = warehouseId := congrArg Prod.fst hat
    have hitem : movement.inventoryItemId = inventoryItemId := congrArg Prod.snd hat
    subst hwarehouse hitem
    refine ⟨Option.map_eq_none_iff.mp (of_decide_eq_true hnone), fun hnil => ?_⟩
    have hreleased : movement ∈ releasedAt db movement.warehouseId movement.inventoryItemId :=
      List.mem_filter.mpr ⟨hmem, decide_eq_true ⟨rfl, rfl⟩⟩
    rw [hnil] at hreleased
    exact absurd hreleased List.not_mem_nil
  · rintro ⟨hnone, hreleased⟩
    obtain ⟨movement, hin⟩ := List.exists_mem_of_ne_nil _ hreleased
    obtain ⟨hmem, hat⟩ := List.mem_filter.mp hin
    obtain ⟨rfl, rfl⟩ := of_decide_eq_true hat
    refine ⟨movement, List.mem_filter.mpr ⟨hmem, decide_eq_true ?_⟩, rfl⟩
    exact Option.map_eq_none_iff.mpr hnone

theorem missingQuantity_eq (hnone : stockOf db warehouseId inventoryItemId = none) :
    missingQuantity (releasePlan collation db) (warehouseId, inventoryItemId) =
      ((releasedAt db warehouseId inventoryItemId).map (·.quantity)).sum := by
  unfold missingQuantity releasePlan releasedAt partitionOf
  rw [List.filter_map, List.map_map]
  refine congrArg (fun rows => (List.map (fun row : InventoryMovement => row.quantity) rows).sum)
    (List.filter_congr fun movement _ => decide_eq_decide.mpr ?_)
  rw [Prod.mk.injEq]
  refine ⟨fun h => h.2, fun h => ⟨?_, h⟩⟩
  obtain ⟨rfl, rfl⟩ := h
  exact Option.map_eq_none_iff.mpr hnone

end Plan

section Committed

variable {db db' : LegacyDB} {collation : Collation} {md5 : String → String} {now : Int}

theorem bind_ok {ε α β : Type} {x : Except ε α} {f : α → Except ε β} {b : β}
    (h : (x >>= f) = .ok b) : ∃ a, x = .ok a ∧ f a = .ok b := by
  cases x with
  | error e => cases h
  | ok a => exact ⟨a, rfl, h⟩

/-- The tables that are committed. -/
structure Committed (collation : Collation) (md5 : String → String) (now : Int)
    (db db' : LegacyDB) : Prop where
  matched : ∀ movement ∈ (commitCompletedOrders (payCompletedOrders db)).movements,
    movement.referenceType = some .orderReservation → ∃ order ∈ db.orders, OfOrder movement order
  warehouses : ∀ reservation ∈ cancelledReservations db, reservation.warehouseId ≠ none
  orders : db'.orders = db.orders.map payOrder
  stocks : db'.stocks = (db.stocks.map fun stock =>
      { stock with quantity := stock.quantity + releasedTo db stock }) ++
    (missingLocations (releasePlan collation db)).map (backfillStock md5 (releasePlan collation db))
  movements : db'.movements = (db.movements.map fun movement =>
      markReleased (releasePlan collation db) (commitMovement (payCompletedOrders db) movement)) ++
    (releasePlan collation db).map (releaseMovement md5 now)
  fresh : ∀ reservation ∈ cancelledReservations db, ∀ movement ∈ db.movements,
    movement.id ≠ releaseId md5 reservation.id
  distinct : (cancelledReservations db).Pairwise fun a b =>
    releaseId md5 a.id ≠ releaseId md5 b.id

theorem checkReservations_ok {done : Unit} (h : checkReservations db = .ok done) :
    (∀ movement ∈ db.movements, movement.referenceType = some .orderReservation →
      ∃ order ∈ db.orders, OfOrder movement order) ∧
    ∀ reservation ∈ cancelledReservations db, reservation.warehouseId ≠ none := by
  unfold checkReservations at h
  split at h
  · cases h
  rename_i hunmatched
  split at h
  · cases h
  split at h
  · cases h
  rename_i hnowhere
  constructor
  · intro movement hmem hactive
    by_contra hnone
    refine hunmatched (List.any_eq_true.mpr ⟨movement, hmem, decide_eq_true ⟨hactive, ?_⟩⟩)
    intro hany
    obtain ⟨order, horder, hof⟩ := List.any_eq_true.mp hany
    exact hnone ⟨order, horder, of_decide_eq_true hof⟩
  · intro reservation hmem hnull
    exact hnowhere (List.any_eq_true.mpr ⟨reservation, hmem, decide_eq_true hnull⟩)

theorem backfills_missing : ∀ row ∈ (missingLocations (releasePlan collation db)).map
      (backfillStock md5 (releasePlan collation db)),
    ∀ stock ∈ db.stocks, ¬ StoredAt stock row.warehouseId row.inventoryItemId := by
  intro row hrow stock hstock hat
  obtain ⟨⟨warehouseId, inventoryItemId⟩, hmissing, rfl⟩ := List.mem_map.mp hrow
  obtain ⟨hnone, -⟩ := mem_missingLocations.mp hmissing
  exact List.find?_eq_none.mp hnone stock hstock (decide_eq_true hat)

theorem backfills_distinct (plan : List ReleasePlan) :
    ((missingLocations plan).map (backfillStock md5 plan)).Pairwise fun a b =>
      ¬ StoredAt a b.warehouseId b.inventoryItemId := by
  refine List.pairwise_map.mpr ?_
  have hnodup : (missingLocations plan).Nodup := List.nodup_dedup _
  exact hnodup.imp fun hne hat => hne (Prod.ext hat.2.1 hat.2.2)

theorem migrate_ok (hkeys : Keyed db) (h : migrate collation md5 now db = .ok db') :
    Committed collation md5 now db db' := by
  have hcancelled := cancelledReservations_committed hkeys
  have hplan := releasePlan_committed hkeys collation
  obtain ⟨done, hcheck, h⟩ := bind_ok h
  rw [hplan] at h
  obtain ⟨stocks, hstocks, h⟩ := bind_ok h
  obtain ⟨movements, hmovements, h⟩ := bind_ok h
  obtain ⟨hmatched, hwarehouses⟩ := checkReservations_ok hcheck
  rw [hcancelled] at hwarehouses
  have hmatched' : ∀ movement ∈ (commitCompletedOrders (payCompletedOrders db)).movements,
      movement.referenceType = some .orderReservation →
        ∃ order ∈ db.orders, OfOrder movement order := by
    intro movement hmem hactive
    obtain ⟨paid, hpaid, hof⟩ := hmatched movement hmem hactive
    obtain ⟨order, horder, rfl⟩ := mem_payCompletedOrders.mp hpaid
    exact ⟨order, horder, ofOrder_payOrder.mp hof⟩
  have hreleased : (releaseToStocks (releasePlan collation db)
        (commitCompletedOrders (payCompletedOrders db))).stocks =
      db.stocks.map fun stock =>
        { stock with quantity := stock.quantity + releasedTo db stock } := by
    refine List.map_congr_left fun stock hmem => ?_
    rw [planned_for_stock hkeys hmem]
  change insertStocks _ (releaseToStocks (releasePlan collation db)
    (commitCompletedOrders (payCompletedOrders db))).stocks = _ at hstocks
  rw [hreleased] at hstocks
  have hadded := insertStocks_ok (fun row hrow stock hstock hat => by
    obtain ⟨old, hold, rfl⟩ := List.mem_map.mp hstock
    exact backfills_missing row hrow old hold hat) (backfills_distinct _) hstocks
  obtain ⟨hall, hfresh, hdistinct⟩ := insertMovements_ok hmovements
  have hfresh' : ∀ reservation ∈ cancelledReservations db, ∀ movement ∈ db.movements,
      movement.id ≠ releaseId md5 reservation.id := by
    intro reservation hmem movement hmovement
    have hrow : releaseMovement md5 now (planRow collation db reservation) ∈
        (releasePlan collation db).map (releaseMovement md5 now) :=
      List.mem_map_of_mem (List.mem_map_of_mem hmem)
    have hne := hfresh _ hrow (commitMovement (payCompletedOrders db) movement)
      (List.mem_map_of_mem hmovement)
    rwa [commitMovement_id] at hne
  cases h
  refine ⟨hmatched', hwarehouses, rfl, hadded, ?_, hfresh', ?_⟩
  · show movements.map (markReleased (releasePlan collation db)) = _
    rw [hall, List.map_append]
    refine congrArg₂ _ (List.map_map ..) ?_
    rw [List.map_map]
    refine List.map_congr_left fun row hrow => ?_
    -- an inserted row has none of the ids the plan was made from
    have hother : ¬ ((releasePlan collation db).any fun planned =>
        planned.reservationId = (releaseMovement md5 now row).id) = true := by
      intro hany
      obtain ⟨planned, hplanned, hid⟩ := List.any_eq_true.mp hany
      obtain ⟨reservation, hreservation, rfl⟩ := List.mem_map.mp hplanned
      obtain ⟨source, hsource, rfl⟩ := List.mem_map.mp hrow
      obtain ⟨hmem, -⟩ := mem_cancelledReservations.mp hreservation
      exact hfresh' source hsource reservation hmem (of_decide_eq_true hid)
    exact if_neg hother
  · rw [List.pairwise_map, List.pairwise_map] at hdistinct
    exact hdistinct

end Committed

section Effects

variable {db db' : LegacyDB} {collation : Collation} {md5 : String → String} {now : Int}
  {movement : InventoryMovement}

theorem markReleased_cases (plan : List ReleasePlan) (movement : InventoryMovement) :
    ((∃ row ∈ plan, row.reservationId = movement.id) ∧ markReleased plan movement =
      { movement with referenceType := some .orderReservationReleased }) ∨
    (∀ row ∈ plan, row.reservationId ≠ movement.id) ∧ markReleased plan movement = movement := by
  unfold markReleased
  by_cases hany : (plan.any fun row => row.reservationId = movement.id) = true
  · rw [if_pos hany]
    obtain ⟨row, hrow, hid⟩ := List.any_eq_true.mp hany
    exact .inl ⟨⟨row, hrow, of_decide_eq_true hid⟩, rfl⟩
  · rw [if_neg hany]
    refine .inr ⟨fun row hrow hid => hany ?_, rfl⟩
    exact List.any_eq_true.mpr ⟨row, hrow, decide_eq_true hid⟩

@[simp] theorem markReleased_id (plan : List ReleasePlan) :
    (markReleased plan movement).id = movement.id := by
  rcases markReleased_cases plan movement with ⟨-, heq⟩ | ⟨-, heq⟩
  · rw [heq]
  · rw [heq]

theorem Committed.inserted (h : Committed collation md5 now db db') :
    insertedMovements db db' = (cancelledReservations db).map fun reservation =>
      releaseMovement md5 now (planRow collation db reservation) := by
  unfold insertedMovements
  rw [h.movements, List.filter_append]
  have hold : (db.movements.map fun movement => markReleased (releasePlan collation db)
      (commitMovement (payCompletedOrders db) movement)).filter (fun movement =>
        ¬ db.movements.any fun old => old.id = movement.id) = [] := by
    refine List.filter_eq_nil_iff.mpr fun movement hmem hnew => ?_
    obtain ⟨old, hold, rfl⟩ := List.mem_map.mp hmem
    refine of_decide_eq_true hnew (List.any_eq_true.mpr ⟨old, hold, decide_eq_true ?_⟩)
    rw [markReleased_id, commitMovement_id]
  have hnew : ((releasePlan collation db).map (releaseMovement md5 now)).filter (fun movement =>
      ¬ db.movements.any fun old => old.id = movement.id) =
        (releasePlan collation db).map (releaseMovement md5 now) := by
    refine List.filter_eq_self.mpr fun movement hmem => decide_eq_true fun hany => ?_
    obtain ⟨row, hrow, rfl⟩ := List.mem_map.mp hmem
    obtain ⟨reservation, hreservation, rfl⟩ := List.mem_map.mp hrow
    obtain ⟨old, hold, hid⟩ := List.any_eq_true.mp hany
    exact h.fresh reservation hreservation old hold (of_decide_eq_true hid)
  rw [hold, hnew, List.nil_append]
  exact List.map_map ..

theorem releaseMovement_isReleaseOf (reservation : InventoryMovement) :
    IsReleaseOf md5 reservation (releaseMovement md5 now (planRow collation db reservation)) where
  id := rfl
  tenant := rfl
  warehouse := rfl
  item := rfl
  type := rfl
  reference := rfl
  order := rfl
  quantity := rfl
  balances := ⟨_, rfl, rfl⟩

theorem Committed.noneActive (hkeys : Keyed db) (h : Committed collation md5 now db db')
    {order : SalesOrder} (hmem : movement ∈ db'.movements) (horder : order ∈ db'.orders)
    (href : movement.referenceId = some order.id)
    (hstatus : order.status = .completed ∨ order.status = .cancelled) :
    movement.referenceType ≠ some .orderReservation := by
  intro hactive
  rw [h.movements] at hmem
  rw [h.orders] at horder
  obtain ⟨old, hold, rfl⟩ := List.mem_map.mp horder
  obtain ⟨hid, -, hsameStatus⟩ := payOrder_joins old
  rw [hsameStatus] at hstatus
  rw [hid] at href
  rcases List.mem_append.mp hmem with hmem | hmem
  · obtain ⟨source, hsource, rfl⟩ := List.mem_map.mp hmem
    rcases markReleased_cases (releasePlan collation db)
      (commitMovement (payCompletedOrders db) source) with ⟨-, heq⟩ | ⟨hunplanned, heq⟩
    · rw [heq] at hactive
      exact ReferenceType.noConfusion (Option.some.inj hactive)
    rw [heq] at hactive href
    obtain ⟨matched, hmatched, hof⟩ := h.matched _ (List.mem_map_of_mem hsource) hactive
    have hold' : matched = old := Lib.eq_of_key_of_ne hkeys.orders hmatched hold
      (Option.some.inj (hof.1.trans href))
    rw [hold'] at hof
    rcases commitMovement_cases (payCompletedOrders db) source with
      ⟨hsame, hnone⟩ | ⟨tenant, -, hcommitted⟩
    · rw [hsame] at hactive hof hunplanned
      rcases hstatus with hcompleted | hcancelled
      · exact completedOrderTenant_of_completed hkeys hold hof hcompleted (hnone hactive)
      · have hplanned : source ∈ cancelledReservations db :=
          mem_cancelledReservations.mpr ⟨hsource, hactive, old, hold, hof, hcancelled⟩
        exact hunplanned _ (List.mem_map_of_mem hplanned) rfl
    · rw [hcommitted] at hactive
      exact ReferenceType.noConfusion (Option.some.inj hactive)
  · obtain ⟨row, -, rfl⟩ := List.mem_map.mp hmem
    exact ReferenceType.noConfusion (Option.some.inj hactive)

theorem Committed.backfill (h : Committed collation md5 now db db') :
    ∀ stock ∈ (missingLocations (releasePlan collation db)).map
      (backfillStock md5 (releasePlan collation db)), IsBackfill db stock := by
  intro stock hstock
  obtain ⟨⟨warehouseId, inventoryItemId⟩, hmissing, rfl⟩ := List.mem_map.mp hstock
  obtain ⟨hnone, hreleased⟩ := mem_missingLocations.mp hmissing
  have hwarehouse : warehouseId ≠ none := by
    obtain ⟨reservation, hmem⟩ := List.exists_mem_of_ne_nil _ hreleased
    obtain ⟨hmem, hat⟩ := List.mem_filter.mp hmem
    rw [← (of_decide_eq_true hat).1]
    exact h.warehouses reservation hmem
  refine ⟨hwarehouse, hnone, hreleased, ?_⟩
  have hquantity : (backfillStock md5 (releasePlan collation db)
      (warehouseId, inventoryItemId)).quantity =
        ((releasedAt db warehouseId inventoryItemId).map (·.quantity)).sum :=
    missingQuantity_eq hnone
  exact hquantity.trans (if_neg hwarehouse).symm

/-- Where there was a stock row, it is the one that is found afterwards. -/
theorem Committed.stockOf_eq (h : Committed collation md5 now db db') (warehouseId : Option String)
    (inventoryItemId : String) :
    stockOf db' warehouseId inventoryItemId =
      ((stockOf db warehouseId inventoryItemId).map fun stock =>
        { stock with quantity := stock.quantity + releasedTo db stock }).or
      (((missingLocations (releasePlan collation db)).map
        (backfillStock md5 (releasePlan collation db))).find? fun stock =>
          StoredAt stock warehouseId inventoryItemId) := by
  unfold stockOf
  rw [h.stocks, List.find?_append, List.find?_map]
  rfl

theorem Committed.grown (hkeys : Keyed db) (h : Committed collation md5 now db db')
    (warehouseId inventoryItemId : String) :
    quantityAt db' (some warehouseId) inventoryItemId =
      quantityAt db (some warehouseId) inventoryItemId +
        ((releasedAt db (some warehouseId) inventoryItemId).map (·.quantity)).sum := by
  unfold quantityAt
  rw [h.stockOf_eq]
  cases hstock : stockOf db (some warehouseId) inventoryItemId with
  | some stock =>
      obtain ⟨-, hnull, hwarehouse, hitem⟩ := (stockOf_eq_some_iff hkeys).mp hstock
      show stock.quantity + releasedTo db stock = stock.quantity + _
      unfold releasedTo
      rw [if_neg hnull, hwarehouse, hitem]
  | none =>
      rw [Option.map_none, Option.none_or]
      show _ = 0 + _
      rw [zero_add]
      cases hfound : ((missingLocations (releasePlan collation db)).map
          (backfillStock md5 (releasePlan collation db))).find? fun stock =>
            StoredAt stock (some warehouseId) inventoryItemId with
      | some stock =>
          have hat : StoredAt stock (some warehouseId) inventoryItemId :=
            of_decide_eq_true (List.find?_some hfound :)
          have hbackfill := h.backfill stock (List.mem_of_find?_eq_some hfound)
          show stock.quantity = _
          rw [hbackfill.quantity]
          unfold releasedTo
          rw [if_neg hbackfill.warehouse, hat.2.1, hat.2.2]
      | none =>
          -- nothing is released there
          have hnil : releasedAt db (some warehouseId) inventoryItemId = [] := by
            by_contra hreleased
            have hmissing : ((some warehouseId, inventoryItemId) : Option String × String) ∈
                missingLocations (releasePlan collation db) :=
              mem_missingLocations.mpr ⟨hstock, hreleased⟩
            exact List.find?_eq_none.mp hfound _ (List.mem_map_of_mem hmissing)
              (decide_eq_true ⟨Option.some_ne_none _, rfl, rfl⟩)
          rw [hnil]
          rfl

/-- Whatever order the hashed ids stand in, the orders, the stocks and the releases are
right. -/
theorem Committed.reconciled (hkeys : Keyed db) (h : Committed collation md5 now db db') :
    Reconciled md5 db db' where
  noneActive _ hmem _ horder href hstatus := h.noneActive hkeys hmem horder href hstatus
  grown := h.grown hkeys
  stocks := ⟨_, h.stocks, h.backfill⟩
  released reservation hmem := by
    obtain ⟨hin, -⟩ := mem_cancelledReservations.mp hmem
    constructor
    · rw [h.movements]
      refine List.mem_append_left _ (List.mem_map.mpr ⟨reservation, hin, ?_⟩)
      rw [commitMovement_cancelled hkeys hmem]
      exact if_pos (List.any_eq_true.mpr
        ⟨planRow collation db reservation, List.mem_map_of_mem hmem, decide_eq_true rfl⟩)
    · rw [h.inserted]
      refine ⟨releaseMovement md5 now (planRow collation db reservation),
        ⟨List.mem_map_of_mem hmem, releaseMovement_isReleaseOf reservation⟩, ?_⟩
      rintro movement ⟨hmovement, hrelease⟩
      obtain ⟨other, hother, rfl⟩ := List.mem_map.mp hmovement
      have hsame : other = reservation :=
        Lib.eq_of_key_of_ne h.distinct hother hmem hrelease.id
      rw [hsame]
  inserted := by
    rw [h.inserted]
    exact List.forall₂_map_right_iff.mpr
      (List.forall₂_same.mpr fun reservation _ => releaseMovement_isReleaseOf reservation)

end Effects

section Chain

variable {db db' : LegacyDB} {collation : Collation} {md5 : String → String} {now : Int}
  {warehouseId : Option String} {inventoryItemId : String}

/-- They all have the time of the migration, so the history reads them by their ids. -/
theorem Committed.insertedAt_eq (h : Committed collation md5 now db db') :
    insertedAt collation db db' warehouseId inventoryItemId =
      (Lib.orderBy (releaseKey collation md5) (releasedAt db warehouseId inventoryItemId)).map
        fun reservation => releaseMovement md5 now (planRow collation db reservation) := by
  have hkey (a b : InventoryMovement) :
      (toLex (now, releaseKey collation md5 a) : Lex (Int × collation.SortKey)) ≤
        toLex (now, releaseKey collation md5 b) ↔
      releaseKey collation md5 a ≤ releaseKey collation md5 b := by
    rw [Prod.Lex.toLex_le_toLex]
    exact ⟨fun hle => hle.elim (fun hlt => absurd hlt (lt_irrefl now)) (·.2),
      fun hle => .inr ⟨rfl, hle⟩⟩
  have hsorted : Lib.orderBy (historyKey collation)
      ((releasedAt db warehouseId inventoryItemId).map fun reservation =>
        releaseMovement md5 now (planRow collation db reservation)) =
      (Lib.orderBy (fun reservation => toLex (now, releaseKey collation md5 reservation))
        (releasedAt db warehouseId inventoryItemId)).map fun reservation =>
          releaseMovement md5 now (planRow collation db reservation) :=
    Lib.orderBy_map fun _ _ => rfl
  rw [← Lib.orderBy_congr hkey, ← hsorted]
  unfold insertedAt
  rw [h.inserted]
  refine congrArg _ ?_
  unfold partitionOf
  rw [List.filter_map]
  rfl

theorem mem_releasedAt {reservation : InventoryMovement} :
    reservation ∈ releasedAt db warehouseId inventoryItemId ↔
      reservation ∈ cancelledReservations db ∧ reservation.warehouseId = warehouseId ∧
        reservation.inventoryItemId = inventoryItemId := by
  unfold releasedAt partitionOf
  rw [List.mem_filter, decide_eq_true_eq]

theorem releasedAt_keys (hkeys : Keyed db) :
    (releasedAt db warehouseId inventoryItemId).Pairwise fun a b => a.id ≠ b.id :=
  (hkeys.movements.filter _).filter _

/-- The releases of a location are a chain when the same stands before each reservation in
both orders. -/
theorem Committed.contiguous_iff (hkeys : Keyed db) (h : Committed collation md5 now db db')
    (warehouseId inventoryItemId : String) :
    Lib.Contiguous (fun movement => movement.beforeQuantity.getD 0)
        (fun movement => movement.afterQuantity.getD 0)
        (quantityAt db (some warehouseId) inventoryItemId)
        (insertedAt collation db db' (some warehouseId) inventoryItemId)
        (quantityAt db' (some warehouseId) inventoryItemId) ↔
      ∀ reservation ∈ releasedAt db (some warehouseId) inventoryItemId,
        Lib.sumBefore (·.id) (·.quantity) (Lib.orderBy (historyKey collation)
          (releasedAt db (some warehouseId) inventoryItemId)) reservation.id =
        Lib.sumBefore (·.id) (·.quantity) (Lib.orderBy (releaseKey collation md5)
          (releasedAt db (some warehouseId) inventoryItemId)) reservation.id := by
  have hperm := Lib.orderBy_perm (releaseKey collation md5)
    (releasedAt db (some warehouseId) inventoryItemId)
  have hdistinct : (Lib.orderBy (releaseKey collation md5)
      (releasedAt db (some warehouseId) inventoryItemId)).Pairwise fun a b => a.id ≠ b.id :=
    (hperm.pairwise_iff fun hne => Ne.symm hne).mpr (releasedAt_keys hkeys)
  have hafter : ∀ reservation ∈ Lib.orderBy (releaseKey collation md5)
      (releasedAt db (some warehouseId) inventoryItemId),
      (releaseMovement md5 now (planRow collation db reservation)).afterQuantity.getD 0 =
        (releaseMovement md5 now (planRow collation db reservation)).beforeQuantity.getD 0 +
          reservation.quantity := fun _ _ => rfl
  have hsum : ((Lib.orderBy (releaseKey collation md5)
      (releasedAt db (some warehouseId) inventoryItemId)).map (·.quantity)).sum =
        ((releasedAt db (some warehouseId) inventoryItemId).map (·.quantity)).sum :=
    (hperm.map _).sum_eq
  have hbefore : ∀ reservation ∈ releasedAt db (some warehouseId) inventoryItemId,
      (releaseMovement md5 now (planRow collation db reservation)).beforeQuantity.getD 0 =
        quantityAt db (some warehouseId) inventoryItemId +
          Lib.sumBefore (·.id) (·.quantity) (Lib.orderBy (historyKey collation)
            (releasedAt db (some warehouseId) inventoryItemId)) reservation.id := by
    intro reservation hmem
    obtain ⟨-, hwarehouse, hitem⟩ := mem_releasedAt.mp hmem
    rw [← hwarehouse, ← hitem]
    rfl
  rw [h.insertedAt_eq, Lib.contiguous_map, Lib.contiguous_iff hafter hdistinct, hsum,
    ← h.grown hkeys]
  constructor
  · rintro ⟨hchain, -⟩ reservation hmem
    have hstart := hchain reservation (Lib.mem_orderBy.mpr hmem)
    rw [hbefore reservation hmem] at hstart
    exact add_left_cancel hstart
  · intro hagree
    refine ⟨fun reservation hmem => ?_, rfl⟩
    have hmem' := Lib.mem_orderBy.mp hmem
    rw [hbefore reservation hmem', hagree reservation hmem']

theorem Committed.chained_iff (hkeys : Keyed db) (h : Committed collation md5 now db db') :
    Chained collation db db' ↔ PriorsAgree collation md5 db := by
  constructor
  · intro hchained reservation hmem
    obtain ⟨warehouseId, hwarehouse⟩ :=
      Option.ne_none_iff_exists'.mp (h.warehouses reservation hmem)
    have hagree := (h.contiguous_iff hkeys warehouseId reservation.inventoryItemId).mp
      (hchained warehouseId reservation.inventoryItemId) reservation
    rw [← hwarehouse] at hagree
    exact hagree (mem_releasedAt.mpr ⟨hmem, rfl, rfl⟩)
  · intro hagree warehouseId inventoryItemId
    refine (h.contiguous_iff hkeys warehouseId inventoryItemId).mpr fun reservation hmem => ?_
    obtain ⟨hcancelled, hwarehouse, hitem⟩ := mem_releasedAt.mp hmem
    have hsame := hagree reservation hcancelled
    rwa [hwarehouse, hitem] at hsame

/-- Reservations of something stand in one order when the same stands before each. -/
theorem priorsAgree_iff_sameOrder (hkeys : Keyed db)
    (hpos : ∀ reservation ∈ cancelledReservations db, 0 < reservation.quantity) :
    PriorsAgree collation md5 db ↔ SameOrder collation md5 db := by
  have hiff (warehouseId : Option String) (inventoryItemId : String) :
      (∀ reservation ∈ releasedAt db warehouseId inventoryItemId,
        Lib.sumBefore (·.id) (·.quantity) (Lib.orderBy (historyKey collation)
          (releasedAt db warehouseId inventoryItemId)) reservation.id =
        Lib.sumBefore (·.id) (·.quantity) (Lib.orderBy (releaseKey collation md5)
          (releasedAt db warehouseId inventoryItemId)) reservation.id) ↔
      Lib.orderBy (historyKey collation) (releasedAt db warehouseId inventoryItemId) =
        Lib.orderBy (releaseKey collation md5) (releasedAt db warehouseId inventoryItemId) := by
    have hhistory := Lib.orderBy_perm (historyKey collation)
      (releasedAt db warehouseId inventoryItemId)
    have hrelease := Lib.orderBy_perm (releaseKey collation md5)
      (releasedAt db warehouseId inventoryItemId)
    have hpos' : ∀ reservation ∈ Lib.orderBy (historyKey collation)
        (releasedAt db warehouseId inventoryItemId), 0 < reservation.quantity :=
      fun reservation hmem => hpos reservation (mem_releasedAt.mp (Lib.mem_orderBy.mp hmem)).1
    have hdistinct : (Lib.orderBy (historyKey collation)
        (releasedAt db warehouseId inventoryItemId)).Pairwise fun a b => a.id ≠ b.id :=
      (hhistory.pairwise_iff fun hne => Ne.symm hne).mpr (releasedAt_keys hkeys)
    rw [← Lib.sumBefore_agree_iff (hhistory.trans hrelease.symm) hpos' hdistinct]
    exact forall_congr' fun reservation => imp_congr_left Lib.mem_orderBy.symm
  constructor
  · intro hagree warehouseId inventoryItemId
    refine (hiff warehouseId inventoryItemId).mp fun reservation hmem => ?_
    obtain ⟨hcancelled, rfl, rfl⟩ := mem_releasedAt.mp hmem
    exact hagree reservation hcancelled
  · intro hsame reservation hmem
    exact (hiff _ _).mpr (hsame _ _) reservation (mem_releasedAt.mpr ⟨hmem, rfl, rfl⟩)

/-- What is committed is right but for the order in which the history reads the releases:
they are a chain if and only if the same quantity stands before each reservation of a
location by time and id and by the hashed id, which for reservations of something means that
both orders are the same. -/
theorem migrate_reconciles_iff (hkeys : Keyed db)
    (h : migrate collation md5 now db = .ok db') :
    (Reconciled md5 db db' ∧ Chained collation db db' ↔ PriorsAgree collation md5 db) ∧
      Reconciled md5 db db' ∧
      ((∀ reservation ∈ cancelledReservations db, 0 < reservation.quantity) →
        (PriorsAgree collation md5 db ↔ SameOrder collation md5 db)) := by
  have hcommitted := migrate_ok hkeys h
  have hreconciled := hcommitted.reconciled hkeys
  refine ⟨?_, hreconciled, fun hpos => priorsAgree_iff_sameOrder hkeys hpos⟩
  rw [← hcommitted.chained_iff hkeys]
  exact and_iff_right hreconciled

/-- The MD5 of the ids below. -/
def reservationDigest (text : String) : String :=
  if text = "cmh0rsv0010008l5qz9x4k7w2" then "5826baa783f0ca3d678e90780d946f76"
  else if text = "cmh0rsv0020008l5qz9x4k7w2" then "4722a20c0396a882a54584f8fef74db5"
  else if text = "cmh0rsv0040008l5qz9x4k7w2" then "8aa0a5797800f4aedc17992539f1091d"
  else text

def reservedBeans (id : String) (quantity : ℚ) (createdAt : Int) : InventoryMovement where
  id := id
  tenantId := "tenant"
  warehouseId := some "main"
  inventoryItemId := "beans"
  type := .stockOut
  referenceType := some .orderReservation
  referenceId := some "order"
  quantity := quantity
  beforeQuantity := none
  afterQuantity := none
  unitCost := none
  totalCost := none
  createdAt := createdAt

/-- Five beans in stock, and a cancelled order that has reserved two and then three more. -/
def twoReservations (first second : String) : LegacyDB where
  tenants := [⟨"tenant", .retail⟩]
  orders := [⟨"order", "tenant", .cancelled, .pending, 0, 90000⟩]
  movements := [reservedBeans first 2 1, reservedBeans second 3 2]
  stocks := [⟨"stock", some "main", "beans", 5⟩]
  allocations := []

theorem twoReservations_keyed {first second : String} (hne : first ≠ second) :
    Keyed (twoReservations first second) where
  orders := List.pairwise_singleton ..
  orderTenants := by
    intro order horder
    rw [List.mem_singleton.mp horder]
    exact ⟨_, List.mem_singleton.mpr rfl, rfl⟩
  movements := List.pairwise_pair.mpr hne
  stocks := List.pairwise_singleton ..
  locations := List.pairwise_singleton ..

theorem exists_of_isOk {result : Except String LegacyDB} (h : result.isOk = true) :
    ∃ db', result = .ok db' := by
  cases result with
  | ok db' => exact ⟨db', rfl⟩
  | error message => exact Bool.noConfusion h

def reservedInOrder : LegacyDB :=
  twoReservations "cmh0rsv0010008l5qz9x4k7w2" "cmh0rsv0040008l5qz9x4k7w2"

def reservedOutOfOrder : LegacyDB :=
  twoReservations "cmh0rsv0010008l5qz9x4k7w2" "cmh0rsv0020008l5qz9x4k7w2"

/-- Here the hashed ids stand in the order of the reservations. -/
theorem migrate_reconciles_iff_inOrder :
    ∃ db', migrate .c reservationDigest 10 reservedInOrder = .ok db' ∧
      Reconciled reservationDigest reservedInOrder db' ∧ Chained .c reservedInOrder db' := by
  have hkeys : Keyed reservedInOrder := twoReservations_keyed (by decide)
  have hok : (migrate .c reservationDigest 10 reservedInOrder).isOk = true := by decide +kernel
  obtain ⟨db', hm⟩ := exists_of_isOk hok
  obtain ⟨hiff, -⟩ := migrate_reconciles_iff hkeys hm
  have hpriors : PriorsAgree .c reservationDigest reservedInOrder := by
    intro reservation hmem
    obtain ⟨hmem, -⟩ := mem_cancelledReservations.mp hmem
    rcases List.mem_pair.mp hmem with rfl | rfl
    · decide +kernel
    · decide +kernel
  exact ⟨db', hm, hiff.mpr hpriors⟩

/-- And here the second reservation has the lower hash: the history reads its release, which
starts at seven, before the one that starts at five. -/
theorem releases_out_of_order :
    ¬ ∀ (now : Int) (db db' : LegacyDB), Keyed db →
      migrate .c reservationDigest now db = .ok db' →
        Reconciled reservationDigest db db' ∧ Chained .c db db' := by
  intro hchained
  have hkeys : Keyed reservedOutOfOrder := twoReservations_keyed (by decide)
  have hok : (migrate .c reservationDigest 10 reservedOutOfOrder).isOk = true := by
    decide +kernel
  obtain ⟨db', hm⟩ := exists_of_isOk hok
  obtain ⟨-, hchain⟩ := hchained 10 reservedOutOfOrder db' hkeys hm
  have hpriors := ((migrate_ok hkeys hm).chained_iff hkeys).mp hchain
  have hfirst : reservedBeans "cmh0rsv0010008l5qz9x4k7w2" 2 1 ∈
      cancelledReservations reservedOutOfOrder :=
    mem_cancelledReservations.mpr ⟨List.mem_cons_self, rfl, _, List.mem_singleton.mpr rfl,
      ⟨rfl, rfl⟩, rfl⟩
  have hprior := hpriors _ hfirst
  exact absurd hprior (by decide +kernel)

end Chain

end Migrations
end ERP
