import ERP.Inventory.Reserving

/-!
# The two reservation classes

`ReservationRepository` and `InventoryReservationService` each have their own
`reserveStock`, `releaseReservation` and `commitReservation`, and callers of both.
Here each stands as it is written, as far as the texts differ; where they are the same
but for the class of the errors, both are the function of `ERP.Inventory.Reservation`.

The repository alone refuses a RETAIL order with an inactive product.
-/

namespace ERP
namespace Inventory

open Lib.Tx

/-! ## The domain object of the repository -/

inductive ReservationStatus where
  | pending | reserved | committed | released | expired | cancelled
  deriving DecidableEq, Repr

structure ReservationAggregate where
  orderId : Id
  tenantId : Id
  outletId : Option Id
  status : ReservationStatus
  deriving DecidableEq, Repr

namespace ReservationAggregate

def create (orderId tenantId : Id) (outletId : Option Id) : ReservationAggregate :=
  ⟨orderId, tenantId, outletId, .pending⟩

/-- `none` where it throws. -/
def reserve (reservation : ReservationAggregate) : Option ReservationAggregate :=
  if reservation.status ≠ .pending then none else some { reservation with status := .reserved }

end ReservationAggregate

namespace Classes

/-- `updateMany` of the reservations read before, where they are still ACTIVE; how many
were. -/
def claimReservations (tenantId : Id) (reservations : List InventoryMovement)
    (f : InventoryMovement → InventoryMovement) : Tx Nat := do
  let db ← get
  let stillActive : InventoryMovement → Bool := fun row =>
    row.id ∈ reservations.map (·.id) ∧ row.tenantId = tenantId ∧
      row.referenceType = some .orderReservation
  set (db.updateMovements stillActive f)
  pure (db.movements.countP stillActive)

/-- The CAFE loop of `buildRequirements`; both classes have it. -/
def cafeRequirements (requirements : List StockRequirement) :
    List (SalesOrderItem × Product) → List StockRequirement
  | [] => requirements
  | orderItem :: rest =>
      match orderItem.2.recipe with
      | none => cafeRequirements requirements rest
      | some recipe =>
          cafeRequirements (recipe.foldl (fun rs recipeItem =>
            addRequirement rs (some recipeItem.inventoryItemId)
              (recipeItem.quantity * orderItem.1.quantity)) requirements) rest

namespace ReservationRepository

/-- The RETAIL loop of `buildRequirements`. -/
def retailRequirements (requirements : List StockRequirement) :
    List (SalesOrderItem × Product) → Tx (List StockRequirement)
  | [] => pure requirements
  | item :: rest =>
      if ¬ item.2.isActive then throw (.productInactive item.2.name)
      else retailRequirements
        (addRequirement requirements item.2.inventoryItemId item.1.quantity) rest

def buildRequirements (businessType : BusinessType) (lines : List (SalesOrderItem × Product)) :
    Tx (List StockRequirement) :=
  match businessType with
  | .retail => retailRequirements [] lines
  | .cafe => pure (cafeRequirements [] lines)
  | _ => pure []

def reserveStock (stamp : Stamp) (orderId tenantId : Id) : Tx Bool := do
  let db ← get
  let order ← expect (findOrder db orderId tenantId) .orderNotFound
  if hasReservation db tenantId orderId then pure true
  else do
    let businessType ← expect (tenantBusinessType db tenantId) .orderNotFound
    let _ ← expect (ReservationAggregate.create order.id tenantId order.outletId).reserve
      .reservationNotPending
    let requirements ← buildRequirements businessType (orderLines db order)
    requirements.forM (reserveRequirement stamp tenantId order)
    pure true

/-- What is given back is booked under the tenant of the reservation. -/
def releaseReservation (stamp : Stamp) (orderId tenantId : Id) : Tx Bool := do
  let db ← get
  let reservations := activeReservations db tenantId orderId
  if reservations = [] then pure false
  else do
    let claimed ← claimReservations tenantId reservations fun row =>
      { row with referenceType := some .orderReservationReleased }
    if claimed = 0 then pure false
    else do
      require (claimed = reservations.length) .reservationAlreadyProcessed
      reservations.forM fun reservation =>
        restoreReservationMovement stamp reservation (some orderId)
      pure true

def commitReservation (stamp : Stamp) (orderId tenantId : Id) : Tx Bool :=
  Inventory.commitReservation stamp orderId tenantId

end ReservationRepository

namespace InventoryReservationService

/-- The RETAIL loop of `buildRequirements`. -/
def retailRequirements (requirements : List StockRequirement) :
    List (SalesOrderItem × Product) → List StockRequirement
  | [] => requirements
  | item :: rest =>
      retailRequirements (addRequirement requirements item.2.inventoryItemId item.1.quantity) rest

def buildRequirements (businessType : BusinessType) (lines : List (SalesOrderItem × Product)) :
    List StockRequirement :=
  match businessType with
  | .retail => retailRequirements [] lines
  | .cafe => cafeRequirements [] lines
  | _ => []

def reserveStock (stamp : Stamp) (orderId tenantId : Id) : Tx Bool := do
  let db ← get
  let order ← expect (findOrder db orderId tenantId) .orderNotFound
  if hasReservation db tenantId orderId then pure true
  else do
    let businessType ← expect (tenantBusinessType db tenantId) .orderNotFound
    (buildRequirements businessType (orderLines db order)).forM
      (reserveRequirement stamp tenantId order)
    pure true

/-- One turn of the loop of `releaseReservationInTransaction`. -/
def restoreReservation (stamp : Stamp) (orderId tenantId : Id) (reservation : InventoryMovement) :
    Tx Unit := do
  let warehouseId ← expect reservation.warehouseId .reservationHasNoWarehouse
  let db ← get
  let costAllocationCount := (db.allocationsOf reservation.id).length
  (if 0 < costAllocationCount then do
    let _ ← lockItem tenantId reservation.inventoryItemId
    pure ()
  else pure ())
  let db ← get
  let stock := db.stockAt (some warehouseId) reservation.inventoryItemId
  let beforeQuantity := (stock.map (·.quantity)).getD 0
  let _ ← upsertStock (some warehouseId) reservation.inventoryItemId reservation.quantity
  let movementId ← createMovement fun id =>
    { id, tenantId, type := .return,
      quantity := reservation.quantity, beforeQuantity := some beforeQuantity,
      afterQuantity := some (beforeQuantity + reservation.quantity),
      inventoryItemId := reservation.inventoryItemId, referenceId := some orderId,
      referenceType := some .orderReservationRelease, warehouseId := some warehouseId,
      unitCost := none, totalCost := none }
  if 0 < costAllocationCount then
    restore stamp
      { tenantId, inventoryItemId := reservation.inventoryItemId,
        warehouseId := some warehouseId, quantity := reservation.quantity,
        sourceMovementId := reservation.id, reversalMovementId := movementId }
  else pure ()

/-- What is given back is booked under the tenant of the call. -/
def releaseReservation (stamp : Stamp) (orderId tenantId : Id) : Tx Bool := do
  let db ← get
  let reservations := activeReservations db tenantId orderId
  if reservations = [] then pure false
  else do
    let claimed ← claimReservations tenantId reservations fun row =>
      { row with referenceType := some .orderReservationReleased }
    if claimed = 0 then pure false
    else do
      require (claimed = reservations.length) .reservationAlreadyProcessed
      reservations.forM (restoreReservation stamp orderId tenantId)
      pure true

def commitReservation (stamp : Stamp) (orderId tenantId : Id) : Tx Bool :=
  Inventory.commitReservation stamp orderId tenantId

end InventoryReservationService

end Classes

/-! ## Calls of either class -/

inductive ReservationClass where
  | repository | service
  deriving DecidableEq, Repr

inductive ReservationCall where
  | reserve (orderId tenantId : Id)
  | release (orderId tenantId : Id)
  | commit (orderId tenantId : Id)
  deriving DecidableEq, Repr

def ReservationCall.body (stamp : Stamp) (c : ReservationClass) : ReservationCall → Tx Bool
  | .reserve orderId tenantId =>
      match c with
      | .repository => Classes.ReservationRepository.reserveStock stamp orderId tenantId
      | .service => Classes.InventoryReservationService.reserveStock stamp orderId tenantId
  | .release orderId tenantId =>
      match c with
      | .repository => Classes.ReservationRepository.releaseReservation stamp orderId tenantId
      | .service => Classes.InventoryReservationService.releaseReservation stamp orderId tenantId
  | .commit orderId tenantId =>
      match c with
      | .repository => Classes.ReservationRepository.commitReservation stamp orderId tenantId
      | .service => Classes.InventoryReservationService.commitReservation stamp orderId tenantId

/-- What a call answers, `none` when it fails, and the database it leaves. -/
def outcome (m : Tx Bool) (db : DB) : Option Bool × DB :=
  match m db with
  | .ok (answer, db') => (some answer, db')
  | .error _ => (none, db)

/-- Calls one after the other, each of the class that is given with it. -/
def runReservations (stamp : Stamp) (db : DB) :
    List (ReservationClass × ReservationCall) → List (Option Bool) × DB
  | [] => ([], db)
  | (c, call) :: rest =>
      let done := outcome (call.body stamp c) db
      let others := runReservations stamp done.2 rest
      (done.1 :: others.1, others.2)

/-- The service reserves and the repository refuses: the order is not reserved yet, it is
one of a RETAIL tenant with an inactive product, and there is stock for all of it. -/
def ReservesInactive (db : DB) : ReservationCall → Prop
  | .reserve orderId tenantId => ∃ order, findOrder db orderId tenantId = some order ∧
      hasReservation db tenantId orderId = false ∧
      tenantBusinessType db tenantId = some .retail ∧
      (∃ line ∈ orderLines db order, line.2.isActive = false) ∧
      ∀ i, needed .retail (orderLines db order) i ≤
        eligibleQuantity db tenantId order.outletId i
  | _ => False

/-! ## Where the texts agree -/

section Texts

variable {stamp : Stamp} {db : DB} {orderId tenantId : Id}

theorem get_bind {α : Type} (f : DB → Tx α) (db : DB) : (get >>= f) db = f db db := rfl

theorem expect_bind {α β : Type} (a : α) (e : Failure) (f : α → Tx β) (db : DB) :
    (expect (some a) e >>= f) db = f a db := rfl

theorem forM_congr {α : Type} {f g : α → Tx Unit} {xs : List α} (h : ∀ x ∈ xs, f x = g x) :
    xs.forM f = xs.forM g := by
  induction xs with
  | nil => rfl
  | cons x xs ih =>
      show forM (x :: xs) f = forM (x :: xs) g
      rw [List.forM_cons, List.forM_cons, h x List.mem_cons_self]
      exact congrArg _ (funext fun _ => ih fun y hy => h y (List.mem_cons_of_mem x hy))

/-- The tenant of a reservation that was found for a tenant is that tenant. -/
theorem releaseReservation_agrees (stamp : Stamp) (orderId tenantId : Id) :
    Classes.ReservationRepository.releaseReservation stamp orderId tenantId =
      Classes.InventoryReservationService.releaseReservation stamp orderId tenantId := by
  have hloop (db : DB) : ((activeReservations db tenantId orderId).forM fun reservation =>
      restoreReservationMovement stamp reservation (some orderId)) =
        (activeReservations db tenantId orderId).forM
          (Classes.InventoryReservationService.restoreReservation stamp orderId tenantId) := by
    refine forM_congr fun reservation hmem => ?_
    obtain ⟨htenant, -⟩ := of_decide_eq_true (List.mem_filter.mp hmem).2
    rw [← htenant]
    rfl
  unfold Classes.ReservationRepository.releaseReservation
    Classes.InventoryReservationService.releaseReservation
  simp only [hloop]

theorem service_buildRequirements (businessType : BusinessType)
    (lines : List (SalesOrderItem × Product)) :
    Classes.InventoryReservationService.buildRequirements businessType lines =
      buildRequirements businessType lines := by
  have hretail (rs : List StockRequirement) (lines : List (SalesOrderItem × Product)) :
      Classes.InventoryReservationService.retailRequirements rs lines =
        (demands .retail lines).foldl (fun rs d => addRequirement rs d.1 d.2) rs := by
    induction lines generalizing rs with
    | nil => rfl
    | cons item rest ih => exact ih _
  have hcafe (rs : List StockRequirement) (lines : List (SalesOrderItem × Product)) :
      Classes.cafeRequirements rs lines =
        (demands .cafe lines).foldl (fun rs d => addRequirement rs d.1 d.2) rs := by
    induction lines generalizing rs with
    | nil => rfl
    | cons orderItem rest ih =>
        have hdemands : demands .cafe (orderItem :: rest) =
            ((orderItem.2.recipe.getD []).map fun recipeItem =>
              (some recipeItem.inventoryItemId,
                (recipeItem.quantity * orderItem.1.quantity : ℚ))) ++ demands .cafe rest := rfl
        unfold Classes.cafeRequirements
        rw [hdemands, List.foldl_append]
        cases hrecipe : orderItem.2.recipe with
        | none => exact ih rs
        | some recipe =>
            dsimp only
            rw [ih, Option.getD_some, List.foldl_map]
  unfold Classes.InventoryReservationService.buildRequirements buildRequirements
  cases businessType with
  | retail => exact hretail [] lines
  | cafe => exact hcafe [] lines
  | _ => rfl

theorem service_reserveStock (stamp : Stamp) (orderId tenantId : Id) :
    Classes.InventoryReservationService.reserveStock stamp orderId tenantId =
      ReservationService.reserveStock stamp orderId tenantId := by
  unfold Classes.InventoryReservationService.reserveStock ReservationService.reserveStock
    reserveStockWith
  simp only [service_buildRequirements]
  rfl

/-- The loop of the repository stops at an inactive product, and is the one of the service
when there is none. -/
theorem repository_retailRequirements (rs : List StockRequirement)
    (lines : List (SalesOrderItem × Product)) :
    ((∃ line ∈ lines, line.2.isActive = false) ∧
        ∃ name, Classes.ReservationRepository.retailRequirements rs lines =
          throw (.productInactive name)) ∨
      (∀ line ∈ lines, line.2.isActive = true) ∧
        Classes.ReservationRepository.retailRequirements rs lines =
          pure (Classes.InventoryReservationService.retailRequirements rs lines) := by
  induction lines generalizing rs with
  | nil => exact .inr ⟨fun line hline => absurd hline List.not_mem_nil, rfl⟩
  | cons item rest ih =>
      unfold Classes.ReservationRepository.retailRequirements
        Classes.InventoryReservationService.retailRequirements
      by_cases hactive : item.2.isActive = true
      · rw [if_neg (not_not.mpr hactive)]
        rcases ih (addRequirement rs item.2.inventoryItemId item.1.quantity) with
          ⟨⟨line, hline, hinactive⟩, hthrow⟩ | ⟨hall, hsame⟩
        · exact .inl ⟨⟨line, List.mem_cons_of_mem item hline, hinactive⟩, hthrow⟩
        · refine .inr ⟨fun line hline => ?_, hsame⟩
          rcases List.mem_cons.mp hline with rfl | hline
          · exact hactive
          · exact hall line hline
      · rw [if_pos hactive]
        exact .inl ⟨⟨item, List.mem_cons_self, Bool.eq_false_of_not_eq_true hactive⟩, _, rfl⟩

/-- The two do the same, or the repository refuses an order that is not reserved yet for
an inactive product. -/
theorem reserveStock_cases (stamp : Stamp) (orderId tenantId : Id) (db : DB) :
    Classes.ReservationRepository.reserveStock stamp orderId tenantId db =
        Classes.InventoryReservationService.reserveStock stamp orderId tenantId db ∨
      ∃ order, findOrder db orderId tenantId = some order ∧
        hasReservation db tenantId orderId = false ∧
        tenantBusinessType db tenantId = some .retail ∧
        (∃ line ∈ orderLines db order, line.2.isActive = false) ∧
        ∃ e, Classes.ReservationRepository.reserveStock stamp orderId tenantId db = .error e := by
  unfold Classes.ReservationRepository.reserveStock
    Classes.InventoryReservationService.reserveStock
  rw [get_bind, get_bind]
  cases horder : findOrder db orderId tenantId with
  | none => exact .inl rfl
  | some order =>
      rw [expect_bind, expect_bind]
      by_cases hheld : hasReservation db tenantId orderId = true
      · rw [if_pos hheld, if_pos hheld]
        exact .inl rfl
      rw [if_neg hheld, if_neg hheld]
      cases hbusiness : tenantBusinessType db tenantId with
      | none => exact .inl rfl
      | some businessType =>
          rw [expect_bind, expect_bind]
          have hpending : (ReservationAggregate.create order.id tenantId order.outletId).reserve =
              some ⟨order.id, tenantId, order.outletId, .reserved⟩ := rfl
          rw [hpending, expect_bind]
          cases businessType with
          | retail =>
              rcases repository_retailRequirements [] (orderLines db order) with
                ⟨hinactive, name, hthrow⟩ | ⟨-, hsame⟩
              · refine .inr ⟨order, rfl, Bool.eq_false_of_not_eq_true hheld, rfl, hinactive,
                  .productInactive name, ?_⟩
                show (Classes.ReservationRepository.retailRequirements [] (orderLines db order) >>=
                  _) db = _
                rw [hthrow]
                rfl
              · left
                show (Classes.ReservationRepository.retailRequirements [] (orderLines db order) >>=
                  _) db = _
                rw [hsame]
                rfl
          | _ => exact .inl rfl

end Texts

/-! ## What a reservation that succeeds has found -/

section Shrinking

variable {stamp : Stamp} {db db' db'' : DB} {orderId tenantId i : Id} {outletId : Option Id}

/-- The same stock rows, none with more. -/
structure Shrunk (db db' : DB) : Prop where
  items : db'.items = db.items
  warehouses : db'.warehouses = db.warehouses
  stocks : List.Forall₂ (fun row row' : InventoryStock =>
    row'.inventoryItemId = row.inventoryItemId ∧ row'.warehouseId = row.warehouseId ∧
      row'.quantity ≤ row.quantity) db.stocks db'.stocks

theorem Shrunk.refl (db : DB) : Shrunk db db :=
  ⟨rfl, rfl, List.forall₂_same.mpr fun _ _ => ⟨rfl, rfl, le_refl _⟩⟩

theorem Shrunk.trans (h : Shrunk db db') (h' : Shrunk db' db'') : Shrunk db db'' where
  items := h'.items.trans h.items
  warehouses := h'.warehouses.trans h.warehouses
  stocks := by
    have htrans : ∀ {xs ys zs : List InventoryStock},
        List.Forall₂ (fun row row' : InventoryStock =>
          row'.inventoryItemId = row.inventoryItemId ∧ row'.warehouseId = row.warehouseId ∧
            row'.quantity ≤ row.quantity) xs ys →
        List.Forall₂ (fun row row' : InventoryStock =>
          row'.inventoryItemId = row.inventoryItemId ∧ row'.warehouseId = row.warehouseId ∧
            row'.quantity ≤ row.quantity) ys zs →
        List.Forall₂ (fun row row' : InventoryStock =>
          row'.inventoryItemId = row.inventoryItemId ∧ row'.warehouseId = row.warehouseId ∧
            row'.quantity ≤ row.quantity) xs zs := by
      intro xs ys zs hxy hyz
      induction hxy generalizing zs with
      | nil => exact hyz
      | cons hrow _ ih =>
          cases hyz with
          | cons hrow' hrest =>
              refine .cons ⟨hrow'.1.trans hrow.1, hrow'.2.1.trans hrow.2.1, ?_⟩ (ih hrest)
              exact hrow'.2.2.trans hrow.2.2
    exact htrans h.stocks h'.stocks

theorem Shrunk.eligible (h : Shrunk db db') {row row' : InventoryStock}
    (hitem : row'.inventoryItemId = row.inventoryItemId)
    (hwarehouse : row'.warehouseId = row.warehouseId) :
    Eligible db' tenantId outletId row' ↔ Eligible db tenantId outletId row := by
  unfold Eligible
  rw [h.items, h.warehouses, hitem, hwarehouse]

theorem Shrunk.eligibleQuantity_le (h : Shrunk db db') :
    eligibleQuantity db' tenantId outletId i ≤ eligibleQuantity db tenantId outletId i := by
  unfold eligibleQuantity
  rw [Lib.sum_filter_eq, Lib.sum_filter_eq]
  refine List.Forall₂.sum_le_sum ?_
  rw [List.forall₂_map_left_iff, List.forall₂_map_right_iff]
  refine h.stocks.flip.imp fun row' row hrow => ?_
  obtain ⟨hitem, hwarehouse, hle⟩ := hrow
  have hsame : Eligible db' tenantId outletId row' ↔ Eligible db tenantId outletId row :=
    h.eligible hitem hwarehouse
  by_cases hdrawn : row.inventoryItemId = i ∧ Eligible db tenantId outletId row
  · rw [if_pos hdrawn, if_pos ⟨hitem.trans hdrawn.1, hsame.mpr hdrawn.2⟩]
    exact max_le_max hle (le_refl 0)
  · rw [if_neg hdrawn, if_neg fun h => hdrawn ⟨hitem.symm.trans h.1, hsame.mp h.2⟩]

theorem decrementStocks_shrunk {p : InventoryStock → Bool} {q : ℚ} (hq : 0 ≤ q) :
    Post (decrementStocks p q) db (fun _ db' => Shrunk db db') fun _ => True := by
  unfold decrementStocks
  simp only [post_bind, post_get, post_set, post_pure]
  refine ⟨rfl, rfl, List.forall₂_map_right_iff.mpr (List.forall₂_same.mpr fun row _ => ?_)⟩
  by_cases hp : p row = true
  · rw [if_pos hp]
    exact ⟨rfl, rfl, sub_le_self _ hq⟩
  · rw [if_neg hp]
    exact ⟨rfl, rfl, le_refl _⟩

/-- No more is taken than the rows had when they were read. -/
theorem reserveRows_shrunk {rows : List InventoryStock} (hpos : ∀ row ∈ rows, 0 < row.quantity)
    {remaining : ℚ} :
    Post (reserveRows tenantId orderId i rows remaining) db
      (fun missing db' => remaining ≤ missing + (rows.map (·.quantity)).sum ∧ Shrunk db db')
      fun _ => True := by
  induction rows generalizing db remaining with
  | nil =>
      refine ⟨?_, .refl db⟩
      rw [List.map_nil, List.sum_nil, add_zero]
  | cons stock rest ih =>
      have hstock := hpos stock List.mem_cons_self
      have hrest : ∀ row ∈ rest, 0 < row.quantity := fun row hrow =>
        hpos row (List.mem_cons_of_mem stock hrow)
      unfold reserveRows
      rw [List.map_cons, List.sum_cons]
      by_cases hdone : remaining ≤ 0
      · rw [if_pos hdone]
        have hsum : 0 ≤ (rest.map (·.quantity)).sum := List.sum_nonneg fun q hq => by
          obtain ⟨row, hrow, rfl⟩ := List.mem_map.mp hq
          exact (hrest row hrow).le
        exact ⟨by linarith, .refl db⟩
      · rw [if_neg hdone]
        have htaken : 0 ≤ min stock.quantity remaining := le_min hstock.le (not_le.mp hdone).le
        simp only [post_bind, post_get]
        refine (decrementStocks_shrunk htaken).mono (fun updated db₁ hshrunk => ?_)
          fun _ _ => trivial
        rw [post_require]
        refine ⟨fun _ => createMovement_post ?_, fun _ => trivial⟩
        refine (ih hrest).mono (fun missing db₂ hmore => ?_) fun _ _ => trivial
        obtain ⟨hle, hshrunk'⟩ := hmore
        have hmin := min_le_left stock.quantity remaining
        refine ⟨by linarith, hshrunk.trans ?_⟩
        exact ⟨hshrunk'.items, hshrunk'.warehouses, hshrunk'.stocks⟩

theorem reserveRequirement_covered {order : SalesOrder} {r : StockRequirement} :
    Post (reserveRequirement stamp tenantId order r) db
      (fun _ db' => r.quantity ≤ eligibleQuantity db tenantId order.outletId r.inventoryItemId ∧
        Shrunk db db') fun _ => True := by
  unfold reserveRequirement
  simp only [post_bind, post_get]
  rw [post_expect]
  refine ⟨fun _ _ => ?_, fun _ => trivial⟩
  refine (reserveRows_shrunk reservableStocks_pos).mono (fun missing db' hrows => ?_)
    fun _ _ => trivial
  rw [post_require]
  refine ⟨fun hnone => ?_, fun _ => trivial⟩
  obtain ⟨hle, hshrunk⟩ := hrows
  rw [reservableStocks_sum] at hle
  exact ⟨by linarith [not_lt.mp hnone], hshrunk⟩

/-- Requirements that were all met were covered before the first of them was. -/
theorem reserveAll_covered {order : SalesOrder} {rs : List StockRequirement} :
    Post (rs.forM (reserveRequirement stamp tenantId order)) db
      (fun _ db' => (∀ r ∈ rs,
        r.quantity ≤ eligibleQuantity db tenantId order.outletId r.inventoryItemId) ∧
        Shrunk db db') fun _ => True := by
  induction rs generalizing db with
  | nil => exact ⟨fun r hr => absurd hr List.not_mem_nil, .refl db⟩
  | cons r rest ih =>
      rw [List.forM_eq_forM, List.forM_cons, post_bind]
      refine reserveRequirement_covered.mono (fun _ db₁ hfirst => ?_) fun _ h => h
      obtain ⟨hcovered, hshrunk⟩ := hfirst
      refine ih.mono (fun _ db₂ hothers => ?_) fun _ h => h
      obtain ⟨hall, hshrunk'⟩ := hothers
      refine ⟨fun r' hr' => ?_, hshrunk.trans hshrunk'⟩
      rcases List.mem_cons.mp hr' with rfl | hr'
      · exact hcovered
      · exact (hall r' hr').trans hshrunk.eligibleQuantity_le

/-- The service reserves an order only where there is stock for all of it. -/
theorem service_reserveStock_covered {order : SalesOrder} {businessType : BusinessType}
    (horder : findOrder db orderId tenantId = some order)
    (hbusiness : tenantBusinessType db tenantId = some businessType)
    (hnone : hasReservation db tenantId orderId = false) :
    Post (Classes.InventoryReservationService.reserveStock stamp orderId tenantId) db
      (fun _ _ => ∀ i, needed businessType (orderLines db order) i ≤
        eligibleQuantity db tenantId order.outletId i) fun _ => True := by
  obtain ⟨hmerged, hrequired⟩ := buildRequirements_spec businessType (orderLines db order)
  unfold Classes.InventoryReservationService.reserveStock
  simp only [post_bind, post_get, horder, hbusiness, hnone]
  rw [post_expect]
  refine ⟨fun found hfound => ?_, fun _ => trivial⟩
  cases hfound
  rw [if_neg Bool.false_ne_true, post_bind, post_expect]
  refine ⟨fun found hfound => ?_, fun _ => trivial⟩
  cases hfound
  rw [post_bind, service_buildRequirements]
  refine reserveAll_covered.mono (fun _ _ hdone i => ?_) fun _ h => h
  rw [← hrequired]
  exact (covered_iff hmerged).mp hdone.1 i

end Shrinking

/-! ## Where they agree -/

section Agreement

variable {db : DB}

theorem agrees_of_not_reservesInactive (stamp : Stamp) {call : ReservationCall}
    (h : ¬ ReservesInactive db call) :
    outcome (call.body stamp .repository) db = outcome (call.body stamp .service) db := by
  cases call with
  | release orderId tenantId =>
      exact congrArg (fun m => outcome m db) (releaseReservation_agrees stamp orderId tenantId)
  | commit orderId tenantId => rfl
  | reserve orderId tenantId =>
      rcases reserveStock_cases stamp orderId tenantId db with hsame |
        ⟨order, horder, hnone, hbusiness, hinactive, e, hrefused⟩
      · show outcome (Classes.ReservationRepository.reserveStock stamp orderId tenantId) db =
          outcome (Classes.InventoryReservationService.reserveStock stamp orderId tenantId) db
        unfold outcome
        rw [hsame]
      · show outcome (Classes.ReservationRepository.reserveStock stamp orderId tenantId) db =
          outcome (Classes.InventoryReservationService.reserveStock stamp orderId tenantId) db
        unfold outcome
        rw [hrefused]
        cases hservice : Classes.InventoryReservationService.reserveStock stamp orderId tenantId db
          with
        | error e' => rfl
        | ok reserved =>
            -- the service has found stock for all of it
            have hcovered := (service_reserveStock_covered horder hbusiness hnone).of_ok hservice
            exact absurd ⟨order, horder, hnone, hbusiness, hinactive, hcovered⟩ h

theorem differs_of_reservesInactive (stamp : Stamp) {call : ReservationCall} (hids : StockIds db)
    (h : ReservesInactive db call) :
    (outcome (call.body stamp .repository) db).1 = none ∧
      (outcome (call.body stamp .service) db).1 = some true := by
  cases call with
  | release orderId tenantId => exact False.elim h
  | commit orderId tenantId => exact False.elim h
  | reserve orderId tenantId =>
      obtain ⟨order, horder, hnone, hbusiness, ⟨line, hline, hinactive⟩, hcovered⟩ := h
      constructor
      · have hrefused : ∃ name,
            Classes.ReservationRepository.retailRequirements [] (orderLines db order) =
              throw (.productInactive name) := by
          rcases repository_retailRequirements [] (orderLines db order) with
            ⟨-, hthrow⟩ | ⟨hactive, -⟩
          · exact hthrow
          · exact absurd (hactive line hline) (ne_true_of_eq_false hinactive)
        obtain ⟨name, hthrow⟩ := hrefused
        have herror : Classes.ReservationRepository.reserveStock stamp orderId tenantId db =
            .error (.productInactive name) := by
          refine Post.eq_error ?_
          unfold Classes.ReservationRepository.reserveStock
            Classes.ReservationRepository.buildRequirements
          simp only [post_bind, post_get, horder, hbusiness, hnone]
          rw [post_expect]
          refine ⟨fun found hfound => ?_, fun h => absurd h (Option.some_ne_none order)⟩
          cases hfound
          rw [if_neg Bool.false_ne_true, post_bind, post_expect]
          refine ⟨fun found hfound => ?_, fun h =>
            absurd h (Option.some_ne_none BusinessType.retail)⟩
          cases hfound
          rw [post_bind, post_expect]
          refine ⟨fun _ _ => ?_, fun h => absurd h (Option.some_ne_none _)⟩
          rw [post_bind, hthrow]
          exact rfl
        show (outcome (Classes.ReservationRepository.reserveStock stamp orderId tenantId) db).1 = _
        unfold outcome
        rw [herror]
      · have hpost := reserveStock_post stamp hids horder hbusiness hnone
        obtain ⟨reserved, db', hok, rfl, -⟩ :=
          (hpost.mono (fun _ _ h => h) fun e hnot => hnot hcovered).exists_ok
        show (outcome (Classes.InventoryReservationService.reserveStock stamp orderId tenantId)
          db).1
          = _
        unfold outcome
        rw [service_reserveStock, hok]

/-- The two classes give the same answer and the same database, call by call, if and only if
the call does not reserve an order with an inactive product; and whatever class is chosen
for each call, a run in which no call does so is the same run. -/
theorem reservation_classes_agree_iff (stamp : Stamp) :
    (∀ db, StockIds db → ∀ call : ReservationCall,
      (outcome (call.body stamp .repository) db = outcome (call.body stamp .service) db ↔
        ¬ ReservesInactive db call)) ∧
    ∀ db (chosen chosen' : List (ReservationClass × ReservationCall)),
      (∀ prior c call rest, chosen = prior ++ (c, call) :: rest →
        ¬ ReservesInactive (runReservations stamp db prior).2 call) →
      chosen'.map Prod.snd = chosen.map Prod.snd →
      runReservations stamp db chosen' = runReservations stamp db chosen := by
  refine ⟨fun db hids call => ⟨fun hsame hinactive => ?_, agrees_of_not_reservesInactive stamp⟩, ?_⟩
  · obtain ⟨hrefused, hreserved⟩ := differs_of_reservesInactive stamp hids hinactive
    rw [hsame, hreserved] at hrefused
    exact Option.some_ne_none true hrefused
  intro db chosen
  induction chosen generalizing db with
  | nil =>
      intro chosen' _ hcalls
      rw [List.map_eq_nil_iff.mp hcalls]
  | cons first rest ih =>
      intro chosen' hactive hcalls
      obtain ⟨c, call⟩ := first
      cases chosen' with
      | nil => exact absurd hcalls.symm (List.cons_ne_nil _ _)
      | cons first' rest' =>
          obtain ⟨c', call'⟩ := first'
          obtain ⟨hcall, hrest⟩ := List.cons.inj hcalls
          have hcall' : call' = call := hcall
          subst hcall'
          have hagree := agrees_of_not_reservesInactive stamp
            (hactive [] c call' rest rfl)
          have hfirst : outcome (call'.body stamp c') db = outcome (call'.body stamp c) db := by
            cases c with
            | repository =>
                cases c' with
                | repository => rfl
                | service => exact hagree.symm
            | service =>
                cases c' with
                | repository => exact hagree
                | service => rfl
          have hothers := ih (outcome (call'.body stamp c) db).2 rest'
            (fun prior c₁ call₁ rest₁ hsplit =>
              hactive ((c, call') :: prior) c₁ call₁ rest₁ (congrArg _ hsplit)) hrest
          show ((outcome (call'.body stamp c') db).1 ::
              (runReservations stamp (outcome (call'.body stamp c') db).2 rest').1,
            (runReservations stamp (outcome (call'.body stamp c') db).2 rest').2) = _
          rw [hfirst, hothers]
          rfl

/-- The repository reserves the beans, and the service charges them. -/
theorem reservation_classes_agree_iff_beans :
    outcome ((ReservationCall.reserve 8 1).body .sequential .repository) beansOrdered =
        outcome ((ReservationCall.reserve 8 1).body .sequential .service) beansOrdered ∧
      runReservations .sequential beansOrdered
          [(.service, .reserve 8 1), (.repository, .commit 8 1)] =
        runReservations .sequential beansOrdered
          [(.repository, .reserve 8 1), (.service, .commit 8 1)] := by
  have hids : StockIds beansOrdered := List.pairwise_pair.mpr (by decide)
  have hactive : ¬ ReservesInactive beansOrdered (.reserve 8 1) := by
    rintro ⟨order, horder, -, -, ⟨line, hline, hinactive⟩, -⟩
    have hbeans : order = beansTwice := (Option.some.inj horder).symm
    subst hbeans
    have hall : ∀ line ∈ orderLines beansOrdered beansTwice, line.2.isActive = true := by decide
    rw [hall line hline] at hinactive
    exact Bool.noConfusion hinactive
  obtain ⟨hcall, hrun⟩ := reservation_classes_agree_iff .sequential
  refine ⟨(hcall beansOrdered hids (.reserve 8 1)).mpr hactive, ?_⟩
  refine hrun beansOrdered _ _ (fun prior c call rest hsplit => ?_) rfl
  cases prior with
  | nil =>
      obtain ⟨hfirst, -⟩ := List.cons.inj hsplit
      cases hfirst
      exact hactive
  | cons first prior =>
      cases prior with
      | nil =>
          obtain ⟨-, hsecond⟩ := List.cons.inj hsplit
          obtain ⟨hsecond, -⟩ := List.cons.inj hsecond
          cases hsecond
          exact id
      | cons second prior =>
          have hlength := congrArg List.length hsplit
          simp only [List.length_cons, List.length_append, List.length_nil] at hlength
          omega

/-- The beans are no longer sold. -/
def beansRetired : DB :=
  { beansOrdered with products := [⟨7, "Beans", false, some 5, none⟩] }

theorem reservation_classes_disagree :
    ¬ ∀ (stamp : Stamp) (db : DB) (call : ReservationCall), StockIds db →
      outcome (call.body stamp .repository) db = outcome (call.body stamp .service) db := by
  intro hagree
  have hids : StockIds beansRetired := List.pairwise_pair.mpr (by decide)
  have hsame := congrArg Prod.fst (hagree .sequential beansRetired (.reserve 8 1) hids)
  have hrefused :
      (outcome ((ReservationCall.reserve 8 1).body .sequential .repository) beansRetired).1 =
        none := by decide +kernel
  have hreserved :
      (outcome ((ReservationCall.reserve 8 1).body .sequential .service) beansRetired).1 =
        some true := by decide +kernel
  rw [hrefused, hreserved] at hsame
  exact Option.some_ne_none true hsame.symm

end Agreement

end Inventory
end ERP
